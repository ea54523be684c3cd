import DynamicAmm.Client.LockEscrow
import DynamicAmm.Proof.Client.CreateConfig
import DynamicAmm.Proof.Client.Liquidity

/-!
# The fee shown for locked liquidity

The fee is capped by what the escrow holds, and nothing keeps it from below. A virtual price that fell
since the last settlement makes it negative, unless the pending fee covers the loss.
-/

namespace DynamicAmm.Client

open Js
open Program (Bytes Pubkey)

/-! ### The fee -/

/-- The pending fee makes up for what the locked LP lost in value. -/
def LockEscrowAccount.CoversLoss (account : LockEscrowAccount) (currentVirtualPrice : Int) : Prop :=
  0 < currentVirtualPrice →
    account.totalLockedAmount * account.lpPerToken <
      (account.totalLockedAmount + account.unclaimedFeePending + 1) * currentVirtualPrice

/-- The amounts of a lock escrow account, which are unsigned. -/
structure LockEscrowAccount.Unsigned (account : LockEscrowAccount) : Prop where
  totalLockedAmount : 0 ≤ account.totalLockedAmount
  lpPerToken : 0 ≤ account.lpPerToken
  unclaimedFeePending : 0 ≤ account.unclaimedFeePending

variable {account : LockEscrowAccount}

theorem newFee_nonneg_iff (h : account.Unsigned) {currentVirtualPrice : Int} (hne : currentVirtualPrice ≠ 0) :
    0 ≤ (account.totalLockedAmount * (currentVirtualPrice - account.lpPerToken)).tdiv currentVirtualPrice +
        account.unclaimedFeePending ↔ account.CoversLoss currentVirtualPrice := by
  have hpending := h.unclaimedFeePending
  have hlocked := h.totalLockedAmount
  have hsplit : account.totalLockedAmount * (currentVirtualPrice - account.lpPerToken) =
      account.totalLockedAmount * currentVirtualPrice - account.totalLockedAmount * account.lpPerToken :=
    Int.mul_sub _ _ _
  rcases lt_or_gt_of_ne hne with hneg | hpos
  · -- A negative price does not arise, and would make every fee a gain.
    have hgain : account.totalLockedAmount * (currentVirtualPrice - account.lpPerToken) ≤ 0 :=
      mul_nonpos_of_nonneg_of_nonpos hlocked (by have := h.lpPerToken; omega)
    apply iff_of_true
    · have := Int.tdiv_nonneg_of_nonpos_of_nonpos hgain hneg.le
      omega
    · intro hpos
      omega
  · rw [LockEscrowAccount.CoversLoss, imp_iff_right hpos]
    have hright : (account.totalLockedAmount + account.unclaimedFeePending + 1) * currentVirtualPrice =
        account.totalLockedAmount * currentVirtualPrice +
          (account.unclaimedFeePending + 1) * currentVirtualPrice := by ring
    rw [hright]
    rcases le_or_gt 0 (account.totalLockedAmount * (currentVirtualPrice - account.lpPerToken)) with hgain | hloss
    · have hfee := Int.tdiv_nonneg hgain hpos.le
      have hcover : 0 < (account.unclaimedFeePending + 1) * currentVirtualPrice := by positivity
      apply iff_of_true <;> omega
    · -- The quotient of a loss is rounded up.
      obtain ⟨loss, hloss'⟩ : ∃ loss,
          account.totalLockedAmount * (currentVirtualPrice - account.lpPerToken) = -loss := ⟨_, (neg_neg _).symm⟩
      rw [hloss', Int.neg_tdiv, Int.tdiv_eq_ediv_of_nonneg (by omega)]
      have hcover : loss / currentVirtualPrice < account.unclaimedFeePending + 1 ↔
          loss < (account.unclaimedFeePending + 1) * currentVirtualPrice := Int.ediv_lt_iff_lt_mul hpos
      omega

/-! ### What is shown -/

/-- A claimable fee between zero and what the escrow holds, for amounts between zero and the pool's. -/
def LockEscrow.Within (escrow : LockEscrow) (escrowVaultAmount : Int) (poolInfo : PoolInformation) : Prop :=
  (∃ lp, escrow.fee.unClaimed.lp = some lp ∧ 0 ≤ lp ∧ lp ≤ escrowVaultAmount) ∧
    (0 ≤ escrow.fee.unClaimed.tokenA ∧ escrow.fee.unClaimed.tokenA ≤ poolInfo.tokenAAmount) ∧
    0 ≤ escrow.fee.unClaimed.tokenB ∧ escrow.fee.unClaimed.tokenB ≤ poolInfo.tokenBAmount

variable {sdk : VaultSdk} {amm : AmmImpl} {wA wB : Int} (decoders : StakeDecoders) (toFixed : ℚ → Int)
  {findProgramAddressSync : List Bytes → Pubkey → Pubkey} {network : LockEscrowNetwork}
  {address programId owner lockEscrow : Pubkey} {escrowVaultAmount : Int}

/-- A fee is computed for every price. -/
theorem exists_unclaimedFee (h : account.Unsigned) (currentVirtualPrice : Int) :
    ∃ fee, calculateUnclaimedLockEscrowFee account.totalLockedAmount account.lpPerToken
        account.unclaimedFeePending currentVirtualPrice = .ok fee ∧
      (0 ≤ fee ↔ account.CoversLoss currentVirtualPrice) := by
  by_cases hzero : currentVirtualPrice = 0
  · refine ⟨0, by rw [calculateUnclaimedLockEscrowFee, if_pos hzero]; rfl, ?_⟩
    rw [LockEscrowAccount.CoversLoss]
    omega
  · refine ⟨_, ?_, newFee_nonneg_iff h hzero⟩
    rw [calculateUnclaimedLockEscrowFee, if_neg hzero, BN.div, if_neg hzero]
    rfl

/-- The escrow is shown with the capped fee and what `getWithdrawQuote` makes of it. -/
theorem getUserLockEscrow_eq_ok {fee : Int}
    (hpda : deriveLockEscrowPda findProgramAddressSync address owner programId = .ok lockEscrow)
    (haccount : network.fetchNullable lockEscrow = some account)
    (hvault : network.getTokenAccountBalance account.escrowVault = .ok escrowVaultAmount)
    (hfee : calculateUnclaimedLockEscrowFee account.totalLockedAmount account.lpPerToken
      account.unclaimedFeePending amm.poolInfo.virtualPriceRaw = .ok fee)
    {poolState poolState' : PoolState} {escrow : LockEscrow} :
    amm.getUserLockEscrow findProgramAddressSync sdk decoders toFixed network address programId owner
        poolState = (.ok (some escrow), poolState') ↔
      ∃ quote, amm.getWithdrawQuote sdk decoders toFixed (min fee escrowVaultAmount) noSlippage none poolState =
          (.ok quote, poolState') ∧
        escrow = ⟨lockEscrow, account.totalLockedAmount, ⟨none, account.aFee, account.bFee⟩,
          ⟨some (min fee escrowVaultAmount), quote.tokenAOutAmount, quote.tokenBOutAmount⟩⟩ := by
  have hcap : (if fee > escrowVaultAmount then escrowVaultAmount else fee) = min fee escrowVaultAmount := by
    omega
  rw [AmmImpl.getUserLockEscrow]
  simp only [Call.bind_apply, Call.lift_apply, hpda, haccount, hvault, hfee, hcap]
  rcases amm.getWithdrawQuote sdk decoders toFixed (min fee escrowVaultAmount) noSlippage none poolState with
    ⟨_ | quote, poolState''⟩
  · simp
  · simp only [Call.pure_apply, Prod.mk.injEq, Except.ok.injEq, Option.some.injEq]
    constructor
    · rintro ⟨rfl, rfl⟩
      exact ⟨quote, ⟨rfl, rfl⟩, rfl⟩
    · rintro ⟨_, ⟨rfl, rfl⟩, rfl⟩
      exact ⟨rfl, rfl⟩

theorem getUserLockEscrow_within_iff (hsdk : sdk.Lawful) (hamm : amm.Valued sdk wA wB)
    {sqrt : Int → Throwing Int} {poolState₀ poolState₁ : PoolState}
    (hinfo : calculatePoolInfo sdk decoders sqrt amm.accountsInfo.currentTime amm.accountsInfo.poolVaultALp
      amm.accountsInfo.poolVaultBLp amm.accountsInfo.vaultALpSupply amm.accountsInfo.vaultBLpSupply
      amm.accountsInfo.poolLpSupply amm.swapCurve amm.vaultA amm.vaultB poolState₀ =
        (.ok amm.poolInfo, poolState₁))
    (hpda : deriveLockEscrowPda findProgramAddressSync address owner programId = .ok lockEscrow)
    (haccount : network.fetchNullable lockEscrow = some account)
    (hvault : network.getTokenAccountBalance account.escrowVault = .ok escrowVaultAmount)
    (hunsigned : account.Unsigned) (hnonneg : 0 ≤ escrowVaultAmount)
    (hsupply : escrowVaultAmount ≤ amm.accountsInfo.poolLpSupply) (poolState : PoolState) :
    (∃ escrow, amm.getUserLockEscrow findProgramAddressSync sdk decoders toFixed network address programId
          owner poolState = (.ok (some escrow), poolState) ∧
        escrow.Within escrowVaultAmount amm.poolInfo) ↔
      account.CoversLoss amm.poolInfo.virtualPriceRaw := by
  obtain ⟨fee, hfee, hcovers⟩ := exists_unclaimedFee hunsigned amm.poolInfo.virtualPriceRaw
  simp only [← hcovers, getUserLockEscrow_eq_ok decoders toFixed hpda haccount hvault hfee]
  constructor
  · rintro ⟨_, ⟨quote, _, rfl⟩, ⟨lp, hlp, hzero, _⟩, _⟩
    rw [← Option.some.inj hlp] at hzero
    exact le_trans hzero (min_le_left _ _)
  · intro hfee
    obtain ⟨cap, hcap⟩ := Int.eq_ofNat_of_zero_le (le_min hfee hnonneg)
    obtain ⟨hA, hB⟩ := tokenAmounts_eq decoders hsdk hamm hinfo
    -- The cap is no more than the supply, so it is redeemed for no more than the whole.
    have hle : (cap : Int) ≤ amm.accountsInfo.poolLpSupply := hcap ▸ (min_le_right _ _).trans hsupply
    have hshare : cap ≤ amm.accountsInfo.poolLpSupply.toNat := by omega
    rw [hcap]
    refine ⟨_, ⟨_, getWithdrawQuote_balanced decoders toFixed hamm cap noSlippage poolState, rfl⟩,
      ⟨cap, rfl, Int.natCast_nonneg cap, hcap ▸ min_le_right _ _⟩, ⟨Int.natCast_nonneg _, ?_⟩,
      Int.natCast_nonneg _, ?_⟩
    · rw [hA]
      exact Int.ofNat_le.mpr (NestedShare.paid_le_whole _ hshare)
    · rw [hB]
      exact Int.ofNat_le.mpr (NestedShare.paid_le_whole _ hshare)

/-! ### A sample -/

def sampleLockEscrow : Pubkey :=
  ⟨[200, 37, 150, 198, 96, 192, 108, 56, 213, 111, 29, 58, 183, 29, 58, 137, 78, 95, 246, 238, 17,
    75, 136, 164, 108, 58, 172, 62, 225, 154, 197, 120], rfl⟩

def sampleNetwork (lpPerToken : Int) : LockEscrowNetwork where
  fetchNullable key :=
    if key = sampleLockEscrow then some ⟨.replicate 5, 1000000, lpPerToken, 0, 0, 0⟩ else none
  getTokenAccountBalance _ := .ok 1000000

def sampleLoadedAmm : AmmImpl :=
  { sampleAmm with poolInfo := ⟨300001, 3000010, 94868315, 17500115347965175788⟩ }

theorem sampleLoadedAmm_valued : sampleLoadedAmm.Valued sampleSdk 500000 5000000 := by
  constructor <;> decide

theorem sampleLoadedAmm_poolInfo (poolState : PoolState) :
    calculatePoolInfo sampleSdk sampleDecoders (fun n => .ok n.sqrt) sampleTime 300001 3000010 500000 5000000
        1000003 .constantProduct sampleLoadedAmm.vaultA sampleLoadedAmm.vaultB poolState =
      (.ok sampleLoadedAmm.poolInfo, poolState) := by
  have hsqrt : Int.sqrt (300001 * 3000010) = 948686 := by
    have hroot : 948686 = Nat.sqrt 900006000010 := Nat.eq_sqrt.mpr (by decide)
    exact congrArg Nat.cast hroot.symm
  have hA : sampleSdk.getAmountByShare 300001 500000 500000 = .ok 300001 := by decide
  have hB : sampleSdk.getAmountByShare 3000010 5000000 5000000 = .ok 3000010 := by decide
  have hvaultA : sampleSdk.calculateWithdrawableAmount sampleTime sampleLoadedAmm.vaultA = .ok 500000 := by
    decide
  have hvaultB : sampleSdk.calculateWithdrawableAmount sampleTime sampleLoadedAmm.vaultB = .ok 5000000 := by
    decide
  have hprices : BN.div (948686 * virtualPricePrecision) 1000003 = .ok 94868315 ∧
      BN.div (2 ^ 64 * 948686) 1000003 = .ok 17500115347965175788 := by
    decide
  simp only [calculatePoolInfo, SwapCurve.computeD, Call.bind_apply, Call.lift_apply, Call.pure_apply,
    hvaultA, hvaultB, hA, hB, hsqrt, if_neg (show (1000003 : Int) ≠ 0 by decide), hprices.1, hprices.2]
  rfl

theorem getUserLockEscrow_within_iff_sample :
    (∃ escrow, sampleLoadedAmm.getUserLockEscrow (fun _ _ => sampleLockEscrow) sampleSdk sampleDecoders
          (fun q => ⌊q⌋) (sampleNetwork (2 ^ 64)) (.replicate 3) ammProgramId (.replicate 4)
          (samplePoolState ⟨0, 1, 0, 1⟩ .constantProduct) =
            (.ok (some escrow), samplePoolState ⟨0, 1, 0, 1⟩ .constantProduct) ∧
        escrow.Within 1000000 sampleLoadedAmm.poolInfo) ↔
      LockEscrowAccount.CoversLoss ⟨.replicate 5, 1000000, 2 ^ 64, 0, 0, 0⟩
        sampleLoadedAmm.poolInfo.virtualPriceRaw :=
  getUserLockEscrow_within_iff sampleDecoders _ sampleSdk_lawful sampleLoadedAmm_valued
    (sampleLoadedAmm_poolInfo (samplePoolState ⟨0, 1, 0, 1⟩ .constantProduct)) rfl (by simp [sampleNetwork]) rfl
    ⟨by decide, by decide, by decide⟩ (by decide) (by decide) _

/-- The LP lost a twentieth of its value, so the fee shown is less than nothing. -/
theorem claimable_fee_negative :
    ¬ ∃ escrow, sampleLoadedAmm.getUserLockEscrow (fun _ _ => sampleLockEscrow) sampleSdk sampleDecoders
          (fun q => ⌊q⌋) (sampleNetwork (2 ^ 64)) (.replicate 3) ammProgramId (.replicate 4)
          (samplePoolState ⟨0, 1, 0, 1⟩ .constantProduct) =
            (.ok (some escrow), samplePoolState ⟨0, 1, 0, 1⟩ .constantProduct) ∧
        escrow.Within 1000000 sampleLoadedAmm.poolInfo := by
  rintro ⟨escrow, hescrow, ⟨lp, hlp, hnonneg, _⟩, _⟩
  have hshown : (sampleLoadedAmm.getUserLockEscrow (fun _ _ => sampleLockEscrow) sampleSdk sampleDecoders
      (fun q => ⌊q⌋) (sampleNetwork (2 ^ 64)) (.replicate 3) ammProgramId (.replicate 4)
      (samplePoolState ⟨0, 1, 0, 1⟩ .constantProduct)).1 =
        .ok (some ⟨sampleLockEscrow, 1000000, ⟨none, 0, 0⟩, ⟨some (-54092), -16227, -162276⟩⟩) := by decide
  rw [hescrow, Except.ok.injEq, Option.some.injEq] at hshown
  rw [hshown, Option.some.injEq] at hlp
  omega

end DynamicAmm.Client
