import DynamicAmm.Base.NestedShare
import DynamicAmm.Client.Liquidity
import DynamicAmm.Proof.Client.Quote

/-!
# Balanced deposits and withdrawals

Per token, LP of the pool is a share of the LP that the pool holds in a vault, and that is a share of the
vault. A balanced withdrawal pays `NestedShare.paid` of both tokens. A balanced deposit asks for
`NestedShare.charged`: its flag says `roundUp`, but `divRound` rounds to the nearest, so the deposit can
be worth less than the share of the pool that it buys.
-/

namespace DynamicAmm.Client

open Js
open Program (Pubkey)

/-- The LP of the pool as a share of a vault. -/
def nestedShare (poolLpSupply poolVaultLp vaultLpSupply withdrawableAmount : Int) : NestedShare where
  supply := poolLpSupply.toNat
  held := poolVaultLp.toNat
  innerSupply := vaultLpSupply.toNat
  total := withdrawableAmount.toNat

def AccountsInfo.shareA (info : AccountsInfo) (withdrawableAmount : Int) : NestedShare :=
  nestedShare info.poolLpSupply info.poolVaultALp info.vaultALpSupply withdrawableAmount

def AccountsInfo.shareB (info : AccountsInfo) (withdrawableAmount : Int) : NestedShare :=
  nestedShare info.poolLpSupply info.poolVaultBLp info.vaultBLpSupply withdrawableAmount

/-- A pool over two vaults, none of which owes anything. -/
structure AmmImpl.Valued (sdk : VaultSdk) (amm : AmmImpl)
    (vaultAWithdrawableAmount vaultBWithdrawableAmount : Int) : Prop where
  withdrawableA : sdk.calculateWithdrawableAmount amm.accountsInfo.currentTime amm.vaultA =
    .ok vaultAWithdrawableAmount
  withdrawableB : sdk.calculateWithdrawableAmount amm.accountsInfo.currentTime amm.vaultB =
    .ok vaultBWithdrawableAmount
  withdrawableA_nonneg : 0 ≤ vaultAWithdrawableAmount
  withdrawableB_nonneg : 0 ≤ vaultBWithdrawableAmount
  poolLpSupply_nonneg : 0 ≤ amm.accountsInfo.poolLpSupply
  poolVaultALp_nonneg : 0 ≤ amm.accountsInfo.poolVaultALp
  poolVaultBLp_nonneg : 0 ≤ amm.accountsInfo.poolVaultBLp
  vaultALpSupply_nonneg : 0 ≤ amm.accountsInfo.vaultALpSupply
  vaultBLpSupply_nonneg : 0 ≤ amm.accountsInfo.vaultBLpSupply

/-- A pool with LP in circulation, over two vaults with LP in circulation. -/
structure AmmImpl.Funded (sdk : VaultSdk) (amm : AmmImpl) (vaultAWithdrawableAmount vaultBWithdrawableAmount : Int) :
    Prop extends AmmImpl.Valued sdk amm vaultAWithdrawableAmount vaultBWithdrawableAmount where
  poolLpSupply_pos : 0 < amm.accountsInfo.poolLpSupply
  vaultALpSupply_pos : 0 < amm.accountsInfo.vaultALpSupply
  vaultBLpSupply_pos : 0 < amm.accountsInfo.vaultBLpSupply

/-! ### The conversions -/

theorem div_natCast {a b : Nat} (hb : 0 < b) : BN.div a b = .ok ((a / b : Nat) : Int) := by
  rw [BN.div_eq_ok]
  exact ⟨by omega, (Int.ofNat_tdiv a b).symm⟩

theorem divRound_natCast {a b : Nat} (hb : 0 < b) : BN.divRound a b = .ok (Nat.nearest a b : Int) := by
  rw [BN.divRound_ok (Int.natCast_nonneg a) (Int.natCast_pos.mpr hb), Nat.nearest]
  norm_cast

-- A quotient by zero is the zero that the client answers with.
theorem getShareByAmount_down (amount held supply : Nat) :
    getShareByAmount amount supply held false = .ok ((amount * held / supply : Nat) : Int) := by
  rcases Nat.eq_zero_or_pos supply with rfl | hsupply
  · rw [Nat.div_zero]
    rfl
  · rw [getShareByAmount, if_neg (by omega), if_neg (by decide), ← Nat.cast_mul]
    exact div_natCast hsupply

theorem getAmountByShare_down (amount total supply : Nat) :
    getAmountByShare amount total supply false = .ok ((amount * total / supply : Nat) : Int) := by
  rcases Nat.eq_zero_or_pos supply with rfl | hsupply
  · rw [Nat.div_zero]
    rfl
  · rw [getAmountByShare, if_neg (by omega), if_neg (by decide), ← Nat.cast_mul]
    exact div_natCast hsupply

variable {sdk : VaultSdk} {amm : AmmImpl} {wA wB : Int}

/-- The two steps down from an amount of LP. -/
theorem paid_eq (amount : Nat) {poolLpSupply poolVaultLp vaultLpSupply withdrawable : Int}
    (hsupply : 0 ≤ poolLpSupply) (hheld : 0 ≤ poolVaultLp) (hinner : 0 ≤ vaultLpSupply)
    (htotal : 0 ≤ withdrawable) :
    ∃ vaultLpBurn, getShareByAmount amount poolLpSupply poolVaultLp false = .ok vaultLpBurn ∧
      getAmountByShare vaultLpBurn withdrawable vaultLpSupply false =
        .ok ((nestedShare poolLpSupply poolVaultLp vaultLpSupply withdrawable).paid amount : Int) := by
  lift poolLpSupply to Nat using hsupply
  lift poolVaultLp to Nat using hheld
  lift vaultLpSupply to Nat using hinner
  lift withdrawable to Nat using htotal
  exact ⟨_, getShareByAmount_down _ _ _, getAmountByShare_down _ _ _⟩

/-- An LP amount, its vault LP and the tokens, in whole numbers. -/
structure Represents (share : NestedShare) (poolLpSupply poolVaultLp vaultLpSupply withdrawable : Int) :
    Prop where
  supply_pos : 0 < share.supply
  innerSupply_pos : 0 < share.innerSupply
  supply : poolLpSupply = share.supply
  held : poolVaultLp = share.held
  innerSupply : vaultLpSupply = share.innerSupply
  total : withdrawable = share.total

theorem represents_nestedShare {poolLpSupply poolVaultLp vaultLpSupply withdrawable : Int} (hsupply : 0 < poolLpSupply)
    (hheld : 0 ≤ poolVaultLp) (hinner : 0 < vaultLpSupply) (htotal : 0 ≤ withdrawable) :
    Represents (nestedShare poolLpSupply poolVaultLp vaultLpSupply withdrawable) poolLpSupply poolVaultLp vaultLpSupply
      withdrawable where
  supply_pos := Int.pos_iff_toNat_pos.mp hsupply
  innerSupply_pos := Int.pos_iff_toNat_pos.mp hinner
  supply := (Int.toNat_of_nonneg hsupply.le).symm
  held := (Int.toNat_of_nonneg hheld).symm
  innerSupply := (Int.toNat_of_nonneg hinner.le).symm
  total := (Int.toNat_of_nonneg htotal).symm

namespace AmmImpl.Funded

theorem shareA (h : amm.Funded sdk wA wB) :
    Represents (amm.accountsInfo.shareA wA) amm.accountsInfo.poolLpSupply amm.accountsInfo.poolVaultALp
      amm.accountsInfo.vaultALpSupply wA :=
  represents_nestedShare h.poolLpSupply_pos h.poolVaultALp_nonneg h.vaultALpSupply_pos h.withdrawableA_nonneg

theorem shareB (h : amm.Funded sdk wA wB) :
    Represents (amm.accountsInfo.shareB wB) amm.accountsInfo.poolLpSupply amm.accountsInfo.poolVaultBLp
      amm.accountsInfo.vaultBLpSupply wB :=
  represents_nestedShare h.poolLpSupply_pos h.poolVaultBLp_nonneg h.vaultBLpSupply_pos h.withdrawableB_nonneg

end AmmImpl.Funded

namespace Represents

variable {share : NestedShare} {supply held innerSupply total : Int}

theorem getShareByAmount_up (h : Represents share supply held innerSupply total) (amount : Nat) :
    getShareByAmount amount supply held true =
      .ok (Nat.nearest (amount * share.held) share.supply : Int) := by
  rw [getShareByAmount, if_neg (by have := h.supply; have := h.supply_pos; omega), if_pos rfl, h.held,
    h.supply, ← Nat.cast_mul]
  exact divRound_natCast h.supply_pos

theorem getAmountByShare_up (h : Represents share supply held innerSupply total) (amount : Nat) :
    getAmountByShare amount total innerSupply true =
      .ok (Nat.nearest (amount * share.total) share.innerSupply : Int) := by
  rw [getAmountByShare, if_neg (by have := h.innerSupply; have := h.innerSupply_pos; omega), if_pos rfl,
    h.total, h.innerSupply, ← Nat.cast_mul]
  exact divRound_natCast h.innerSupply_pos

end Represents

variable (decoders : StakeDecoders) (toFixed : ℚ → Int)

/-- What a balanced deposit asks for. -/
theorem computeActualInAmount_eq (h : amm.Funded sdk wA wB) (amount : Nat) :
    computeActualInAmount amount amm.accountsInfo.poolLpSupply amm.accountsInfo.poolVaultALp
        amm.accountsInfo.poolVaultBLp amm.accountsInfo.vaultALpSupply amm.accountsInfo.vaultBLpSupply wA wB =
      .ok (((amm.accountsInfo.shareA wA).charged amount : Int),
        ((amm.accountsInfo.shareB wB).charged amount : Int)) := by
  have hA := h.shareA
  have hB := h.shareB
  simp only [computeActualInAmount, bind_eq_ok, hA.getShareByAmount_up, hB.getShareByAmount_up,
    Except.ok.injEq, exists_eq_left', hA.getAmountByShare_up, hB.getAmountByShare_up]
  rfl

/-- What a balanced withdrawal pays. -/
theorem getWithdrawQuote_balanced (h : amm.Valued sdk wA wB) (amount : Nat) (slippage : Slippage)
    (poolState : PoolState) :
    amm.getWithdrawQuote sdk decoders toFixed amount slippage none poolState =
      (.ok {
        poolTokenAmountIn := amount
        minTokenAOutAmount := ((amm.accountsInfo.shareA wA).paid amount * slippage.min).tdiv 10000
        minTokenBOutAmount := ((amm.accountsInfo.shareB wB).paid amount * slippage.min).tdiv 10000
        tokenAOutAmount := (amm.accountsInfo.shareA wA).paid amount
        tokenBOutAmount := (amm.accountsInfo.shareB wB).paid amount }, poolState) := by
  obtain ⟨_, hburnA, hpaidA⟩ := paid_eq amount h.poolLpSupply_nonneg h.poolVaultALp_nonneg
    h.vaultALpSupply_nonneg h.withdrawableA_nonneg
  obtain ⟨_, hburnB, hpaidB⟩ := paid_eq amount h.poolLpSupply_nonneg h.poolVaultBLp_nonneg
    h.vaultBLpSupply_nonneg h.withdrawableB_nonneg
  have hquote : amm.balancedWithdraw amount slippage wA wB = .ok {
      poolTokenAmountIn := amount
      minTokenAOutAmount := ((amm.accountsInfo.shareA wA).paid amount * slippage.min).tdiv 10000
      minTokenBOutAmount := ((amm.accountsInfo.shareB wB).paid amount * slippage.min).tdiv 10000
      tokenAOutAmount := (amm.accountsInfo.shareA wA).paid amount
      tokenBOutAmount := (amm.accountsInfo.shareB wB).paid amount } := by
    simp only [AmmImpl.balancedWithdraw, bind_eq_ok, hburnA, hburnB, Except.ok.injEq, exists_eq_left',
      hpaidA, hpaidB, getMinAmountWithSlippage, BN.div_eq_ok]
    exact ⟨_, ⟨by decide, rfl⟩, _, ⟨by decide, rfl⟩, rfl⟩
  simp only [AmmImpl.getWithdrawQuote, Call.bind_apply, Call.read_apply, Call.lift_apply, h.withdrawableA,
    h.withdrawableB, hquote]

/-! ### Deposits -/

/-- A balanced deposit for an amount of LP is worth no less than the LP's share of the pool, in both
tokens, and no less than what the withdrawal of that LP pays. -/
def AmmImpl.RoundsAgainstDepositor (sdk : VaultSdk) (decoders : StakeDecoders) (toFixed : ℚ → Int)
    (amm : AmmImpl) (poolTokenAmount vaultAWithdrawableAmount vaultBWithdrawableAmount : Int) : Prop :=
  let info := amm.accountsInfo
  ∃ actualTokenAInAmount actualTokenBInAmount,
    computeActualInAmount poolTokenAmount info.poolLpSupply info.poolVaultALp info.poolVaultBLp
        info.vaultALpSupply info.vaultBLpSupply vaultAWithdrawableAmount vaultBWithdrawableAmount =
      .ok (actualTokenAInAmount, actualTokenBInAmount) ∧
    (actualTokenAInAmount * info.vaultALpSupply * info.poolLpSupply ≥
        poolTokenAmount * info.poolVaultALp * vaultAWithdrawableAmount ∧
      actualTokenBInAmount * info.vaultBLpSupply * info.poolLpSupply ≥
        poolTokenAmount * info.poolVaultBLp * vaultBWithdrawableAmount) ∧
    ∀ slippage poolState, ∃ quote,
      amm.getWithdrawQuote sdk decoders toFixed poolTokenAmount slippage none poolState =
        (.ok quote, poolState) ∧
      quote.tokenAOutAmount ≤ actualTokenAInAmount ∧ quote.tokenBOutAmount ≤ actualTokenBInAmount

theorem Represents.covers_iff {share : NestedShare} {supply held innerSupply total : Int}
    (h : Represents share supply held innerSupply total) (amount : Nat) :
    (share.charged amount : Int) * innerSupply * supply ≥ amount * held * total ↔ share.Covers amount := by
  rw [← share.charged_covers_iff h.supply_pos h.innerSupply_pos, h.supply, h.held, h.innerSupply, h.total]
  norm_cast

theorem roundsAgainstDepositor_iff (h : amm.Funded sdk wA wB) {poolTokenAmount : Int}
    (hamount : 0 ≤ poolTokenAmount) :
    amm.RoundsAgainstDepositor sdk decoders toFixed poolTokenAmount wA wB ↔
      (amm.accountsInfo.shareA wA).Covers poolTokenAmount.toNat ∧
        (amm.accountsInfo.shareB wB).Covers poolTokenAmount.toNat := by
  lift poolTokenAmount to Nat using hamount
  rw [Int.toNat_natCast, ← h.shareA.covers_iff, ← h.shareB.covers_iff]
  simp only [AmmImpl.RoundsAgainstDepositor, computeActualInAmount_eq h, Except.ok.injEq, Prod.mk.injEq]
  constructor
  · rintro ⟨_, _, ⟨hA, hB⟩, hshare, _⟩
    subst hA hB
    exact hshare
  · intro hshare
    refine ⟨_, _, ⟨rfl, rfl⟩, hshare, ?_⟩
    intro slippage poolState
    refine ⟨_, getWithdrawQuote_balanced decoders toFixed h.toValued poolTokenAmount slippage poolState, ?_, ?_⟩
    · exact Int.ofNat_le.mpr (NestedShare.paid_le_charged _ _)
    · exact Int.ofNat_le.mpr (NestedShare.paid_le_charged _ _)

def sampleAmm : AmmImpl where
  tokenAMint := sampleMintA
  tokenBMint := Pubkey.replicate 2
  poolInfo := ⟨300001, 3000010, 0, 0⟩
  vaultA := ⟨500000, 0, 0, 0⟩
  vaultB := ⟨5000000, 0, 0, 0⟩
  accountsInfo := ⟨sampleTime, 300001, 3000010, 500000, 5000000, 1000003⟩
  swapCurve := .constantProduct

theorem sampleAmm_funded : sampleAmm.Funded sampleSdk 500000 5000000 where
  toValued := by constructor <;> decide
  poolLpSupply_pos := by decide
  vaultALpSupply_pos := by decide
  vaultBLpSupply_pos := by decide

theorem roundsAgainstDepositor_iff_sample :
    sampleAmm.RoundsAgainstDepositor sampleSdk sampleDecoders (fun q => ⌊q⌋) 1000003 500000 5000000 ↔
      (sampleAmm.accountsInfo.shareA 500000).Covers 1000003 ∧
        (sampleAmm.accountsInfo.shareB 5000000).Covers 1000003 :=
  roundsAgainstDepositor_iff sampleDecoders _ sampleAmm_funded (by decide)

/-- One LP is 0.3 of token A and is sold for none of it. -/
theorem deposit_rounds_down :
    ¬ sampleAmm.RoundsAgainstDepositor sampleSdk sampleDecoders (fun q => ⌊q⌋) 1 500000 5000000 := by
  rintro ⟨a, b, hin, ⟨hA, _⟩, _⟩
  have hok : computeActualInAmount 1 1000003 300001 3000010 500000 5000000 500000 5000000 = .ok (0, 3) := by
    decide
  have hzero : Except.ok (0, 3) = Except.ok (a, b) := hok.symm.trans hin
  rw [Except.ok.injEq, Prod.mk.injEq] at hzero
  rw [← hzero.1] at hA
  exact absurd hA (by decide)

/-! ### Withdrawals -/

/-- A balanced withdrawal of an amount of LP pays these amounts, at any slippage. -/
def AmmImpl.Withdraws (sdk : VaultSdk) (decoders : StakeDecoders) (toFixed : ℚ → Int) (amm : AmmImpl)
    (amount tokenAOutAmount tokenBOutAmount : Int) : Prop :=
  ∀ slippage poolState, ∃ quote,
    amm.getWithdrawQuote sdk decoders toFixed amount slippage none poolState = (.ok quote, poolState) ∧
      quote.poolTokenAmountIn = amount ∧ quote.tokenAOutAmount = tokenAOutAmount ∧
      quote.tokenBOutAmount = tokenBOutAmount

/-- What amounts of LP are redeemed for: no more than their share, no more in parts than at once, and
never less for more. -/
structure Proportional (paid : Int → Int) (poolLpSupply poolVaultLp vaultLpSupply withdrawable : Int) :
    Prop where
  share : ∀ amount, 0 ≤ amount → amount ≤ poolLpSupply →
    paid amount * poolLpSupply * vaultLpSupply ≤ amount * poolVaultLp * withdrawable
  parts : ∀ amount amount', 0 ≤ amount → 0 ≤ amount' →
    paid amount + paid amount' ≤ paid (amount + amount')
  mono : ∀ amount amount', 0 ≤ amount → amount ≤ amount' → paid amount ≤ paid amount'

theorem Represents.proportional {share : NestedShare} {supply held innerSupply total : Int}
    (h : Represents share supply held innerSupply total) :
    Proportional (fun amount => share.paid amount.toNat) supply held innerSupply total where
  share amount hamount _ := by
    lift amount to Nat using hamount
    rw [h.supply, h.held, h.innerSupply, h.total, Int.toNat_natCast]
    exact_mod_cast share.paid_mul_le amount
  parts amount amount' hamount hamount' := by
    rw [Int.toNat_add hamount hamount']
    exact_mod_cast share.paid_add_le amount.toNat amount'.toNat
  mono amount amount' _ hle := by
    exact_mod_cast share.paid_mono (Int.toNat_le_toNat hle)

/-- The amounts of the pool are what all its LP of the vaults is worth. -/
theorem tokenAmounts_eq (hsdk : sdk.Lawful) (h : amm.Valued sdk wA wB) {sqrt : Int → Throwing Int}
    {poolState poolState' : PoolState} {info : PoolInformation}
    (hinfo : calculatePoolInfo sdk decoders sqrt amm.accountsInfo.currentTime amm.accountsInfo.poolVaultALp
      amm.accountsInfo.poolVaultBLp amm.accountsInfo.vaultALpSupply amm.accountsInfo.vaultBLpSupply
      amm.accountsInfo.poolLpSupply amm.swapCurve amm.vaultA amm.vaultB poolState =
        (.ok info, poolState')) :
    info.tokenAAmount = (amm.accountsInfo.shareA wA).whole ∧
      info.tokenBAmount = (amm.accountsInfo.shareB wB).whole := by
  have hwhole : ∀ {held innerSupply total amount : Int}, 0 ≤ held → 0 ≤ innerSupply → 0 ≤ total →
      sdk.getAmountByShare held total innerSupply = .ok amount →
      amount = (held.toNat * total.toNat / innerSupply.toNat : Nat) := by
    intro held innerSupply total amount hheld hinner htotal hamount
    lift held to Nat using hheld
    lift innerSupply to Nat using hinner
    lift total to Nat using htotal
    simp only [Int.toNat_natCast]
    rcases Nat.eq_zero_or_pos innerSupply with rfl | hpos
    · rw [hsdk.amountByShare_zero _ _ _ hamount, Nat.div_zero]
      rfl
    · rw [hsdk.amountByShare _ _ _ (by omega), Except.ok.injEq, ← Nat.cast_mul] at hamount
      rw [← hamount, Int.ofNat_tdiv]
  simp only [calculatePoolInfo, Call.bind_eq_ok, Call.lift_apply, Prod.mk.injEq, h.withdrawableA,
    h.withdrawableB, Except.ok.injEq] at hinfo
  obtain ⟨_, _, ⟨rfl, rfl⟩, _, _, ⟨rfl, rfl⟩, a, _, ⟨ha, _⟩, b, _, ⟨hb, _⟩, _, _, _, _, _, _, _, _, _, hrest⟩ :=
    hinfo
  rw [Call.pure_apply, Prod.mk.injEq, Except.ok.injEq] at hrest
  rw [← hrest.1]
  exact ⟨hwhole h.poolVaultALp_nonneg h.vaultALpSupply_nonneg h.withdrawableA_nonneg ha,
    hwhole h.poolVaultBLp_nonneg h.vaultBLpSupply_nonneg h.withdrawableB_nonneg hb⟩

theorem balancedWithdraw_proportional (hsdk : sdk.Lawful) (h : amm.Funded sdk wA wB)
    (sqrt : Int → Throwing Int) :
    ∃ paidA paidB : Int → Int,
      (∀ amount, 0 ≤ amount → amm.Withdraws sdk decoders toFixed amount (paidA amount) (paidB amount)) ∧
      Proportional paidA amm.accountsInfo.poolLpSupply amm.accountsInfo.poolVaultALp
        amm.accountsInfo.vaultALpSupply wA ∧
      Proportional paidB amm.accountsInfo.poolLpSupply amm.accountsInfo.poolVaultBLp
        amm.accountsInfo.vaultBLpSupply wB ∧
      ∀ poolState poolState' info,
        calculatePoolInfo sdk decoders sqrt amm.accountsInfo.currentTime amm.accountsInfo.poolVaultALp
            amm.accountsInfo.poolVaultBLp amm.accountsInfo.vaultALpSupply amm.accountsInfo.vaultBLpSupply
            amm.accountsInfo.poolLpSupply amm.swapCurve amm.vaultA amm.vaultB poolState =
          (.ok info, poolState') →
        paidA amm.accountsInfo.poolLpSupply = info.tokenAAmount ∧
          paidB amm.accountsInfo.poolLpSupply = info.tokenBAmount := by
  refine ⟨_, _, ?_, h.shareA.proportional, h.shareB.proportional, ?_⟩
  · intro amount hamount slippage poolState
    lift amount to Nat using hamount
    exact ⟨_, getWithdrawQuote_balanced decoders toFixed h.toValued amount slippage poolState, rfl, rfl, rfl⟩
  · intro poolState poolState' info hinfo
    -- The whole supply of the pool's LP is redeemed for the amounts of the pool.
    obtain ⟨hA, hB⟩ := tokenAmounts_eq decoders hsdk h.toValued hinfo
    rw [hA, hB]
    exact ⟨congrArg Nat.cast (NestedShare.paid_supply _ h.shareA.supply_pos),
      congrArg Nat.cast (NestedShare.paid_supply _ h.shareB.supply_pos)⟩

theorem balancedWithdraw_proportional_sample :
    ∃ paidA paidB : Int → Int,
      (∀ amount, 0 ≤ amount →
        sampleAmm.Withdraws sampleSdk sampleDecoders (fun q => ⌊q⌋) amount (paidA amount) (paidB amount)) ∧
      Proportional paidA 1000003 300001 500000 500000 ∧ Proportional paidB 1000003 3000010 5000000 5000000 ∧
      ∀ poolState poolState' info,
        calculatePoolInfo sampleSdk sampleDecoders (fun n => .ok n.sqrt) ⟨1000, by decide⟩ 300001 3000010
            500000 5000000 1000003 .constantProduct sampleAmm.vaultA sampleAmm.vaultB poolState =
          (.ok info, poolState') →
        paidA 1000003 = info.tokenAAmount ∧ paidB 1000003 = info.tokenBAmount :=
  balancedWithdraw_proportional sampleDecoders _ sampleSdk_lawful sampleAmm_funded _

end DynamicAmm.Client
