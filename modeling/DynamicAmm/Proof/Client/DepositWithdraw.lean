import DynamicAmm.Proof.Client.BalancedDeposit

/-!
# A deposit and the withdrawal of what it bought

A balanced deposit quote gives away a hundredth of the LP that the given amount stands for. A constant product
pool asks for the nearest amounts to those of the full LP, and a stable one for the given amount and its
proportion of the other reserve. Either way the withdrawal quote of the LP pays no more of either token than
the deposit takes, although none of the roundings on the way is against the depositor.
-/

namespace DynamicAmm.Client

open Js

variable {sdk : VaultSdk} {amm : AmmImpl} {wA wB : Int} {slippage : Slippage} {quote : DepositQuote}

/-- What is left of an amount of LP that a deposit quote promises. -/
def discounted (amount : Nat) : Nat := amount * 9900 / 10000

theorem discounted_le (amount : Nat) : discounted amount ≤ amount := by
  unfold discounted
  omega

theorem getMinAmountWithSlippage_unlock (amount : Nat) :
    getMinAmountWithSlippage amount unlockAmountBuffer = .ok (discounted amount : Int) :=
  div_natCast (a := amount * 9900) (by decide : 0 < 10000)

/-- The LP that an amount of one token stands for, of a reserve of it. -/
def AccountsInfo.lpFor (info : AccountsInfo) (amount reserve : Nat) : Nat :=
  amount * info.poolLpSupply.toNat / reserve

section Quotes

variable (h : amm.Funded sdk wA wB) (hA : amm.poolInfo.tokenAAmount = (amm.accountsInfo.shareA wA).whole)
  (hB : amm.poolInfo.tokenBAmount = (amm.accountsInfo.shareB wB).whole) {tokenAGiven : Bool} {amount : Nat}

include h hA hB

theorem getShareByAmount_given (tokenAGiven : Bool) (amount : Nat) :
    getShareByAmount amount (if tokenAGiven then amm.poolInfo.tokenAAmount else amm.poolInfo.tokenBAmount)
        amm.accountsInfo.poolLpSupply false =
      .ok (amm.accountsInfo.lpFor amount (if tokenAGiven then (amm.accountsInfo.shareA wA).whole
        else (amm.accountsInfo.shareB wB).whole) : Int) := by
  have hsupply := Int.toNat_of_nonneg h.poolLpSupply_pos.le
  cases tokenAGiven with
  | false =>
      rw [if_neg (by decide), if_neg (by decide), hB, ← hsupply]
      exact getShareByAmount_down _ _ _
  | true =>
      rw [if_pos rfl, if_pos rfl, hA, ← hsupply]
      exact getShareByAmount_down _ _ _

/-- A balanced deposit of a constant product pool asks for the amounts of the LP before the discount. -/
theorem balancedDeposit_constantProduct
    (hquote : amm.balancedDeposit false tokenAGiven amount slippage wA wB = .ok quote) :
    ∃ full : Nat, quote.poolTokenAmountOut = discounted full ∧
      quote.tokenAInAmount = ((amm.accountsInfo.shareA wA).charged full * slippage.max).tdiv 10000 ∧
      quote.tokenBInAmount = ((amm.accountsInfo.shareB wB).charged full * slippage.max).tdiv 10000 := by
  have hfull := getShareByAmount_given h hA hB tokenAGiven amount
  cases tokenAGiven <;>
  · simp only [Bool.false_eq_true, if_true, if_false] at hfull
    simp only [AmmImpl.balancedDeposit, Bool.false_eq_true, if_true, if_false, hfull, bind_eq_ok, pure_eq_ok,
      Except.ok.injEq, exists_eq_left', getMinAmountWithSlippage_unlock, computeActualInAmount_eq h,
      getMaxAmountWithSlippage, BN.div_eq_ok] at hquote
    obtain ⟨_, _, _, ⟨_, rfl⟩, _, ⟨_, rfl⟩, rfl⟩ := hquote
    exact ⟨_, rfl, rfl, rfl⟩

/-- A balanced deposit of a stable pool takes the given amount and its proportion of the other reserve. -/
theorem balancedDeposit_stable
    (hquote : amm.balancedDeposit true tokenAGiven amount slippage wA wB = .ok quote) :
    let given := if tokenAGiven then (amm.accountsInfo.shareA wA).whole else (amm.accountsInfo.shareB wB).whole
    0 < given ∧ quote.poolTokenAmountOut = discounted (amm.accountsInfo.lpFor amount given) ∧
      quote.tokenAInAmount = (amount * (amm.accountsInfo.shareA wA).whole / given : Nat) ∧
      quote.tokenBInAmount = (amount * (amm.accountsInfo.shareB wB).whole / given : Nat) := by
  have hfull := getShareByAmount_given h hA hB tokenAGiven amount
  cases tokenAGiven with
  | false =>
      simp only [Bool.false_eq_true, if_false] at hfull
      simp only [AmmImpl.balancedDeposit, Bool.false_eq_true, if_true, if_false, hfull, bind_eq_ok, pure_eq_ok,
        Except.ok.injEq, exists_eq_left', getMinAmountWithSlippage_unlock, BN.div_eq_ok] at hquote
      obtain ⟨_, _, _, ⟨hgiven, rfl⟩, rfl⟩ := hquote
      rw [hB] at hgiven
      have hpos : 0 < (amm.accountsInfo.shareB wB).whole := by omega
      refine ⟨hpos, rfl, ?_, ?_⟩
      · rw [hA, hB, ← Nat.cast_mul, ← Int.ofNat_tdiv]
        rfl
      · exact congrArg Nat.cast (Nat.mul_div_cancel amount hpos).symm
  | true =>
      simp only [if_true] at hfull
      simp only [AmmImpl.balancedDeposit, if_true, hfull, bind_eq_ok, pure_eq_ok,
        Except.ok.injEq, exists_eq_left', getMinAmountWithSlippage_unlock, BN.div_eq_ok] at hquote
      obtain ⟨_, _, _, ⟨hgiven, rfl⟩, rfl⟩ := hquote
      rw [hA] at hgiven
      have hpos : 0 < (amm.accountsInfo.shareA wA).whole := by omega
      refine ⟨hpos, rfl, ?_, ?_⟩
      · exact congrArg Nat.cast (Nat.mul_div_cancel amount hpos).symm
      · rw [hA, hB, ← Nat.cast_mul, ← Int.ofNat_tdiv]
        rfl

end Quotes

section Withdraw

variable {decoders : StakeDecoders} {toFixed : ℚ → Int} {sqrt : Int → Throwing Int}
  {poolState poolState' : PoolState} {tokenAInAmount tokenBInAmount : Int}

/-- With `balance` set, the quote is that of one given token. -/
theorem getDepositQuote_balance (h : amm.Funded sdk wA wB)
    (hquote : amm.getDepositQuote sdk decoders toFixed sqrt tokenAInAmount tokenBInAmount true slippage poolState =
      (.ok quote, poolState')) :
    ∃ tokenAGiven : Bool, amm.balancedDeposit poolState.isStablePool tokenAGiven
      (if tokenAGiven then tokenAInAmount else tokenBInAmount) slippage wA wB = .ok quote := by
  have hsupply := h.poolLpSupply_pos.ne'
  simp only [AmmImpl.getDepositQuote, Call.bind_eq_ok, Call.read_apply, Call.lift_apply, Prod.mk.injEq,
    if_neg hsupply, h.withdrawableA, h.withdrawableB, Except.ok.injEq, and_true] at hquote
  obtain ⟨_, _, ⟨rfl, rfl⟩, _, _, ⟨-, rfl⟩, _, _, ⟨hone, rfl⟩, _, _, ⟨rfl, rfl⟩, _, _, ⟨rfl, rfl⟩, hquote⟩ := hquote
  rw [invariant_eq_ok] at hone
  split at hquote
  · rw [Call.lift_apply, Prod.mk.injEq] at hquote
    exact ⟨false, hquote.1⟩
  · rename_i hA
    split at hquote
    · rw [Call.lift_apply, Prod.mk.injEq] at hquote
      exact ⟨true, hquote.1⟩
    · rename_i hB
      simp_all

theorem withdraws_paid (h : amm.Funded sdk wA wB) (amount : Nat) :
    amm.Withdraws sdk decoders toFixed amount ((amm.accountsInfo.shareA wA).paid amount)
      ((amm.accountsInfo.shareB wB).paid amount) := by
  intro slippage poolState
  exact ⟨_, getWithdrawQuote_balanced decoders toFixed h.toValued amount slippage poolState, rfl, rfl, rfl⟩

theorem le_maxAmount {amount : Nat} (hslippage : 10000 ≤ slippage.max) :
    (amount : Int) ≤ (amount * slippage.max).tdiv 10000 := by
  have hnonneg : 0 ≤ (amount : Int) * slippage.max := by positivity
  rw [Int.tdiv_eq_ediv_of_nonneg hnonneg]
  apply Int.le_ediv_of_mul_le (by decide)
  exact mul_le_mul_of_nonneg_left hslippage (Int.natCast_nonneg amount)

/-- The discount on the LP of an amount, as a fraction of a hundred. -/
theorem discounted_lpFor_mul_le (info : AccountsInfo) (amount given : Nat) :
    discounted (info.lpFor amount given) * 100 * given ≤ 99 * (amount * info.poolLpSupply.toNat) := by
  have hdiscount : discounted (info.lpFor amount given) * 100 ≤ 99 * info.lpFor amount given := by
    unfold discounted
    omega
  calc
    discounted (info.lpFor amount given) * 100 * given ≤ 99 * info.lpFor amount given * given :=
      Nat.mul_le_mul_right _ hdiscount
    _ = 99 * (info.lpFor amount given * given) := Nat.mul_assoc _ _ _
    _ ≤ 99 * (amount * info.poolLpSupply.toNat) := Nat.mul_le_mul_left _ (Nat.div_mul_le_self _ _)

/-- The withdrawal of the LP that a balanced deposit promises pays no more than the deposit takes, in either
token. A stable pool needs reserves that the discount leaves room to round. -/
theorem withdraw_deposited_le (hsdk : sdk.Lawful) (h : amm.Funded sdk wA wB) {before after : PoolState}
    (hinfo : calculatePoolInfo sdk decoders sqrt amm.accountsInfo.currentTime amm.accountsInfo.poolVaultALp
      amm.accountsInfo.poolVaultBLp amm.accountsInfo.vaultALpSupply amm.accountsInfo.vaultBLpSupply
      amm.accountsInfo.poolLpSupply amm.swapCurve amm.vaultA amm.vaultB before = (.ok amm.poolInfo, after))
    (hinA : 0 ≤ tokenAInAmount) (hinB : 0 ≤ tokenBInAmount) (hslippage : 10000 ≤ slippage.max)
    (hroom : poolState.isStablePool = true → 99 ≤ amm.poolInfo.tokenAAmount ∧ 99 ≤ amm.poolInfo.tokenBAmount)
    (hquote : amm.getDepositQuote sdk decoders toFixed sqrt tokenAInAmount tokenBInAmount true slippage poolState =
      (.ok quote, poolState')) :
    ∃ tokenAOutAmount tokenBOutAmount,
      amm.Withdraws sdk decoders toFixed quote.poolTokenAmountOut tokenAOutAmount tokenBOutAmount ∧
      tokenAOutAmount ≤ quote.tokenAInAmount ∧ tokenBOutAmount ≤ quote.tokenBInAmount := by
  obtain ⟨hA, hB⟩ := tokenAmounts_eq decoders hsdk h.toValued hinfo
  obtain ⟨tokenAGiven, hquote⟩ := getDepositQuote_balance h hquote
  lift tokenAInAmount to Nat using hinA
  lift tokenBInAmount to Nat using hinB
  rw [← Nat.cast_ite] at hquote
  cases hstable : poolState.isStablePool with
  | false =>
      rw [hstable] at hquote
      obtain ⟨full, hout, haskA, haskB⟩ := balancedDeposit_constantProduct h hA hB hquote
      have hless : ∀ share : NestedShare, share.paid (discounted full) ≤ share.charged full := fun share =>
        (share.paid_mono (discounted_le full)).trans (share.paid_le_charged full)
      rw [hout, haskA, haskB]
      refine ⟨_, _, withdraws_paid h _, ?_, ?_⟩
      · exact (Int.ofNat_le.mpr (hless _)).trans (le_maxAmount hslippage)
      · exact (Int.ofNat_le.mpr (hless _)).trans (le_maxAmount hslippage)
  | true =>
      rw [hstable] at hquote
      obtain ⟨hroomA, hroomB⟩ := hroom hstable
      rw [hA] at hroomA
      rw [hB] at hroomB
      obtain ⟨hpos, hout, haskA, haskB⟩ := balancedDeposit_stable h hA hB hquote
      rw [hout, haskA, haskB]
      refine ⟨_, _, withdraws_paid h _, ?_, ?_⟩
      · rw [Nat.cast_le, Nat.le_div_iff_mul_le hpos]
        exact (amm.accountsInfo.shareA wA).paid_mul_le_of_discounted h.shareA.supply_pos h.shareA.innerSupply_pos
          (by decide : 0 < 100) (discounted_lpFor_mul_le _ _ _) (by omega)
      · rw [Nat.cast_le, Nat.le_div_iff_mul_le hpos]
        exact (amm.accountsInfo.shareB wB).paid_mul_le_of_discounted h.shareB.supply_pos h.shareB.innerSupply_pos
          (by decide : 0 < 100) (discounted_lpFor_mul_le _ _ _) (by omega)

end Withdraw

/-! ### A sample -/

def samplePricedAmm : AmmImpl :=
  { sampleStableAmm 100 1000000 3000000 3993000 with
    poolInfo := ⟨1000000, 3000000, 100010793, 18448735194845481697⟩ }

theorem samplePricedAmm_funded : samplePricedAmm.Funded sampleSdk 1000000 3000000 where
  toValued := by constructor <;> decide
  poolLpSupply_pos := by decide
  vaultALpSupply_pos := by decide
  vaultBLpSupply_pos := by decide

theorem withdraw_deposited_le_sample :
    ∃ tokenAOutAmount tokenBOutAmount,
      samplePricedAmm.Withdraws sampleSdk sampleDecoders roundHalfUp 6588 tokenAOutAmount tokenBOutAmount ∧
      tokenAOutAmount ≤ 1666 ∧ tokenBOutAmount ≤ 5000 := by
  have hinfo : (calculatePoolInfo sampleSdk sampleDecoders (fun n => .ok n.sqrt) sampleTime 1000000 3000000 1000000
      3000000 3993000 samplePricedAmm.swapCurve samplePricedAmm.vaultA samplePricedAmm.vaultB
      (sampleStablePool 100 ⟨250, 100000, 0, 100000⟩)).1 = .ok samplePricedAmm.poolInfo := by
    decide +kernel
  have hquote : (samplePricedAmm.getDepositQuote sampleSdk sampleDecoders roundHalfUp (fun n => .ok n.sqrt) 0 5000
      true noSlippage (sampleStablePool 100 ⟨250, 100000, 0, 100000⟩)).1 = .ok ⟨6588, 6588, 1666, 5000⟩ := by
    decide +kernel
  have hle := withdraw_deposited_le sampleSdk_lawful samplePricedAmm_funded (Prod.fst_eq_iff.mp hinfo)
    (by decide) (by decide) (by decide) (fun _ => by decide) (Prod.fst_eq_iff.mp hquote)
  exact hle

end DynamicAmm.Client
