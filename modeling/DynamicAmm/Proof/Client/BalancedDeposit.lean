import DynamicAmm.Client.LockEscrow
import DynamicAmm.Proof.Client.DepegCache
import DynamicAmm.Proof.Client.Liquidity
import DynamicAmm.Proof.Curve.Mint
import DynamicAmm.Proof.Curve.Tracking

/-!
# A balanced deposit goes through the imbalanced path

A stable pool quotes a balanced deposit by its share of the pool and makes it as an imbalanced one, of two
amounts of which one is rounded. The quote gives one percent away for that. It is enough where neither the
balances nor the amounts are so small that a few units of them are more than the one percent.
-/

namespace DynamicAmm.Client

open Js StableCurve

/-! ### From the balances to the minted share -/

section Growth

variable {toFixed : ℚ → Int} {rate : ℚ} {amp a b a' b' a₂ b₂ d0 d1 d2 least : Int} {e growth : ℝ}

/-- With a fee of one at most, half of the imbalance is taken at most, and what rounding adds. -/
theorem imbalanceFee_le_half {imbalance : ℚ} (hround : RoundsHalfUp toFixed) (hrate : 0 ≤ rate) (hone : rate ≤ 1)
    (himbalance : 0 ≤ imbalance) : 4 * (imbalanceFee toFixed rate imbalance : ℚ) ≤ 2 * imbalance + 3 := by
  have hfloor := Int.floor_le ((⌊imbalance + 1 / 2⌋ : ℚ) * rate * (1 / 2) + 1 / 2)
  rw [← imbalanceFee_eq hround hrate himbalance] at hfloor
  have hnear := mul_le_mul_of_nonneg_right (Int.floor_le (imbalance + 1 / 2)) hrate
  have := mul_le_mul_of_nonneg_left hone (by linarith : 0 ≤ imbalance + 1 / 2)
  linarith

/-- The arithmetic of two values near two others that grow alike. -/
theorem grown_near {exact exact' d d' : ℝ} (he : 0 < e) (hten : 20 * e ≤ 1) (hunit : 2 ≤ e * exact)
    (hgrowth : 1 ≤ growth) (hlow : (growth - e) * exact ≤ exact') (hhigh : exact' ≤ growth * exact)
    (hd : exact - 3 ≤ d) (hd_le : 2 * d ≤ (2 + 5 * e) * exact) (hd' : exact' - 3 ≤ d')
    (hd'_le : 2 * d' ≤ (2 + 5 * e) * exact') :
    (1 - 5 * e) * (growth * d) ≤ d' ∧ d' ≤ (1 + 5 * e) * (growth * d) := by
  have hpos : 0 < exact := pos_of_mul_pos_right (by linarith) he.le
  have hdown : (2 - 3 * e) * exact ≤ 2 * d := by linarith
  constructor
  · have h1 := mul_le_mul_of_nonneg_left hd_le (by nlinarith : 0 ≤ (1 - 5 * e) * growth)
    have h2 : (1 - 5 * e) * growth * ((2 + 5 * e) * exact) ≤ (2 * growth - 5 * e) * exact := by
      have h3 : 0 ≤ (growth - 1) * (e * exact) := mul_nonneg (by linarith) (by positivity)
      have h4 : 0 ≤ growth * (e * (e * exact)) := by positivity
      linarith
    linarith
  · have h1 := mul_le_mul_of_nonneg_left hhigh (by linarith : 0 ≤ 2 + 5 * e)
    have h2 := mul_le_mul_of_nonneg_left hdown (by nlinarith : 0 ≤ (1 + 5 * e) * growth)
    have h3 : (2 + 5 * e) * (growth * exact) ≤ (1 + 5 * e) * growth * ((2 - 3 * e) * exact) := by
      have h4 : 0 ≤ growth * (e * exact) := by positivity
      have h5 := mul_le_mul_of_nonneg_right hten h4
      linarith
    linarith

/-- Balances that have grown alike, up to one unit of either. -/
structure GrownAlike (growth : ℝ) (old new : Int) : Prop where
  old_le : old ≤ new
  low : growth * old - 1 ≤ new
  high : new ≤ growth * old

/-- What the fee leaves of a balance has grown almost as much. -/
theorem le_adjusted (hround : RoundsHalfUp toFixed) (hrate : 0 ≤ rate) (hone : rate ≤ 1)
    (hleast : 0 < least) (he : e * least = 1) (hd0 : 1 ≤ d0)
    (hgrown : (1 - 5 * e) * (growth * d0) ≤ d1 ∧ d1 ≤ (1 + 5 * e) * (growth * d0)) {old new : Int}
    (hold : least ≤ old) (h : GrownAlike growth old new) :
    (growth * (1 - 5 / 2 * e) - 9 / 4 * e) * old ≤
      (new - imbalanceFee toFixed rate (imbalance d0 d1 old new) : Int) := by
  have hleast' : (0 : ℝ) < least := by exact_mod_cast hleast
  have he_pos : 0 < e := pos_of_mul_pos_left (he ▸ one_pos) hleast'.le
  have hold' : (least : ℝ) ≤ old := by exact_mod_cast hold
  have hd0' : (0 : ℝ) < d0 := by exact_mod_cast (by omega : 0 < d0)
  have hunit := mul_le_mul_of_nonneg_left hold' he_pos.le
  have hlow : growth * (1 - 5 * e) ≤ (d1 : ℝ) / d0 := by
    rw [le_div_iff₀ hd0']
    linarith
  have hhigh : (d1 : ℝ) / d0 ≤ growth * (1 + 5 * e) := by
    rw [div_le_iff₀ hd0']
    linarith
  have himbalance : ((imbalance d0 d1 old new : ℚ) : ℝ) ≤ 5 * (e * (growth * old)) + 1 := by
    have h1 := mul_le_mul_of_nonneg_right hlow (by linarith : (0 : ℝ) ≤ old)
    have h2 := mul_le_mul_of_nonneg_right hhigh (by linarith : (0 : ℝ) ≤ old)
    have h3 := h.low
    have h4 := h.high
    simp only [imbalance]
    push_cast
    rw [abs_le]
    constructor <;> linarith
  have hfee : 4 * (imbalanceFee toFixed rate (imbalance d0 d1 old new) : ℝ) ≤
      2 * ((imbalance d0 d1 old new : ℚ) : ℝ) + 3 := by
    exact_mod_cast imbalanceFee_le_half hround hrate hone (imbalance_nonneg d0 d1 old new)
  have h5 := h.low
  push_cast
  linarith

theorem two_mul_le_exactD (hamp : 1 ≤ amp) (hleast : 0 < least) (ha : least ≤ a) (hb : least ≤ b) :
    2 * (least : ℝ) ≤ exactD amp a b := by
  have hAnn : 2 ≤ amp * 2 := by omega
  have hAnn' : (1 : ℝ) ≤ (amp * 2 : Int) := by exact_mod_cast (by omega : 1 ≤ amp * 2)
  have ha' : (0 : ℝ) < a := by exact_mod_cast (by omega : 0 < a)
  have hb' : (0 : ℝ) < b := by exact_mod_cast (by omega : 0 < b)
  obtain ⟨root, hroot⟩ := exists_invariant hAnn' ha' hb'
  have htwo := ((iterates_sum hAnn (by omega) (by omega)).root_lt hAnn hleast ha hb hroot).2
  exact htwo.trans (exactIterate_bounds hAnn' ha' hb' hroot maxIters).1

section Grown

variable (hamp : 1 ≤ amp) (hleast : 1400 ≤ least) (ha : least ≤ a) (hb : least ≤ b) (he : e * least = 1)
  (hgrowth : 1 ≤ growth) (hA : GrownAlike growth a a') (hB : GrownAlike growth b b')

include hamp hleast ha hb he hgrowth hA hB

/-- What exact arithmetic makes of the new balances. -/
theorem exactD_grown : (growth - e) * exactD amp a b ≤ exactD amp a' b' ∧
    exactD amp a' b' ≤ growth * exactD amp a b := by
  have hleast' : (1400 : ℝ) ≤ least := by exact_mod_cast hleast
  have ha' : (least : ℝ) ≤ a := by exact_mod_cast ha
  have hb' : (least : ℝ) ≤ b := by exact_mod_cast hb
  have he_pos : 0 < e := pos_of_mul_pos_left (he ▸ one_pos) (by linarith)
  have hunitA := mul_le_mul_of_nonneg_left ha' he_pos.le
  have hunitB := mul_le_mul_of_nonneg_left hb' he_pos.le
  have hless : e < growth := by
    have := mul_le_mul_of_nonneg_left hleast' he_pos.le
    linarith
  have hA_low := hA.low
  have hB_low := hB.low
  have hscaledA : 0 < (growth - e) * (a : ℝ) := mul_pos (by linarith) (by linarith)
  have hscaledB : 0 < (growth - e) * (b : ℝ) := mul_pos (by linarith) (by linarith)
  rw [← exactD_smul (by linarith), ← exactD_smul (by linarith)]
  exact ⟨exactD_mono hamp hscaledA hscaledB (by linarith) (by linarith),
    exactD_mono hamp (by linarith) (by linarith) hA.high hB.high⟩

variable (hd0 : computeD amp a b = .ok d0) (hd1 : computeD amp a' b' = .ok d1)

include hd0 hd1

theorem computeD_grown : (1 - 5 * e) * (growth * d0) ≤ d1 ∧ d1 ≤ (1 + 5 * e) * (growth * d0) := by
  have hleast' : (1400 : ℝ) ≤ least := by exact_mod_cast hleast
  have he_pos : 0 < e := pos_of_mul_pos_left (he ▸ one_pos) (by linarith)
  have hsmall := mul_le_mul_of_nonneg_left hleast' he_pos.le
  have hunit := mul_le_mul_of_nonneg_left (two_mul_le_exactD hamp (by omega) ha hb) he_pos.le
  obtain ⟨hlow, hhigh⟩ := exactD_grown hamp hleast ha hb he hgrowth hA hB
  obtain ⟨hd0_low, hd0_high⟩ := computeD_tracks hamp (by omega) ha hb he hd0
  obtain ⟨hd1_low, hd1_high⟩ :=
    computeD_tracks hamp (by omega) (ha.trans hA.old_le) (hb.trans hB.old_le) he hd1
  exact grown_near he_pos (by linarith) (by linarith) hgrowth hlow hhigh hd0_low hd0_high hd1_low hd1_high

/-- The fees leave enough for the share that one percent was taken off. -/
theorem le_computeD_grown (hround : RoundsHalfUp toFixed) (hrate : 0 ≤ rate) (hone : rate ≤ 1)
    (hbig : 1400 ≤ (growth - 1) * least)
    (ha₂ : a₂ = a' - imbalanceFee toFixed rate (imbalance d0 d1 a a'))
    (hb₂ : b₂ = b' - imbalanceFee toFixed rate (imbalance d0 d1 b b')) :
    d0 ≤ d1 ∧ ∃ d2, computeD amp a₂ b₂ = .ok d2 ∧ (1 + 99 * growth) * d0 ≤ 100 * d2 := by
  have hleast' : (1400 : ℝ) ≤ least := by exact_mod_cast hleast
  have ha' : (least : ℝ) ≤ a := by exact_mod_cast ha
  have hb' : (least : ℝ) ≤ b := by exact_mod_cast hb
  have he_pos : 0 < e := pos_of_mul_pos_left (he ▸ one_pos) (by linarith)
  have hsmall := mul_le_mul_of_nonneg_left hleast' he_pos.le
  have hunit := mul_le_mul_of_nonneg_left (two_mul_le_exactD hamp (by omega) ha hb) he_pos.le
  have hgrown := computeD_grown hamp hleast ha hb he hgrowth hA hB hd0 hd1
  obtain ⟨D, hD, hpos, -⟩ := computeD_ok hamp (by omega : 1 ≤ a) (by omega : 1 ≤ b)
  obtain rfl : d0 = D := Except.ok.inj (hd0.symm.trans hD)
  have hd0_pos : (0 : ℝ) < d0 := by exact_mod_cast (by omega : 0 < d0)
  have hkeptA := le_adjusted hround hrate hone (by omega) he hpos hgrown ha hA
  have hkeptB := le_adjusted hround hrate hone (by omega) he hpos hgrown hb hB
  rw [← ha₂] at hkeptA
  rw [← hb₂] at hkeptB
  -- A unit is so little of a balance that it is also little of the growth.
  have hshare : 1400 * e ≤ growth - 1 := by
    have := mul_le_mul_of_nonneg_left hbig he_pos.le
    rw [mul_left_comm, he, mul_one] at this
    linarith
  have hproduct := mul_le_mul_of_nonneg_right hsmall (by linarith : 0 ≤ growth - 1)
  rw [mul_comm e, he, one_mul] at hproduct
  obtain ⟨kept, hkept⟩ : ∃ kept, kept = growth * (1 - 5 / 2 * e) - 9 / 4 * e := ⟨_, rfl⟩
  rw [← hkept] at hkeptA hkeptB
  have hmore : 1 ≤ kept := by linarith
  have ha₂_ge : a ≤ a₂ := by
    have : (a : ℝ) ≤ a₂ := (le_mul_of_one_le_left (by linarith) hmore).trans hkeptA
    exact_mod_cast this
  have hb₂_ge : b ≤ b₂ := by
    have : (b : ℝ) ≤ b₂ := (le_mul_of_one_le_left (by linarith) hmore).trans hkeptB
    exact_mod_cast this
  obtain ⟨d2, hd2, -⟩ := computeD_ok hamp (by omega : 1 ≤ a₂) (by omega : 1 ≤ b₂)
  have hd0_high := (computeD_tracks hamp (by omega) ha hb he hd0).2
  have hd2_low := (computeD_tracks hamp (by omega) (ha.trans ha₂_ge) (hb.trans hb₂_ge) he hd2).1
  have hscaled : kept * exactD amp a b ≤ exactD amp a₂ b₂ := by
    rw [← exactD_smul (by linarith)]
    exact exactD_mono hamp (mul_pos (by linarith) (by linarith)) (mul_pos (by linarith) (by linarith)) hkeptA hkeptB
  have hexact : 0 < exactD amp a b := by linarith [two_mul_le_exactD hamp (by omega) ha hb]
  have hrise : (1 + 99 * growth) * (2 + 5 * e) ≤ 200 * kept - 300 * e := by linarith
  constructor
  · have : (d0 : ℝ) ≤ d1 := by
      have h1 := mul_le_mul_of_nonneg_right (by linarith : 1 ≤ (1 - 5 * e) * growth) hd0_pos.le
      linarith [hgrown.1]
    exact_mod_cast this
  · refine ⟨d2, hd2, ?_⟩
    have h1 := mul_le_mul_of_nonneg_left hd0_high (by linarith : 0 ≤ 1 + 99 * growth)
    have h2 := mul_le_mul_of_nonneg_right hrise hexact.le
    linarith

end Grown

end Growth

/-! ### The amounts of a quote -/

section Amounts

variable {given reserve other : Int}

theorem grownAlike_given (hreserve : 0 < reserve) (hgiven : 0 ≤ given) :
    GrownAlike (1 + (given : ℝ) / reserve) reserve (reserve + given) := by
  have hreserve' : (0 : ℝ) < reserve := by exact_mod_cast hreserve
  have hgrown : (1 + (given : ℝ) / reserve) * reserve = reserve + given := by
    rw [add_mul, one_mul, div_mul_cancel₀ _ hreserve'.ne']
  constructor
  · omega
  · rw [hgrown]
    push_cast
    linarith
  · rw [hgrown]
    push_cast
    exact le_refl _

/-- The other amount is rounded down. -/
theorem grownAlike_other (hreserve : 0 < reserve) (hother : 0 ≤ other) (hgiven : 0 ≤ given) :
    GrownAlike (1 + (given : ℝ) / reserve) other (other + given * other / reserve) := by
  have hreserve' : (0 : ℝ) < reserve := by exact_mod_cast hreserve
  have hnonneg : 0 ≤ given * other / reserve := Int.ediv_nonneg (mul_nonneg hgiven hother) hreserve.le
  have hlow := Int.lt_ediv_add_one_mul_self (given * other) hreserve
  have hhigh := Int.ediv_mul_le (given * other) hreserve.ne'
  generalize given * other / reserve = amount at *
  have hlow' : (given * other : ℝ) < (amount + 1) * reserve := by exact_mod_cast hlow
  have hhigh' : (amount * reserve : ℝ) ≤ given * other := by exact_mod_cast hhigh
  have hshare : (given : ℝ) / reserve * other = given * other / reserve := div_mul_eq_mul_div _ _ _
  rw [← div_lt_iff₀ hreserve'] at hlow'
  rw [← le_div_iff₀ hreserve'] at hhigh'
  constructor
  · omega
  · rw [add_mul, one_mul, hshare]
    push_cast
    linarith
  · rw [add_mul, one_mul, hshare]
    push_cast
    linarith

/-- The share less one percent is no more than what is minted for the rise of `D`. -/
theorem buffered_le_mint {supply d0 d2 : Int} (hreserve : 0 < reserve) (hsupply : 0 ≤ supply)
    (hd0 : 0 < d0)
    (hrise : (1 + 99 * (1 + (given : ℝ) / reserve)) * d0 ≤ 100 * d2) :
    given * supply / reserve * 9900 / 10000 ≤ supply * (d2 - d0) / d0 := by
  have hreserve' : (0 : ℝ) < reserve := by exact_mod_cast hreserve
  have hrise' : 99 * (given * d0) ≤ 100 * (reserve * (d2 - d0)) := by
    have hscaled := mul_le_mul_of_nonneg_left hrise hreserve'.le
    have hcancel : (reserve : ℝ) * (given / reserve) = given := mul_div_cancel₀ _ hreserve'.ne'
    have : (99 * (given * d0) : ℝ) ≤ 100 * (reserve * (d2 - d0)) := by
      linear_combination hscaled - 99 * d0 * hcancel
    exact_mod_cast this
  have hshare := Int.ediv_mul_le (given * supply) hreserve.ne'
  have hbuffered := Int.ediv_mul_le (given * supply / reserve * 9900) (by decide : (10000 : Int) ≠ 0)
  generalize given * supply / reserve = share at *
  generalize share * 9900 / 10000 = buffered at *
  rw [Int.le_ediv_iff_mul_le hd0]
  refine le_of_mul_le_mul_left ?_ (by positivity : 0 < 10000 * reserve)
  have h1 := mul_le_mul_of_nonneg_right hbuffered (by positivity : 0 ≤ reserve * d0)
  have h2 := mul_le_mul_of_nonneg_right hshare (by positivity : 0 ≤ 9900 * d0)
  have h3 := mul_le_mul_of_nonneg_left hrise' (by positivity : 0 ≤ 100 * supply)
  linarith

end Amounts

/-! ### The quote -/

section Quote

variable (sdk : VaultSdk) (decoders : StakeDecoders) (toFixed : ℚ → Int) (sqrt : Int → Throwing Int)

/-- A balanced deposit is quoted, and the two amounts of the quote mint at least what it promises. -/
def AmmImpl.DepositGoesThrough (amm : AmmImpl) (tokenAGiven : Bool) (inAmount : Int) (poolState : PoolState) :
    Prop :=
  ∃ quote mintAmount,
    amm.getDepositQuote sdk decoders toFixed sqrt (if tokenAGiven then inAmount else 0)
        (if tokenAGiven then 0 else inAmount) true noSlippage poolState = (.ok quote, poolState) ∧
    amm.swapCurve.computeImbalanceDeposit decoders toFixed quote.tokenAInAmount quote.tokenBInAmount
        amm.poolInfo.tokenAAmount amm.poolInfo.tokenBAmount amm.accountsInfo.poolLpSupply poolState.fees
        poolState = (.ok mintAmount, poolState) ∧
    quote.minPoolTokenAmountOut ≤ mintAmount

/-- A stable pool without a depeg and with multipliers of one, as it was loaded. -/
structure AmmImpl.PlainStable (sdk : VaultSdk) (amm : AmmImpl) (curve : StableSwap) (poolState : PoolState) :
    Prop extends curve.Unscaled poolState.depeg where
  swapCurve : amm.swapCurve = .stable curve
  isStablePool : poolState.isStablePool = true
  amp_pos : 1 ≤ curve.amp
  poolLpSupply_pos : 0 < amm.accountsInfo.poolLpSupply
  vaultA : ∃ w, sdk.calculateWithdrawableAmount amm.accountsInfo.currentTime amm.vaultA = .ok w
  vaultB : ∃ w, sdk.calculateWithdrawableAmount amm.accountsInfo.currentTime amm.vaultB = .ok w

variable {sdk} {amm : AmmImpl} {curve : StableSwap} {poolState : PoolState} {inAmount : Int}

theorem getDepositQuote_balanced (hpool : amm.PlainStable sdk curve poolState) {inReserve otherReserve : Int}
    {tokenAGiven : Bool}
    (hreserves : (if tokenAGiven then (amm.poolInfo.tokenAAmount, amm.poolInfo.tokenBAmount)
      else (amm.poolInfo.tokenBAmount, amm.poolInfo.tokenAAmount)) = (inReserve, otherReserve))
    (hin : 0 < inReserve) (hother : 0 ≤ otherReserve) (hamount : 0 < inAmount) :
    ∃ quote, amm.getDepositQuote sdk decoders toFixed sqrt (if tokenAGiven then inAmount else 0)
        (if tokenAGiven then 0 else inAmount) true noSlippage poolState = (.ok quote, poolState) ∧
      quote.tokenAInAmount = (if tokenAGiven then inAmount else inAmount * otherReserve / inReserve) ∧
      quote.tokenBInAmount = (if tokenAGiven then inAmount * otherReserve / inReserve else inAmount) ∧
      quote.minPoolTokenAmountOut = inAmount * amm.accountsInfo.poolLpSupply / inReserve * 9900 / 10000 := by
  have hsupply := hpool.poolLpSupply_pos
  obtain ⟨wA, hwA⟩ := hpool.vaultA
  obtain ⟨wB, hwB⟩ := hpool.vaultB
  have hdiv : ∀ {a b : Int}, 0 ≤ a → 0 < b → BN.div a b = .ok (a / b) := fun ha hb =>
    BN.div_eq_ok.mpr ⟨hb.ne', Int.tdiv_eq_ediv_of_nonneg ha⟩
  have hshare := hdiv (mul_nonneg hamount.le hsupply.le) hin
  have hshare_nonneg : 0 ≤ inAmount * amm.accountsInfo.poolLpSupply / inReserve :=
    Int.ediv_nonneg (mul_nonneg hamount.le hsupply.le) hin.le
  have hbuffered := hdiv (mul_nonneg hshare_nonneg (by decide : (0 : Int) ≤ 9900)) (by decide : (0 : Int) < 10000)
  have hbuffered_nonneg : 0 ≤ inAmount * amm.accountsInfo.poolLpSupply / inReserve * 9900 / 10000 :=
    Int.ediv_nonneg (mul_nonneg hshare_nonneg (by decide)) (by decide)
  have hmin := hdiv (mul_nonneg hbuffered_nonneg (by decide : (0 : Int) ≤ 10000)) (by decide : (0 : Int) < 10000)
  rw [Int.mul_ediv_cancel _ (by decide : (10000 : Int) ≠ 0)] at hmin
  have hquote : amm.balancedDeposit true tokenAGiven inAmount noSlippage wA wB = .ok {
      poolTokenAmountOut := inAmount * amm.accountsInfo.poolLpSupply / inReserve * 9900 / 10000
      minPoolTokenAmountOut := inAmount * amm.accountsInfo.poolLpSupply / inReserve * 9900 / 10000
      tokenAInAmount := if tokenAGiven then inAmount else inAmount * otherReserve / inReserve
      tokenBInAmount := if tokenAGiven then inAmount * otherReserve / inReserve else inAmount } := by
    simp only [AmmImpl.balancedDeposit, hreserves, getShareByAmount, if_neg hin.ne', Bool.false_eq_true, if_false,
      hshare, getMinAmountWithSlippage, unlockAmountBuffer, noSlippage, Bind.bind, Except.bind, hbuffered, hmin,
      if_true, hdiv (mul_nonneg hamount.le hother) hin, Pure.pure, Except.pure]
  refine ⟨{
    poolTokenAmountOut := inAmount * amm.accountsInfo.poolLpSupply / inReserve * 9900 / 10000
    minPoolTokenAmountOut := inAmount * amm.accountsInfo.poolLpSupply / inReserve * 9900 / 10000
    tokenAInAmount := if tokenAGiven then inAmount else inAmount * otherReserve / inReserve
    tokenBInAmount := if tokenAGiven then inAmount * otherReserve / inReserve else inAmount }, ?_, rfl, rfl, rfl⟩
  cases tokenAGiven with
  | false => simp [AmmImpl.getDepositQuote, hpool.isStablePool, hsupply.ne', hwA, hwB, hquote, invariant]
  | true => simp [AmmImpl.getDepositQuote, hpool.isStablePool, hsupply.ne', hwA, hwB, hquote, invariant, hamount.ne']

/-- What the quoted amounts mint, where the fees leave at least the old `D`. -/
theorem computeImbalanceDeposit_plain (hpool : amm.PlainStable sdk curve poolState) {a b x y d0 d1 d2 : Int}
    {rate : ℚ} (hdeposit : ¬ (x = 0 ∧ y = 0)) (htrade : (toFees poolState.fees).trade = .ok rate)
    (hd0 : computeD curve.amp a b = .ok d0) (hd1 : computeD curve.amp (a + x) (b + y) = .ok d1)
    (hd2 : computeD curve.amp (a + x - imbalanceFee toFixed rate (imbalance d0 d1 a (a + x)))
      (b + y - imbalanceFee toFixed rate (imbalance d0 d1 b (b + y))) = .ok d2)
    (hpos : 1 ≤ d0) (hle : d0 ≤ d1) (hle₂ : d0 ≤ d2) :
    amm.swapCurve.computeImbalanceDeposit decoders toFixed x y a b amm.accountsInfo.poolLpSupply
      poolState.fees poolState = (.ok (amm.accountsInfo.poolLpSupply * (d2 - d0) / d0), poolState) := by
  have hupscaleA : ∀ amount, curve.upscaleTokenA poolState.depeg amount = amount := by
    intro amount
    simp [StableSwap.upscaleTokenA, hpool.multiplier, hpool.depegType]
  have hupscaleB : ∀ amount, curve.upscaleTokenB poolState.depeg amount = amount := by
    intro amount
    simp [StableSwap.upscaleTokenB, hpool.multiplier, hpool.depegType]
  have hestimate := calculateEstimatedMintAmount_eq hdeposit hd0 hd1 hle hpos
    (adjustedBalance_eq (by omega) htrade a (a + x)) (adjustedBalance_eq (by omega) htrade b (b + y)) hd2 hle₂
    hpool.poolLpSupply_pos.le
  have hat : curve.computeImbalanceDepositAt poolState.depeg toFixed x y a b amm.accountsInfo.poolLpSupply
      poolState.fees = .ok (amm.accountsInfo.poolLpSupply * (d2 - d0) / d0) := by
    simp only [StableSwap.computeImbalanceDepositAt, hupscaleA, hupscaleB, hestimate]
    rfl
  rw [hpool.swapCurve, SwapCurve.computeImbalanceDeposit, Call.focus_apply, StableSwap.computeImbalanceDeposit]
  rw [← StableSwap.withRefreshed, StableSwap.withRefreshed_none decoders curve hpool.depegType, hat,
    PoolState.setDepeg_depeg]

/-- A trade fee that is a fraction of one at most. -/
def PoolFees.Fractional (fees : PoolFees) : Prop :=
  0 ≤ fees.tradeFeeNumerator ∧ fees.tradeFeeNumerator ≤ fees.tradeFeeDenominator ∧ 0 < fees.tradeFeeDenominator

theorem PoolFees.Fractional.trade {fees : PoolFees} (h : fees.Fractional) :
    ∃ rate, (toFees fees).trade = .ok rate ∧ 0 ≤ rate ∧ rate ≤ 1 := by
  obtain ⟨hnum, hle, hden⟩ := h
  have hden' : (0 : ℚ) < fees.tradeFeeDenominator := by exact_mod_cast hden
  refine ⟨fees.tradeFeeNumerator / fees.tradeFeeDenominator, if_neg hden.ne', ?_, ?_⟩
  · exact div_nonneg (by exact_mod_cast hnum) hden'.le
  · rw [div_le_one hden']
    exact_mod_cast hle

/-- Amounts by which both balances grow alike raise `D` by almost as much. -/
theorem computeImbalanceDeposit_grown (hround : RoundsHalfUp toFixed) (hpool : amm.PlainStable sdk curve poolState)
    (hfee : poolState.fees.Fractional) {a b x y least : Int} {growth : ℝ} (hx : 0 < x) (hleast : 1400 ≤ least)
    (ha : least ≤ a) (hb : least ≤ b) (hA : GrownAlike growth a (a + x)) (hB : GrownAlike growth b (b + y))
    (hbig : 1400 ≤ (growth - 1) * least) :
    ∃ d0 d2 : Int, 0 < d0 ∧ (1 + 99 * growth) * d0 ≤ 100 * d2 ∧
      amm.swapCurve.computeImbalanceDeposit decoders toFixed x y a b amm.accountsInfo.poolLpSupply
        poolState.fees poolState = (.ok (amm.accountsInfo.poolLpSupply * (d2 - d0) / d0), poolState) := by
  obtain ⟨rate, htrade, hrate, hone⟩ := hfee.trade
  have hleast' : (0 : ℝ) < least := by exact_mod_cast (by omega : 0 < least)
  have hgrowth : 1 ≤ growth := by
    have := pos_of_mul_pos_left (lt_of_lt_of_le (by norm_num) hbig) hleast'.le
    linarith
  have hA_le := hA.old_le
  have hB_le := hB.old_le
  obtain ⟨d0, hd0, hpos, -⟩ := computeD_ok hpool.amp_pos (by omega : 1 ≤ a) (by omega : 1 ≤ b)
  obtain ⟨d1, hd1, -⟩ := computeD_ok hpool.amp_pos (by omega : 1 ≤ a + x) (by omega : 1 ≤ b + y)
  obtain ⟨hle, d2, hd2, hrise⟩ := le_computeD_grown hpool.amp_pos hleast ha hb
    (inv_mul_cancel₀ hleast'.ne') hgrowth hA hB hd0 hd1 hround hrate hone hbig rfl rfl
  have hle₂ : d0 ≤ d2 := by
    have hd0' : (0 : ℝ) < d0 := by exact_mod_cast (by omega : 0 < d0)
    have hscaled := mul_le_mul_of_nonneg_right hgrowth hd0'.le
    have : (d0 : ℝ) ≤ d2 := by linarith
    exact_mod_cast this
  exact ⟨d0, d2, by omega, hrise, computeImbalanceDeposit_plain decoders toFixed hpool (by omega) htrade hd0 hd1
    hd2 hpos hle hle₂⟩

/-- A balanced deposit goes through where neither a balance nor an amount is too small. -/
theorem balancedDeposit_goesThrough (hround : RoundsHalfUp toFixed) (hpool : amm.PlainStable sdk curve poolState)
    (hfee : poolState.fees.Fractional) (tokenAGiven : Bool) {inReserve otherReserve : Int}
    (hreserves : (if tokenAGiven then (amm.poolInfo.tokenAAmount, amm.poolInfo.tokenBAmount)
      else (amm.poolInfo.tokenBAmount, amm.poolInfo.tokenAAmount)) = (inReserve, otherReserve))
    (hin : 1400 ≤ inReserve) (hother : 1400 ≤ otherReserve) (hgiven : 1400 ≤ inAmount)
    (hquoted : 1400 ≤ inAmount * otherReserve / inReserve) :
    amm.DepositGoesThrough sdk decoders toFixed sqrt tokenAGiven inAmount poolState := by
  obtain ⟨quote, hquote, hquoteA, hquoteB, hpromised⟩ :=
    getDepositQuote_balanced decoders toFixed sqrt hpool hreserves (by omega) (by omega) (by omega : 0 < inAmount)
  have hin' : (0 : ℝ) < inReserve := by exact_mod_cast (by omega : 0 < inReserve)
  have hgivenAlike := grownAlike_given (by omega : 0 < inReserve) (by omega : 0 ≤ inAmount)
  have hotherAlike := grownAlike_other (by omega : 0 < inReserve) (by omega : 0 ≤ otherReserve)
    (by omega : 0 ≤ inAmount)
  have hbig : 1400 ≤ (1 + (inAmount : ℝ) / inReserve - 1) * (min inReserve otherReserve : Int) := by
    rw [add_sub_cancel_left]
    rcases le_total inReserve otherReserve with hle | hle
    · rw [min_eq_left hle, div_mul_cancel₀ _ hin'.ne']
      exact_mod_cast hgiven
    · have hfloor := Int.ediv_mul_le (inAmount * otherReserve) (by omega : inReserve ≠ 0)
      have hscaled : 1400 * inReserve ≤ inAmount * otherReserve :=
        (mul_le_mul_of_nonneg_right hquoted (by omega)).trans hfloor
      rw [min_eq_right hle, div_mul_eq_mul_div, le_div_iff₀ hin']
      exact_mod_cast hscaled
  have hfinish : ∀ d0 d2 : Int, 0 < d0 → (1 + 99 * (1 + (inAmount : ℝ) / inReserve)) * d0 ≤ 100 * d2 →
      quote.minPoolTokenAmountOut ≤ amm.accountsInfo.poolLpSupply * (d2 - d0) / d0 := by
    intro d0 d2 hd0 hrise
    rw [hpromised]
    exact buffered_le_mint (by omega) hpool.poolLpSupply_pos.le hd0 hrise
  have hleast : 1400 ≤ min inReserve otherReserve := le_min hin hother
  cases tokenAGiven with
  | false =>
    obtain ⟨hreserveB, hreserveA⟩ := Prod.mk.inj hreserves
    obtain ⟨d0, d2, hd0, hrise, hmint⟩ := computeImbalanceDeposit_grown decoders toFixed hround hpool hfee (by omega)
      hleast (min_le_right _ _) (min_le_left _ _) hotherAlike hgivenAlike hbig
    refine ⟨quote, _, hquote, ?_, hfinish d0 d2 hd0 hrise⟩
    rw [hquoteA, hquoteB, hreserveA, hreserveB]
    exact hmint
  | true =>
    obtain ⟨hreserveA, hreserveB⟩ := Prod.mk.inj hreserves
    obtain ⟨d0, d2, hd0, hrise, hmint⟩ := computeImbalanceDeposit_grown decoders toFixed hround hpool hfee (by omega)
      hleast (min_le_left _ _) (min_le_right _ _) hgivenAlike hotherAlike hbig
    refine ⟨quote, _, hquote, ?_, hfinish d0 d2 hd0 hrise⟩
    rw [hquoteA, hquoteB, hreserveA, hreserveB]
    exact hmint

end Quote

/-! ### Samples -/

def sampleStableAmm (amp a b supply : Int) : AmmImpl where
  tokenAMint := sampleMintA
  tokenBMint := .replicate 2
  poolInfo := ⟨a, b, 0, 0⟩
  vaultA := sampleVault a
  vaultB := sampleVault b
  accountsInfo := ⟨sampleTime, a, b, a, b, supply⟩
  swapCurve := .stable (StableSwap.sampleCurve amp)

def sampleStablePool (amp : Int) (fees : PoolFees) : PoolState :=
  samplePoolState fees (.stable amp ⟨1, 1⟩ StableSwap.noDepeg)

theorem sampleStableAmm_plain {amp a b supply : Int} (hamp : 1 ≤ amp) (hsupply : 0 < supply) (fees : PoolFees) :
    (sampleStableAmm amp a b supply).PlainStable sampleSdk (StableSwap.sampleCurve amp)
      (sampleStablePool amp fees) where
  multiplier := rfl
  depegType := rfl
  swapCurve := rfl
  isStablePool := rfl
  amp_pos := hamp
  poolLpSupply_pos := hsupply
  vaultA := ⟨_, rfl⟩
  vaultB := ⟨_, rfl⟩

theorem balancedDeposit_goesThrough_sample :
    (sampleStableAmm 100 1000000 3000000 3993000).DepositGoesThrough sampleSdk sampleDecoders roundHalfUp
      (fun n => .ok n.sqrt) false 5000 (sampleStablePool 100 ⟨250, 100000, 0, 100000⟩) :=
  balancedDeposit_goesThrough sampleDecoders _ _ (fun _ _ => rfl) (sampleStableAmm_plain (by decide) (by decide) _)
    ⟨by decide, by decide, by decide⟩ false rfl (by decide) (by decide) (by decide) (by decide)

/-- One token with two that round down to one, and a large deposit into a pool of a few tokens. -/
theorem small_balancedDeposit_stopped :
    (¬ (sampleStableAmm 100 1000000 1999999 2990000000000).DepositGoesThrough sampleSdk sampleDecoders roundHalfUp
      (fun n => .ok n.sqrt) true 1 (sampleStablePool 100 ⟨250, 100000, 0, 100000⟩)) ∧
    ¬ (sampleStableAmm 1 14 21 1000000000).DepositGoesThrough sampleSdk sampleDecoders roundHalfUp
      (fun n => .ok n.sqrt) true 33828 (sampleStablePool 1 ⟨0, 1, 0, 1⟩) := by
  constructor
  · rintro ⟨quote, mintAmount, hquote, hmint, hle⟩
    have hquoted : ((sampleStableAmm 100 1000000 1999999 2990000000000).getDepositQuote sampleSdk sampleDecoders
        roundHalfUp (fun n => .ok n.sqrt) 1 0 true noSlippage
        (sampleStablePool 100 ⟨250, 100000, 0, 100000⟩)).1 = .ok ⟨2960100, 2960100, 1, 1⟩ := by
      decide +kernel
    have hminted : ((sampleStableAmm 100 1000000 1999999 2990000000000).swapCurve.computeImbalanceDeposit
        sampleDecoders roundHalfUp 1 1 1000000 1999999 2990000000000 ⟨250, 100000, 0, 100000⟩
        (sampleStablePool 100 ⟨250, 100000, 0, 100000⟩)).1 = .ok 1994566 := by
      decide +kernel
    obtain rfl := Except.ok.inj ((congrArg Prod.fst hquote).symm.trans hquoted)
    obtain rfl := Except.ok.inj ((congrArg Prod.fst hmint).symm.trans hminted)
    exact absurd hle (by decide)
  · rintro ⟨quote, mintAmount, hquote, hmint, hle⟩
    have hquoted : ((sampleStableAmm 1 14 21 1000000000).getDepositQuote sampleSdk sampleDecoders roundHalfUp
        (fun n => .ok n.sqrt) 33828 0 true noSlippage (sampleStablePool 1 ⟨0, 1, 0, 1⟩)).1 =
          .ok ⟨2392122857142, 2392122857142, 33828, 50742⟩ := by
      decide +kernel
    have hminted : ((sampleStableAmm 1 14 21 1000000000).swapCurve.computeImbalanceDeposit sampleDecoders
        roundHalfUp 33828 50742 14 21 1000000000 ⟨0, 1, 0, 1⟩ (sampleStablePool 1 ⟨0, 1, 0, 1⟩)).1 =
          .ok 2391685714285 := by
      decide +kernel
    obtain rfl := Except.ok.inj ((congrArg Prod.fst hquote).symm.trans hquoted)
    obtain rfl := Except.ok.inj ((congrArg Prod.fst hmint).symm.trans hminted)
    exact absurd hle (by decide)

end DynamicAmm.Client
