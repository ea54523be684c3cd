import DynamicAmm.Base.StableCone
import DynamicAmm.Client.StableSwap
import DynamicAmm.Proof.Curve.Monotone

/-!
# What an imbalanced deposit mints

The deposit pays a fee on how far either balance is from its proportional one. What the fees leave is at least
a combination of the old and the new balances, so its `D` is at least the same combination of the two values
of `D`, and as long as the fee is light, that is at least the old `D`. The solver is monotone, so it is at
most the new one.
-/

namespace DynamicAmm.Client

open Js StableCurve

variable {amp a b a' b' : Int}

/-! ### The fee on a balance -/

/-- `Fraction.toFixed(0)` rounds to the nearest integer, and up at a half. -/
def RoundsHalfUp (toFixed : ℚ → Int) : Prop := ∀ q, 0 ≤ q → toFixed q = ⌊q + 1 / 2⌋

/-- How far a balance is from the one in proportion to the growth of `D`. -/
def imbalance (d0 d1 oldBalance newBalance : Int) : ℚ := |(d1 : ℚ) / d0 * oldBalance - newBalance|

theorem imbalance_nonneg (d0 d1 oldBalance newBalance : Int) : 0 ≤ imbalance d0 d1 oldBalance newBalance :=
  abs_nonneg _

def imbalanceFee (toFixed : ℚ → Int) (rate imbalance : ℚ) : Int :=
  toFixed (toFixed imbalance * rate * (1 / 2))

theorem adjustedBalance_eq {toFixed : ℚ → Int} {feeInfo : Fees} {rate : ℚ} {d0 d1 : Int} (hd0 : d0 ≠ 0)
    (htrade : feeInfo.trade = .ok rate) (oldBalance newBalance : Int) :
    adjustedBalance toFixed feeInfo d0 d1 oldBalance newBalance =
      .ok (newBalance - imbalanceFee toFixed rate (imbalance d0 d1 oldBalance newBalance)) := by
  have habs : ∀ q : ℚ, (if q > 0 then q else q * (-1)) = |q| := by
    intro q
    split
    · rename_i hpos
      rw [abs_of_pos hpos]
    · rename_i hneg
      rw [abs_of_nonpos (not_lt.mp hneg), mul_neg_one]
  have hnormalized : ∀ amount : Int, normalizedTradeFee feeInfo 2 amount = .ok (amount * rate * (1 / 2)) := by
    intro amount
    simp only [normalizedTradeFee, htrade]
    change Except.ok _ = Except.ok _
    norm_num
  simp only [adjustedBalance, fraction, if_neg hd0]
  change (normalizedTradeFee feeInfo 2 _ >>= fun fee => pure (newBalance - toFixed fee)) = _
  rw [habs, hnormalized]
  rfl

def effectiveRate (rate : ℚ) : ℚ := 2 * rate / (2 - rate)

theorem effectiveRate_nonneg {rate : ℚ} (hrate : 0 ≤ rate) (hfifth : 5 * rate ≤ 1) :
    0 ≤ effectiveRate rate :=
  div_nonneg (by linarith) (by linarith)

/-- Rounding adds a ninth at most. -/
theorem effectiveRate_le {rate : ℚ} (hrate : 0 ≤ rate) (hfifth : 5 * rate ≤ 1) :
    9 * effectiveRate rate ≤ 10 * rate := by
  rw [effectiveRate, ← mul_div_assoc, div_le_iff₀ (by linarith)]
  have := mul_le_mul_of_nonneg_left hfifth hrate
  linarith

section Fee

variable {toFixed : ℚ → Int} {rate imbalance : ℚ} (hround : RoundsHalfUp toFixed) (hrate : 0 ≤ rate)
  (himbalance : 0 ≤ imbalance)

include hround hrate himbalance

theorem imbalanceFee_eq :
    imbalanceFee toFixed rate imbalance = ⌊⌊imbalance + 1 / 2⌋ * rate * (1 / 2) + 1 / 2⌋ := by
  have hrounded : (0 : ℚ) ≤ ⌊imbalance + 1 / 2⌋ := by
    exact_mod_cast Int.floor_nonneg.mpr (by positivity)
  rw [imbalanceFee, hround _ himbalance, hround _ (by positivity)]

theorem imbalanceFee_nonneg : 0 ≤ imbalanceFee toFixed rate imbalance := by
  have hrounded : (0 : ℚ) ≤ ⌊imbalance + 1 / 2⌋ := by
    exact_mod_cast Int.floor_nonneg.mpr (by positivity)
  rw [imbalanceFee_eq hround hrate himbalance]
  exact Int.floor_nonneg.mpr (by positivity)

/-- A fee is rounded up only from a half, which takes an imbalance of about the inverse of the rate. -/
theorem imbalanceFee_le : (2 - rate) * imbalanceFee toFixed rate imbalance ≤ 2 * rate * imbalance := by
  have hnonneg := imbalanceFee_nonneg hround hrate himbalance
  rcases hnonneg.eq_or_lt with hzero | hpos
  · rw [← hzero, Int.cast_zero, mul_zero]
    positivity
  have hone : (1 : ℚ) ≤ imbalanceFee toFixed rate imbalance := by exact_mod_cast hpos
  have hfloor := Int.floor_le ((⌊imbalance + 1 / 2⌋ : ℚ) * rate * (1 / 2) + 1 / 2)
  rw [← imbalanceFee_eq hround hrate himbalance] at hfloor
  have hnear := mul_le_mul_of_nonneg_right (Int.floor_le (imbalance + 1 / 2)) hrate
  have := mul_le_mul_of_nonneg_left hone hrate
  linarith

theorem imbalanceFee_eq_zero (hsmall : rate * (imbalance + 1 / 2) < 1) :
    imbalanceFee toFixed rate imbalance = 0 := by
  have hnear := mul_le_mul_of_nonneg_right (Int.floor_le (imbalance + 1 / 2)) hrate
  have hnonneg := imbalanceFee_nonneg hround hrate himbalance
  have hlt : imbalanceFee toFixed rate imbalance < 1 := by
    rw [imbalanceFee_eq hround hrate himbalance, Int.floor_lt]
    push_cast
    linarith
  omega

/-- The rate that the fee never exceeds, with what rounding adds. -/
theorem imbalanceFee_le_effectiveRate (hfifth : 5 * rate ≤ 1) :
    imbalanceFee toFixed rate imbalance ≤ effectiveRate rate * imbalance := by
  have hle := imbalanceFee_le hround hrate himbalance
  rw [effectiveRate, div_mul_eq_mul_div, le_div_iff₀ (by linarith)]
  linarith

end Fee

/-! ### The balances that the fees leave -/

section Sides

variable {toFixed : ℚ → Int} {rate : ℚ} {d0 d1 oldBalance newBalance : Int} (hround : RoundsHalfUp toFixed)
  (hrate : 0 ≤ rate) (hd0 : 1 ≤ d0) (hle : d0 ≤ d1) (hshare : 5 * (rate * d1) ≤ d0)
  (hold : 1 ≤ oldBalance) (hnew : oldBalance ≤ newBalance)

include hrate hd0 hle hshare

theorem fifth_of_share : 5 * rate ≤ 1 := by
  have hd0' : (1 : ℚ) ≤ d0 := by exact_mod_cast hd0
  have hle' : (d0 : ℚ) ≤ d1 := by exact_mod_cast hle
  have := mul_le_mul_of_nonneg_left hle' hrate
  refine le_of_mul_le_mul_right ?_ (by linarith : (0 : ℚ) < d0)
  linarith

include hround hold hnew

/-- The fees leave three quarters of a balance at least. -/
theorem three_mul_le_adjusted :
    3 * newBalance ≤ 4 * (newBalance - imbalanceFee toFixed rate (imbalance d0 d1 oldBalance newBalance)) := by
  have hd0' : (1 : ℚ) ≤ d0 := by exact_mod_cast hd0
  have hle' : (d0 : ℚ) ≤ d1 := by exact_mod_cast hle
  have hold' : (1 : ℚ) ≤ oldBalance := by exact_mod_cast hold
  have hnew' : (oldBalance : ℚ) ≤ newBalance := by exact_mod_cast hnew
  have hfifth := fifth_of_share hrate hd0 hle hshare
  have hpositive := effectiveRate_nonneg hrate hfifth
  have hgrowth : (1 : ℚ) ≤ d1 / d0 := by
    rw [le_div_iff₀ (by linarith)]
    linarith
  -- Neither side of the distance is more than the new balance times the growth.
  have hfar : imbalance d0 d1 oldBalance newBalance ≤ d1 / d0 * newBalance := by
    have h1 := mul_le_mul_of_nonneg_right hgrowth (by linarith : (0 : ℚ) ≤ newBalance)
    have h2 := mul_le_mul_of_nonneg_left hnew' (by linarith : (0 : ℚ) ≤ d1 / d0)
    have h3 := mul_le_mul_of_nonneg_right hgrowth (by linarith : (0 : ℚ) ≤ oldBalance)
    rw [imbalance, abs_le]
    constructor <;> linarith
  have hrated : effectiveRate rate * (d1 / d0) ≤ 1 / 4 := by
    rw [← mul_div_assoc, div_le_iff₀ (by linarith)]
    have := mul_le_mul_of_nonneg_right (effectiveRate_le hrate hfifth) (by linarith : (0 : ℚ) ≤ d1)
    linarith
  have hfee := imbalanceFee_le_effectiveRate hround hrate (imbalance_nonneg d0 d1 oldBalance newBalance)
    hfifth
  have h1 := mul_le_mul_of_nonneg_left hfar hpositive
  have h2 := mul_le_mul_of_nonneg_right hrated (by linarith : (0 : ℚ) ≤ newBalance)
  have : (3 * newBalance : ℚ) ≤
      4 * (newBalance - imbalanceFee toFixed rate (imbalance d0 d1 oldBalance newBalance)) := by linarith
  exact_mod_cast this

/-- Where `D` grows by one at most, the fees leave the old balance. -/
theorem old_le_adjusted (hone : d1 ≤ d0 + 1) (hbalance : 5 * (rate * oldBalance) ≤ 4 * d0) :
    oldBalance ≤ newBalance - imbalanceFee toFixed rate (imbalance d0 d1 oldBalance newBalance) := by
  have hd0' : (1 : ℚ) ≤ d0 := by exact_mod_cast hd0
  have hle' : (d0 : ℚ) ≤ d1 := by exact_mod_cast hle
  have hold' : (1 : ℚ) ≤ oldBalance := by exact_mod_cast hold
  have hone' : (d1 : ℚ) ≤ d0 + 1 := by exact_mod_cast hone
  have hnew' : (oldBalance : ℚ) ≤ newBalance := by exact_mod_cast hnew
  have hfifth := fifth_of_share hrate hd0 hle hshare
  rcases le_total ((d1 : ℚ) / d0 * oldBalance) newBalance with habove | hbelow
  · have hgrowth : (1 : ℚ) ≤ d1 / d0 := by
      rw [le_div_iff₀ (by linarith)]
      linarith
    have hfee := imbalanceFee_le_effectiveRate hround hrate
      (imbalance_nonneg d0 d1 oldBalance newBalance) hfifth
    have hrated : effectiveRate rate ≤ 1 := by
      have := effectiveRate_le hrate hfifth
      linarith
    have hdistance : imbalance d0 d1 oldBalance newBalance ≤ newBalance - oldBalance := by
      have := mul_le_mul_of_nonneg_right hgrowth (by linarith : (0 : ℚ) ≤ oldBalance)
      rw [imbalance, abs_of_nonpos (by linarith)]
      linarith
    have h1 := mul_le_mul_of_nonneg_right hrated (imbalance_nonneg d0 d1 oldBalance newBalance)
    have : (oldBalance : ℚ) ≤
        newBalance - imbalanceFee toFixed rate (imbalance d0 d1 oldBalance newBalance) := by linarith
    exact_mod_cast this
  · have hdistance : imbalance d0 d1 oldBalance newBalance ≤ oldBalance / d0 := by
      have hsplit : (d1 : ℚ) / d0 * oldBalance ≤ (d0 + 1) / d0 * oldBalance :=
        mul_le_mul_of_nonneg_right (div_le_div_of_nonneg_right hone' (by linarith)) (by linarith)
      have hunit : ((d0 : ℚ) + 1) / d0 * oldBalance = oldBalance + oldBalance / d0 := by
        field_simp
      rw [imbalance, abs_of_nonneg (by linarith)]
      linarith
    have hsmall : rate * (imbalance d0 d1 oldBalance newBalance + 1 / 2) < 1 := by
      have h1 := mul_le_mul_of_nonneg_left hdistance hrate
      have h2 : 5 * (rate * (oldBalance / d0)) ≤ 4 := by
        rw [← mul_div_assoc, ← mul_div_assoc, div_le_iff₀ (by linarith)]
        linarith
      linarith
    rw [imbalanceFee_eq_zero hround hrate (imbalance_nonneg _ _ _ _) hsmall, sub_zero]
    exact hnew

end Sides

section Adjusted

variable {rate growth old new d0 d1 : ℚ}

/-- The weight that is left of the new balances. -/
def newWeight (rate growth : ℚ) : ℚ := 1 - rate * max 1 (growth - 1)

/-- The weight that is left of the old balances. -/
def oldWeight (rate growth : ℚ) : ℚ := rate * max 0 (2 - growth)

theorem combine_le_adjusted (hrate : 0 ≤ rate) (hgrowth : 1 ≤ growth) (hold : 0 ≤ old) (hle : old ≤ new) :
    newWeight rate growth * new + oldWeight rate growth * old ≤ new - rate * |growth * old - new| := by
  rcases le_total growth 2 with htwo | htwo
  · rw [newWeight, oldWeight, max_eq_left (by linarith), max_eq_right (by linarith)]
    rcases le_total (growth * old) new with habove | hbelow
    · rw [abs_of_nonpos (by linarith)]
      have : 0 ≤ rate * old * (growth - 1) := mul_nonneg (mul_nonneg hrate hold) (by linarith)
      linarith
    · rw [abs_of_nonneg (by linarith)]
      have : 0 ≤ rate * (new - old) := mul_nonneg hrate (by linarith)
      linarith
  · rw [newWeight, oldWeight, max_eq_right (by linarith), max_eq_left (by linarith)]
    rcases le_total (growth * old) new with habove | hbelow
    · rw [abs_of_nonpos (by linarith)]
      have h1 : 0 ≤ rate * new * (growth - 2) := mul_nonneg (mul_nonneg hrate (by linarith)) (by linarith)
      have h2 : 0 ≤ rate * (growth * old) := by positivity
      linarith
    · rw [abs_of_nonneg (by linarith)]
      have : 0 ≤ rate * growth * (new - old) := mul_nonneg (by positivity) (by linarith)
      linarith

/-- The same combination of the two invariants, each one less, is at least the first. -/
theorem le_combine_invariant (hrate : 0 ≤ rate) (hquarter : 4 * rate ≤ 1) (hd0 : 1 ≤ d0) (hle : d0 + 2 ≤ d1)
    (hhalf : 2 * (rate * d1) ≤ d0) :
    d0 ≤ newWeight rate (d1 / d0) * (d1 - 1) + oldWeight rate (d1 / d0) * (d0 - 1) := by
  have hpos : 0 < d0 := by linarith
  obtain ⟨growth, hgrowth⟩ : ∃ growth, growth = d1 / d0 := ⟨_, rfl⟩
  have hd1 : d1 = growth * d0 := by
    rw [hgrowth, div_mul_cancel₀ _ hpos.ne']
  have hone : 1 ≤ growth := by
    rw [hgrowth, le_div_iff₀ hpos]
    linarith
  rw [← hgrowth]
  rcases le_total growth 2 with htwo | htwo
  · rw [newWeight, oldWeight, max_eq_left (by linarith), max_eq_right (by linarith)]
    have h1 := mul_le_mul_of_nonneg_right hquarter (by linarith : 0 ≤ d1 - d0)
    have h2 : 0 ≤ rate * (growth - 1) := mul_nonneg hrate (by linarith)
    subst hd1
    linarith
  · rw [newWeight, oldWeight, max_eq_right (by linarith), max_eq_left (by linarith)]
    have hshare : 2 * (rate * growth) ≤ 1 := by
      refine le_of_mul_le_mul_right ?_ hpos
      rw [hd1] at hhalf
      linarith
    have h1 := mul_le_mul_of_nonneg_right hshare (by linarith : 0 ≤ d1 - d0)
    have h2 : 0 ≤ rate * (growth - 1) := mul_nonneg hrate (by linarith)
    subst hd1
    linarith

theorem newWeight_pos (hrate : 0 ≤ rate) (hquarter : 4 * rate ≤ 1) (hhalf : 2 * (rate * growth) ≤ 1) :
    0 < newWeight rate growth := by
  rw [newWeight]
  rcases max_cases 1 (growth - 1) with ⟨hmax, -⟩ | ⟨hmax, -⟩
  · rw [hmax]
    linarith
  · rw [hmax]
    linarith

/-- What the fees leave has an invariant of at least `d0`, where `D` grows by two at least. -/
theorem poly_adjusted_nonpos {ann a b a' b' a₂ b₂ : ℚ} (hann : 1 ≤ ann) (ha : 0 < a) (hb : 0 < b)
    (haa' : a ≤ a') (hbb' : b ≤ b') (hd0 : 1 ≤ d0) (hle : d0 + 2 ≤ d1) (hrate : 0 ≤ rate)
    (hquarter : 4 * rate ≤ 1) (hhalf : 2 * (rate * d1) ≤ d0) (hold : poly ann a b (d0 - 1) ≤ 0)
    (hnew : poly ann a' b' (d1 - 1) ≤ 0) (ha₂ : a' - rate * |d1 / d0 * a - a'| ≤ a₂)
    (hb₂ : b' - rate * |d1 / d0 * b - b'| ≤ b₂) : poly ann a₂ b₂ d0 ≤ 0 := by
  have hpos : 0 < d0 := by linarith
  have hgrowth : 1 ≤ d1 / d0 := by
    rw [le_div_iff₀ hpos]
    linarith
  have hshare : 2 * (rate * (d1 / d0)) ≤ 1 := by
    rw [← mul_div_assoc, ← mul_div_assoc, div_le_iff₀ hpos]
    linarith
  have hinvariant := le_combine_invariant hrate hquarter hd0 hle hhalf
  have hleft := combine_le_adjusted hrate hgrowth ha.le haa'
  have hright := combine_le_adjusted hrate hgrowth hb.le hbb'
  have hnewWeight := newWeight_pos hrate hquarter hshare
  have holdWeight : 0 ≤ oldWeight rate (d1 / d0) := mul_nonneg hrate (le_max_left _ _)
  have ha' : 0 < a' := ha.trans_le haa'
  have hb' : 0 < b' := hb.trans_le hbb'
  have hcombined := poly_combine_nonpos ha' hb' ha hb (by linarith : 0 ≤ d1 - 1) (by linarith : 0 ≤ d0 - 1)
    hnew hold hnewWeight holdWeight
  have hcombineA : 0 < newWeight rate (d1 / d0) * a' + oldWeight rate (d1 / d0) * a := by positivity
  have hcombineB : 0 < newWeight rate (d1 / d0) * b' + oldWeight rate (d1 / d0) * b := by positivity
  have hlow := (poly_mono hann hcombineA.le hcombineB.le hpos.le hinvariant).trans hcombined
  have hmoreA := poly_nonpos_of_le hann hcombineA hcombineB hpos.le (hleft.trans ha₂) hlow
  exact poly_nonpos_of_le_right hann (hcombineA.trans_le (hleft.trans ha₂)) hcombineB hpos.le
    (hright.trans hb₂) hmoreA

end Adjusted

/-! ### The invariant between the two -/

variable {d0 d1 d2 a₂ b₂ : Int} {rate : ℚ}

theorem le_computeD_adjusted (hamp : 1 ≤ amp) (ha : 1 ≤ a) (hb : 1 ≤ b) (haa' : a ≤ a') (hbb' : b ≤ b')
    (hd0 : 1 ≤ d0) (hle : d0 + 2 ≤ d1) (hrate : 0 ≤ rate) (hquarter : 4 * rate ≤ 1)
    (hhalf : 2 * (rate * d1) ≤ d0) (hold : poly (amp * 2) a b (d0 - 1) ≤ 0)
    (hnew : poly (amp * 2) a' b' (d1 - 1) ≤ 0) (ha₂ : a' - rate * imbalance d0 d1 a a' ≤ a₂)
    (hb₂ : b' - rate * imbalance d0 d1 b b' ≤ b₂) (ha₂pos : 1 ≤ a₂) (hb₂pos : 1 ≤ b₂)
    (hd2 : computeD amp a₂ b₂ = .ok d2) : d0 ≤ d2 := by
  obtain ⟨D, hD, hpos, habove⟩ := computeD_ok hamp ha₂pos hb₂pos
  obtain rfl : d2 = D := Except.ok.inj (hd2.symm.trans hD)
  have hadjusted : poly ((amp * 2 : Int) : ℚ) a₂ b₂ d0 ≤ 0 :=
    poly_adjusted_nonpos (by exact_mod_cast (by omega : 1 ≤ amp * 2)) (by exact_mod_cast ha)
      (by exact_mod_cast hb) (by exact_mod_cast haa') (by exact_mod_cast hbb') (by exact_mod_cast hd0)
      (by exact_mod_cast hle) hrate hquarter hhalf (by exact_mod_cast hold) (by exact_mod_cast hnew) ha₂ hb₂
  have hbelow : poly (amp * 2) a₂ b₂ d0 ≤ 0 := by exact_mod_cast hadjusted
  have := lt_of_poly (by omega) (by omega) (by omega) (by omega) hbelow habove
  omega

/-- Balances that still settle when a quarter of either is taken off. -/
structure Balanced (amp a b : Int) : Prop where
  left_pos : 1 ≤ a
  right_pos : 1 ≤ b
  left_lt : a < 2 ^ 128
  right_lt : b < 2 ^ 128
  left_le : a ≤ 2 * amp * b
  right_le : b ≤ 37500 * amp * a

theorem Balanced.settles_of_le (hamp : 1 ≤ amp) (h : Balanced amp a b) (ha : 3 * a ≤ 4 * a₂)
    (hb : 3 * b ≤ 4 * b₂) (ha₂ : a₂ ≤ a) (hb₂ : b₂ ≤ b) : Settles amp a₂ b₂ where
  left_pos := by linarith [h.left_pos]
  right_pos := by linarith [h.right_pos]
  left_lt := by linarith [h.left_lt]
  right_lt := by linarith [h.right_lt]
  left_le := by
    have := mul_le_mul_of_nonneg_left hb (by omega : 0 ≤ amp)
    linarith [h.left_le]
  right_le := by
    have := mul_le_mul_of_nonneg_left ha (by omega : 0 ≤ amp)
    linarith [h.right_le]

theorem Balanced.settles (hamp : 1 ≤ amp) (h : Balanced amp a b) : Settles amp a b :=
  h.settles_of_le hamp (by linarith [h.left_pos]) (by linarith [h.right_pos]) (le_refl a) (le_refl b)

/-- The fee is little against `D`, whatever the deposit makes of it. -/
structure LightFee (rate : ℚ) (a b d0 d1 : Int) : Prop where
  nonneg : 0 ≤ rate
  growth : 5 * (rate * d1) ≤ d0
  left : 5 * (rate * a) ≤ 4 * d0
  right : 5 * (rate * b) ≤ 4 * d0

section Deposit

variable {toFixed : ℚ → Int} {feeInfo : Fees} {lpTotalSupply depositA depositB : Int}

/-- The invariant of what the fees leave is between the ones before and after the deposit. -/
theorem adjusted_between (hround : RoundsHalfUp toFixed) (hamp : 1 ≤ amp) (hold : Balanced amp a b)
    (hnew : Balanced amp a' b') (haa' : a ≤ a') (hbb' : b ≤ b') (hd0 : computeD amp a b = .ok d0)
    (hd1 : computeD amp a' b' = .ok d1) (hfee : LightFee rate a b d0 d1)
    (ha₂ : a₂ = a' - imbalanceFee toFixed rate (imbalance d0 d1 a a'))
    (hb₂ : b₂ = b' - imbalanceFee toFixed rate (imbalance d0 d1 b b')) :
    ∃ d2, computeD amp a₂ b₂ = .ok d2 ∧ d0 ≤ d2 ∧ d2 ≤ d1 := by
  obtain ⟨D, hD, hpos, -⟩ := computeD_ok hamp hold.left_pos hold.right_pos
  obtain rfl : d0 = D := Except.ok.inj (hd0.symm.trans hD)
  have hle := computeD_mono hamp (hold.settles hamp) haa' hbb' hd0 hd1
  obtain ⟨hrate, hshare, hleft, hright⟩ := hfee
  have hfifth := fifth_of_share hrate hpos hle hshare
  have hA := three_mul_le_adjusted hround hrate hpos hle hshare hold.left_pos haa'
  have hB := three_mul_le_adjusted hround hrate hpos hle hshare hold.right_pos hbb'
  have hfeeA := imbalanceFee_nonneg hround hrate (imbalance_nonneg d0 d1 a a')
  have hfeeB := imbalanceFee_nonneg hround hrate (imbalance_nonneg d0 d1 b b')
  rw [← ha₂] at hA
  rw [← hb₂] at hB
  have hsettles := hnew.settles_of_le hamp hA hB (by omega) (by omega)
  obtain ⟨d2, hd2, -⟩ := computeD_ok hamp hsettles.left_pos hsettles.right_pos
  refine ⟨d2, hd2, ?_, computeD_mono hamp hsettles (by omega) (by omega) hd2 hd1⟩
  rcases le_or_gt (d0 + 2) d1 with hgrows | hsame
  · have heffective := effectiveRate_le hrate hfifth
    have hd1' : (0 : ℚ) ≤ d1 := by exact_mod_cast (by omega : 0 ≤ d1)
    have hfeeA' := imbalanceFee_le_effectiveRate hround hrate (imbalance_nonneg d0 d1 a a') hfifth
    have hfeeB' := imbalanceFee_le_effectiveRate hround hrate (imbalance_nonneg d0 d1 b b') hfifth
    refine le_computeD_adjusted hamp hold.left_pos hold.right_pos haa' hbb' hpos hgrows
      (effectiveRate_nonneg hrate hfifth) (by linarith) ?_ ((hold.settles hamp).poly_pred_nonpos hamp hd0)
      ((hnew.settles hamp).poly_pred_nonpos hamp hd1) ?_ ?_ hsettles.left_pos hsettles.right_pos hd2
    · have := mul_le_mul_of_nonneg_right heffective hd1'
      have hd0' : (0 : ℚ) ≤ d0 := by exact_mod_cast (by omega : 0 ≤ d0)
      linarith
    · rw [ha₂]
      push_cast
      linarith
    · rw [hb₂]
      push_cast
      linarith
  · have hkeptA := old_le_adjusted hround hrate hpos hle hshare hold.left_pos haa' (by omega) hleft
    have hkeptB := old_le_adjusted hround hrate hpos hle hshare hold.right_pos hbb' (by omega) hright
    exact computeD_mono hamp (hold.settles hamp) (by omega) (by omega) hd0 hd2

theorem calculateEstimatedMintAmount_eq (hdeposit : ¬ (depositA = 0 ∧ depositB = 0))
    (hd0 : computeD amp a b = .ok d0) (hd1 : computeD amp (a + depositA) (b + depositB) = .ok d1)
    (hle : d0 ≤ d1) (hpos : 1 ≤ d0)
    (ha₂ : adjustedBalance toFixed feeInfo d0 d1 a (a + depositA) = .ok a₂)
    (hb₂ : adjustedBalance toFixed feeInfo d0 d1 b (b + depositB) = .ok b₂)
    (hd2 : computeD amp a₂ b₂ = .ok d2) (hle₂ : d0 ≤ d2) (hsupply : 0 ≤ lpTotalSupply) :
    calculateEstimatedMintAmount toFixed amp feeInfo lpTotalSupply (a, b) depositA depositB =
      .ok { mintAmountBeforeFees := lpTotalSupply * (d1 - d0) / d0
            mintAmount := lpTotalSupply * (d2 - d0) / d0
            fees := lpTotalSupply * (d1 - d0) / d0 - lpTotalSupply * (d2 - d0) / d0 } := by
  have hraw : bigDiv (lpTotalSupply * (d2 - d0)) d0 = .ok (lpTotalSupply * (d2 - d0) / d0) :=
    bigDiv_ok (mul_nonneg hsupply (by omega)) (by omega)
  have hbefore : bigDiv (lpTotalSupply * (d1 - d0)) d0 = .ok (lpTotalSupply * (d1 - d0) / d0) :=
    bigDiv_ok (mul_nonneg hsupply (by omega)) (by omega)
  simp only [calculateEstimatedMintAmount, if_neg hdeposit, bind_eq_ok]
  refine ⟨d0, hd0, d1, hd1, ?_⟩
  rw [if_neg (not_lt.mpr hle)]
  simp only [bind_eq_ok, pure_eq_ok]
  exact ⟨a₂, ha₂, b₂, hb₂, d2, hd2, _, hraw, _, hbefore, rfl⟩

/-- From balances that the solver settles on a deposit never lowers `D`. Where the balances before and after
it are not too far apart and the fee is light, it mints an amount, at most what it would mint without the
fees. -/
theorem mintAmount_valid (hround : RoundsHalfUp toFixed) (hamp : 1 ≤ amp) (hdepositA : 0 ≤ depositA)
    (hdepositB : 0 ≤ depositB) (hsupply : 0 < lpTotalSupply) :
    (Settles amp a b → ∃ d0 d1, computeD amp a b = .ok d0 ∧
      computeD amp (a + depositA) (b + depositB) = .ok d1 ∧ d0 ≤ d1) ∧
    (Balanced amp a b → Balanced amp (a + depositA) (b + depositB) → ∀ d0 d1 rate,
      computeD amp a b = .ok d0 → computeD amp (a + depositA) (b + depositB) = .ok d1 →
      feeInfo.trade = .ok rate → LightFee rate a b d0 d1 → ∃ amount,
      calculateEstimatedMintAmount toFixed amp feeInfo lpTotalSupply (a, b) depositA depositB =
        .ok amount ∧ 0 ≤ amount.mintAmount ∧ amount.mintAmount ≤ amount.mintAmountBeforeFees) := by
  constructor
  · intro hsettles
    have ha := hsettles.left_pos
    have hb := hsettles.right_pos
    obtain ⟨d0, hd0, -⟩ := computeD_ok hamp ha hb
    obtain ⟨d1, hd1, -⟩ := computeD_ok hamp (by omega : 1 ≤ a + depositA) (by omega : 1 ≤ b + depositB)
    exact ⟨d0, d1, hd0, hd1, computeD_mono hamp hsettles (by omega) (by omega) hd0 hd1⟩
  · intro hold hnew d0 d1 rate hd0 hd1 htrade hfee
    by_cases hdeposit : depositA = 0 ∧ depositB = 0
    · refine ⟨⟨0, 0, 0⟩, ?_, le_refl 0, le_refl 0⟩
      simp only [calculateEstimatedMintAmount, if_pos hdeposit]
      rfl
    obtain ⟨D, hD, hpos, -⟩ := computeD_ok hamp hold.left_pos hold.right_pos
    obtain rfl : d0 = D := Except.ok.inj (hd0.symm.trans hD)
    have hle := computeD_mono hamp (hold.settles hamp) (by omega) (by omega) hd0 hd1
    obtain ⟨d2, hd2, hlow, hhigh⟩ :=
      adjusted_between hround hamp hold hnew (by omega) (by omega) hd0 hd1 hfee rfl rfl
    have hquote := calculateEstimatedMintAmount_eq hdeposit hd0 hd1 hle hpos
      (adjustedBalance_eq (by omega) htrade a (a + depositA))
      (adjustedBalance_eq (by omega) htrade b (b + depositB)) hd2 hlow hsupply.le
    refine ⟨_, hquote, ?_, ?_⟩
    · exact Int.ediv_nonneg (mul_nonneg hsupply.le (by omega)) (by omega)
    · exact Int.ediv_le_ediv (by omega) (mul_le_mul_of_nonneg_left (by omega) hsupply.le)

def roundHalfUp (q : ℚ) : Int := ⌊q + 1 / 2⌋

theorem mintAmount_valid_sample :
    (∃ d0 d1, computeD 100 1000000 800000 = .ok d0 ∧ computeD 100 (1000000 + 50000) (800000 + 0) = .ok d1 ∧
      d0 ≤ d1) ∧
    ∃ amount, calculateEstimatedMintAmount roundHalfUp 100 (toFees ⟨250, 100000, 0, 100000⟩) 1000000
      (1000000, 800000) 50000 0 = .ok amount ∧ 0 ≤ amount.mintAmount ∧
      amount.mintAmount ≤ amount.mintAmountBeforeFees := by
  obtain ⟨hmono, hmint⟩ := @mintAmount_valid 100 1000000 800000 roundHalfUp
    (toFees ⟨250, 100000, 0, 100000⟩) 1000000 50000 0 (fun _ _ => rfl) (by decide) (by decide) (by decide)
    (by decide)
  refine ⟨hmono ?_, hmint ?_ ?_ 1799888 1849829 _ (by decide +kernel) (by decide +kernel) rfl ?_⟩
  · constructor <;> decide
  · constructor <;> decide
  · constructor <;> decide
  · constructor <;> norm_num

/-- A pool whose balances are far apart, and two with a fee of all there is. -/
theorem mintAmount_invalid :
    calculateEstimatedMintAmount roundHalfUp 10 (toFees ⟨0, 100000, 0, 100000⟩) 1000000 (37288, 6) 3 0 =
      .error "New D cannot be less than previous D" ∧
    calculateEstimatedMintAmount roundHalfUp 1 (toFees ⟨1, 1, 0, 100000⟩) 10 (1, 1) 0 1 = .ok ⟨5, -5, 10⟩ ∧
    calculateEstimatedMintAmount roundHalfUp 1 (toFees ⟨1, 1, 0, 100000⟩) 10 (1, 1) 0 3 =
      .error "Division by zero" := by
  decide +kernel

end Deposit

end DynamicAmm.Client
