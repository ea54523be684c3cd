import Mathlib

/-!
# The StableSwap curve for two assets

The invariant `D` of balances `x` and `y` is the positive root of a cubic, and the balance `t` that goes
with `x` under a given `D` is the positive root of a quadratic. Both equations say the same thing, that
`poly ann x t d` vanishes. The sign of `poly` decides on which side of the curve a point lies: it is
negative exactly when `d` is below the invariant of the balances.

Both roots are found by Newton's method on integers. A floored Newton step may land below the root, but
the next integer up is always strictly above it, from whatever point the step was taken: a convex
function lies above its tangents. These two step lemmas carry the solvers.
-/

namespace StableCurve

/-! ### The curve -/

section Curve

variable {R : Type} [CommRing R]

/-- The invariant equation, cleared of denominators. -/
def poly (ann x y d : R) : R := d ^ 3 + 4 * x * y * (ann - 1) * d - 4 * x * y * ann * (x + y)

theorem poly_comm (ann x y d : R) : poly ann x y d = poly ann y x d := by
  simp only [poly]
  ring

@[norm_cast]
theorem cast_poly (ann x y d : Int) : ((poly ann x y d : Int) : R) = poly (ann : R) x y d := by
  simp only [poly]
  push_cast
  ring

theorem poly_smul (ann x y d c : R) : poly ann (c * x) (c * y) (c * d) = c ^ 3 * poly ann x y d := by
  simp only [poly]
  ring

variable [LinearOrder R] [IsStrictOrderedRing R] {ann x y : R}

theorem poly_mono (hann : 1 ≤ ann) (hx : 0 ≤ x) (hy : 0 ≤ y) {d e : R} (hd : 0 ≤ d) (hde : d ≤ e) :
    poly ann x y d ≤ poly ann x y e := by
  have hcube : d ^ 3 ≤ e ^ 3 := pow_le_pow_left₀ hd hde 3
  have hcoef : 0 ≤ 4 * x * y * (ann - 1) := by
    have := sub_nonneg.mpr hann
    positivity
  have hlin := mul_le_mul_of_nonneg_left hde hcoef
  simp only [poly]
  linarith

/-- A point that is not above the curve lies strictly below every point that is above it. -/
theorem lt_of_poly (hann : 1 ≤ ann) (hx : 0 ≤ x) (hy : 0 ≤ y) {d e : R} (he : 0 ≤ e)
    (hd : poly ann x y d ≤ 0) (hpos : 0 < poly ann x y e) : d < e := by
  by_contra hle
  have := poly_mono hann hx hy he (not_lt.mp hle)
  exact absurd (hpos.trans_le (this.trans hd)) (lt_irrefl _)

/-- The sum of the balances is not below their invariant. -/
theorem poly_sum_nonneg (hx : 0 ≤ x) (hy : 0 ≤ y) : 0 ≤ poly ann x y (x + y) := by
  have hsquare : 0 ≤ (x + y) * (x - y) ^ 2 := by positivity
  simp only [poly]
  linarith

/-- Taking from one balance never raises the invariant: what is above the curve stays above it. -/
theorem poly_nonneg_of_le (hann : 1 ≤ ann) (hx : 0 ≤ x) (hy : 0 ≤ y) {x' d : R} (hd : 0 ≤ d)
    (hxx' : x ≤ x') (h : 0 ≤ poly ann x' y d) : 0 ≤ poly ann x y d := by
  have hx' : 0 ≤ x' := hx.trans hxx'
  have hann' : 0 ≤ ann := zero_le_one.trans hann
  have split : ∀ z : R, poly ann z y d = d ^ 3 - 4 * z * y * (ann * (z + y) - (ann - 1) * d) := by
    intro z
    simp only [poly]
    ring
  rw [split] at h ⊢
  have hbracket : ann * (x + y) - (ann - 1) * d ≤ ann * (x' + y) - (ann - 1) * d := by
    have := mul_le_mul_of_nonneg_left (add_le_add_left hxx' y) hann'
    linarith
  rcases le_total 0 (ann * (x + y) - (ann - 1) * d) with hsign | hsign
  · have hcoef : 4 * x * y ≤ 4 * x' * y := by
      have := mul_le_mul_of_nonneg_right hxx' hy
      linarith
    have hle := mul_le_mul hcoef hbracket hsign (by positivity)
    linarith
  · have hneg : 4 * x * y * (ann * (x + y) - (ann - 1) * d) ≤ 0 :=
      mul_nonpos_of_nonneg_of_nonpos (by positivity) hsign
    have hcube : 0 ≤ d ^ 3 := by positivity
    linarith

/-- Adding to one balance never lowers the invariant: what is not above the curve stays so. -/
theorem poly_nonpos_of_le (hann : 1 ≤ ann) (hx : 0 < x) (hy : 0 < y) {x' d : R} (hd : 0 ≤ d)
    (hxx' : x ≤ x') (h : poly ann x y d ≤ 0) : poly ann x' y d ≤ 0 := by
  have split : ∀ z : R, poly ann z y d = d ^ 3 - 4 * z * y * (ann * (z + y) - (ann - 1) * d) := by
    intro z
    simp only [poly]
    ring
  have hcube : 0 ≤ d ^ 3 := by positivity
  rw [split] at h ⊢
  have hsign : 0 ≤ ann * (x + y) - (ann - 1) * d := by
    refine le_of_mul_le_mul_left ?_ (by positivity : 0 < 4 * x * y)
    linarith
  have hbracket : ann * (x + y) - (ann - 1) * d ≤ ann * (x' + y) - (ann - 1) * d := by
    have := mul_le_mul_of_nonneg_left hxx' (zero_le_one.trans hann)
    linarith
  have hcoef : 4 * x * y ≤ 4 * x' * y := by
    have := mul_le_mul_of_nonneg_right hxx' hy.le
    linarith
  have hx' : 0 < x' := hx.trans_le hxx'
  have := mul_le_mul hcoef hbracket hsign (by positivity)
  linarith

theorem poly_nonpos_of_le_right (hann : 1 ≤ ann) (hx : 0 < x) (hy : 0 < y) {y' d : R} (hd : 0 ≤ d)
    (hyy' : y ≤ y') (h : poly ann x y d ≤ 0) : poly ann x y' d ≤ 0 := by
  rw [poly_comm] at h ⊢
  exact poly_nonpos_of_le hann hy hx hd hyy' h

end Curve

/-! ### The slope -/

section Slope

/-- What the invariant equation changes by with the balance that comes first. -/
def polyX {R : Type} [CommRing R] (ann x y d : R) : R := 4 * y * (ann - 1) * d - 4 * y * ann * (2 * x + y)

variable {ann x y d : ℝ}

theorem hasDerivAt_poly_left : HasDerivAt (fun t => poly ann t y d) (polyX ann x y d) x := by
  have hsquare := (hasDerivAt_pow 2 x).const_mul (-(4 * y * ann))
  have hlinear := (hasDerivAt_id x).const_mul (4 * y * (ann - 1) * d - 4 * y ^ 2 * ann)
  have hsum := (hsquare.add hlinear).const_add (d ^ 3)
  refine (hsum.congr_of_eventuallyEq (Filter.Eventually.of_forall fun t => ?_)).congr_deriv ?_
  · simp only [poly, Pi.add_apply, id_eq]
    ring
  · simp only [polyX]
    ring

theorem hasDerivAt_poly_right : HasDerivAt (fun t => poly ann x t d) (polyX ann y x d) y := by
  have hleft : HasDerivAt (fun t => poly ann t x d) (polyX ann y x d) y := hasDerivAt_poly_left
  exact hleft.congr_of_eventuallyEq (Filter.Eventually.of_forall fun t => poly_comm ann x t d)

/-- How fast the second coordinate falls as the first one grows, along the level curve through a point. -/
def IsSlope (F : ℝ → ℝ → ℝ) (x y slope : ℝ) : Prop :=
  ∃ Fx Fy, HasDerivAt (fun t => F t y) Fx x ∧ HasDerivAt (fun t => F x t) Fy y ∧ Fy ≠ 0 ∧ slope = Fx / Fy

theorem isSlope_poly_iff {slope : ℝ} :
    IsSlope (fun x y => poly ann x y d) x y slope ↔
      polyX ann y x d ≠ 0 ∧ slope = polyX ann x y d / polyX ann y x d := by
  constructor
  · rintro ⟨Fx, Fy, hFx, hFy, hne, hslope⟩
    obtain rfl := hFx.unique hasDerivAt_poly_left
    obtain rfl := hFy.unique hasDerivAt_poly_right
    exact ⟨hne, hslope⟩
  · rintro ⟨hne, hslope⟩
    exact ⟨_, _, hasDerivAt_poly_left, hasDerivAt_poly_right, hne, hslope⟩

end Slope

/-! ### Newton steps -/

noncomputable def exactStep (ann x y d : ℝ) : ℝ :=
  (4 * x * y * ann * (x + y) + 2 * d ^ 3) / (4 * x * y * (ann - 1) + 3 * d ^ 2)

/-- The step with any number in place of `d ^ 3 / (4 * x * y)`. -/
noncomputable def ratioStep (ann s d p : ℝ) : ℝ := d * (ann * s + 2 * p) / (d * (ann - 1) + 3 * p)

/-! ### Floored Newton steps -/

section Newton

/-- The step for the invariant. The integer `p` stands for `d ^ 3 / (4 * x * y)` rounded down in any way. -/
theorem poly_pos_of_newton {ann x y d p q : Int} (hx : 0 < x) (hy : 0 < y) (hd : 0 < d) (hann : 1 ≤ ann)
    (hp : 0 ≤ p) (hpd : 4 * x * y * p ≤ d ^ 3)
    (hq : d * (ann * (x + y) + 2 * p) < (q + 1) * (d * (ann - 1) + 3 * p)) :
    0 < poly ann x y (q + 1) := by
  have hxy : 0 < 4 * x * y := by positivity
  have hden : 0 ≤ d * (ann - 1) + 3 * p := by
    have := sub_nonneg.mpr hann
    positivity
  have hnum : 0 ≤ d * (ann * (x + y) + 2 * p) := by positivity
  have hu : 0 < q + 1 := by
    by_contra hle
    have := mul_nonpos_of_nonpos_of_nonneg (not_lt.mp hle) hden
    omega
  generalize hue : q + 1 = u at *
  rcases le_or_gt (ann * (x + y)) ((ann - 1) * u) with hlarge | hsmall
  · -- Above the line the cube alone is enough.
    have hcube : 0 < u ^ 3 := by positivity
    have hlin : 0 ≤ 4 * x * y * ((ann - 1) * u - ann * (x + y)) :=
      mul_nonneg hxy.le (sub_nonneg.mpr hlarge)
    simp only [poly]
    linarith
  · -- Below it the step only overshoots because `p` is positive, and then `p` may be raised to the exact
    -- quotient: the tangent at `d` stays below the curve at `u`.
    have hstep : d * (ann * (x + y) - (ann - 1) * u) < p * (3 * u - 2 * d) := by linarith
    have hfactor : 0 < 3 * u - 2 * d := by
      by_contra hle
      have h1 := mul_nonpos_of_nonneg_of_nonpos hp (not_lt.mp hle)
      have h2 := mul_pos hd (sub_pos.mpr hsmall)
      omega
    have hexact : 4 * x * y * p * (3 * u - 2 * d) ≤ d ^ 3 * (3 * u - 2 * d) :=
      mul_le_mul_of_nonneg_right hpd hfactor.le
    have hscaled := mul_lt_mul_of_pos_left hstep hxy
    have hconvex : 0 ≤ d * ((u - d) ^ 2 * (u + 2 * d)) := by positivity
    have hprod : 0 < d * poly ann x y u := by
      simp only [poly]
      nlinarith only [hexact, hscaled, hconvex]
    exact pos_of_mul_pos_right hprod hd.le

/-- Every root of a quadratic is below a point where it is positive and rises. -/
theorem root_lt_of_quadratic {R : Type} [CommRing R] [LinearOrder R] [IsStrictOrderedRing R] {b c t r : R}
    (hrises : 0 < 2 * t + b) (hpos : c < t ^ 2 + b * t) (hroot : r ^ 2 + b * r - c = 0) : r < t := by
  by_contra hle
  have hfactor : 0 ≤ (r - t) * (r + t + b) := by
    apply mul_nonneg
    · linarith
    · linarith
  linarith

/-- An integer strictly above the root of the floored quadratic is strictly above the curve. -/
theorem poly_neg_of_quadratic {ann x d t b c : Int} (hx : 0 < x) (hann : 0 < ann) (ht : 0 < t)
    (hb : ann * b ≤ ann * x + d - ann * d) (hc : d ^ 3 < (c + 1) * (4 * x * ann))
    (h : c < t ^ 2 + b * t) : poly ann x t d < 0 := by
  have hxann : 0 < 4 * x * ann := by positivity
  have hquad : d ^ 3 < (t ^ 2 + b * t) * (4 * x * ann) :=
    hc.trans_le (mul_le_mul_of_nonneg_right (by omega) hxann.le)
  have hlin : 4 * x * t * (ann * b) ≤ 4 * x * t * (ann * x + d - ann * d) :=
    mul_le_mul_of_nonneg_left hb (by positivity)
  simp only [poly]
  linarith

end Newton

end StableCurve
