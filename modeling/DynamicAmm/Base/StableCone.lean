import DynamicAmm.Base.StableCurve

/-!
# Pooling two pairs of balances

The equation of the invariant is homogeneous, and the invariant of the sum of two pairs of balances is at
least the sum of their invariants: no liquidity is lost when two pools become one. A combination of two
pairs of balances therefore has at least the same combination of their invariants.
-/

namespace StableCurve

variable {R : Type} [Field R] [LinearOrder R] [IsStrictOrderedRing R] {ann x y x' y' d d' : R}

/-! ### The cubic term -/

/-- The arithmetic mean is not below the geometric one. -/
theorem three_mul_le_cube (hx : 0 ≤ x) (hy : 0 ≤ y) (hd : 0 ≤ d) :
    3 * d * (x * y) ≤ d ^ 3 + x * y * (x + y) := by
  rcases le_total (3 * d) (x + y) with hfar | hnear
  · have := mul_le_mul_of_nonneg_right hfar (mul_nonneg hx hy)
    have hcube : 0 ≤ d ^ 3 := by positivity
    linarith
  · have hmean : 4 * (x * y) ≤ (x + y) ^ 2 := by
      have := sq_nonneg (x - y)
      linarith
    have := mul_le_mul_of_nonneg_right hmean (sub_nonneg.mpr hnear)
    have hsquare : 0 ≤ (2 * d - (x + y)) ^ 2 * (d + (x + y)) := by positivity
    linarith

/-- `d ^ 3 / (x * y)` is above its tangent at `x'`, `y'` and `d'`. -/
theorem tangent_le_cube (hx : 0 < x) (hy : 0 < y) (hx' : 0 < x') (hy' : 0 < y') (hd : 0 ≤ d) (hd' : 0 < d') :
    d' ^ 3 / (x' * y') * (3 * (d / d') - x / x' - y / y') ≤ d ^ 3 / (x * y) := by
  have hcube := three_mul_le_cube (by positivity : 0 ≤ x / x') (by positivity : 0 ≤ y / y')
    (by positivity : 0 ≤ d / d')
  have hslope : 3 * (d / d') - x / x' - y / y' ≤ (d / d') ^ 3 / (x / x' * (y / y')) := by
    rw [le_div_iff₀ (by positivity)]
    linarith
  calc
    d' ^ 3 / (x' * y') * (3 * (d / d') - x / x' - y / y') ≤
        d' ^ 3 / (x' * y') * ((d / d') ^ 3 / (x / x' * (y / y'))) :=
      mul_le_mul_of_nonneg_left hslope (by positivity)
    _ = d ^ 3 / (x * y) := by field_simp

theorem cube_div_add_le (hx : 0 < x) (hy : 0 < y) (hx' : 0 < x') (hy' : 0 < y') (hd : 0 ≤ d)
    (hd' : 0 ≤ d') : (d + d') ^ 3 / ((x + x') * (y + y')) ≤ d ^ 3 / (x * y) + d' ^ 3 / (x' * y') := by
  rcases (add_nonneg hd hd').eq_or_lt with hzero | hpos
  · rw [← hzero, zero_pow three_ne_zero, zero_div]
    positivity
  have h1 := tangent_le_cube hx hy (by positivity : 0 < x + x') (by positivity : 0 < y + y') hd hpos
  have h2 := tangent_le_cube hx' hy' (by positivity : 0 < x + x') (by positivity : 0 < y + y') hd' hpos
  -- The two tangents add up to the value itself.
  have hunit : 3 * (d / (d + d')) - x / (x + x') - y / (y + y') +
      (3 * (d' / (d + d')) - x' / (x + x') - y' / (y + y')) = 1 := by
    have hD : d / (d + d') + d' / (d + d') = 1 := by
      rw [← add_div, div_self hpos.ne']
    have hX : x / (x + x') + x' / (x + x') = 1 := by
      rw [← add_div, div_self (by positivity)]
    have hY : y / (y + y') + y' / (y + y') = 1 := by
      rw [← add_div, div_self (by positivity)]
    linarith
  calc
    (d + d') ^ 3 / ((x + x') * (y + y')) = (d + d') ^ 3 / ((x + x') * (y + y')) *
        (3 * (d / (d + d')) - x / (x + x') - y / (y + y') +
          (3 * (d' / (d + d')) - x' / (x + x') - y' / (y + y'))) := by rw [hunit, mul_one]
    _ ≤ d ^ 3 / (x * y) + d' ^ 3 / (x' * y') := by
      rw [mul_add]
      exact add_le_add h1 h2

/-! ### The invariant -/

theorem poly_nonpos_iff (hx : 0 < x) (hy : 0 < y) :
    poly ann x y d ≤ 0 ↔ d ^ 3 / (x * y) ≤ 4 * (ann * (x + y) - (ann - 1) * d) := by
  rw [div_le_iff₀ (by positivity), poly]
  constructor
  · intro h
    linarith
  · intro h
    linarith

/-- The invariant of a sum is at least the sum of the invariants. -/
theorem poly_add_nonpos (hx : 0 < x) (hy : 0 < y) (hx' : 0 < x') (hy' : 0 < y') (hd : 0 ≤ d) (hd' : 0 ≤ d')
    (h : poly ann x y d ≤ 0) (h' : poly ann x' y' d' ≤ 0) : poly ann (x + x') (y + y') (d + d') ≤ 0 := by
  rw [poly_nonpos_iff hx hy] at h
  rw [poly_nonpos_iff hx' hy'] at h'
  rw [poly_nonpos_iff (by positivity) (by positivity)]
  have := cube_div_add_le hx hy hx' hy' hd hd'
  linarith

/-- The same for a combination of the two pairs. -/
theorem poly_combine_nonpos (hx : 0 < x) (hy : 0 < y) (hx' : 0 < x') (hy' : 0 < y') (hd : 0 ≤ d)
    (hd' : 0 ≤ d') (h : poly ann x y d ≤ 0) (h' : poly ann x' y' d' ≤ 0) {s t : R} (hs : 0 < s) (ht : 0 ≤ t) :
    poly ann (s * x + t * x') (s * y + t * y') (s * d + t * d') ≤ 0 := by
  have hscaled : ∀ {c x y d : R}, 0 ≤ c → poly ann x y d ≤ 0 → poly ann (c * x) (c * y) (c * d) ≤ 0 := by
    intro c x y d hc hpoly
    rw [poly_smul]
    exact mul_nonpos_of_nonneg_of_nonpos (by positivity) hpoly
  rcases ht.eq_or_lt with rfl | ht
  · simpa using hscaled hs.le h
  · exact poly_add_nonpos (by positivity) (by positivity) (by positivity) (by positivity) (by positivity)
      (by positivity) (hscaled hs.le h) (hscaled ht.le h')

end StableCurve
