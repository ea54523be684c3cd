import DynamicAmm.Base.StableCurve

/-!
# How far a step for the invariant goes

An integer step works with `d ^ 3 / (4 * x * y)` rounded down after each of two divisions, which loses up
to about `d / (2 * y)`. The less is left, the further up the step goes. It still never goes above the sum
of the balances, with one exception: from `3`, which is below the invariant of `3` and `1`.
-/

namespace StableCurve

/-- `d ^ 3 / (4 * x * y)`, rounded down after each division. -/
def flooredRatio (x y d : Int) : Int := d * d / (x * 2) * d / (y * 2)

variable {ann x y d : Int}

theorem flooredRatio_nonneg (hx : 0 < x) (hy : 0 < y) (hd : 0 ≤ d) : 0 ≤ flooredRatio x y d := by
  unfold flooredRatio
  positivity

theorem mul_flooredRatio_le (hx : 0 < x) (hy : 0 < y) (hd : 0 ≤ d) :
    4 * x * y * flooredRatio x y d ≤ d ^ 3 := by
  have h1 : d * d / (x * 2) * (x * 2) ≤ d * d := Int.ediv_mul_le _ (by omega)
  have h2 : flooredRatio x y d * (y * 2) ≤ d * d / (x * 2) * d := Int.ediv_mul_le _ (by omega)
  have h3 := mul_le_mul_of_nonneg_right h1 hd
  have h4 := mul_le_mul_of_nonneg_right h2 (by omega : 0 ≤ x * 2)
  linarith

/-- The two divisions lose less than one each, and what the first loses is multiplied by `d`. -/
theorem le_mul_flooredRatio (hx : 0 < x) (hy : 0 < y) (hd : 0 ≤ d) :
    d ^ 3 - (2 * x - 1) * d - 2 * x * (2 * y - 1) ≤ 4 * x * y * flooredRatio x y d := by
  have h1 : d * d < (d * d / (x * 2) + 1) * (x * 2) := Int.lt_ediv_add_one_mul_self _ (by omega)
  have h2 : d * d / (x * 2) * d < (flooredRatio x y d + 1) * (y * 2) :=
    Int.lt_ediv_add_one_mul_self _ (by omega)
  have h3 := mul_le_mul_of_nonneg_right (Int.add_one_le_of_lt h1) hd
  have h4 := mul_le_mul_of_nonneg_right (Int.add_one_le_of_lt h2) (by omega : 0 ≤ x * 2)
  linarith

/-! ### Never above the sum -/

/-- The invariant is at least twice the geometric mean of the balances. -/
theorem four_mul_lt_sq (hann : 2 ≤ ann) (hx : 0 < x) (hy : 0 < y) (hd : 0 ≤ d) (hle : d ≤ x + y)
    (hpos : 0 < poly ann x y d) : 4 * x * y < d ^ 2 := by
  by_contra hsmall
  have hcube : d ^ 3 ≤ 4 * x * y * d := by
    have := mul_le_mul_of_nonneg_right (not_lt.mp hsmall) hd
    linarith
  have hsum : 4 * x * y * ann * d ≤ 4 * x * y * ann * (x + y) :=
    mul_le_mul_of_nonneg_left hle (by positivity)
  simp only [poly] at hpos
  linarith

/-- Where the exact ratio is at least `d`, so is the floored one. -/
theorem le_flooredRatio (hx : 0 < x) (hy : 0 < y) (hd : 0 ≤ d) (h : 4 * x * y ≤ d ^ 2) :
    d ≤ flooredRatio x y d := by
  unfold flooredRatio
  rw [Int.le_ediv_iff_mul_le (by omega), mul_comm d]
  apply mul_le_mul_of_nonneg_right _ hd
  rw [Int.le_ediv_iff_mul_le (by omega)]
  linarith

/-- The few small cases, with the invariant between `d` and `d + 1`. -/
private theorem sum_of_small : ∀ x ∈ List.range 91, ∀ y ∈ List.range (90 / x + 1), ∀ d ∈ List.range 19,
    (0 < x ∧ 0 < y ∧ d * d < 4 * x * y ∧ 4 * x * y < (d + 1) * (d + 1) ∧
      8 * x * y * (x + y) < (d + 1) * (d + 1) * (d + 1) + 4 * x * y * (d + 1) ∧ ¬ (x = 3 ∧ y = 1)) →
    d * (x + y) < d * d / (x * 2) * d / (y * 2) * (3 * (x + y) + 3 - 2 * d) + d := by
  decide +kernel

/-- The bound that the large cases need, at the ends of the range of `s` by its two last summands. -/
private theorem sum_of_large {s m : Int} (hd : 19 ≤ d) (hm : m = d ^ 2 + 2 * d) (hs : d ≤ s)
    (hs' : 4 * s ≤ m) : m * (d * s) < (d ^ 3 + d - m - 2 * s * (d - 1)) * (3 * s - 2 * d + 6) := by
  have hconcave : 0 ≤ (d - 1) * ((s - d) * (m - 4 * s)) :=
    mul_nonneg (by omega) (mul_nonneg (by omega) (by omega))
  have hleft : 0 < d * (d ^ 2 - 17 * d + 6) := by nlinarith
  have hslope : 0 ≤ (s - d) * (d ^ 3 - 17 * d ^ 2 - 20 * d + 24) := by
    apply mul_nonneg (by omega)
    nlinarith
  subst hm
  linarith

/-- Where the exact ratio is below `d`, the invariant lies between `d` and `d + 1`, and the balances are
unequal enough for the sum to be well above it. -/
private theorem sum_of_below (hx : 0 < x) (hy : 0 < y) (hd : 1 ≤ d) (hle : d < x + y)
    (hbelow : d ^ 2 < 4 * x * y) (habove : 0 < poly 2 x y (d + 1)) (hne : ¬ (x = 3 ∧ y = 1)) :
    d * (x + y - 1) < flooredRatio x y d * (3 * (x + y) - 2 * d + 3) := by
  have hnext : 4 * x * y < (d + 1) ^ 2 :=
    four_mul_lt_sq (by omega) hx hy (by omega) (by omega) habove
  rcases lt_or_ge d 19 with hsmall | hlarge
  · have hxy : x * y ≤ 90 := by nlinarith
    lift x to Nat using hx.le
    lift y to Nat using hy.le
    lift d to Nat using by omega
    have hx' : x ∈ List.range 91 := by
      rw [List.mem_range]
      nlinarith
    have hy' : y ∈ List.range (90 / x + 1) := by
      rw [List.mem_range, Nat.lt_succ_iff, Nat.le_div_iff_mul_le (by omega), Nat.mul_comm]
      exact_mod_cast hxy
    have hd' : d ∈ List.range 19 := by
      rw [List.mem_range]
      omega
    simp only [poly] at habove
    have hstep := sum_of_small x hx' y hy' d hd' ⟨by omega, by omega, by zify; linarith,
      by zify; linarith, by zify; linarith, by exact_mod_cast hne⟩
    have hsub : 2 * d ≤ 3 * (x + y) + 3 := by omega
    zify [hsub] at hstep
    simp only [flooredRatio]
    linarith
  · have hm : 4 * x * y ≤ d ^ 2 + 2 * d := by linarith
    have hsum : 4 * (x + y - 1) ≤ d ^ 2 + 2 * d := by nlinarith
    have hmean : d ≤ x + y - 1 := by omega
    have hkey := sum_of_large hlarge rfl hmean hsum
    have hratio := le_mul_flooredRatio hx hy (by omega : 0 ≤ d)
    have hpositive : 0 ≤ 3 * (x + y) - 2 * d + 3 := by omega
    have hxy : 0 < 4 * x * y := by positivity
    refine lt_of_mul_lt_mul_left ?_ hxy.le
    calc
      4 * x * y * (d * (x + y - 1)) ≤ (d ^ 2 + 2 * d) * (d * (x + y - 1)) :=
        mul_le_mul_of_nonneg_right hm (mul_nonneg (by omega) (by omega))
      _ < (d ^ 3 + d - (d ^ 2 + 2 * d) - 2 * (x + y - 1) * (d - 1)) * (3 * (x + y - 1) - 2 * d + 6) := hkey
      _ ≤ 4 * x * y * flooredRatio x y d * (3 * (x + y) - 2 * d + 3) := by
        have hlower : d ^ 3 + d - (d ^ 2 + 2 * d) - 2 * (x + y - 1) * (d - 1) ≤
            4 * x * y * flooredRatio x y d := by
          have : x * (d - 1) ≤ (x + y - 1) * (d - 1) := mul_le_mul_of_nonneg_right (by omega) (by omega)
          linarith
        have := mul_le_mul_of_nonneg_right hlower hpositive
        linarith
      _ = 4 * x * y * (flooredRatio x y d * (3 * (x + y) - 2 * d + 3)) := by ring

/-- A step from between one and the sum of the balances, less than one below the invariant at most, does
not go above the sum. -/
theorem newton_lt_succ_sum (hann : 2 ≤ ann) (hx : 0 < x) (hy : 0 < y) (hd : 1 ≤ d) (hle : d ≤ x + y)
    (habove : 0 < poly ann x y (d + 1)) (hstuck : ¬ (ann = 2 ∧ x = 3 ∧ y = 1 ∧ d = 3)) :
    d * (ann * (x + y) + flooredRatio x y d * 2) <
      (x + y + 1) * (d * (ann - 1) + flooredRatio x y d * 3) := by
  suffices h : d * (x + y - ann + 1) < flooredRatio x y d * (3 * (x + y) - 2 * d + 3) by linarith
  have hann_le : d * (x + y - ann + 1) ≤ d * (x + y - 1) := mul_le_mul_of_nonneg_left (by omega) (by omega)
  rcases le_or_gt (4 * x * y) (d ^ 2) with hratio | hbelow
  · have hfloored := le_flooredRatio hx hy (by omega : 0 ≤ d) hratio
    have := mul_le_mul_of_nonneg_right hfloored (by omega : 0 ≤ 3 * (x + y) - 2 * d + 3)
    nlinarith
  · have hlt : d < x + y := by nlinarith [sq_nonneg (x - y)]
    have htwo : 0 < poly 2 x y (d + 1) := by
      have := mul_nonneg (mul_nonneg (by positivity : 0 ≤ 4 * x * y) (by omega : 0 ≤ ann - 2))
        (by omega : 0 ≤ x + y - (d + 1))
      simp only [poly] at habove ⊢
      linarith
    by_cases hspecial : x = 3 ∧ y = 1
    · obtain ⟨rfl, rfl⟩ := hspecial
      have hthree : d = 3 := by
        simp only [poly] at htwo
        interval_cases d <;> omega
      subst hthree
      have hmore : ann ≠ 2 := by
        intro htwo'
        exact hstuck ⟨htwo', rfl, rfl, rfl⟩
      rw [show flooredRatio 3 1 3 = 1 from rfl]
      omega
    · exact hann_le.trans_lt (sum_of_below hx hy hd hlt hbelow htwo hspecial)

end StableCurve
