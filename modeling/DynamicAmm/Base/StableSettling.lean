import DynamicAmm.Base.StableStep

/-!
# When the steps for the invariant settle

What the two divisions lose pushes a step up. Where the loss is small against the derivative of the
invariant equation, at an iterate that `Settling` holds of, a step never goes up by more than one, it comes
closer to the invariant as fast as Newton's method does, and when it moves by one at most it has arrived:
the invariant is at most one below. The first balance being at most `4 * ann` times the second one is
enough for that, except next to the invariant of two small pairs of balances.
-/

namespace StableCurve

/-- What the two divisions lose, times `4 * x * y`. -/
def lost (x y d : Int) : Int := d ^ 3 - 4 * x * y * flooredRatio x y d

def newton (ann x y d : Int) : Int :=
  d * (ann * (x + y) + flooredRatio x y d * 2) / (d * (ann - 1) + flooredRatio x y d * (2 + 1))

/-- The loss is small against the derivative. -/
def Settling (ann x y d : Int) : Prop :=
  lost x y d * (d + 6) ≤ d * (3 * d ^ 2 - 3 * d - 1 + 4 * x * y * (ann - 1))

variable {ann x y d n : Int}

theorem lost_nonneg (hx : 0 < x) (hy : 0 < y) (hd : 0 ≤ d) : 0 ≤ lost x y d := by
  have := mul_flooredRatio_le hx hy hd
  simp only [lost]
  omega

theorem lost_le (hx : 0 < x) (hy : 0 < y) (hd : 0 ≤ d) : lost x y d ≤ d ^ 3 := by
  have hratio := flooredRatio_nonneg hx hy hd
  have : 0 ≤ 4 * x * y * flooredRatio x y d := by positivity
  simp only [lost]
  omega

/-- Where the floored ratio at the sum is the sum, the step stays there. -/
theorem newton_sum_of_ratio (hann : 2 ≤ ann) (hx : 0 < x) (hy : 0 < y)
    (hratio : flooredRatio x y (x + y) = x + y) : newton ann x y (x + y) = x + y := by
  have hpos : 0 < (x + y) * (ann + 2) := by positivity
  rw [newton, hratio]
  apply Int.ediv_eq_of_eq_mul_left
  · linarith
  · ring

/-! ### A step, cleared of denominators -/

section Step

variable (hann : 2 ≤ ann) (hx : 0 < x) (hy : 0 < y) (hd : 1 ≤ d)

include hann hx hy hd

theorem newton_den_pos : 0 < d * (ann - 1) + flooredRatio x y d * (2 + 1) := by
  have hratio := flooredRatio_nonneg hx hy (by omega : 0 ≤ d)
  have : 0 < d * (ann - 1) := mul_pos (by omega) (by omega)
  omega

/-- A number that the step does not reach. -/
theorem newton_lt {u : Int}
    (h : d * (4 * x * y * ann * (x + y)) < u * d * (4 * x * y * (ann - 1)) + (d ^ 3 - lost x y d) * (3 * u - 2 * d)) :
    newton ann x y d < u := by
  have hxy : 0 < 4 * x * y := by positivity
  apply Int.ediv_lt_of_lt_mul (newton_den_pos hann hx hy hd)
  refine lt_of_mul_lt_mul_left ?_ hxy.le
  simp only [lost] at h
  linarith

/-- What the step stays within. -/
theorem newton_mul_le : newton ann x y d * d * (4 * x * y * (ann - 1)) +
    (d ^ 3 - lost x y d) * (3 * newton ann x y d - 2 * d) ≤ d * (4 * x * y * ann * (x + y)) := by
  have hxy : 0 ≤ 4 * x * y := by positivity
  have hfloor := Int.ediv_mul_le (d * (ann * (x + y) + flooredRatio x y d * 2))
    (newton_den_pos hann hx hy hd).ne'
  rw [← newton] at hfloor
  have := mul_le_mul_of_nonneg_left hfloor hxy
  simp only [lost]
  linarith

/-! ### What settling gives -/

/-- The step goes up by one at most. -/
theorem Settling.newton_le_succ (h : Settling ann x y d) (habove : 0 < poly ann x y (d + 1)) :
    newton ann x y d ≤ d + 1 := by
  have hscaled := mul_lt_mul_of_pos_left habove (by omega : 0 < d)
  rw [← Int.lt_add_one_iff]
  apply newton_lt hann hx hy hd
  simp only [Settling, poly] at *
  nlinarith

/-- The distance to the invariant is squared, and what the floors add to it is less than two. -/
theorem Settling.newton_sub_mul_le (h : Settling ann x y d) (hn : 0 ≤ n) (hnd : n ≤ d)
    (habove : 0 < poly ann x y (n + 1)) : (newton ann x y d - n) * d ≤ (d - n) ^ 2 + 2 * d := by
  by_contra hfar
  set q := newton ann x y d with hq
  have hlost := lost_nonneg hx hy (by omega : 0 ≤ d)
  have hratio : 0 ≤ d ^ 3 - lost x y d := sub_nonneg.mpr (lost_le hx hy (by omega))
  have hC : 0 ≤ 4 * x * y * (ann - 1) := mul_nonneg (by positivity) (by omega)
  have hstep := newton_mul_le hann hx hy hd
  rw [← hq] at hstep
  simp only [Settling] at h
  simp only [poly] at habove
  generalize 4 * x * y * (ann - 1) = C at *
  generalize 4 * x * y * ann * (x + y) = T at *
  generalize lost x y d = ε at *
  obtain ⟨e, rfl⟩ : ∃ e, d = n + e := ⟨d - n, by ring⟩
  have he : 0 ≤ e := by omega
  have hweight : 0 ≤ C * (n + e) + 3 * ((n + e) ^ 3 - ε) := by positivity
  have h1 : (q - n) * (C * (n + e) + 3 * ((n + e) ^ 3 - ε)) ≤
      (n + e) * (T - n * C) + (2 * e - n) * ((n + e) ^ 3 - ε) := by linarith
  have h2 := mul_le_mul_of_nonneg_left h1 (by omega : 0 ≤ n + e)
  have h3 : (e ^ 2 + 2 * (n + e)) * (C * (n + e) + 3 * ((n + e) ^ 3 - ε)) ≤
      (q - n) * (n + e) * (C * (n + e) + 3 * ((n + e) ^ 3 - ε)) := by
    apply mul_le_mul_of_nonneg_right _ hweight
    rw [add_sub_cancel_left] at hfar
    exact (not_le.mp hfar).le
  have h4 : (n + e) ^ 2 * T < (n + e) ^ 2 * ((n + 1) ^ 3 + C * (n + 1)) := by
    apply mul_lt_mul_of_pos_left _ (by positivity)
    linarith
  have h5 := mul_le_mul_of_nonneg_left h (by omega : 0 ≤ n + e)
  have h6 : 0 ≤ C * (n + e) * e ^ 2 := by positivity
  have h7 : 0 ≤ (n + e) ^ 2 * e ^ 3 := by positivity
  have h8 : 0 ≤ ε * e * n := by positivity
  have h9 : 0 ≤ (n + e) ^ 2 * (e * (2 * n + e + 1)) := by positivity
  nlinarith only [h2, h3, h4, h5, h6, h7, h8, h9]

/-- From twice the invariant or more the step takes off a quarter at least. -/
theorem Settling.four_mul_newton_le (h : Settling ann x y d) {u : Int} (hu : 0 ≤ u)
    (hud : 2 * u ≤ d) (habove : 0 < poly ann x y u) : 4 * newton ann x y d ≤ 3 * d := by
  have hden := newton_den_pos hann hx hy hd
  have hC : 0 ≤ 4 * x * y * (ann - 1) := mul_nonneg (by positivity) (by omega)
  have hxy : 0 < 4 * x * y := by positivity
  have hcube : 8 * u ^ 3 ≤ d ^ 3 := by
    have := pow_le_pow_left₀ (by omega : 0 ≤ 2 * u) hud 3
    linarith
  have hlinear := mul_le_mul_of_nonneg_left hud hC
  have hloss : 2 * lost x y d ≤ d ^ 3 + 2 * (4 * x * y * (ann - 1)) := by
    by_contra hmore
    have := mul_lt_mul_of_pos_right (not_le.mp hmore) (by omega : 0 < d + 6)
    have hfourth : 0 ≤ d ^ 4 + 6 * d ^ 2 + 2 * d := by positivity
    simp only [Settling] at h
    linarith
  have hquarter : 4 * (ann * (x + y) + flooredRatio x y d * 2) ≤
      3 * (d * (ann - 1) + flooredRatio x y d * (2 + 1)) := by
    refine le_of_mul_le_mul_left ?_ hxy
    simp only [poly] at habove
    simp only [lost] at hloss
    nlinarith
  have hfloor := Int.ediv_mul_le (d * (ann * (x + y) + flooredRatio x y d * 2)) hden.ne'
  rw [← newton] at hfloor
  refine le_of_mul_le_mul_right ?_ hden
  have := mul_le_mul_of_nonneg_left hquarter (by omega : 0 ≤ d)
  linarith

/-- A step that moves by one at most ends no more than one above the invariant. -/
theorem Settling.poly_newton_pred_le (h : Settling ann x y d) (hlo : d - 1 ≤ newton ann x y d)
    (hhi : newton ann x y d ≤ d + 1) : poly ann x y (newton ann x y d - 1) ≤ 0 := by
  have hlost := lost_nonneg hx hy (by omega : 0 ≤ d)
  have hC : 4 ≤ 4 * x * y * (ann - 1) := by
    have : 1 ≤ x * y * (ann - 1) := by
      have := mul_pos (mul_pos hx hy) (by omega : 0 < ann - 1)
      omega
    linarith
  have hstep := newton_mul_le hann hx hy hd
  refine nonpos_of_mul_nonpos_right (a := d) ?_ (by omega)
  simp only [Settling] at h
  simp only [poly]
  obtain hq | hq | hq : newton ann x y d = d + 1 ∨ newton ann x y d = d ∨ newton ann x y d = d - 1 := by omega
  · rw [hq] at hstep ⊢
    nlinarith
  · rw [hq] at hstep ⊢
    nlinarith
  · have hloss : lost x y d * (d - 3) ≤ d * (3 * d ^ 2 - 12 * d + 8 + 4 * x * y * (ann - 1)) := by
      rcases le_or_gt d 3 with hsmall | hlarge
      · have hneg : lost x y d * (d - 3) ≤ 0 := mul_nonpos_of_nonneg_of_nonpos hlost (by omega)
        refine hneg.trans (mul_nonneg (by omega) ?_)
        interval_cases d <;> linarith
      · refine le_of_mul_le_mul_right ?_ (by omega : 0 < d + 6)
        have hscaled := mul_le_mul_of_nonneg_right h (by omega : 0 ≤ d - 3)
        have hspare : 0 ≤ d * (18 * d ^ 2 - 72 * d + 45 + 9 * (4 * x * y * (ann - 1))) := by
          apply mul_nonneg (by omega)
          nlinarith
        linarith
    rw [hq] at hstep ⊢
    linarith

end Step

end StableCurve
