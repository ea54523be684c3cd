import DynamicAmm.Base.QuadraticNewton
import DynamicAmm.Proof.Curve.Accuracy

/-!
# How accurate the balance is

Up to a quarter of a million of amplification the loop for the balance is over before the cap, and its result
is less than one above the root of its quadratic. With an invariant that is at most one too large, what a
stable swap pays falls short of what the curve gives by two units at most.
-/

namespace DynamicAmm.Client

open Js BoundedLoop StableCurve Convergence QuadraticNewton

variable {amp x d b c t Y : Int}

/-- Balances and an invariant for which the loop comes near the root. -/
structure Approachable (amp x d : Int) : Prop where
  amp_pos : 1 ≤ amp
  amp_le : amp ≤ 2 ^ 18
  pos : 1 ≤ x
  lt : x < 2 ^ 117
  invariant_pos : 1 ≤ d
  invariant_lt : d < 2 ^ 117
  invariant_le : d ≤ 2 ^ 20 * (amp * 2) * x

namespace Approachable

variable (h : Approachable amp x d)

include h

theorem quadraticB_bounds : x - d ≤ quadraticB amp x d ∧ quadraticB amp x d ≤ x := by
  have hpos := h.invariant_pos
  have hnonneg : 0 ≤ d / (amp * 2) := Int.ediv_nonneg (by omega) (by linarith [h.amp_pos])
  have hle : d / (amp * 2) ≤ d := Int.ediv_le_self _ (by omega)
  simp only [quadraticB]
  omega

theorem quadraticC_bounds :
    d ^ 3 < (quadraticC amp x d + 1) * (4 * x * (amp * 2)) ∧ quadraticC amp x d ≤ 2 ^ 18 * d ^ 2 := by
  have hamp := h.amp_pos
  have hx := h.pos
  have hpos : 0 < 4 * x * (amp * 2) := by positivity
  refine ⟨Int.lt_ediv_add_one_mul_self _ hpos, ?_⟩
  refine Int.ediv_le_of_le_mul hpos ?_
  have := mul_le_mul_of_nonneg_left h.invariant_le (sq_nonneg d)
  linarith

variable {r r' : ℝ} (hroots : Roots (quadraticB amp x d) (quadraticC amp x d + 1) r r')

include hroots

theorem gap_lt : 1 + (r - r') < 2 ^ 2 ^ 7 := by
  obtain ⟨hlow, hhigh⟩ := h.quadraticB_bounds
  have hx := h.pos
  have hd := h.invariant_pos
  have hsquare : quadraticB amp x d ^ 2 + 4 * (quadraticC amp x d + 1) < (2 ^ 128 - 1) ^ 2 := by
    have hb : quadraticB amp x d ^ 2 ≤ (2 ^ 117) ^ 2 :=
      sq_le_sq' (by linarith [h.invariant_lt]) (by linarith [h.lt])
    have hd' : d ^ 2 ≤ (2 ^ 117) ^ 2 := pow_le_pow_left₀ (by omega) h.invariant_lt.le 2
    have := h.quadraticC_bounds.2
    linarith
  have hgap : (r - r') ^ 2 < (2 ^ 128 - 1) ^ 2 := by
    rw [hroots.sq_gap]
    exact_mod_cast hsquare
  have hlt := lt_of_pow_lt_pow_left₀ 2 (by norm_num) hgap
  norm_num at hlt ⊢
  linarith

/-- The roots are not too near each other. -/
theorem sub_le_gap : d - r' ≤ 2 ^ 12 * (r - r') := by
  have hd : (1 : ℝ) ≤ d := by exact_mod_cast h.invariant_pos
  have hlow : (x : ℝ) - d ≤ quadraticB amp x d := by exact_mod_cast h.quadraticB_bounds.1
  have hhigh : (quadraticB amp x d : ℝ) ≤ x := by exact_mod_cast h.quadraticB_bounds.2
  have hsum := hroots.sum
  have hpos := hroots.pos
  have hneg := hroots.neg
  rcases le_or_gt (2 * d) x with hfar | hnear
  · have hfar' : 2 * (d : ℝ) ≤ x := by exact_mod_cast hfar
    linarith
  · have hnear' : (x : ℝ) < 2 * d := by exact_mod_cast hnear
    have hconstant : d ^ 2 ≤ (2 ^ 10) ^ 2 * (4 * (quadraticC amp x d + 1)) := by
      have hC := quadraticC_nonneg h.amp_pos h.pos (by linarith [h.invariant_pos] : 0 ≤ d)
      have hproduct : x * amp ≤ 2 * d * 2 ^ 18 :=
        mul_le_mul hnear.le h.amp_le (by linarith [h.amp_pos]) (by linarith [h.invariant_pos])
      have hscaled := mul_le_mul_of_nonneg_left hproduct (by linarith : 0 ≤ quadraticC amp x d + 1)
      have hcube := h.quadraticC_bounds.1
      refine le_of_mul_le_mul_right ?_ (by linarith [h.invariant_pos] : 0 < d)
      linarith
    have hgap : (d : ℝ) ≤ 2 ^ 10 * (r - r') := by
      refine le_of_sq_le_sq ?_ (by linarith)
      have hcast : (d : ℝ) ^ 2 ≤ (2 ^ 10) ^ 2 * (4 * (quadraticC amp x d + 1)) := by exact_mod_cast hconstant
      have := sq_nonneg (quadraticB amp x d : ℝ)
      rw [mul_pow, hroots.sq_gap]
      linarith
    linarith

/-- The root is not too far above the invariant. -/
theorem root_le : r ≤ 2 ^ 12 * d := by
  have hd := h.invariant_pos
  apply hroots.le_of_eval
  · exact_mod_cast (by omega : 0 ≤ 2 ^ 12 * d)
  · have hlow := h.quadraticB_bounds.1
    have hhigh := h.quadraticC_bounds.2
    have hx := h.pos
    have hscaled := mul_le_mul_of_nonneg_right hlow (by omega : 0 ≤ 2 ^ 12 * d)
    have hproduct : 0 ≤ x * d := by positivity
    have hsquare : 1 ≤ d ^ 2 := one_le_pow₀ hd
    exact_mod_cast (by linarith :
      quadraticC amp x d + 1 ≤ (2 ^ 12 * d) ^ 2 + quadraticB amp x d * (2 ^ 12 * d))

theorem ratio_le : 1 ≤ 2 ^ 12 * (1 - |ratio r r' d|) := by
  have hd : (1 : ℝ) ≤ d := by exact_mod_cast h.invariant_pos
  have hx : (1 : ℝ) ≤ x := by exact_mod_cast h.pos
  have hlow : (x : ℝ) - d ≤ quadraticB amp x d := by exact_mod_cast h.quadraticB_bounds.1
  have hsum := hroots.sum
  have hneg := hroots.neg
  have hpositive : 0 < d - r' := by linarith
  rw [ratio, abs_div, abs_of_pos hpositive, one_sub_div hpositive.ne', ← mul_div_assoc, one_le_div₀ hpositive]
  rcases le_total r d with hle | hle
  · rw [abs_of_nonneg (by linarith)]
    linarith [h.sub_le_gap hroots]
  · rw [abs_of_nonpos (by linarith)]
    linarith [h.root_le hroots]

theorem slows : Slows (newtonStep (quadraticB amp x d) (quadraticC amp x d)) 19 d := by
  have hd := h.invariant_pos
  have hC := quadraticC_nonneg h.amp_pos h.pos (by omega : 0 ≤ d)
  apply slows_of_start hroots hC 18 (by omega) (computeY_first_divisor h.amp_pos h.pos (by omega))
  refine ratio_pow_mul_lt (i := 12) (j := 7) (abs_nonneg _) (h.ratio_le hroots) ?_ (h.gap_lt hroots)
  linarith [hroots.neg, hroots.pos]

end Approachable

/-! ### The loop -/

theorem steps_computeY (hc : 0 ≤ c) : Steps (computeYStep b c) (newtonStep b c) (Divisible b) where
  step _ hs hmoving := computeYStep_newton hc (hs.divisor hmoving)
  keeps _ hs hmoving := by
    obtain ⟨s', hs', habove⟩ := computeYStep_ok hc hs.nonneg (hs.divisor hmoving)
    obtain rfl := Except.ok.inj ((computeYStep_newton hc (hs.divisor hmoving)).symm.trans hs')
    exact ⟨habove.nonneg, habove.divisor⟩

/-- The result is not above a number where the quadratic is positive. -/
theorem computeY_le (h : Approachable amp x d) (ht : 1 ≤ t)
    (hpos : quadraticC amp x d < t ^ 2 + quadraticB amp x d * t) (hY : computeY amp x d = .ok Y) : Y ≤ t := by
  have hd : 0 ≤ d := by linarith [h.invariant_pos]
  have hC := quadraticC_nonneg h.amp_pos h.pos hd
  obtain ⟨r, r', hroots⟩ := exists_roots (quadraticB amp x d)
    (by exact_mod_cast (by omega : 0 < quadraticC amp x d + 1) : (0 : ℝ) < quadraticC amp x d + 1)
  have hsteps := steps_computeY (b := quadraticB amp x d) hC
  have hstart : Divisible (quadraticB amp x d) ⟨0, d⟩ :=
    ⟨hd, fun _ => computeY_first_divisor h.amp_pos h.pos hd⟩
  obtain ⟨s, hloop, hstopped⟩ := hsteps.loopWhile_of_slows (h.slows hroots) 0 hstart
  change loopWhile Iterate.moving _ maxIters _ = _ at hloop
  rw [computeY_eq h.amp_pos h.pos hd, hloop] at hY
  obtain rfl : s.cur = Y := Except.ok.inj hY
  cases hmoving : Iterate.moving ⟨0, d⟩ with
  | false =>
      rw [loopWhile_of_not _ hmoving, Except.ok.injEq] at hloop
      have hsmall := Iterate.moving_eq_false.mp hmoving
      rw [← hloop]
      simp only at hsmall ⊢
      omega
  | true =>
      obtain ⟨prev, hprev, hprevMoving, hcur, hlast⟩ :=
        hsteps.last_of_visits hstart hmoving (visits_of_loopWhile hloop) hstopped
      rw [Iterate.moving_eq_false] at hstopped
      have hroot : (s.cur : ℝ) < r + 1 := by
        rw [hlast]
        apply newtonStep_lt_root_succ hroots
        · rw [hcur]
          exact hprev.divisor hprevMoving
        · omega
        · omega
      have hle : r ≤ t := by
        apply hroots.le_of_eval
        · exact_mod_cast (by omega : 0 ≤ t)
        · exact_mod_cast hpos
      have : (s.cur : ℝ) < t + 1 := by linarith
      have : s.cur < t + 1 := by exact_mod_cast this
      omega

/-- Where the invariant leaves room for one unit less, it leaves the floored quadratic room. -/
theorem quadratic_pos_of_poly (hamp : 1 ≤ amp) (hx : 1 ≤ x) (hd : 1 ≤ d) (ht : 0 ≤ t)
    (hpoly : poly (amp * 2) x t d ≤ 0) :
    quadraticC amp x d < (t + 1) ^ 2 + quadraticB amp x d * (t + 1) := by
  have hpos : 0 < 4 * x * (amp * 2) := by positivity
  have hcube : 0 < d ^ 3 := by positivity
  have hsplit : poly (amp * 2) x t d = d ^ 3 - 4 * x * t * (amp * 2 * (x + t - d) + d) := by
    simp only [poly]
    ring
  rw [hsplit] at hpoly
  have hbracket : 0 < amp * 2 * (x + t - d) + d := by
    by_contra hneg
    have : 4 * x * t * (amp * 2 * (x + t - d) + d) ≤ 0 :=
      mul_nonpos_of_nonneg_of_nonpos (by positivity) (not_lt.mp hneg)
    omega
  have hquotient : d < (d / (amp * 2) + 1) * (amp * 2) := Int.lt_ediv_add_one_mul_self _ (by omega)
  refine lt_of_mul_lt_mul_right ((Int.ediv_mul_le _ hpos.ne').trans_lt ?_) hpos.le
  have hroom : 4 * x * (t + 1) * (amp * 2 * (x + t - d) + d + 1) ≤
      ((t + 1) ^ 2 + quadraticB amp x d * (t + 1)) * (4 * x * (amp * 2)) := by
    have hscaled := mul_le_mul_of_nonneg_left (by omega : d + 1 ≤ (d / (amp * 2) + 1) * (amp * 2))
      (by positivity : 0 ≤ 4 * x * (t + 1))
    simp only [quadraticB]
    linarith
  have hx' : 0 < x * (t + amp * 2 * (x + t - d) + d + 1) := mul_pos (by omega) (by omega)
  linarith

/-- The balance is at most one above the one that the invariant leaves room for. -/
theorem computeY_le_of_poly (h : Approachable amp x d) (ht : 0 ≤ t) (hpoly : poly (amp * 2) x t d ≤ 0)
    (hY : computeY amp x d = .ok Y) : Y ≤ t + 1 :=
  computeY_le h (by omega) (quadratic_pos_of_poly h.amp_pos h.pos h.invariant_pos ht hpoly) hY

/-! ### A swap -/

/-- The solvers come near enough, and the invariant of the balances after the swap is past a whole number that the
one before has not reached, though it takes two units out, less those of a token. -/
structure Covered (amp x y s unit : Int) : Prop where
  amp_pos : 1 ≤ amp
  amp_le : amp ≤ 2 ^ 18
  source_pos : 1 ≤ x
  source_lt : x < 2 ^ 116
  destination_pos : 1 ≤ y
  destination_lt : y < 2 ^ 116
  amount_nonneg : 0 ≤ s
  amount_lt : s < 2 ^ 116
  unit_pos : 1 ≤ unit
  source_le : x ≤ 8 * amp * y
  destination_le : y ≤ 50000 * amp * x
  three_le : 3 ≤ y + unit
  raised : ∃ e, 0 ≤ e ∧ 0 < poly (amp * 2) x y e ∧ poly (amp * 2) (x + s) (y + unit - 3) e ≤ 0

/-- What a covered swap asks for is less than the units of a token. -/
theorem Covered.computeY_lt {y s unit D : Int} (h : Covered amp x y s unit) (hD : computeD amp x y = .ok D)
    (hY : computeY amp (x + s) D = .ok Y) : Y + 1 < y + unit := by
  obtain ⟨e, he, habove, hbelow⟩ := h.raised
  have hamp := h.amp_pos
  have hx := h.source_pos
  have hy := h.destination_pos
  have hs := h.amount_nonneg
  have hthree := h.three_le
  -- The computed invariant is at most one above the exact one, so it is not above the whole number.
  have hpred := computeD_pred_nonpos hamp hx hy (by linarith [h.source_lt]) (by linarith [h.destination_lt])
    h.source_le h.destination_le hD
  have hlt : D - 1 < e := lt_of_poly (by omega) (by omega) (by omega) he hpred habove
  obtain ⟨-, d, hd, hpos, hsum, -⟩ := computeD_brackets hamp hx hy
  obtain rfl : D = d := Except.ok.inj (hD.symm.trans hd)
  have hpoly : poly (amp * 2) (x + s) (y + unit - 3) D ≤ 0 :=
    (poly_mono (by omega) (by omega) (by omega) (by omega) (by omega)).trans hbelow
  have happroachable : Approachable amp (x + s) D := by
    refine ⟨hamp, h.amp_le, by omega, ?_, hpos, ?_, ?_⟩
    · linarith [h.source_lt, h.amount_lt]
    · linarith [h.source_lt, h.destination_lt]
    · have hscaled : 0 ≤ amp * s := mul_nonneg (by omega) hs
      have hsource : x ≤ amp * x := le_mul_of_one_le_left (by omega) hamp
      linarith [h.destination_le]
  have := computeY_le_of_poly happroachable (by omega) hpoly hY
  omega

end DynamicAmm.Client
