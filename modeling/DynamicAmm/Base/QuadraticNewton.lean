import DynamicAmm.Base.Convergence

/-!
# Newton's iteration for the root of a quadratic

The step is rounded down, so it loses to the exact one for `t ^ 2 + b * t - c` and loses strictly to the one
for a constant that is larger by one. The exact steps square the ratio of the distances to the two roots, and
that is enough to say how many steps it takes until one moves by one at most, and how near the root it ends.
-/

namespace QuadraticNewton

open Convergence

/-! ### The roots -/

/-- The roots of `t ^ 2 + b * t - c`, of either sign. -/
structure Roots (b c r r' : ℝ) : Prop where
  sum : r + r' = -b
  product : r * r' = -c
  neg : r' < 0
  pos : 0 < r

theorem exists_roots (b : ℝ) {c : ℝ} (hc : 0 < c) : ∃ r r', Roots b c r r' := by
  have hlt : |b| < √(b ^ 2 + 4 * c) := by
    rw [← Real.sqrt_sq_eq_abs]
    exact Real.sqrt_lt_sqrt (sq_nonneg b) (by linarith)
  have hsquare := Real.sq_sqrt (by positivity : 0 ≤ b ^ 2 + 4 * c)
  obtain ⟨hlow, hhigh⟩ := abs_lt.mp hlt
  refine ⟨(-b + √(b ^ 2 + 4 * c)) / 2, (-b - √(b ^ 2 + 4 * c)) / 2, ?_, ?_, ?_, ?_⟩
  · ring
  · linear_combination -(1 / 4) * hsquare
  · linarith
  · linarith

namespace Roots

variable {b c r r' t : ℝ} (h : Roots b c r r')

include h

theorem eval (t : ℝ) : t ^ 2 + b * t - c = (t - r) * (t - r') := by
  linear_combination t * h.sum - h.product

theorem slope (t : ℝ) : 2 * t + b = (t - r) + (t - r') := by
  linear_combination h.sum

theorem sq_gap : (r - r') ^ 2 = b ^ 2 + 4 * c := by
  linear_combination (r + r' - b) * h.sum - 4 * h.product

theorem le_of_eval (ht : 0 ≤ t) (hle : c ≤ t ^ 2 + b * t) : r ≤ t := by
  have hneg := h.neg
  have hprod : 0 ≤ (t - r) * (t - r') := by
    rw [← h.eval]
    linarith
  exact sub_nonneg.mp (nonneg_of_mul_nonneg_left hprod (by linarith))

theorem eval_of_le (hle : r ≤ t) : c ≤ t ^ 2 + b * t := by
  have hneg := h.neg
  have hpos := h.pos
  have : 0 ≤ (t - r) * (t - r') := mul_nonneg (by linarith) (by linarith)
  linarith [h.eval t]

/-- What is not above the exact step has at most the squared ratio. -/
theorem ratio_le {q : ℝ} (hq : q * (2 * t + b) ≤ t ^ 2 + c) :
    (q - r) * (t - r') ^ 2 ≤ (q - r') * (t - r) ^ 2 := by
  have hgap : 0 ≤ r - r' := by linarith [h.neg, h.pos]
  have hscaled := mul_le_mul_of_nonneg_left hq hgap
  linear_combination hscaled + (r - r') * q * (-h.sum) + (r - r') * h.product

end Roots

/-! ### The rounded steps -/

def newtonStep (b c t : Int) : Int := (t * t + c) / (2 * t + b)

/-- What every step leads to: not below the root by one or more, and on the side of it where the quadratic rises. -/
structure Above (b c t : Int) : Prop where
  nonneg : 0 ≤ t
  slope : 0 ≤ t + b
  above : c < (t + 1) ^ 2 + b * (t + 1)

variable {b c t : Int}

theorem newtonStep_mul_le (hslope : 0 < 2 * t + b) : newtonStep b c t * (2 * t + b) ≤ t ^ 2 + c := by
  rw [sq]
  exact Int.ediv_mul_le _ hslope.ne'

theorem above_newtonStep (hc : 0 ≤ c) (ht : 0 ≤ t) (hslope : 0 < 2 * t + b) : Above b c (newtonStep b c t) := by
  have hlt : t * t + c < (newtonStep b c t + 1) * (2 * t + b) := Int.lt_ediv_add_one_mul_self _ hslope
  refine ⟨Int.ediv_nonneg (by positivity) hslope.le, ?_, ?_⟩
  · by_contra hneg
    have hstep : (newtonStep b c t + 1) * (2 * t + b) ≤ -b * (2 * t + b) :=
      mul_le_mul_of_nonneg_right (by omega) hslope.le
    have hsquare : 0 ≤ (t + b) ^ 2 := by positivity
    linarith
  · have hsquare : 0 ≤ (newtonStep b c t + 1 - t) ^ 2 := by positivity
    linarith

namespace Above

variable (h : Above b c t)

include h

/-- The step goes up by one at most. -/
theorem newtonStep_le_succ : newtonStep b c t ≤ t + 1 := by
  have hnonneg := h.nonneg
  have habove := h.above
  rcases (by linarith [h.slope] : 0 ≤ 2 * t + b).eq_or_lt with hzero | hpos
  · rw [newtonStep, ← hzero, Int.ediv_zero]
    omega
  · refine Int.ediv_le_of_le_mul hpos ?_
    linarith

/-- Where the quadratic is not positive, the step does not go down. -/
theorem le_newtonStep (hle : t ^ 2 + b * t ≤ c) : t - 1 ≤ newtonStep b c t := by
  have hnonneg := h.nonneg
  have hslope := h.slope
  rcases (by omega : 0 ≤ 2 * t + b).eq_or_lt with hzero | hpos
  · rw [newtonStep, ← hzero, Int.ediv_zero]
    omega
  · refine (by omega : t - 1 ≤ t).trans ?_
    rw [newtonStep, Int.le_ediv_iff_mul_le hpos]
    linarith

end Above

/-! ### How many steps it takes -/

/-- The distances to the roots, one in terms of the other. -/
noncomputable def ratio (r r' t : ℝ) : ℝ := (t - r) / (t - r')

theorem ratio_pow_mul_lt {σ y : ℝ} {i j : Nat} (hσ : 0 ≤ σ) (hi : 1 ≤ 2 ^ i * (1 - σ)) (hy : 0 ≤ y)
    (hj : y < 2 ^ 2 ^ j) : σ ^ 2 ^ (i + j) * y < 1 := by
  have hone : σ ≤ 1 := by
    by_contra hmore
    have : (2 : ℝ) ^ i * (1 - σ) ≤ 0 := mul_nonpos_of_nonneg_of_nonpos (by positivity) (by linarith)
    linarith
  have hhalf : σ ^ 2 ^ i ≤ 1 / 2 := by
    have hgrows : 2 ≤ (1 + (1 - σ)) ^ 2 ^ i := by
      have := one_add_mul_le_pow (by linarith : (-2 : ℝ) ≤ 1 - σ) (2 ^ i)
      push_cast at this
      linarith
    have hshrinks : (σ * (1 + (1 - σ))) ^ 2 ^ i ≤ 1 :=
      pow_le_one₀ (mul_nonneg hσ (by linarith)) (by nlinarith [sq_nonneg (1 - σ)])
    rw [mul_pow] at hshrinks
    have := mul_le_mul_of_nonneg_left hgrows (pow_nonneg hσ (2 ^ i))
    linarith
  calc σ ^ 2 ^ (i + j) * y = (σ ^ 2 ^ i) ^ 2 ^ j * y := by rw [pow_add, pow_mul]
    _ ≤ (1 / 2) ^ 2 ^ j * y :=
        mul_le_mul_of_nonneg_right (pow_le_pow_left₀ (pow_nonneg hσ _) hhalf _) hy
    _ < (1 / 2) ^ 2 ^ j * 2 ^ 2 ^ j := mul_lt_mul_of_pos_left hj (by positivity)
    _ = 1 := by rw [← mul_pow]; norm_num

section Steps

variable {r r' : ℝ} (h : Roots b (c + 1) r r')

include h

theorem Above.root_le_succ (ht : Above b c t) : r ≤ t + 1 := by
  apply h.le_of_eval
  · exact_mod_cast (by linarith [ht.nonneg] : 0 ≤ t + 1)
  · exact_mod_cast (by linarith [ht.above] : c + 1 ≤ (t + 1) ^ 2 + b * (t + 1))

theorem slope_pos (hle : r ≤ t) : 0 < 2 * t + b := by
  have : (0 : ℝ) < 2 * t + b := by linarith [h.slope t, h.neg, h.pos]
  exact_mod_cast this

theorem newtonStep_le (hle : r ≤ t) : newtonStep b c t ≤ t := by
  have heval : c + 1 ≤ t ^ 2 + b * t := by exact_mod_cast h.eval_of_le hle
  apply Int.ediv_le_of_le_mul (slope_pos h hle)
  linarith

theorem ratio_newtonStep_le (hslope : 0 < 2 * t + b) (hle : r ≤ newtonStep b c t) :
    ratio r r' (newtonStep b c t) ≤ ratio r r' t ^ 2 := by
  have hneg := h.neg
  have hpos := h.pos
  have hslope' : (0 : ℝ) < 2 * t + b := by exact_mod_cast hslope
  have hstep : (newtonStep b c t : ℝ) * (2 * t + b) ≤ t ^ 2 + (c + 1) := by
    have := newtonStep_mul_le (c := c) hslope
    have hcast : (newtonStep b c t : ℝ) * (2 * t + b) ≤ t ^ 2 + c := by exact_mod_cast this
    linarith
  rw [h.slope] at hslope'
  rw [ratio, ratio, div_pow, div_le_div_iff₀ (by linarith) (by apply pow_pos; linarith), mul_comm _ ((_ : ℝ) - r')]
  linarith [h.ratio_le hstep]

/-- Less than one below the root, the next step moves by one at most. -/
theorem Above.slows (ht : Above b c t) (hlt : t < r) (k : Nat) : Slows (newtonStep b c) k t := by
  apply Slows.now _ ht.newtonStep_le_succ
  apply ht.le_newtonStep
  by_contra hmore
  refine absurd (h.le_of_eval (by exact_mod_cast ht.nonneg) ?_) (not_le.mpr hlt)
  exact_mod_cast (by omega : c + 1 ≤ t ^ 2 + b * t)

theorem slows_of_ratio (hc : 0 ≤ c) (k : Nat) (hle : r ≤ t)
    (hnear : ratio r r' t ^ 2 ^ k * (1 + (r - r')) < 1) : Slows (newtonStep b c) k t := by
  have hneg := h.neg
  have hpos := h.pos
  induction k generalizing t with
  | zero =>
      have habove := above_newtonStep hc (by exact_mod_cast (hpos.trans_le hle).le) (slope_pos h hle)
      have hroot := habove.root_le_succ h
      have hclose : (t : ℝ) - r < 1 := by
        rw [pow_zero, pow_one, ratio, div_mul_eq_mul_div, div_lt_one (by linarith)] at hnear
        nlinarith
      apply Slows.now
      · have : (t : ℝ) - 2 < newtonStep b c t := by linarith
        have : t - 2 < newtonStep b c t := by exact_mod_cast this
        omega
      · have := newtonStep_le h hle
        omega
  | succ k ih =>
      apply Slows.later
      have habove := above_newtonStep hc (by exact_mod_cast (hpos.trans_le hle).le) (slope_pos h hle)
      rcases lt_or_ge (newtonStep b c t : ℝ) r with hbelow | hle'
      · exact habove.slows h hbelow k
      · refine ih hle' (lt_of_le_of_lt ?_ hnear)
        have hratio : 0 ≤ ratio r r' (newtonStep b c t) := div_nonneg (by linarith) (by linarith)
        rw [pow_succ' 2 k, pow_mul]
        exact mul_le_mul_of_nonneg_right
          (pow_le_pow_left₀ hratio (ratio_newtonStep_le h (slope_pos h hle) hle') _) (by linarith)

/-- The first step may start on either side of the root. -/
theorem slows_of_start (hc : 0 ≤ c) (k : Nat) (ht : 0 ≤ t) (hslope : 0 < 2 * t + b)
    (hnear : |ratio r r' t| ^ 2 ^ (k + 1) * (1 + (r - r')) < 1) : Slows (newtonStep b c) (k + 1) t := by
  have hneg := h.neg
  have hpos := h.pos
  apply Slows.later
  have habove := above_newtonStep hc ht hslope
  rcases lt_or_ge (newtonStep b c t : ℝ) r with hbelow | hle
  · exact habove.slows h hbelow k
  · refine slows_of_ratio h hc k hle (lt_of_le_of_lt ?_ hnear)
    have hratio : 0 ≤ ratio r r' (newtonStep b c t) := div_nonneg (by linarith) (by linarith)
    rw [pow_succ' 2 k, pow_mul, sq_abs]
    exact mul_le_mul_of_nonneg_right (pow_le_pow_left₀ hratio (ratio_newtonStep_le h hslope hle) _) (by linarith)

/-- A step that moves by one at most ends less than one above the root. -/
theorem newtonStep_lt_root_succ (hslope : 0 < 2 * t + b) (hlo : t - 1 ≤ newtonStep b c t)
    (hhi : newtonStep b c t ≤ t + 1) : newtonStep b c t < r + 1 := by
  have hlo' : (t : ℝ) - 1 ≤ newtonStep b c t := by exact_mod_cast hlo
  have hhi' : (newtonStep b c t : ℝ) ≤ t + 1 := by exact_mod_cast hhi
  rcases lt_or_ge (t : ℝ) r with hlt | hle
  · linarith
  · by_contra hfar
    have hstep : (newtonStep b c t : ℝ) * (2 * t + b) ≤ t ^ 2 + c := by
      exact_mod_cast newtonStep_mul_le (c := c) hslope
    have hdouble : ((newtonStep b c t : ℝ) - r) * (2 * (t - r)) < (t - r) ^ 2 := by
      have hgap : (0 : ℝ) ≤ (newtonStep b c t - r) * (r - r') :=
        mul_nonneg (by linarith) (by linarith [h.neg, h.pos])
      linear_combination hstep + hgap - (newtonStep b c t : ℝ) * h.sum + h.product
    nlinarith

end Steps

end QuadraticNewton
