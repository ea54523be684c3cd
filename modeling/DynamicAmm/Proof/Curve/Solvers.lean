import DynamicAmm.Base.QuadraticNewton
import DynamicAmm.Base.StableCurve
import DynamicAmm.Client.Calculator

/-!
# What the two solvers guarantee

Neither loop divides by zero, and each ends, by its test or by its cap, at a number whose successor is
strictly on the far side of the root: the invariant of the balances is below `d + 1`, and the balance on
the curve is below `y + 1`. The invariants of the loops are these statements about the current iterate,
with what the next division needs.
-/

namespace DynamicAmm.Client

open Js BoundedLoop StableCurve Convergence QuadraticNewton

theorem abs_le_one {a : Int} : abs a ≤ 1 ↔ -1 ≤ a ∧ a ≤ 1 := by
  unfold abs
  split <;> omega

theorem Iterate.moving_eq_false {s : Iterate} :
    s.moving = false ↔ -1 ≤ s.cur - s.prev ∧ s.cur - s.prev ≤ 1 := by
  rw [← abs_le_one, Iterate.moving, decide_eq_false_iff_not, not_lt]

/-! ### Loops by a step -/

section Steps

variable {body : Iterate → Throwing Iterate} {next : Int → Int} {Inv : Iterate → Prop} {start s : Iterate}

/-- From states of a kind, the body of a loop steps by `next` to states of the kind. -/
structure Steps (body : Iterate → Throwing Iterate) (next : Int → Int) (Inv : Iterate → Prop) : Prop where
  step : ∀ s, Inv s → s.moving = true → body s = .ok ⟨s.cur, next s.cur⟩
  keeps : ∀ s, Inv s → s.moving = true → Inv ⟨s.cur, next s.cur⟩

/-- What slows down after `k` steps stops the loop after one more. -/
theorem Steps.loopWhile_of_slows (h : Steps body next Inv) {k : Nat} {d : Int} (hslows : Slows next k d)
    (prev : Int) (hstart : Inv ⟨prev, d⟩) :
    ∃ s, loopWhile Iterate.moving body (k + 1) ⟨prev, d⟩ = .ok s ∧ s.moving = false := by
  induction hslows generalizing prev with
  | @now k d hlo hhi =>
      unfold loopWhile
      split
      · rename_i hmoving
        rw [h.step _ hstart hmoving]
        have hstopped : Iterate.moving ⟨d, next d⟩ = false := by
          rw [Iterate.moving_eq_false]
          simp only
          omega
        exact ⟨_, loopWhile_of_not k hstopped, hstopped⟩
      · rename_i hstopped
        exact ⟨_, rfl, by simpa using hstopped⟩
  | @later k d hrest ih =>
      unfold loopWhile
      split
      · rename_i hmoving
        rw [h.step _ hstart hmoving]
        exact ih d (h.keeps _ hstart hmoving)
      · rename_i hstopped
        exact ⟨_, rfl, by simpa using hstopped⟩

/-- The last two iterates, one of them a step from the other. -/
theorem Steps.last_of_visits (h : Steps body next Inv) (hstart : Inv start) (hmoving : start.moving = true)
    {cap : Nat} (hs : Visits Iterate.moving body cap start s) (hstopped : s.moving = false) :
    ∃ t, Inv t ∧ t.moving = true ∧ s.prev = t.cur ∧ s.cur = next s.prev := by
  have hinv : Inv s ∧ (s.moving = true ∨ ∃ t, Inv t ∧ t.moving = true ∧ s.prev = t.cur ∧ s.cur = next s.prev) := by
    apply hs.inv
    · intro t t' ht hmoving hstep
      rw [h.step t ht.1 hmoving, Except.ok.injEq] at hstep
      subst hstep
      exact ⟨h.keeps t ht.1 hmoving, Or.inr ⟨t, ht.1, hmoving, rfl, rfl⟩⟩
    · exact ⟨hstart, Or.inl hmoving⟩
  rcases hinv.2 with hmoving | hlast
  · rw [hstopped] at hmoving
    cases hmoving
  · exact hlast

end Steps

/-! ### The invariant of two balances -/

section Invariant

variable {Ann amp a b : Int}

/-- The successor of the iterate is strictly above the invariant. -/
structure AboveInvariant (Ann a b : Int) (s : Iterate) : Prop where
  pos : 1 ≤ s.cur
  above : 0 < poly Ann a b (s.cur + 1)

/-- The sum of the balances is above the invariant, so the loop starts above it. -/
theorem aboveInvariant_sum (hAnn : 2 ≤ Ann) (ha : 1 ≤ a) (hb : 1 ≤ b) :
    AboveInvariant Ann a b ⟨0, a + b⟩ := by
  refine ⟨by simp only; omega, ?_⟩
  have hsquare : 0 ≤ (a + b) * (a - b) ^ 2 := by positivity
  have hcoef : 0 ≤ 4 * a * b * (Ann - 1) := by
    have : 0 ≤ Ann - 1 := by omega
    positivity
  simp only [poly]
  nlinarith

/-- What the step divides by is at most what it divides. -/
private theorem denominator_le {d p : Int} (hAnn : 2 ≤ Ann) (ha : 1 ≤ a) (hb : 1 ≤ b) (hd : 1 ≤ d)
    (hp : 0 ≤ p) (hpd : 4 * a * b * p ≤ d ^ 3) :
    d * (Ann - 1) + p * (2 + 1) ≤ d * (Ann * (a + b) + p * 2) := by
  have hproduct : d * (Ann - 1) ≤ d * (Ann * (a + b)) := by
    apply mul_le_mul_of_nonneg_left _ (by omega)
    nlinarith
  suffices hcube : p * 3 ≤ d * (p * 2) by linarith
  by_cases hone : d = 1
  · subst hone
    have hab : 1 ≤ a * b := by nlinarith
    have hzero : p ≤ 0 := by nlinarith
    omega
  · have htwo : 2 ≤ d := by omega
    nlinarith

theorem computeDStep_ok (hAnn : 2 ≤ Ann) (ha : 1 ≤ a) (hb : 1 ≤ b) {s : Iterate} (hs : 1 ≤ s.cur) :
    ∃ s', computeDStep Ann a b s = .ok s' ∧ AboveInvariant Ann a b s' := by
  obtain ⟨prev, d⟩ := s
  simp only at hs
  obtain ⟨p₁, hp₁, hp₁0, hp₁le, -⟩ := bigDiv_floor (a := d * d) (b := a * 2) (by positivity) (by omega)
  obtain ⟨p, hp, hp0, hple, -⟩ := bigDiv_floor (a := p₁ * d) (b := b * 2) (by positivity) (by omega)
  -- The product of the two floors is still below the exact quotient.
  have hpd : 4 * a * b * p ≤ d ^ 3 := by
    have h1 : p * (b * 2) * (a * 2) ≤ p₁ * d * (a * 2) := mul_le_mul_of_nonneg_right hple (by omega)
    have h2 : p₁ * (a * 2) * d ≤ d * d * d := mul_le_mul_of_nonneg_right hp₁le (by omega)
    linarith
  have hle := denominator_le hAnn ha hb hs hp0 hpd
  have hden : 0 < d * (Ann - 1) + p * (2 + 1) := by
    have : 0 < d * (Ann - 1) := mul_pos (by omega) (by omega)
    omega
  obtain ⟨q, hq, hq0, -, hlt⟩ := bigDiv_floor (hden.le.trans hle) hden
  refine ⟨⟨d, q⟩, ?_, ?_, ?_⟩
  · simp only [computeDStep, bind_eq_ok, pure_eq_ok]
    exact ⟨p₁, hp₁, p, hp, q, hq, rfl⟩
  · by_contra hsmall
    have hzero : q = 0 := by simp only at hsmall; omega
    subst hzero
    omega
  · apply poly_pos_of_newton (by omega) (by omega) hs (by omega) hp0 hpd
    linarith

theorem computeD_ok (hamp : 1 ≤ amp) (ha : 1 ≤ a) (hb : 1 ≤ b) :
    ∃ d, computeD amp a b = .ok d ∧ 1 ≤ d ∧ 0 < poly (amp * 2) a b (d + 1) := by
  have hAnn : 2 ≤ amp * 2 := by omega
  have hstep : ∀ s, AboveInvariant (amp * 2) a b s → s.moving = true →
      ∃ s', computeDStep (amp * 2) a b s = .ok s' ∧ AboveInvariant (amp * 2) a b s' :=
    fun s hinv _ => computeDStep_ok hAnn ha hb hinv.pos
  obtain ⟨s, hs, hinv⟩ := loopWhile_ok hstep maxIters ⟨0, a + b⟩ (aboveInvariant_sum hAnn ha hb)
  refine ⟨s.cur, ?_, hinv.pos, hinv.above⟩
  have hsum : a + b ≠ 0 := by omega
  simp only [computeD, if_neg hsum, hs]
  rfl

end Invariant

/-! ### The balance on the curve -/

section Balance

variable {amp x d b c : Int}

/-- The successor of the iterate is strictly above the root of `t ^ 2 + b * t - c`. The next divisor
`2 * cur + b` can only vanish when the iterate has stopped moving. -/
structure AboveBalance (b c : Int) (s : Iterate) : Prop where
  nonneg : 0 ≤ s.cur
  slope : 0 ≤ s.cur + b
  divisor : s.moving = true → 0 < 2 * s.cur + b
  above : c < (s.cur + 1) ^ 2 + b * (s.cur + 1)

theorem computeYStep_newton (hc : 0 ≤ c) {s : Iterate} (hslope : 0 < 2 * s.cur + b) :
    computeYStep b c s = .ok ⟨s.cur, newtonStep b c s.cur⟩ := by
  have hsquare : 0 ≤ s.cur * s.cur := mul_self_nonneg _
  simp only [computeYStep, bind_eq_ok, pure_eq_ok]
  exact ⟨_, bigDiv_ok (by omega) hslope, rfl⟩

theorem computeYStep_ok (hc : 0 ≤ c) {s : Iterate} (hs : 0 ≤ s.cur) (hdivisor : 0 < 2 * s.cur + b) :
    ∃ s', computeYStep b c s = .ok s' ∧ AboveBalance b c s' := by
  obtain ⟨hq0, hslope, habove⟩ := above_newtonStep hc hs hdivisor
  refine ⟨⟨s.cur, newtonStep b c s.cur⟩, ?_, hq0, hslope, ?_, habove⟩
  · exact computeYStep_newton hc hdivisor
  · intro hmoving
    by_contra hzero
    obtain ⟨hq, rfl⟩ : newtonStep b c s.cur = 0 ∧ b = 0 := by simp only at hzero hslope; omega
    -- A quotient of zero leaves at most one, and a step from there to zero is the last.
    rw [hq] at habove hmoving
    have hcur : s.cur ≤ 1 := by
      have hlt := Int.lt_ediv_add_one_mul_self (s.cur * s.cur + c) hdivisor
      have hquotient : (s.cur * s.cur + c) / (2 * s.cur + 0) = 0 := hq
      rw [hquotient] at hlt
      nlinarith
    have hstopped : Iterate.moving ⟨s.cur, 0⟩ = false := Iterate.moving_eq_false.mpr (by simp only; omega)
    rw [hstopped] at hmoving
    cases hmoving

/-- The coefficients of the quadratic `t ^ 2 + b * t - c` that the solver solves. -/
def quadraticB (amp x d : Int) : Int := x + d / (amp * 2) - d

def quadraticC (amp x d : Int) : Int := d ^ 3 / (4 * x * (amp * 2))

theorem computeY_eq (hamp : 1 ≤ amp) (hx : 1 ≤ x) (hd : 0 ≤ d) :
    computeY amp x d = (do
      let s ← loopWhile Iterate.moving (computeYStep (quadraticB amp x d) (quadraticC amp x d)) maxIters
        ⟨0, d⟩
      pure s.cur) := by
  have hxAnn : 0 < x * (amp * 2) := by positivity
  have hc : bigDiv (d * d * d) (2 * (2 * (x * (amp * 2)))) = .ok (quadraticC amp x d) := by
    rw [bigDiv_ok (by positivity) (by omega), quadraticC]
    congr 2 <;> ring
  simp only [computeY, bigDiv_ok hd (by omega : 0 < amp * 2), hc, quadraticB]
  rfl

theorem quadraticC_nonneg (hamp : 1 ≤ amp) (hx : 1 ≤ x) (hd : 0 ≤ d) : 0 ≤ quadraticC amp x d := by
  have : 0 ≤ 4 * x * (amp * 2) := by positivity
  exact Int.ediv_nonneg (by positivity) this

theorem computeY_first_divisor (hamp : 1 ≤ amp) (hx : 1 ≤ x) (hd : 0 ≤ d) :
    0 < 2 * d + quadraticB amp x d := by
  have : 0 ≤ d / (amp * 2) := Int.ediv_nonneg hd (by omega)
  simp only [quadraticB]
  omega

/-- Where the loop starts it takes a step, or its start is already on the far side of the root. -/
theorem aboveBalance_start (hamp : 1 ≤ amp) (hx : 1 ≤ x) (hd : 0 ≤ d)
    (hstopped : Iterate.moving ⟨0, d⟩ = false) :
    AboveBalance (quadraticB amp x d) (quadraticC amp x d) ⟨0, d⟩ := by
  have hsmall : d ≤ 1 := by
    have := Iterate.moving_eq_false.mp hstopped
    simp only at this
    omega
  have hquotient : 0 ≤ d / (amp * 2) := Int.ediv_nonneg hd (by omega)
  have hzero : quadraticC amp x d = 0 := by
    have hcube : d ^ 3 ≤ 1 := pow_le_one₀ hd hsmall
    have hdivisor : 1 ≤ x * (amp * 2) := by nlinarith
    exact Int.ediv_eq_zero_of_lt (by positivity) (by linarith)
  refine ⟨hd, ?_, ?_, ?_⟩
  · simp only [quadraticB]
    omega
  · intro hmoving
    rw [hstopped] at hmoving
    cases hmoving
  · have hslope : 0 ≤ quadraticB amp x d * (d + 1) := by
      apply mul_nonneg _ (by omega)
      simp only [quadraticB]
      omega
    have hsquare : 0 < (d + 1) ^ 2 := by positivity
    rw [hzero]
    simp only
    linarith

theorem computeY_loop (hamp : 1 ≤ amp) (hx : 1 ≤ x) (hd : 0 ≤ d) :
    ∃ s, loopWhile Iterate.moving (computeYStep (quadraticB amp x d) (quadraticC amp x d)) maxIters
        ⟨0, d⟩ = .ok s ∧ AboveBalance (quadraticB amp x d) (quadraticC amp x d) s := by
  have hc := quadraticC_nonneg hamp hx hd
  by_cases hmoving : Iterate.moving ⟨0, d⟩ = true
  · exact loopWhile_succ_ok (fun s hs h => computeYStep_ok hc hs.nonneg (hs.divisor h)) 19 hmoving
      (computeYStep_ok hc hd (computeY_first_divisor hamp hx hd))
  · rw [Bool.not_eq_true] at hmoving
    exact ⟨_, loopWhile_of_not maxIters hmoving, aboveBalance_start hamp hx hd hmoving⟩

theorem computeY_ok (hamp : 1 ≤ amp) (hx : 1 ≤ x) (hd : 0 ≤ d) :
    ∃ y, computeY amp x d = .ok y ∧ 0 ≤ y ∧ poly (amp * 2) x (y + 1) d < 0 := by
  have hAnn : 0 < amp * 2 := by omega
  have hxAnn : 0 < 4 * x * (amp * 2) := by positivity
  obtain ⟨s, hs, hinv⟩ := computeY_loop hamp hx hd
  have hpos := hinv.nonneg
  refine ⟨s.cur, ?_, hpos, ?_⟩
  · rw [computeY_eq hamp hx hd, hs]
    rfl
  · apply poly_neg_of_quadratic (b := quadraticB amp x d) (c := quadraticC amp x d) (by omega) hAnn
      (by omega) ?_ ?_ hinv.above
    · have hquotient : d / (amp * 2) * (amp * 2) ≤ d := Int.ediv_mul_le d hAnn.ne'
      simp only [quadraticB]
      linarith
    · exact Int.lt_ediv_add_one_mul_self _ hxAnn

end Balance

end DynamicAmm.Client
