import DynamicAmm.Base.StableSettling
import DynamicAmm.Proof.Curve.Swaps

/-!
# The iterates of the two solvers

Every number that a solver comes to, and not only its result, lies between bounds: the invariant's
iterates between one and the sum of the balances, and no more than one below the invariant, the balance's
iterates at zero or above, and no more than one below the curve.
-/

namespace DynamicAmm.Client

open Js BoundedLoop StableCurve

/-! ### The invariant of two balances -/

section Invariant

variable {Ann amp a b : Int}

/-- The three divisions of a step, each with its divisor. -/
structure Divides (Ann a b : Int) (s : Iterate) (dP₁ dP next : Int) : Prop where
  first_ne : a * 2 ≠ 0
  first : bigDiv (s.cur * s.cur) (a * 2) = .ok dP₁
  second_ne : b * 2 ≠ 0
  second : bigDiv (dP₁ * s.cur) (b * 2) = .ok dP
  third_ne : s.cur * (Ann - 1) + dP * (2 + 1) ≠ 0
  third : bigDiv (s.cur * (Ann * (a + b) + dP * 2)) (s.cur * (Ann - 1) + dP * (2 + 1)) = .ok next

theorem Divides.computeDStep_eq {s : Iterate} {dP₁ dP next : Int} (h : Divides Ann a b s dP₁ dP next) :
    computeDStep Ann a b s = .ok ⟨s.cur, next⟩ := by
  simp only [computeDStep, bind_eq_ok, pure_eq_ok]
  exact ⟨dP₁, h.first, dP, h.second, next, h.third, rfl⟩

theorem divides (hAnn : 2 ≤ Ann) (ha : 1 ≤ a) (hb : 1 ≤ b) {s : Iterate} (hs : 1 ≤ s.cur) :
    Divides Ann a b s (s.cur * s.cur / (a * 2)) (flooredRatio a b s.cur)
      (s.cur * (Ann * (a + b) + flooredRatio a b s.cur * 2) /
        (s.cur * (Ann - 1) + flooredRatio a b s.cur * (2 + 1))) := by
  have hratio := flooredRatio_nonneg (by omega : 0 < a) (by omega : 0 < b) (by omega : 0 ≤ s.cur)
  have hfirst : 0 ≤ s.cur * s.cur / (a * 2) := Int.ediv_nonneg (by positivity) (by omega)
  have hnum : 0 ≤ Ann * (a + b) := by positivity
  have hden : 0 < s.cur * (Ann - 1) + flooredRatio a b s.cur * (2 + 1) := by
    have : 0 < s.cur * (Ann - 1) := mul_pos (by omega) (by omega)
    omega
  constructor
  · omega
  · exact bigDiv_ok (by positivity) (by omega)
  · omega
  · exact bigDiv_ok (by positivity) (by omega)
  · exact hden.ne'
  · exact bigDiv_ok (by positivity) hden

/-- From `3` the step of the invariant of `3` and `1` goes up to `5`. -/
def Stuck (Ann a b : Int) (s : Iterate) : Prop := Ann = 2 ∧ a = 3 ∧ b = 1 ∧ s.cur = 3

/-- An iterate of the invariant is between its bounds, and where a step could leave them it is not. -/
structure Bracketed (Ann a b : Int) (s : Iterate) : Prop extends AboveInvariant Ann a b s where
  le_sum : s.cur ≤ a + b
  not_stuck : ¬ Stuck Ann a b s

theorem bracketed_sum (hAnn : 2 ≤ Ann) (ha : 1 ≤ a) (hb : 1 ≤ b) : Bracketed Ann a b ⟨0, a + b⟩ where
  toAboveInvariant := aboveInvariant_sum hAnn ha hb
  le_sum := le_refl _
  not_stuck := by
    rintro ⟨-, rfl, rfl, hthree⟩
    cases hthree

theorem computeDStep_bracketed (hAnn : 2 ≤ Ann) (ha : 1 ≤ a) (hb : 1 ≤ b) {s : Iterate}
    (hs : Bracketed Ann a b s) : ∃ s', computeDStep Ann a b s = .ok s' ∧ Bracketed Ann a b s' := by
  obtain ⟨s', hstep, habove⟩ := computeDStep_ok hAnn ha hb hs.pos
  have hdivides := divides hAnn ha hb hs.pos
  obtain rfl : s' = _ := Except.ok.inj (hstep.symm.trans hdivides.computeDStep_eq)
  refine ⟨_, hstep, habove, ?_, ?_⟩
  · have hlt := newton_lt_succ_sum hAnn (by omega) (by omega) hs.pos hs.le_sum hs.above hs.not_stuck
    have hden := hdivides.third_ne
    have hratio := flooredRatio_nonneg (by omega : 0 < a) (by omega : 0 < b) (by linarith [hs.pos] : 0 ≤ s.cur)
    have hpos : 0 ≤ s.cur * (Ann - 1) := mul_nonneg (by linarith [hs.pos]) (by omega)
    rw [← Int.lt_add_one_iff]
    apply Int.ediv_lt_of_lt_mul (by omega)
    linarith
  · -- There every iterate is `4`, and so is the next one.
    rintro ⟨rfl, rfl, rfl, hthree⟩
    have hfour : s.cur = 4 := by
      have hle := hs.le_sum
      have hpos := hs.pos
      have habove := hs.above
      have hne := hs.not_stuck
      simp only [Stuck, true_and] at hne
      simp only [poly] at habove
      interval_cases s.cur <;> omega
    rw [hfour] at hthree
    cases hthree

/-- Where the floored ratio at the sum is the sum, the loop stays there. -/
theorem computeD_loop_of_ratio (hAnn : 2 ≤ Ann) (ha : 1 ≤ a) (hb : 1 ≤ b)
    (hratio : flooredRatio a b (a + b) = a + b) (cap : Nat) :
    loopWhile Iterate.moving (computeDStep Ann a b) (cap + 1) ⟨0, a + b⟩ = .ok ⟨a + b, a + b⟩ := by
  have hstep : computeDStep Ann a b ⟨0, a + b⟩ = .ok ⟨a + b, a + b⟩ := by
    rw [(divides hAnn ha hb (by simp only; omega)).computeDStep_eq]
    change (.ok ⟨a + b, newton Ann a b (a + b)⟩ : Throwing Iterate) = _
    rw [newton_sum_of_ratio hAnn (by omega) (by omega) hratio]
  have hmoving : Iterate.moving ⟨0, a + b⟩ = true := by
    rw [← Bool.not_eq_false, Iterate.moving_eq_false]
    simp only
    omega
  have hstopped : Iterate.moving ⟨a + b, a + b⟩ = false := by
    rw [Iterate.moving_eq_false]
    simp only
    omega
  rw [loopWhile, if_pos hmoving, hstep]
  exact loopWhile_of_not cap hstopped

/-- The result is the last of the iterates. -/
theorem computeD_visits (ha : 1 ≤ a) (hb : 1 ≤ b) {d : Int} (h : computeD amp a b = .ok d) :
    ∃ s, Visits Iterate.moving (computeDStep (amp * 2) a b) maxIters ⟨0, a + b⟩ s ∧ s.cur = d := by
  have hsum : a + b ≠ 0 := by omega
  simp only [computeD, if_neg hsum, bind_eq_ok, pure_eq_ok] at h
  obtain ⟨s, hs, hcur⟩ := h
  exact ⟨s, visits_of_loopWhile hs, hcur⟩

theorem computeD_brackets (hamp : 1 ≤ amp) (ha : 1 ≤ a) (hb : 1 ≤ b) :
    (∀ s, Visits Iterate.moving (computeDStep (amp * 2) a b) maxIters ⟨0, a + b⟩ s →
      1 ≤ s.cur ∧ s.cur ≤ a + b ∧ ∃ dP₁ dP next, Divides (amp * 2) a b s dP₁ dP next) ∧
    ∃ d, computeD amp a b = .ok d ∧ 1 ≤ d ∧ d ≤ a + b ∧
      4 * a * b * (amp * 2) * (a + b) < (d + 1) ^ 3 + 4 * a * b * (amp * 2 - 1) * (d + 1) ∧
      ∀ root : ℝ, poly (amp * 2 : ℝ) a b root = 0 → root < d + 1 := by
  have hAnn : 2 ≤ amp * 2 := by omega
  have hvisits : ∀ s, Visits Iterate.moving (computeDStep (amp * 2) a b) maxIters ⟨0, a + b⟩ s →
      Bracketed (amp * 2) a b s := by
    intro s hs
    refine hs.inv (fun t t' ht _ hstep => ?_) (bracketed_sum hAnn ha hb)
    obtain ⟨u, hu, hinv⟩ := computeDStep_bracketed hAnn ha hb ht
    rw [hu, Except.ok.injEq] at hstep
    exact hstep ▸ hinv
  obtain ⟨d, hd, -, -⟩ := computeD_ok hamp ha hb
  obtain ⟨s, hs, rfl⟩ := computeD_visits ha hb hd
  have hinv := hvisits s hs
  have habove := hinv.above
  refine ⟨?_, s.cur, hd, hinv.pos, hinv.le_sum, ?_, ?_⟩
  · intro t ht
    have hbracketed := hvisits t ht
    exact ⟨hbracketed.pos, hbracketed.le_sum, _, _, _, divides hAnn ha hb hbracketed.pos⟩
  · simp only [poly] at habove
    linarith
  · intro root hroot
    have hcast : (0 : ℝ) < poly (amp * 2 : ℝ) a b (s.cur + 1) := by exact_mod_cast habove
    have hpos := hinv.pos
    exact lt_of_poly (by exact_mod_cast (by omega : 1 ≤ amp * 2)) (by exact_mod_cast (by omega : 0 ≤ a))
      (by exact_mod_cast (by omega : 0 ≤ b)) (by exact_mod_cast (by omega : 0 ≤ s.cur + 1)) hroot.le hcast

theorem computeD_brackets_sample :
    (∀ s, Visits Iterate.moving (computeDStep (100 * 2) 1000000 3) maxIters ⟨0, 1000000 + 3⟩ s →
      1 ≤ s.cur ∧ s.cur ≤ 1000000 + 3 ∧ ∃ dP₁ dP next, Divides (100 * 2) 1000000 3 s dP₁ dP next) ∧
    ∃ d, computeD 100 1000000 3 = .ok d ∧ 1 ≤ d ∧ d ≤ 1000000 + 3 ∧
      4 * 1000000 * 3 * (100 * 2) * (1000000 + 3) <
        (d + 1) ^ 3 + 4 * 1000000 * 3 * (100 * 2 - 1) * (d + 1) ∧
      ∀ root : ℝ, poly ((100 : Int) * 2 : ℝ) (1000000 : Int) (3 : Int) root = 0 → root < d + 1 :=
  computeD_brackets (by decide) (by decide) (by decide)

end Invariant

/-! ### The balance on the curve -/

section Balance

variable {amp x d b c : Int}

/-- What every state of the loop has: a divisor above zero wherever there is a division. -/
structure Divisible (b : Int) (s : Iterate) : Prop where
  nonneg : 0 ≤ s.cur
  divisor : s.moving = true → 0 < 2 * s.cur + b

/-- A root of the quadratic, among the real numbers. -/
def QuadraticRoot (amp x d : Int) (root : ℝ) : Prop :=
  root ^ 2 + (quadraticB amp x d : ℝ) * root - quadraticC amp x d = 0

theorem AboveBalance.root_lt {s : Iterate} (h : AboveBalance (quadraticB amp x d) (quadraticC amp x d) s)
    {root : ℝ} (hroot : QuadraticRoot amp x d root) : root < s.cur + 1 := by
  have hslope := h.slope
  have hnonneg := h.nonneg
  have habove := h.above
  refine root_lt_of_quadratic ?_ ?_ hroot
  · exact_mod_cast (by omega : 0 < 2 * (s.cur + 1) + quadraticB amp x d)
  · exact_mod_cast habove

theorem divisible_of_visits (hamp : 1 ≤ amp) (hx : 1 ≤ x) (hd : 0 ≤ d) {s : Iterate}
    (hs : Visits Iterate.moving (computeYStep (quadraticB amp x d) (quadraticC amp x d)) maxIters ⟨0, d⟩ s) :
    Divisible (quadraticB amp x d) s := by
  refine hs.inv (fun t t' ht hmoving hstep => ?_) ⟨hd, fun _ => computeY_first_divisor hamp hx hd⟩
  obtain ⟨u, hu, habove⟩ :=
    computeYStep_ok (quadraticC_nonneg hamp hx hd) ht.nonneg (ht.divisor hmoving)
  rw [hu, Except.ok.injEq] at hstep
  exact hstep ▸ ⟨habove.nonneg, habove.divisor⟩

theorem computeY_brackets (hamp : 1 ≤ amp) (hx : 1 ≤ x) (hd : 0 ≤ d) :
    (∀ s, Visits Iterate.moving (computeYStep (quadraticB amp x d) (quadraticC amp x d)) maxIters ⟨0, d⟩ s →
      0 ≤ s.cur ∧ (s.moving = true → 0 < 2 * s.cur + quadraticB amp x d)) ∧
    (∃ y, computeY amp x d = .ok y ∧ 0 ≤ y ∧
      quadraticC amp x d < (y + 1) ^ 2 + quadraticB amp x d * (y + 1) ∧
      0 < 2 * (y + 1) + quadraticB amp x d ∧ ∀ root, QuadraticRoot amp x d root → root < y + 1) ∧
    ∀ (decoders : StakeDecoders) (curve : StableSwap) (depeg depeg' : Depeg) (direction : TradeDirection)
      (sourceAmount swapSourceAmount swapDestinationAmount : Int) (out : OutResult),
      curve.amp = amp → computeD amp (curve.upscaleSource depeg' direction swapSourceAmount)
        (curve.upscaleDestination depeg' direction swapDestinationAmount) = .ok d →
      curve.upscaleSource depeg' direction swapSourceAmount +
        curve.upscaleSource depeg' direction sourceAmount = x →
      curve.computeOutAmount decoders sourceAmount swapSourceAmount swapDestinationAmount direction depeg =
        (.ok out, depeg') →
      ∃ y, computeY amp x d = .ok y ∧
        curve.downscaleDestination depeg' direction
          (curve.upscaleDestination depeg' direction swapDestinationAmount - y - 1) = .ok out.outAmount ∧
        ∀ root, QuadraticRoot amp x d root →
          ((curve.upscaleDestination depeg' direction swapDestinationAmount - y - 1 : Int) : ℝ) ≤
            curve.upscaleDestination depeg' direction swapDestinationAmount - root := by
  obtain ⟨s, hs, hinv⟩ := computeY_loop hamp hx hd
  have hslope := hinv.slope
  have hnonneg := hinv.nonneg
  have hY : computeY amp x d = .ok s.cur := by
    rw [computeY_eq hamp hx hd, hs]
    rfl
  refine ⟨?_, ⟨s.cur, hY, hnonneg, hinv.above, by omega, fun root => hinv.root_lt⟩, ?_⟩
  · intro t ht
    have hdivisible := divisible_of_visits hamp hx hd ht
    exact ⟨hdivisible.nonneg, hdivisible.divisor⟩
  · intro decoders curve depeg depeg' direction s' xs ys out hcurve hD hx' hout
    change curve.withRefreshed decoders _ depeg = (.ok out, depeg') at hout
    rw [StableSwap.withRefreshed_apply, Prod.mk.injEq] at hout
    obtain ⟨hamount, hdepeg⟩ := hout
    rw [hdepeg] at hamount
    obtain ⟨-, -, hat⟩ := bind_eq_ok.mp hamount
    obtain ⟨D, hD', Y, hY', -, -, hdown, -⟩ := (StableSwap.computeOutAmountAt_eq_ok curve depeg').mp hat
    rw [hcurve, hD, Except.ok.injEq] at hD'
    subst hD'
    rw [hcurve, hx', hY, Except.ok.injEq] at hY'
    subst hY'
    refine ⟨s.cur, hY, hdown, fun root hroot => ?_⟩
    have := hinv.root_lt hroot
    push_cast
    linarith

theorem computeY_brackets_sample :
    (∀ s, Visits Iterate.moving
        (computeYStep (quadraticB 100 1001000 3993431) (quadraticC 100 1001000 3993431)) maxIters
        ⟨0, 3993431⟩ s →
      0 ≤ s.cur ∧ (s.moving = true → 0 < 2 * s.cur + quadraticB 100 1001000 3993431)) ∧
    (∃ y, computeY 100 1001000 3993431 = .ok y ∧ 0 ≤ y ∧
      quadraticC 100 1001000 3993431 < (y + 1) ^ 2 + quadraticB 100 1001000 3993431 * (y + 1) ∧
      0 < 2 * (y + 1) + quadraticB 100 1001000 3993431 ∧
      ∀ root, QuadraticRoot 100 1001000 3993431 root → root < y + 1) ∧
    ∃ y, computeY 100 1001000 3993431 = .ok y ∧ Except.ok (3000000 - y - 1) = (.ok 1018 : Throwing Int) ∧
      ∀ root, QuadraticRoot 100 1001000 3993431 root →
        ((3000000 - y - 1 : Int) : ℝ) ≤ (3000000 : Int) - root := by
  obtain ⟨hiterates, hresult, hpaid⟩ :=
    @computeY_brackets 100 1001000 3993431 (by decide) (by decide) (by decide)
  refine ⟨hiterates, hresult, ?_⟩
  obtain ⟨y, hy, hdown, hle⟩ := hpaid sampleDecoders (StableSwap.sampleCurve 100) StableSwap.noDepeg
    StableSwap.noDepeg .aToB 1000 1000000 3000000 ⟨1018, some (-4 / 505)⟩ rfl (by decide) (by decide)
    (by decide +kernel)
  have hunit := StableSwap.sampleCurve_unscaled 100
  rw [hunit.upscaleDestination, hunit.downscaleDestination] at hdown
  simp only [hunit.upscaleDestination] at hle
  exact ⟨y, hy, hdown, hle⟩

end Balance

end DynamicAmm.Client
