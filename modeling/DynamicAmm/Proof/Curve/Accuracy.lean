import DynamicAmm.Base.StableImbalance
import DynamicAmm.Proof.Curve.Bracket

/-!
# How accurate the invariant is

Where neither balance is too many times the other one, the loop for the invariant is over before the cap,
and its result is at most one above the invariant. Past that it may go back and forth between two numbers
until the cap, stop too far above the invariant, or still be on its way down when the cap comes.
-/

namespace DynamicAmm.Client

open Js BoundedLoop StableCurve Convergence

variable {Ann amp a b d : Int}

theorem computeDStep_newton (hAnn : 2 ≤ Ann) (ha : 1 ≤ a) (hb : 1 ≤ b) {s : Iterate} (hs : 1 ≤ s.cur) :
    computeDStep Ann a b s = .ok ⟨s.cur, newton Ann a b s.cur⟩ :=
  (divides hAnn ha hb hs).computeDStep_eq

theorem steps_computeD (hAnn : 2 ≤ Ann) (ha : 1 ≤ a) (hb : 1 ≤ b) (hne : ¬ (a = 3 ∧ b = 1)) :
    Steps (computeDStep Ann a b) (newton Ann a b) fun s => Iterates Ann a b s.cur where
  step _ hs _ := computeDStep_newton hAnn ha hb hs.pos
  keeps _ hs _ := hs.newton hAnn (by omega) (by omega) hne

/-- The last two iterates of a loop that its test ended, at most one above the invariant. -/
structure Stopped (Ann a b : Int) (s : Iterate) : Prop where
  iterates : Iterates Ann a b s.prev
  cur_eq : s.cur = newton Ann a b s.prev
  moving : s.moving = false
  pred_nonpos : poly Ann a b (s.cur - 1) ≤ 0

/-- The loop stops after eight steps from far away, `k` that square the distance, and five more. -/
theorem computeD_stops {k : Nat} (hk : 2 ≤ k) (hAnn : 2 ≤ Ann) (ha : 1 ≤ a) (hb : 1 ≤ b)
    (hreach : a + b < reach k 2) (hab : a ≤ 4 * Ann * b) (hba : b ≤ 25000 * Ann * a) :
    ∃ s, loopWhile Iterate.moving (computeDStep Ann a b) (k + 13) ⟨0, a + b⟩ = .ok s ∧
      Stopped Ann a b s := by
  by_cases hspecial : (a = 3 ∧ b = 1) ∨ (a = 5 ∧ b = 3)
  · -- Here the loop stays at the sum, which is between the invariant and its successor.
    have hratio : flooredRatio a b (a + b) = a + b := by
      rcases hspecial with ⟨rfl, rfl⟩ | ⟨rfl, rfl⟩ <;> rfl
    refine ⟨_, computeD_loop_of_ratio hAnn ha hb hratio (k + 12), ?_, ?_, ?_, ?_⟩
    · exact iterates_sum hAnn (by omega) (by omega)
    · exact (newton_sum_of_ratio hAnn (by omega) (by omega) hratio).symm
    · rw [Iterate.moving_eq_false]
      simp only
      omega
    · simp only [poly]
      rcases hspecial with ⟨rfl, rfl⟩ | ⟨rfl, rfl⟩ <;> omega
  · rw [not_or] at hspecial
    obtain ⟨h31, h53⟩ := hspecial
    obtain ⟨n, hn, hnsum, hbelow, habove⟩ := exists_floor hAnn (by omega : 0 < a) (by omega : 0 < b)
    have happroach := approach_newton hAnn (by omega) (by omega) hab h31 h53 (by omega) hbelow habove
    have hsum := iterates_sum hAnn (by omega : 0 < a) (by omega : 0 < b)
    have hfar := sum_le_mul hAnn (by omega) (by omega) (by omega) hab hba habove
    have hslows := happroach.slows_of_far hk (by omega) (by omega) 8 hsum (by omega)
    have hsteps := steps_computeD hAnn ha hb h31
    have hmoving : Iterate.moving ⟨0, a + b⟩ = true := by
      rw [← Bool.not_eq_false, Iterate.moving_eq_false]
      simp only
      omega
    obtain ⟨s, hloop, hstopped⟩ := hsteps.loopWhile_of_slows hslows 0 hsum
    obtain ⟨t, hprev, -, hcur, hlast⟩ :=
      hsteps.last_of_visits hsum hmoving (visits_of_loopWhile hloop) hstopped
    rw [← hcur] at hprev
    refine ⟨s, hloop, hprev, hlast, hstopped, ?_⟩
    have hsettling :=
      settling_of_le_ann hAnn (by omega) (by omega) hprev.pos hab hprev.le_sum hprev.above h31 h53
    rw [Iterate.moving_eq_false, hlast] at hstopped
    rw [hlast]
    exact hsettling.poly_newton_pred_le hAnn (by omega) (by omega) hprev.pos (by omega) (by omega)

theorem computeD_of_stopped (ha : 1 ≤ a) (hb : 1 ≤ b) {s : Iterate} {cap : Nat} (hcap : cap ≤ maxIters)
    (hstopped : s.moving = false)
    (hloop : loopWhile Iterate.moving (computeDStep (amp * 2) a b) cap ⟨0, a + b⟩ = .ok s) :
    computeD amp a b = .ok s.cur := by
  have hsum : a + b ≠ 0 := by omega
  have hmax : loopWhile Iterate.moving (computeDStep (amp * 2) a b) maxIters ⟨0, a + b⟩ = .ok s :=
    loopWhile_of_le hloop hstopped hcap
  simp only [computeD, if_neg hsum, hmax]
  rfl

theorem computeD_stopped (hamp : 1 ≤ amp) (ha : 1 ≤ a) (hb : 1 ≤ b) (ha128 : a < 2 ^ 128) (hb128 : b < 2 ^ 128)
    (hab : a ≤ 8 * amp * b) (hba : b ≤ 50000 * amp * a) :
    ∃ s, computeD amp a b = .ok s.cur ∧ Stopped (amp * 2) a b s := by
  have hreach : a + b < reach 7 2 := (by omega : a + b < 2 ^ 129).trans (by decide)
  obtain ⟨s, hloop, hstopped⟩ :=
    computeD_stops (by decide) (by omega : 2 ≤ amp * 2) ha hb hreach (by linarith) (by linarith)
  exact ⟨s, computeD_of_stopped ha hb (by decide) hstopped.moving hloop, hstopped⟩

/-- The result is at most one above the invariant. -/
theorem computeD_pred_nonpos (hamp : 1 ≤ amp) (ha : 1 ≤ a) (hb : 1 ≤ b) (ha128 : a < 2 ^ 128)
    (hb128 : b < 2 ^ 128) (hab : a ≤ 8 * amp * b) (hba : b ≤ 50000 * amp * a) (hd : computeD amp a b = .ok d) :
    poly (amp * 2) a b (d - 1) ≤ 0 := by
  obtain ⟨s, hs, hstopped⟩ := computeD_stopped hamp ha hb ha128 hb128 hab hba
  obtain rfl : s.cur = d := Except.ok.inj (hs.symm.trans hd)
  exact hstopped.pred_nonpos

/-- A number whose predecessor is not above the curve is at most one above every root. -/
theorem le_root_succ (hAnn : 1 ≤ Ann) (ha : 0 ≤ a) (hb : 0 ≤ b) (h : poly Ann a b (d - 1) ≤ 0) {root : ℝ}
    (hroot : poly (Ann : ℝ) a b root = 0) : (d : ℝ) ≤ root + 1 := by
  have hcast : poly (Ann : ℝ) a b (d - 1) ≤ 0 := by exact_mod_cast h
  by_contra hmore
  have hlt : root < d - 1 := by linarith [not_le.mp hmore]
  have hcube : root ^ 3 < ((d : ℝ) - 1) ^ 3 := Odd.strictMono_pow (by decide) hlt
  have hcoef : (0 : ℝ) ≤ 4 * a * b * (Ann - 1) := by
    have : 0 ≤ 4 * a * b * (Ann - 1) := mul_nonneg (by positivity) (by omega)
    exact_mod_cast this
  have hlinear := mul_le_mul_of_nonneg_left hlt.le hcoef
  simp only [poly] at hcast hroot
  linarith

theorem computeD_accurate (hamp : 1 ≤ amp) (ha : 1 ≤ a) (hb : 1 ≤ b) (ha64 : a < 2 ^ 64) (hb64 : b < 2 ^ 64)
    (hab : a ≤ 8 * amp * b) (hba : b ≤ 50000 * amp * a) :
    ∃ s steps, steps < maxIters ∧
      loopWhile Iterate.moving (computeDStep (amp * 2) a b) steps ⟨0, a + b⟩ = .ok s ∧ s.moving = false ∧
      computeD amp a b = .ok s.cur ∧
      (s.cur - 1) ^ 3 + 4 * (a * b) * (amp * 2 - 1) * (s.cur - 1) ≤ 4 * (a * b) * (amp * 2) * (a + b) ∧
      ∀ root : ℝ, poly (amp * 2 : ℝ) a b root = 0 → (s.cur : ℝ) ≤ root + 1 := by
  have hreach : a + b < reach 6 2 := (by omega : a + b < 2 ^ 65).trans (by decide)
  obtain ⟨s, hloop, -, -, hstopped, hbelow⟩ :=
    computeD_stops (by decide) (by omega : 2 ≤ amp * 2) ha hb hreach (by linarith) (by linarith)
  refine ⟨s, 19, by decide, hloop, hstopped, computeD_of_stopped ha hb (by decide) hstopped hloop, ?_, ?_⟩
  · simp only [poly] at hbelow
    linarith
  · intro root hroot
    refine le_root_succ (by omega : 1 ≤ amp * 2) (by omega) (by omega) hbelow ?_
    exact_mod_cast hroot

theorem computeD_accurate_sample :
    ∃ s steps, steps < maxIters ∧
      loopWhile Iterate.moving (computeDStep (100 * 2) 1000000 3000) steps ⟨0, 1000000 + 3000⟩ = .ok s ∧
      s.moving = false ∧ computeD 100 1000000 3000 = .ok s.cur ∧
      (s.cur - 1) ^ 3 + 4 * (1000000 * 3000) * (100 * 2 - 1) * (s.cur - 1) ≤
        4 * (1000000 * 3000) * (100 * 2) * (1000000 + 3000) ∧
      ∀ root : ℝ, poly ((100 : Int) * 2 : ℝ) (1000000 : Int) (3000 : Int) root = 0 →
        (s.cur : ℝ) ≤ root + 1 :=
  computeD_accurate (by decide) (by decide) (by decide) (by decide) (by decide) (by decide) (by decide)

/-- Back and forth until the cap, too far above the invariant, and still on the way down at the cap. -/
theorem computeD_inaccurate :
    (loopWhile Iterate.moving (computeDStep (1 * 2) 33 1) maxIters ⟨0, 33 + 1⟩ = .ok ⟨18, 20⟩ ∧
      Iterate.moving ⟨18, 20⟩ = true ∧ computeD 1 33 1 = .ok 20 ∧
      ¬ (((20 : Int) - 1) ^ 3 + 4 * (33 * 1) * (1 * 2 - 1) * (20 - 1) ≤ 4 * (33 * 1) * (1 * 2) * (33 + 1))) ∧
    (computeD 1 2253 100 = .ok 1435 ∧
      ¬ (((1435 : Int) - 1) ^ 3 + 4 * (2253 * 100) * (1 * 2 - 1) * (1435 - 1) ≤
        4 * (2253 * 100) * (1 * 2) * (2253 + 100))) ∧
    (loopWhile Iterate.moving (computeDStep (1 * 2) 22 15524038298102) maxIters ⟨0, 22 + 15524038298102⟩ =
        .ok ⟨7182689435, 5062462945⟩ ∧
      Iterate.moving ⟨7182689435, 5062462945⟩ = true ∧ computeD 1 22 15524038298102 = .ok 5062462945 ∧
      ¬ (((5062462945 : Int) - 1) ^ 3 + 4 * (22 * 15524038298102) * (1 * 2 - 1) * (5062462945 - 1) ≤
        4 * (22 * 15524038298102) * (1 * 2) * (22 + 15524038298102))) := by
  decide +kernel

end DynamicAmm.Client
