import Mathlib

/-!
# How soon a Newton iteration on integers slows down

An iteration that approaches an integer from above: far away each step takes off a quarter at least, near
it the distance is squared and divided by the iterate, and rounding adds less than two to it. A step never
goes up by more than one, so a step that moves by more than one goes down by two at least, and this ends
the last few units, where squaring does not help.
-/

namespace Convergence

/-- After `k` steps at most, a step moves by one at most. -/
inductive Slows (next : Int → Int) : Nat → Int → Prop
  | now {k : Nat} {d : Int} (hlo : d - 1 ≤ next d) (hhi : next d ≤ d + 1) : Slows next k d
  | later {k : Nat} {d : Int} (hrest : Slows next k (next d)) : Slows next (k + 1) d

/-- What the steps from the numbers of `Inv` do about `n`. -/
structure Approach (next : Int → Int) (Inv : Int → Prop) (n : Int) : Prop where
  keeps : ∀ d, Inv d → Inv (next d)
  above : ∀ d, Inv d → n ≤ d
  le_succ : ∀ d, Inv d → next d ≤ d + 1
  squares : ∀ d, Inv d → (next d - n) * d ≤ (d - n) ^ 2 + 2 * d
  quarter : ∀ d, Inv d → 2 * (n + 1) ≤ d → 4 * next d ≤ 3 * d

variable {next : Int → Int} {Inv : Int → Prop} {n d : Int}

theorem Slows.mono {k l : Nat} (h : Slows next k d) (hle : k ≤ l) : Slows next l d := by
  induction h generalizing l with
  | now hlo hhi => exact .now hlo hhi
  | later hrest ih =>
      obtain ⟨m, rfl⟩ : ∃ m, l = m + 1 := ⟨l - 1, by omega⟩
      exact .later (ih (by omega))

/-- A distance `e` that is at most `n / s`, up to what rounding adds, becomes at most `n / (s * (s + 1))`. -/
theorem near_of_square {s e q : Int} (hs : 2 ≤ s) (hn : 12 ≤ n) (he : 0 ≤ e) (hnear : s * (e - 6) ≤ n)
    (hsquare : q * (n + e) ≤ e ^ 2 + 2 * (n + e)) : s * (s + 1) * (q - 6) ≤ n := by
  have hs2 : 0 < s * (s + 1) := by positivity
  have hslack : (n + 6 * s) * (n + 2 * s + 2) ≤ n ^ 2 + 4 * (s * (s + 1)) * n := by
    have h1 : 0 ≤ (4 * s ^ 2 - 4 * s - 2) * (n - 12) := mul_nonneg (by nlinarith) (by omega)
    have h2 : 0 ≤ (3 * s + 1) * (s - 2) := mul_nonneg (by omega) (by omega)
    linarith
  have hbound : s * (s + 1) * (e ^ 2 - 4 * (n + e)) ≤ n * (n + e) := by
    refine le_of_mul_le_mul_left ?_ (by omega : 0 < s)
    rcases le_or_gt (s * (s + 1) * e) (4 * (s * (s + 1)) + n) with hlow | hhigh
    · have h1 := mul_le_mul_of_nonneg_right hlow (mul_nonneg (by omega : 0 ≤ s) he)
      have h2 : 0 ≤ s * n * n + 4 * (s * (s * (s + 1)) * n) := by positivity
      linarith
    · have h1 := mul_le_mul_of_nonneg_right (by linarith : s * e ≤ n + 6 * s)
        (sub_nonneg.mpr hhigh.le)
      have h2 : (n + 6 * s) * (s * (s + 1) * e) ≤ (n + 6 * s) * ((s + 1) * (n + 6 * s)) := by
        apply mul_le_mul_of_nonneg_left _ (by omega)
        have := mul_le_mul_of_nonneg_left (by linarith : s * e ≤ n + 6 * s) (by omega : 0 ≤ s + 1)
        linarith
      have h3 := mul_le_mul_of_nonneg_left hslack (by omega : 0 ≤ s)
      linarith
  have hscaled := mul_le_mul_of_nonneg_left hsquare hs2.le
  refine le_of_mul_le_mul_right ?_ (by omega : 0 < n + e)
  linarith

/-- What `k` squarings of `s` come to. -/
def reach : Nat → Int → Int
  | 0, s => s
  | k + 1, s => reach k (s * (s + 1))

namespace Approach

variable (h : Approach next Inv n)

include h

/-! ### The last units -/

/-- Every step that moves by more than one goes down by two at least. -/
theorem slows_of_le (k : Nat) (hd : Inv d) (hle : d - n ≤ 2 * k + 1) : Slows next k d := by
  have hup := h.le_succ d hd
  have hnext := h.above _ (h.keeps d hd)
  induction k generalizing d with
  | zero => exact .now (by omega) hup
  | succ k ih =>
      by_cases hclose : d - 1 ≤ next d
      · exact .now hclose hup
      · have hd' := h.keeps d hd
        apply Slows.later
        exact ih hd' (by omega) (h.le_succ _ hd') (h.above _ (h.keeps _ hd'))

/-! ### Near by -/

/-- The distance in units of `n / s`, up to what rounding adds. -/
theorem slows_of_near {s : Int} (hs : 2 ≤ s) (hn : 12 ≤ n) (hd : Inv d) (hnear : s * (d - n - 6) ≤ n)
    {k : Nat} (hrest : ∀ e, Inv e → s * (s + 1) * (e - n - 6) ≤ n → Slows next k e) :
    Slows next (k + 1) d := by
  have hd' := h.keeps d hd
  apply Slows.later
  apply hrest _ hd'
  have habove := h.above d hd
  have hsquare := h.squares d hd
  obtain ⟨e, rfl⟩ : ∃ e, d = n + e := ⟨d - n, by ring⟩
  rw [add_sub_cancel_left] at *
  exact near_of_square hs hn (by omega) hnear hsquare

theorem slows_of_reach (hn : 12 ≤ n) (k : Nat) {s : Int} (hs : 2 ≤ s) (hreach : n < reach k s) (hd : Inv d)
    (hnear : s * (d - n - 6) ≤ n) : Slows next (k + 3) d := by
  induction k generalizing s d with
  | zero =>
      have hreach' : n < s := hreach
      have hlast : d - n - 6 < 1 := lt_of_mul_lt_mul_left (by linarith) (by omega : 0 ≤ s)
      exact h.slows_of_le 3 hd (by omega)
  | succ k ih =>
      apply h.slows_of_near hs hn hd hnear
      intro e he hnear'
      exact ih (by nlinarith) hreach he hnear'

/-- One step and the squarings reach the last units from twice `n`, and three more end the iteration. -/
theorem slows_of_le_double {k : Nat} (hk : 2 ≤ k) (hn : 0 ≤ n) (hreach : n < reach k 2) (hd : Inv d)
    (hle : d ≤ 2 * (n + 1)) : Slows next (k + 4) d := by
  have habove := h.above d hd
  rcases lt_or_ge n 12 with hsmall | hlarge
  · exact (h.slows_of_le 6 hd (by omega)).mono (by omega)
  · have hd' := h.keeps d hd
    have hsquare := h.squares d hd
    have habove' := h.above _ hd'
    have htwo : 2 * (next d - n - 6) ≤ n := by
      obtain ⟨e, rfl⟩ : ∃ e, d = n + e := ⟨d - n, by ring⟩
      rw [add_sub_cancel_left] at hsquare
      by_contra hfar
      nlinarith
    apply Slows.later
    exact h.slows_of_reach hlarge k (le_refl 2) hreach hd' htwo

/-! ### Far away -/

theorem slows_of_far {k : Nat} (hk : 2 ≤ k) (hn : 0 ≤ n) (hreach : n < reach k 2) (j : Nat) (hd : Inv d)
    (hfar : d * 3 ^ j ≤ 2 * (n + 1) * 4 ^ j) : Slows next (k + 4 + j) d := by
  induction j generalizing d with
  | zero => exact h.slows_of_le_double hk hn hreach hd (by simpa using hfar)
  | succ j ih =>
      rcases le_or_gt d (2 * (n + 1)) with hnear | hbeyond
      · exact (h.slows_of_le_double hk hn hreach hd hnear).mono (by omega)
      · have hquarter := h.quarter d hd hbeyond.le
        apply Slows.later
        apply ih (h.keeps d hd)
        have := mul_le_mul_of_nonneg_right hquarter (by positivity : (0 : Int) ≤ 3 ^ j)
        rw [pow_succ, pow_succ] at hfar
        linarith

end Approach

end Convergence
