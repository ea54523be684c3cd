import Mathlib

/-!
# Loops with an iteration cap

A loop that runs its body while a test holds, at most a given number of times, and whose body may fail.
The one rule about it is the invariant rule: a property that makes the body succeed and that the body
keeps makes the whole loop succeed, and holds at its end, whether the test or the cap ended it.
-/

namespace BoundedLoop

variable {σ ε : Type}

def loopWhile (test : σ → Bool) (body : σ → Except ε σ) : Nat → σ → Except ε σ
  | 0, s => .ok s
  | cap + 1, s =>
      if test s then
        match body s with
        | .ok s' => loopWhile test body cap s'
        | .error e => .error e
      else .ok s

theorem loopWhile_ok {test : σ → Bool} {body : σ → Except ε σ} {Inv : σ → Prop}
    (hbody : ∀ s, Inv s → test s = true → ∃ s', body s = .ok s' ∧ Inv s') (cap : Nat) (s : σ)
    (hs : Inv s) : ∃ s', loopWhile test body cap s = .ok s' ∧ Inv s' := by
  induction cap generalizing s with
  | zero => exact ⟨s, rfl, hs⟩
  | succ cap ih =>
      unfold loopWhile
      by_cases htest : test s = true
      · obtain ⟨s', hstep, hs'⟩ := hbody s hs htest
        rw [if_pos htest, hstep]
        exact ih s' hs'
      · rw [if_neg htest]
        exact ⟨s, rfl, hs⟩

/-- A loop whose test holds at the start takes its first step, so what that step establishes needs no
invariant to hold before it. -/
theorem loopWhile_succ_ok {test : σ → Bool} {body : σ → Except ε σ} {Inv : σ → Prop}
    (hbody : ∀ s, Inv s → test s = true → ∃ s', body s = .ok s' ∧ Inv s') (cap : Nat) {s : σ}
    (htest : test s = true) (hfirst : ∃ s', body s = .ok s' ∧ Inv s') :
    ∃ s', loopWhile test body (cap + 1) s = .ok s' ∧ Inv s' := by
  obtain ⟨s', hstep, hs'⟩ := hfirst
  unfold loopWhile
  rw [if_pos htest, hstep]
  exact loopWhile_ok hbody cap s' hs'

theorem loopWhile_of_not {test : σ → Bool} {body : σ → Except ε σ} (cap : Nat) {s : σ}
    (htest : test s = false) : loopWhile test body cap s = .ok s := by
  cases cap with
  | zero => rfl
  | succ cap => simp [loopWhile, htest]

/-- A loop that its test ended ends the same way under a larger cap. -/
theorem loopWhile_of_le {test : σ → Bool} {body : σ → Except ε σ} {cap cap' : Nat} {s t : σ}
    (h : loopWhile test body cap s = .ok t) (ht : test t = false) (hle : cap ≤ cap') :
    loopWhile test body cap' s = .ok t := by
  induction cap generalizing s cap' with
  | zero =>
      cases h
      exact loopWhile_of_not cap' ht
  | succ cap ih =>
      obtain ⟨rest, rfl⟩ : ∃ rest, cap' = rest + 1 := ⟨cap' - 1, by omega⟩
      unfold loopWhile at h ⊢
      split at h
      · rename_i htest
        rw [if_pos htest]
        split at h
        · exact ih h (by omega)
        · cases h
      · rename_i htest
        rw [if_neg htest]
        exact h

/-! ### The states on the way -/

/-- The states that a loop of at most `cap` steps from `s` comes to, the first and the last included. -/
inductive Visits (test : σ → Bool) (body : σ → Except ε σ) : Nat → σ → σ → Prop
  | here (cap : Nat) (s : σ) : Visits test body cap s s
  | later {cap : Nat} {s s' t : σ} (htest : test s = true) (hstep : body s = .ok s')
      (hrest : Visits test body cap s' t) : Visits test body (cap + 1) s t

theorem Visits.inv {test : σ → Bool} {body : σ → Except ε σ} {Inv : σ → Prop}
    (hbody : ∀ s s', Inv s → test s = true → body s = .ok s' → Inv s') {cap : Nat} {s t : σ}
    (h : Visits test body cap s t) (hs : Inv s) : Inv t := by
  induction h with
  | here cap s => exact hs
  | later htest hstep _ ih => exact ih (hbody _ _ hs htest hstep)

theorem visits_of_loopWhile {test : σ → Bool} {body : σ → Except ε σ} {cap : Nat} {s t : σ}
    (h : loopWhile test body cap s = .ok t) : Visits test body cap s t := by
  induction cap generalizing s with
  | zero =>
      cases h
      exact .here 0 _
  | succ cap ih =>
      unfold loopWhile at h
      split at h
      · rename_i htest
        split at h
        · rename_i s' hstep
          exact .later htest hstep (ih h)
        · cases h
      · cases h
        exact .here _ _

end BoundedLoop
