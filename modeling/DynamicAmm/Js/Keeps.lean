import DynamicAmm.Js.Call

/-!
# Invariants of shared objects

A call keeps a property of its object if the object has it afterwards whenever it had it before, whether the
call returns or throws. One rule for each way of building a call carries such a property through a program.
-/

namespace DynamicAmm.Js

namespace Call

variable {σ τ α β : Type} {Inv : σ → Prop} {x : Call σ α} {next : α → Call σ β}

def Keeps (Inv : σ → Prop) (x : Call σ α) : Prop := ∀ s, Inv s → Inv (x s).2

theorem Keeps.pure (a : α) : Keeps Inv (Pure.pure a : Call σ α) := by
  intro s hs
  exact hs

theorem Keeps.lift (x : Throwing α) : Keeps Inv (lift x) := by
  intro s hs
  exact hs

theorem Keeps.read : Keeps Inv (read : Call σ σ) := by
  intro s hs
  exact hs

theorem Keeps.modify {f : σ → σ} (h : ∀ s, Inv s → Inv (f s)) : Keeps Inv (modify f) := by
  intro s hs
  exact h s hs

theorem Keeps.bind (hx : Keeps Inv x) (hnext : ∀ a, Keeps Inv (next a)) : Keeps Inv (x >>= next) := by
  intro s hs
  have hfirst := hx s hs
  rw [bind_apply]
  rcases h : x s with ⟨_ | a, s'⟩
  · rw [h] at hfirst
    exact hfirst
  · rw [h] at hfirst
    exact hnext a s' hfirst

/-- A step on a part that the property does not look at. -/
theorem Keeps.focus {get : σ → τ} {set : σ → τ → σ} (h : ∀ s t, Inv s → Inv (set s t)) (x : Call τ α) :
    Keeps Inv (focus get set x) := by
  intro s hs
  exact h s _ hs

end Call

end DynamicAmm.Js
