import Mathlib

/-!
# Searching for a free index

A loop without a bound of its own that tries one index after the other and leaves by returning a value.
Cut off after some number of iterations it is a function, and the loop ends when a large enough cap no
longer matters. Addresses that belong to different indices run out of a finite list of taken ones, so a
search for the first free address ends, after at most one more iteration than there are taken addresses.
-/

namespace IndexSearch

variable {ε α : Type}

/-- The iterations of a loop from an index on, at most `cap` of them. A body returns a value to leave the
loop, and nothing to go on with the next index. -/
def searchFrom (body : Nat → Except ε (Option α)) : Nat → Nat → Except ε (Option α)
  | 0, _ => .ok none
  | cap + 1, index =>
      match body index with
      | .ok (some a) => .ok (some a)
      | .ok none => searchFrom body cap (index + 1)
      | .error e => .error e

/-- The loop returns what the first body that returns does. -/
theorem searchFrom_ok {body : Nat → Except ε (Option α)} {index n cap : Nat} {a : α}
    (hskip : ∀ i, index ≤ i → i < n → body i = .ok none) (hstop : body n = .ok (some a))
    (hfrom : index ≤ n) (hcap : n < index + cap) : searchFrom body cap index = .ok (some a) := by
  induction cap generalizing index with
  | zero => omega
  | succ cap ih =>
      rw [searchFrom]
      by_cases hlast : index = n
      · rw [hlast, hstop]
      · rw [hskip index le_rfl (by omega)]
        exact ih (fun i hi => hskip i (by omega)) (by omega) (by omega)

variable {β : Type} [DecidableEq β] {address : Nat → β} {taken : List β}

/-- One address more than there are taken ones is not taken. -/
theorem exists_free (hinjective : Set.InjOn address (Set.Iic taken.length)) :
    ∃ n ≤ taken.length, address n ∉ taken := by
  by_contra htaken
  push Not at htaken
  have hsubset : (Finset.range (taken.length + 1)).image address ⊆ taken.toFinset := by
    intro b hb
    obtain ⟨n, hn, rfl⟩ := Finset.mem_image.mp hb
    rw [List.mem_toFinset]
    exact htaken n (Nat.lt_succ_iff.mp (Finset.mem_range.mp hn))
  have hcard : ((Finset.range (taken.length + 1)).image address).card = taken.length + 1 := by
    rw [Finset.card_image_of_injOn, Finset.card_range]
    intro i hi j hj
    rw [Finset.mem_coe, Finset.mem_range] at hi hj
    exact hinjective (Nat.lt_succ_iff.mp hi) (Nat.lt_succ_iff.mp hj)
  have hle := Finset.card_le_card hsubset
  have hlength := List.toFinset_card_le taken
  omega

theorem exists_least_free (hinjective : Set.InjOn address (Set.Iic taken.length)) :
    ∃ n ≤ taken.length, address n ∉ taken ∧ ∀ m < n, address m ∈ taken := by
  have hfree : ∃ n, address n ∉ taken := by
    obtain ⟨n, -, hn⟩ := exists_free hinjective
    exact ⟨n, hn⟩
  refine ⟨Nat.find hfree, ?_, Nat.find_spec hfree, ?_⟩
  · obtain ⟨n, hle, hn⟩ := exists_free hinjective
    exact (Nat.find_min' hfree hn).trans hle
  · intro m hm
    exact not_not.mp (Nat.find_min hfree hm)

end IndexSearch
