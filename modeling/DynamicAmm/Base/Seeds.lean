import Mathlib

/-!
# Concatenated seeds

An address is a hash of its seeds, and the hash sees them without separators. Lists of seeds are told
apart by their concatenation when the seeds have the same lengths pairwise, and otherwise by the length
of the concatenation. The seeds here are little endian words, keys in lexicographic order and texts.
-/

namespace Seeds

/-! ### Concatenation -/

section Concatenation

variable {α : Type}

theorem flatten_inj {s t : List (List α)} (hlength : s.map List.length = t.map List.length) :
    s.flatten = t.flatten ↔ s = t := by
  refine ⟨?_, congrArg List.flatten⟩
  intro h
  induction s generalizing t with
  | nil => exact (List.map_eq_nil_iff.mp hlength.symm).symm
  | cons seed s ih =>
      cases t with
      | nil => cases hlength
      | cons seed' t =>
          rw [List.map_cons, List.map_cons, List.cons.injEq] at hlength
          rw [List.flatten_cons, List.flatten_cons] at h
          obtain ⟨hseed, hrest⟩ := List.append_inj h hlength.1
          rw [hseed, ih hlength.2 hrest]

theorem flatten_ne {s t : List (List α)} (hlength : s.flatten.length ≠ t.flatten.length) :
    s.flatten ≠ t.flatten :=
  fun h => hlength (congrArg List.length h)

end Concatenation

/-! ### Little endian words -/

def leBytes : Nat → Nat → List UInt8
  | 0, _ => []
  | width + 1, n => UInt8.ofNat n :: leBytes width (n / 256)

@[simp] theorem length_leBytes (width n : Nat) : (leBytes width n).length = width := by
  induction width generalizing n with
  | zero => rfl
  | succ width ih => rw [leBytes, List.length_cons, ih]

theorem leBytes_inj {width m n : Nat} (hm : m < 256 ^ width) (hn : n < 256 ^ width) :
    leBytes width m = leBytes width n ↔ m = n := by
  refine ⟨?_, congrArg (leBytes width)⟩
  intro h
  induction width generalizing m n with
  | zero => omega
  | succ width ih =>
      rw [leBytes, leBytes, List.cons.injEq, ← UInt8.toNat_inj, UInt8.toNat_ofNat', UInt8.toNat_ofNat'] at h
      rw [pow_succ] at hm hn
      have hrest := ih (Nat.div_lt_of_lt_mul (by linarith)) (Nat.div_lt_of_lt_mul (by linarith)) h.2
      have hlow := h.1
      omega

/-! ### Lexicographic order -/

section Order

variable {α : Type} [LT α] [DecidableLT α]

def lexCompare [DecidableEq α] (s t : List α) : Int :=
  if s < t then -1 else if s = t then 0 else 1

variable [Std.Trichotomous (α := α) (· < ·)] [Std.Asymm (α := α) (· < ·)] [Std.Irrefl (α := α) (· < ·)]

theorem lexCompare_eq_one [DecidableEq α] {s t : List α} : lexCompare s t = 1 ↔ t < s := by
  unfold lexCompare
  constructor
  · intro h
    by_contra hlt
    have hle : s ≤ t := List.not_lt.mp hlt
    by_cases hs : s < t
    · simp [hs] at h
    · have heq : s = t := List.le_antisymm hle (List.not_lt.mp hs)
      subst heq
      simp [hs] at h
  · intro h
    have hne : s ≠ t := fun heq => List.lt_irrefl s (heq ▸ h)
    rw [if_neg (List.lt_asymm h), if_neg hne]

end Order

end Seeds
