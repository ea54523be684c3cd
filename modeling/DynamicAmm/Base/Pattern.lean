import Mathlib

/-!
# Text patterns

A pattern is a sequence of character classes, some of them repeated, and it matches a text when it
matches some stretch of it. `isMatch` searches for the stretch and `Matches` says what one is.

A pattern that holds a blank can only match from one blank to another, so texts whose words are known are
decided by looking at where the words start.
-/

namespace Pattern

inductive Piece where
  /-- One character of a class. -/
  | one (accepts : Char → Bool)
  /-- Any number of characters of a class. -/
  | many (accepts : Char → Bool)

def literal (s : List Char) : List Piece := s.map fun c => .one (· == c)

/-! ### Search -/

def skips (accepts : Char → Bool) : List Char → List (List Char)
  | [] => [[]]
  | c :: cs => (c :: cs) :: if accepts c then skips accepts cs else []

def matchesHere : List Piece → List Char → Bool
  | [], _ => true
  | .one _ :: _, [] => false
  | .one accepts :: pattern, c :: cs => accepts c && matchesHere pattern cs
  | .many accepts :: pattern, cs => (skips accepts cs).any (matchesHere pattern)

def isMatch (pattern : List Piece) (text : List Char) : Bool := text.tails.any (matchesHere pattern)

/-! ### Meaning -/

def Matches : List Piece → List Char → Prop
  | [], s => s = []
  | .one accepts :: pattern, s => ∃ c rest, s = c :: rest ∧ accepts c = true ∧ Matches pattern rest
  | .many accepts :: pattern, s =>
      ∃ skipped rest, s = skipped ++ rest ∧ (∀ c ∈ skipped, accepts c = true) ∧ Matches pattern rest

theorem mem_skips {accepts : Char → Bool} {s rest : List Char} :
    rest ∈ skips accepts s ↔ ∃ skipped, s = skipped ++ rest ∧ ∀ c ∈ skipped, accepts c = true := by
  induction s with
  | nil =>
      simp only [skips, List.mem_singleton]
      constructor
      · rintro rfl
        exact ⟨[], rfl, by simp⟩
      · rintro ⟨skipped, h, -⟩
        exact (List.append_eq_nil_iff.mp h.symm).2
  | cons c s ih =>
      simp only [skips, List.mem_cons]
      constructor
      · rintro (rfl | h)
        · exact ⟨[], rfl, by simp⟩
        · split at h
          · rename_i hc
            obtain ⟨skipped, hs, hall⟩ := ih.mp h
            refine ⟨c :: skipped, by rw [hs, List.cons_append], ?_⟩
            intro c' hc'
            rcases List.mem_cons.mp hc' with rfl | hmem
            · exact hc
            · exact hall c' hmem
          · cases h
      · rintro ⟨skipped, hs, hall⟩
        cases skipped with
        | nil => exact Or.inl hs.symm
        | cons c' skipped =>
            rw [List.cons_append, List.cons.injEq] at hs
            obtain ⟨rfl, hs⟩ := hs
            right
            rw [if_pos (hall c (List.mem_cons_self ..))]
            exact ih.mpr ⟨skipped, hs, fun x hx => hall x (List.mem_cons_of_mem _ hx)⟩

theorem matchesHere_iff {pattern : List Piece} {s : List Char} :
    matchesHere pattern s = true ↔ ∃ stretch rest, s = stretch ++ rest ∧ Matches pattern stretch := by
  induction pattern generalizing s with
  | nil =>
      refine iff_of_true rfl ⟨[], s, rfl, rfl⟩
  | cons piece pattern ih =>
      cases piece with
      | one accepts =>
          cases s with
          | nil =>
              refine iff_of_false (by simp [matchesHere]) ?_
              rintro ⟨stretch, rest, hs, c, tail, rfl, -⟩
              cases hs
          | cons c s =>
              rw [matchesHere, Bool.and_eq_true, ih]
              constructor
              · rintro ⟨hc, stretch, rest, rfl, hmatch⟩
                exact ⟨c :: stretch, rest, rfl, c, stretch, rfl, hc, hmatch⟩
              · rintro ⟨stretch, rest, hs, c', tail, rfl, hc, hmatch⟩
                rw [List.cons_append, List.cons.injEq] at hs
                obtain ⟨rfl, rfl⟩ := hs
                exact ⟨hc, tail, rest, rfl, hmatch⟩
      | many accepts =>
          rw [matchesHere, List.any_eq_true]
          constructor
          · rintro ⟨left, hleft, hmatch⟩
            obtain ⟨skipped, rfl, hall⟩ := mem_skips.mp hleft
            obtain ⟨stretch, rest, rfl, hstretch⟩ := ih.mp hmatch
            exact ⟨skipped ++ stretch, rest, (List.append_assoc ..).symm, skipped, stretch, rfl, hall,
              hstretch⟩
          · rintro ⟨-, rest, rfl, skipped, stretch, rfl, hall, hmatch⟩
            exact ⟨stretch ++ rest, mem_skips.mpr ⟨skipped, List.append_assoc .., hall⟩,
              ih.mpr ⟨stretch, rest, rfl, hmatch⟩⟩

theorem isMatch_iff {pattern : List Piece} {s : List Char} :
    isMatch pattern s = true ↔
      ∃ before stretch after, s = before ++ (stretch ++ after) ∧ Matches pattern stretch := by
  simp only [isMatch, List.any_eq_true, List.mem_tails, matchesHere_iff]
  constructor
  · rintro ⟨_, ⟨before, rfl⟩, stretch, after, rfl, hmatch⟩
    exact ⟨before, stretch, after, rfl, hmatch⟩
  · rintro ⟨before, stretch, after, rfl, hmatch⟩
    exact ⟨stretch ++ after, ⟨before, rfl⟩, stretch, after, rfl, hmatch⟩

theorem matches_literal {l : List Char} {pattern : List Piece} {s : List Char} :
    Matches (literal l ++ pattern) s ↔ ∃ rest, s = l ++ rest ∧ Matches pattern rest := by
  induction l generalizing s with
  | nil => simp [literal]
  | cons c l ih =>
      have hcons : literal (c :: l) ++ pattern = .one (· == c) :: (literal l ++ pattern) := rfl
      rw [hcons, Matches]
      constructor
      · rintro ⟨c', rest, rfl, hc, hrest⟩
        obtain ⟨tail, rfl, hmatch⟩ := ih.mp hrest
        rw [beq_iff_eq.mp hc]
        exact ⟨tail, rfl, hmatch⟩
      · rintro ⟨rest, rfl, hmatch⟩
        exact ⟨c, l ++ rest, rfl, beq_self_eq_true c, ih.mpr ⟨rest, rfl, hmatch⟩⟩

/-! ### Words -/

def wordStarts : List Char → List (List Char)
  | [] => []
  | c :: cs => if c = ' ' then cs :: wordStarts cs else wordStarts cs

@[simp] theorem wordStarts_blank (s : List Char) : wordStarts (' ' :: s) = s :: wordStarts s := if_pos rfl

theorem wordStarts_append (s t : List Char) :
    wordStarts (s ++ t) = (wordStarts s).map (· ++ t) ++ wordStarts t := by
  induction s with
  | nil => rfl
  | cons c s ih =>
      by_cases hc : c = ' '
      · subst hc
        rw [List.cons_append, wordStarts_blank, wordStarts_blank, ih]
        rfl
      · rw [List.cons_append, wordStarts, if_neg hc, ih, wordStarts, if_neg hc]

theorem wordStarts_eq_nil {s : List Char} (h : ' ' ∉ s) : wordStarts s = [] := by
  induction s with
  | nil => rfl
  | cons c s ih =>
      rw [List.mem_cons, not_or] at h
      rw [wordStarts, if_neg (Ne.symm h.1), ih h.2]

theorem wordStarts_word {s t : List Char} (h : ' ' ∉ s) : wordStarts (s ++ t) = wordStarts t := by
  rw [wordStarts_append, wordStarts_eq_nil h]
  rfl

/-- What follows a blank that is not the first one. -/
theorem mem_tail_wordStarts {s t : List Char} (h : ' ' ∈ s) : t ∈ (wordStarts (s ++ ' ' :: t)).tail := by
  have hne : wordStarts s ≠ [] := by
    induction s with
    | nil => cases h
    | cons c s ih =>
        by_cases hc : c = ' '
        · rw [wordStarts, if_pos hc]
          exact List.cons_ne_nil _ _
        · rw [wordStarts, if_neg hc]
          exact ih ((List.mem_cons.mp h).resolve_left (Ne.symm hc))
  rw [wordStarts_append, List.tail_append_of_ne_nil (by simpa using hne), wordStarts_blank]
  exact List.mem_append_right _ (List.mem_cons_self ..)

end Pattern
