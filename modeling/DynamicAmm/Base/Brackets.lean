import Mathlib

/-!
# Brackets by lines

Some lines open a bracket, some close one, and a line may do both. Reading the lines with a stack finds the bracket
that is open at the end. Which one that is can be said by counting: it is the last one whose line is followed by lines
that close what they open and nothing else.
-/

namespace Brackets

variable {α κ : Type} (opens closes : α → Bool) (name : α → κ)

/-- The open brackets after a line, the innermost first. -/
def step (stack : List κ) (line : α) : List κ :=
  let stack := if opens line then name line :: stack else stack
  if closes line then stack.tail else stack

def run (lines : List α) : List κ := lines.foldl (step opens closes name) []

/-- The lines close what they open, and nothing else. -/
structure Closed (lines : List α) : Prop where
  sane : ∀ start, start <+: lines → start.countP closes ≤ start.countP opens
  settled : lines.countP closes = lines.countP opens

/-- The bracket is open at the end, and none in it is. -/
def Innermost (lines : List α) (k : κ) : Prop :=
  ∃ before line inner, lines = before ++ line :: inner ∧ opens line = true ∧ closes line = false ∧ name line = k ∧
    Closed opens closes inner

/-- No bracket is open at the end. -/
def Outside (lines : List α) : Prop :=
  ∀ rest, rest <:+ lines → rest.countP opens ≤ rest.countP closes

variable {opens closes name} {lines : List α} {line : α} {stack : List κ} {k : κ}

/-- A line that opens and closes alike changes nothing. -/
theorem step_eq_self (h : opens line = closes line) : step opens closes name stack line = stack := by
  rw [step, h]
  cases closes line <;> rfl

variable (name) in
/-- What lines leave open that never close more than they open. -/
theorem foldl_of_sane (h : ∀ start, start <+: lines → start.countP closes ≤ start.countP opens) (stack : List κ) :
    ∃ opened, lines.foldl (step opens closes name) stack = opened ++ stack ∧
      opened.length + lines.countP closes = lines.countP opens := by
  induction lines using List.reverseRecOn with
  | nil => exact ⟨[], rfl, rfl⟩
  | append_singleton lines line ih =>
      obtain ⟨opened, hopened, hlength⟩ := ih fun start hstart => h start (hstart.trans (List.prefix_append _ _))
      have hle := h _ (List.prefix_refl _)
      rw [List.countP_append, List.countP_append] at hle
      rw [List.foldl_append, hopened, List.foldl_cons, List.foldl_nil, List.countP_append, List.countP_append]
      simp only [List.countP_singleton] at *
      cases hopens : opens line with
      | true =>
          cases hcloses : closes line with
          | true => exact ⟨opened, step_eq_self (hopens.trans hcloses.symm), by simp; omega⟩
          | false => exact ⟨name line :: opened, by simp [step, hopens, hcloses], by simp; omega⟩
      | false =>
          cases hcloses : closes line with
          | false => exact ⟨opened, step_eq_self (hopens.trans hcloses.symm), by simp [hlength]⟩
          | true =>
              cases opened with
              | nil => simp [hopens, hcloses] at *; omega
              | cons top opened => exact ⟨opened, by simp [step, hopens, hcloses], by simp at *; omega⟩

theorem Closed.foldl (h : Closed opens closes lines) (stack : List κ) :
    lines.foldl (step opens closes name) stack = stack := by
  obtain ⟨opened, hopened, hlength⟩ := foldl_of_sane name h.sane stack
  have hsettled := h.settled
  rw [hopened, List.length_eq_zero_iff.mp (by omega : opened.length = 0), List.nil_append]

end Brackets
