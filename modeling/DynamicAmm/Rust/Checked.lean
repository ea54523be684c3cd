import Mathlib

/-!
# Checked integers and early return

The Rust crates compute on `u64` and `u128` with the `checked_` operations and leave a function early
through `?`. Here a `u64` is a `UInt64`, a `u128` is a natural number below `2 ^ 128`, and a function
that returns `anyhow::Result` is an `Outcome`, which also has a value for the panics that slicing out
of range and unchecked arithmetic cause. Every operation comes with the statement of when it succeeds,
in terms of the natural numbers the words stand for, and nothing below looks inside an operation again.
-/

namespace DynamicAmm.Rust

/-! ### Words -/

def checkedAdd (a b : UInt64) : Option UInt64 :=
  if a.toNat + b.toNat < 2 ^ 64 then some (a + b) else none

def checkedSub (a b : UInt64) : Option UInt64 :=
  if b ≤ a then some (a - b) else none

def tryU64 (a : Nat) : Option UInt64 :=
  if a < 2 ^ 64 then some (UInt64.ofNat a) else none

def checkedAdd128 (a b : Nat) : Option Nat :=
  if a + b < 2 ^ 128 then some (a + b) else none

def checkedSub128 (a b : Nat) : Option Nat :=
  if b ≤ a then some (a - b) else none

def checkedMul128 (a b : Nat) : Option Nat :=
  if a * b < 2 ^ 128 then some (a * b) else none

def checkedDiv128 (a b : Nat) : Option Nat :=
  if b = 0 then none else some (a / b)

theorem checkedAdd_eq_some {a b r : UInt64} :
    checkedAdd a b = some r ↔ r.toNat = a.toNat + b.toNat := by
  have hr := r.toNat_lt
  unfold checkedAdd
  split
  · rename_i hfit
    rw [Option.some.injEq, ← UInt64.toNat_inj, UInt64.toNat_add, Nat.mod_eq_of_lt hfit, eq_comm]
  · simp only [reduceCtorEq, false_iff]
    omega

theorem checkedSub_eq_some {a b r : UInt64} :
    checkedSub a b = some r ↔ r.toNat + b.toNat = a.toNat := by
  unfold checkedSub
  split
  · rename_i hle
    have hle' : b.toNat ≤ a.toNat := hle
    rw [Option.some.injEq, ← UInt64.toNat_inj, UInt64.toNat_sub_of_le a b hle]
    omega
  · rename_i hle
    have hle' : ¬ b.toNat ≤ a.toNat := hle
    simp only [reduceCtorEq, false_iff]
    omega

theorem tryU64_eq_some {a : Nat} {r : UInt64} : tryU64 a = some r ↔ r.toNat = a := by
  have hr := r.toNat_lt
  unfold tryU64
  split
  · rename_i hlt
    rw [Option.some.injEq, ← UInt64.toNat_inj, UInt64.toNat_ofNat_of_lt' hlt, eq_comm]
  · simp only [reduceCtorEq, false_iff]
    omega

theorem checkedAdd128_eq_some {a b r : Nat} :
    checkedAdd128 a b = some r ↔ a + b < 2 ^ 128 ∧ a + b = r := by
  simp [checkedAdd128]

theorem checkedSub128_eq_some {a b r : Nat} : checkedSub128 a b = some r ↔ r + b = a := by
  unfold checkedSub128
  split <;> simp only [Option.some.injEq, reduceCtorEq, false_iff] <;> omega

theorem checkedMul128_eq_some {a b r : Nat} :
    checkedMul128 a b = some r ↔ a * b < 2 ^ 128 ∧ a * b = r := by
  simp [checkedMul128]

theorem checkedDiv128_eq_some {a b r : Nat} :
    checkedDiv128 a b = some r ↔ b ≠ 0 ∧ a / b = r := by
  simp [checkedDiv128]

/-- Two words never overflow a `u128` when multiplied. -/
theorem toNat_mul_lt (a b : UInt64) : a.toNat * b.toNat < 2 ^ 128 := by
  have ha := a.toNat_lt
  have hb := b.toNat_lt
  calc
    a.toNat * b.toNat < 2 ^ 64 * 2 ^ 64 := Nat.mul_lt_mul'' ha hb
    _ = 2 ^ 128 := by norm_num

/-! ### Early return -/

/-- What a call to a function returning `anyhow::Result` does: return a value, return an error with its
text, or abort the process. -/
inductive Outcome (α : Type) where
  | ok (value : α)
  | err (message : String)
  | panic
  deriving DecidableEq, Repr

namespace Outcome

variable {α β : Type}

protected def bind (x : Outcome α) (next : α → Outcome β) : Outcome β :=
  match x with
  | ok a => next a
  | err message => err message
  | panic => panic

instance : Monad Outcome where
  pure := ok
  bind := Outcome.bind

def context (x : Option α) (message : String) : Outcome α :=
  match x with
  | some a => ok a
  | none => err message

def unwrap (x : Option α) : Outcome α :=
  match x with
  | some a => ok a
  | none => panic

def ensure (condition : Bool) (message : String) : Outcome Unit :=
  if condition then ok () else err message

theorem bind_eq_ok {x : Outcome α} {next : α → Outcome β} {b : β} :
    x >>= next = ok b ↔ ∃ a, x = ok a ∧ next a = ok b := by
  cases x <;> simp [Bind.bind, Outcome.bind]

theorem bind_eq_err {x : Outcome α} {next : α → Outcome β} {message : String} :
    x >>= next = err message ↔ x = err message ∨ ∃ a, x = ok a ∧ next a = err message := by
  cases x <;> simp [Bind.bind, Outcome.bind]

theorem pure_eq_ok {a b : α} : (pure a : Outcome α) = ok b ↔ a = b := by
  simp [Pure.pure]

theorem context_eq_ok {x : Option α} {message : String} {a : α} :
    context x message = ok a ↔ x = some a := by
  cases x <;> simp [context]

theorem context_eq_err {x : Option α} {message text : String} :
    context x message = err text ↔ x = none ∧ message = text := by
  cases x <;> simp [context]

theorem ensure_eq_ok {condition : Bool} {message : String} {u : Unit} :
    ensure condition message = ok u ↔ condition = true := by
  cases condition <;> simp [ensure]

theorem ensure_eq_err {condition : Bool} {message text : String} :
    ensure condition message = err text ↔ condition = false ∧ message = text := by
  cases condition <;> simp [ensure]

theorem bind_eq_panic {x : Outcome α} {next : α → Outcome β} :
    x >>= next = panic ↔ x = panic ∨ ∃ a, x = ok a ∧ next a = panic := by
  cases x <;> simp [Bind.bind, Outcome.bind]

theorem context_ne_panic {x : Option α} {message : String} : context x message ≠ panic := by
  cases x <;> simp [context]

theorem ensure_ne_panic {condition : Bool} {message : String} : ensure condition message ≠ panic := by
  cases condition <;> simp [ensure]

theorem pure_ne_panic {a : α} : (pure a : Outcome α) ≠ panic := by
  intro h
  cases h

theorem pure_ne_err {a : α} {text : String} : (pure a : Outcome α) ≠ err text := by
  intro h
  cases h

end Outcome

end DynamicAmm.Rust
