import Mathlib

/-!
# Numbers, exceptions and shared objects of the TypeScript client

The client computes on `BN` and `BigInt`, which are both unbounded signed integers, so `Int` here, with
a division that truncates toward zero and throws on a zero divisor. A function that may throw is a `Throwing` value. A
function that writes to an object its caller still holds is a `Call`: it takes the object as the caller
left it and gives the outcome together with the object as the caller finds it afterwards. A throw keeps
the writes made before it.
-/

namespace DynamicAmm.Js

/-- A value, or the text of the error that was thrown. -/
abbrev Throwing := Except String

theorem bind_eq_ok {α β : Type} {x : Throwing α} {next : α → Throwing β} {b : β} :
    x >>= next = .ok b ↔ ∃ a, x = .ok a ∧ next a = .ok b := by
  cases x <;> simp [Bind.bind, Except.bind]

theorem pure_eq_ok {α : Type} {a b : α} : (pure a : Throwing α) = .ok b ↔ a = b := by
  simp [Pure.pure, Except.pure]

/-- `invariant` of the package of that name. -/
def invariant (condition : Bool) (message : String) : Throwing Unit :=
  if condition then .ok () else .error message

theorem invariant_eq_ok {condition : Bool} {message : String} {u : Unit} :
    invariant condition message = .ok u ↔ condition = true := by
  cases condition <;> simp [invariant]

/-! ### Integers -/

/-- The error of a failed assertion inside the big number library. -/
def assertionFailed : String := "Assertion failed"

def BN.div (a b : Int) : Throwing Int :=
  if b = 0 then .error assertionFailed else .ok (a.tdiv b)

/-- `BN.mod`, whose sign is the dividend's. -/
def BN.mod (a b : Int) : Throwing Int :=
  if b = 0 then .error assertionFailed else .ok (a.tmod b)

/-- `BN.divRound`, to the nearest integer and away from zero at a half. -/
def BN.divRound (a b : Int) : Throwing Int :=
  if b = 0 then .error assertionFailed
  else
    let div := a.tdiv b
    let mod := if div < 0 then a.tmod b - b else a.tmod b
    let half := b.tdiv 2
    if a.tmod b = 0 ∨ mod < half ∨ (b % 2 = 1 ∧ mod = half) then .ok div
    else .ok (if div < 0 then div - 1 else div + 1)

def BN.ofNumber (n : Int) : Throwing Int :=
  if n.natAbs < 2 ^ 53 then .ok n else .error assertionFailed

def BN.toNumber (a : Int) : Throwing Int :=
  if a.natAbs < 2 ^ 53 then .ok a else .error "Number can only safely store up to 53 bits"

def bigDiv (a b : Int) : Throwing Int :=
  if b = 0 then .error "Division by zero" else .ok (a.tdiv b)

theorem BN.div_eq_ok {a b r : Int} : BN.div a b = .ok r ↔ b ≠ 0 ∧ a.tdiv b = r := by
  unfold BN.div
  split <;> simp_all

theorem BN.mod_eq_ok {a b r : Int} : BN.mod a b = .ok r ↔ b ≠ 0 ∧ a.tmod b = r := by
  unfold BN.mod
  split <;> simp_all

theorem BN.toNumber_eq_ok {a r : Int} : BN.toNumber a = .ok r ↔ a.natAbs < 2 ^ 53 ∧ a = r := by
  unfold BN.toNumber
  split <;> simp_all

theorem bigDiv_eq_ok {a b r : Int} : bigDiv a b = .ok r ↔ b ≠ 0 ∧ a.tdiv b = r := by
  unfold bigDiv
  split <;> simp_all

theorem BN.divRound_ok {a b : Int} (ha : 0 ≤ a) (hb : 0 < b) :
    BN.divRound a b = .ok (if 2 * (a % b) < b then a / b else a / b + 1) := by
  have hquotient : 0 ≤ a / b := Int.ediv_nonneg ha hb.le
  have hhalf : b.tdiv 2 = b / 2 := Int.tdiv_eq_ediv_of_nonneg hb.le
  simp only [divRound, if_neg hb.ne', Int.tdiv_eq_ediv_of_nonneg ha, Int.tmod_eq_emod_of_nonneg ha, hhalf,
    if_neg (not_lt.mpr hquotient)]
  by_cases hdown : 2 * (a % b) < b
  · rw [if_pos hdown, if_pos (by omega)]
  · rw [if_neg hdown, if_neg (by omega)]

theorem tdiv_tdiv_of_nonneg (a : Int) {b c : Int} (hb : 0 ≤ b) : (a.tdiv b).tdiv c = a.tdiv (b * c) := by
  rcases le_total 0 a with ha | ha
  · rw [Int.tdiv_eq_ediv_of_nonneg ha, Int.tdiv_eq_ediv_of_nonneg (Int.ediv_nonneg ha hb),
      Int.tdiv_eq_ediv_of_nonneg ha, Int.ediv_ediv_of_nonneg hb]
  · have hneg : ∀ k : Int, a.tdiv k = -((-a) / k) := by
      intro k
      rw [← Int.tdiv_eq_ediv_of_nonneg (by omega), Int.neg_tdiv, neg_neg]
    rw [hneg b, hneg (b * c), Int.neg_tdiv,
      Int.tdiv_eq_ediv_of_nonneg (Int.ediv_nonneg (by omega) hb), Int.ediv_ediv_of_nonneg hb]

/-- Two truncated divisions are one. -/
theorem tdiv_tdiv (a b c : Int) : (a.tdiv b).tdiv c = a.tdiv (b * c) := by
  rcases le_total 0 b with hb | hb
  · exact tdiv_tdiv_of_nonneg a hb
  · rw [← Int.neg_tdiv_neg a b, tdiv_tdiv_of_nonneg (-a) (by omega : 0 ≤ -b), neg_mul, Int.neg_tdiv_neg]

theorem tdiv_nonneg_of_neg_lt {a b : Int} (hb : 0 < b) (h : -b < a) : 0 ≤ a.tdiv b := by
  rcases le_or_gt 0 a with ha | ha
  · exact Int.tdiv_nonneg ha hb.le
  · rw [← neg_neg a, Int.neg_tdiv, Int.tdiv_eq_zero_of_lt (by omega) (by omega), neg_zero]

/-- On non-negative numbers truncation is the floor. -/
theorem bigDiv_ok {a b : Int} (ha : 0 ≤ a) (hb : 0 < b) : bigDiv a b = .ok (a / b) :=
  bigDiv_eq_ok.mpr ⟨hb.ne', Int.tdiv_eq_ediv_of_nonneg ha⟩

theorem bigDiv_floor {a b : Int} (ha : 0 ≤ a) (hb : 0 < b) :
    ∃ q, bigDiv a b = .ok q ∧ 0 ≤ q ∧ q * b ≤ a ∧ a < (q + 1) * b := by
  exact ⟨a / b, bigDiv_ok ha hb, Int.ediv_nonneg ha hb.le, Int.ediv_mul_le a hb.ne',
    Int.lt_ediv_add_one_mul_self a hb⟩

/-- An integer that a JavaScript number holds exactly, such as a clock reading. -/
structure SafeInteger where
  val : Int
  safe : val.natAbs < 2 ^ 53
  deriving DecidableEq

/-- An array, of which no engine makes one of `2 ^ 32` elements. -/
structure JsArray (α : Type) where
  elements : List α
  length_lt : elements.length < 2 ^ 32

/-! ### Calls that write to a shared object -/

/-- A call on an object of type `σ` that the caller shares with the callee. -/
def Call (σ α : Type) := σ → Throwing α × σ

namespace Call

variable {σ α β : Type}

protected def bind (x : Call σ α) (next : α → Call σ β) : Call σ β := fun s =>
  match x s with
  | (.ok a, s') => next a s'
  | (.error e, s') => (.error e, s')

instance : Monad (Call σ) where
  pure a := fun s => (.ok a, s)
  bind := Call.bind

def lift (x : Throwing α) : Call σ α := fun s => (x, s)

instance : MonadLift Throwing (Call σ) where
  monadLift := lift

def read : Call σ σ := fun s => (.ok s, s)

def write (s : σ) : Call σ Unit := fun _ => (.ok (), s)

/-- Assign to some of the shared object's fields. -/
def modify (f : σ → σ) : Call σ Unit := fun s => (.ok (), f s)

def focus {τ : Type} (get : σ → τ) (set : σ → τ → σ) (x : Call τ α) : Call σ α := fun s =>
  ((x (get s)).1, set s (x (get s)).2)

@[simp] theorem bind_apply (x : Call σ α) (next : α → Call σ β) (s : σ) :
    (x >>= next) s = match x s with
      | (.ok a, s') => next a s'
      | (.error e, s') => (.error e, s') := rfl

@[simp] theorem pure_apply (a : α) (s : σ) : (pure a : Call σ α) s = (.ok a, s) := rfl

@[simp] theorem lift_apply (x : Throwing α) (s : σ) : (lift x : Call σ α) s = (x, s) := rfl

@[simp] theorem monadLift_apply (x : Throwing α) (s : σ) :
    (MonadLift.monadLift x : Call σ α) s = (x, s) := rfl

@[simp] theorem read_apply (s : σ) : (read : Call σ σ) s = (.ok s, s) := rfl

@[simp] theorem write_apply (s t : σ) : (write t : Call σ Unit) s = (.ok (), t) := rfl

@[simp] theorem modify_apply (f : σ → σ) (s : σ) : (modify f : Call σ Unit) s = (.ok (), f s) := rfl

@[simp] theorem focus_apply {τ : Type} (get : σ → τ) (set : σ → τ → σ) (x : Call τ α) (s : σ) :
    focus get set x s = ((x (get s)).1, set s (x (get s)).2) := rfl

/-- A sequence of steps succeeds exactly when each step does, on the object the last one left. -/
theorem bind_eq_ok {x : Call σ α} {next : α → Call σ β} {s t : σ} {b : β} :
    (x >>= next) s = (.ok b, t) ↔ ∃ a s', x s = (.ok a, s') ∧ next a s' = (.ok b, t) := by
  rw [bind_apply]
  rcases x s with ⟨_ | a, s'⟩ <;> simp

/-- A sequence of steps leaves the object alone if each step that is reached does. -/
theorem bind_snd_eq {x : Call σ α} {next : α → Call σ β} {s : σ} (hx : (x s).2 = s)
    (hnext : ∀ a, (x s).1 = .ok a → (next a s).2 = s) : ((x >>= next) s).2 = s := by
  rw [bind_apply]
  rcases h : x s with ⟨_ | a, s'⟩
  · rw [h] at hx
    exact hx
  · rw [h] at hx hnext
    simp only at hx hnext
    subst hx
    exact hnext a rfl

/-! ### Runs of calls on one object -/

variable {ι : Type} (call : ι → Call σ α)

/-- The outcomes of calls made one after the other, and the object after the last one. -/
def run : List ι → σ → List (Throwing α) × σ
  | [], s => ([], s)
  | i :: rest, s => ((call i s).1 :: (run rest (call i s).2).1, (run rest (call i s).2).2)

/-- A condition on each call of a run and the object just before it. -/
def Along (Meets : ι → σ → Prop) : List ι → σ → Prop
  | [], _ => True
  | i :: rest, s => Meets i s ∧ Along Meets rest (call i s).2

/-- If each call keeps an invariant, and under the invariant its outcome is the one on an untouched
object, then every outcome of the run is. -/
theorem run_eq_map {call : ι → Call σ α} {Meets : ι → σ → Prop} {Inv : σ → Prop} {untouched : σ}
    (hstep : ∀ i s, Inv s → Meets i s → (call i s).1 = (call i untouched).1 ∧ Inv (call i s).2)
    {calls : List ι} {s : σ} (hs : Inv s) (hmeets : Along call Meets calls s) :
    (run call calls s).1 = calls.map (fun i => (call i untouched).1) ∧ Inv (run call calls s).2 := by
  induction calls generalizing s with
  | nil => exact ⟨rfl, hs⟩
  | cons i rest ih =>
      obtain ⟨hi, hrest⟩ := hmeets
      obtain ⟨hresult, hinv⟩ := hstep i s hs hi
      obtain ⟨hresults, hfinal⟩ := ih hinv hrest
      refine ⟨?_, hfinal⟩
      rw [run, List.map_cons, hresult, hresults]

end Call

end DynamicAmm.Js
