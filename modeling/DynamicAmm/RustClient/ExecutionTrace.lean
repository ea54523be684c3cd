import DynamicAmm.Base.Base64
import DynamicAmm.RustClient.EventLog

/-!
# Execution traces

What a transaction runs, and the log that the runtime writes about it. A trace is indexed by the programs
that are running, the innermost first, so a trace that nothing runs before is well nested: every program
that is invoked returns, and in the order of the invocations.
-/

namespace DynamicAmm.RustClient

open Program (Bytes)

def base58Alphabet : List Char := chars "123456789ABCDEFGHJKLMNPQRSTUVWXYZabcdefghijkmnopqrstuvwxyz"

structure ProgramId where
  chars : List Char
  base58 : ∀ c ∈ chars, c ∈ base58Alphabet
  le_length : 32 ≤ chars.length
  length_le : chars.length ≤ 44
  deriving DecidableEq

/-- What is left to run under the given running programs. -/
inductive Trace : List ProgramId → Type where
  | done : Trace []
  | invoke {stack} (program : ProgramId) (hdepth : stack.length < 9) (rest : Trace (program :: stack)) :
      Trace stack
  | log {program stack} (text : List Char) (rest : Trace (program :: stack)) : Trace (program :: stack)
  | data {program stack} (bytes : Bytes) (rest : Trace (program :: stack)) : Trace (program :: stack)
  | consumed {program stack} (units limit : Nat) (rest : Trace (program :: stack)) :
      Trace (program :: stack)
  | success {program stack} (rest : Trace stack) : Trace (program :: stack)

/-! ### The log -/

def invokeLine (program : ProgramId) (depth : Nat) : List Char :=
  chars "Program " ++ (program.chars ++ (chars " invoke [" ++ Nat.digitChar depth :: chars "]"))

def logLine (text : List Char) : List Char := chars "Program log: " ++ text

def dataLine (bytes : Bytes) : List Char := chars "Program data: " ++ Base64.encode bytes

def consumedLine (program : ProgramId) (units limit : Nat) : List Char :=
  chars "Program " ++ (program.chars ++ (chars " consumed " ++ (Nat.toDigits 10 units ++
    (chars " of " ++ (Nat.toDigits 10 limit ++ chars " compute units")))))

def successLine (program : ProgramId) : List Char :=
  chars "Program " ++ (program.chars ++ chars " success")

namespace Trace

/-- The lines that the runtime logs. -/
def render : {stack : List ProgramId} → Trace stack → List (List Char)
  | _, done => []
  | stack, invoke program _ rest => invokeLine program (stack.length + 1) :: rest.render
  | _, log text rest => logLine text :: rest.render
  | _, data bytes rest => dataLine bytes :: rest.render
  | program :: _, consumed units limit rest => consumedLine program units limit :: rest.render
  | program :: _, success rest => successLine program :: rest.render

/-- What the programs log comes from the given texts and the given data. -/
def Over (texts : Set (List Char)) (payloads : Set Bytes) :
    {stack : List ProgramId} → Trace stack → Prop
  | _, done => True
  | _, invoke _ _ rest => rest.Over texts payloads
  | _, log text rest => text ∈ texts ∧ rest.Over texts payloads
  | _, data bytes rest => bytes ∈ payloads ∧ rest.Over texts payloads
  | _, consumed _ _ rest => rest.Over texts payloads
  | _, success rest => rest.Over texts payloads

end Trace

variable {T : Type}

/-- The data carries an event of the type. -/
def EventType.Carries (event : EventType T) (bytes : Bytes) : Prop :=
  8 ≤ bytes.length ∧ bytes.take 8 = event.discriminator

instance (event : EventType T) (bytes : Bytes) : Decidable (event.Carries bytes) :=
  inferInstanceAs (Decidable (_ ∧ _))

/-- The first event of the type that the program logged while it was the innermost one running. -/
def Trace.firstEvent (event : EventType T) (programId : ProgramId) :
    {stack : List ProgramId} → Trace stack → Option T
  | _, done => none
  | _, invoke _ _ rest => rest.firstEvent event programId
  | _, log _ rest => rest.firstEvent event programId
  | program :: _, data bytes rest =>
      if program = programId ∧ event.Carries bytes then event.tryFromSlice (bytes.drop 8)
      else rest.firstEvent event programId
  | _, consumed _ _ rest => rest.firstEvent event programId
  | _, success rest => rest.firstEvent event programId

end DynamicAmm.RustClient
