import DynamicAmm.Base.Brackets
import DynamicAmm.Proof.Log.Attribution

/-!
# Malformed data lines

The start and the end pattern bracket the lines of a log, and the program that a data line belongs to is the innermost
one open at it. A line outside every program ends the scan, and so does a line of the program itself that is too short
or that holds the discriminator. A malformed line should take no part: the log without its malformed lines says which
event is due. It is found as long as no malformed line is a bracket, aborts the scan or ends it early.
-/

namespace DynamicAmm.RustClient

open Rust Pattern

variable {T : Type}

/-- What a `Program data:` line holds, to an event type. -/
inductive Content (T : Type) where
  | undecodable
  /-- Too short to hold a discriminator. -/
  | short
  /-- Under another discriminator. -/
  | other
  /-- Under the discriminator, but not the fields of the event. -/
  | unreadable
  | event (e : T)

def Content.malformed : Content T → Bool
  | .undecodable | .short | .unreadable => true
  | .other | .event _ => false

variable (libraries : LogLibraries) (event : EventType T) (programId : List Char)

def content (log : List Char) : Content T :=
  match libraries.base64Decode (log.drop 14) with
  | none => .undecodable
  | some logBuf =>
      if logBuf.length < 8 then .short
      else if logBuf.take 8 = event.discriminator then
        match event.tryFromSlice (logBuf.drop 8) with
        | some e => .event e
        | none => .unreadable
      else .other

def isDataLine (log : List Char) : Bool := (chars "Program data:").isPrefixOf log

def isMalformed (log : List Char) : Bool := isDataLine log && (content libraries event log).malformed

/-- After the lines the program is the innermost one that was opened and not closed. -/
def InProgram (lines : List (List Char)) : Prop :=
  Brackets.Innermost (opensProgram libraries) closesProgram parsedProgramId lines programId

def OutsidePrograms (lines : List (List Char)) : Prop := Brackets.Outside (opensProgram libraries) closesProgram lines

/-- The line is the last one that the scan reads: it lies outside every program, or it is the program's own and holds
the discriminator or no discriminator at all. -/
def Ends (before : List (List Char)) (log : List Char) : Prop :=
  isDataLine log = true ∧ (OutsidePrograms libraries (before ++ [log]) ∨
    InProgram libraries programId (before ++ [log]) ∧
      ∀ data, content libraries event log = data → data ≠ .undecodable ∧ data ≠ .other)

/-- The scan reads all of the lines and goes on. -/
def Passes (lines : List (List Char)) : Prop :=
  ∀ before log, before ++ [log] <+: lines → ¬ Ends libraries event programId before log

/-- A malformed line that the scan comes to, after the given ones. -/
structure Meets (logs before : List (List Char)) (log : List Char) : Prop where
  isPrefix : before ++ [log] <+: logs
  passes : Passes libraries event programId before
  malformed : isMalformed libraries event log = true

variable {libraries event programId} {lines before after : List (List Char)} {log : List Char} {e : T}

end DynamicAmm.RustClient
