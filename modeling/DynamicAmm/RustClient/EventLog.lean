import DynamicAmm.Base.Pattern
import DynamicAmm.Program.Amm

/-!
# Reading events from a transaction log

The Rust client finds an event by rebuilding the stack of running programs from the lines of the log. A
line is a list of characters, and the stack has its top first.
-/

namespace DynamicAmm.RustClient

open Rust Pattern
open Program (Bytes)

/-- What the regex and base64 packages decide: which characters are digits, and how a text decodes. -/
structure LogLibraries where
  isDigit : Char → Bool
  base64Decode : List Char → Option Bytes

/-- An event type of the program: its eight byte prefix, and how its fields are read. -/
structure EventType (T : Type) where
  discriminator : Bytes
  tryFromSlice : Bytes → Option T

def chars (s : String) : List Char := s.toList

def isWhitespace (c : Char) : Bool :=
  ('\t' ≤ c && c ≤ '\r') || c = ' ' || c = '\u0085' || c = '\u00a0' || c = '\u1680' ||
    ('\u2000' ≤ c && c ≤ '\u200a') || c = '\u2028' || c = '\u2029' || c = '\u202f' || c = '\u205f' ||
    c = '\u3000'

def trim (s : List Char) : List Char := (s.dropWhile isWhitespace).rdropWhile isWhitespace

/-- `.` of a pattern, which stops at the end of a line. -/
def anyCharacter : Piece := .many (· != '\n')

/-- `Program .* invoke \[\d{1}\]` -/
def programStartPattern (libraries : LogLibraries) : List Piece :=
  literal (chars "Program ") ++ anyCharacter :: (literal (chars " invoke [") ++
    .one libraries.isDigit :: (literal (chars "]") ++ []))

/-- `Program .* success` -/
def programEndPattern : List Piece :=
  literal (chars "Program ") ++ anyCharacter :: (literal (chars " success") ++ [])

/-- The program that a line says is invoked. -/
def parsedProgramId (log : List Char) : List Char := trim ((log.drop 8).take 44)

variable (libraries : LogLibraries)

/-- The stack of running programs after a line. -/
def executionStack (stack : List (List Char)) (log : List Char) : List (List Char) :=
  let stack := if isMatch (programStartPattern libraries) log then parsedProgramId log :: stack else stack
  if isMatch programEndPattern log then stack.tail else stack

variable {T : Type} (event : EventType T) (programId : List Char)

def parseEventLogFrom (stack : List (List Char)) : List (List Char) → Outcome (Option T)
  | [] => .ok none
  | log :: logs =>
      let stack := executionStack libraries stack log
      if (chars "Program data:").isPrefixOf log then
        match stack with
        | [] => .ok none -- the early return on an empty stack
        | top :: _ =>
            if top = programId then
              match libraries.base64Decode (log.drop 14) with
              | none => parseEventLogFrom stack logs
              | some logBuf =>
                  if logBuf.length < 8 then .panic
                  else if logBuf.take 8 = event.discriminator then .ok (event.tryFromSlice (logBuf.drop 8))
                  else parseEventLogFrom stack logs
            else parseEventLogFrom stack logs
      else parseEventLogFrom stack logs

def parseEventLog (logs : List (List Char)) : Outcome (Option T) :=
  parseEventLogFrom libraries event programId [] logs

end DynamicAmm.RustClient
