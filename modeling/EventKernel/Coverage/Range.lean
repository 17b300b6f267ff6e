import EventKernel.Text.Blank
import EventKernel.Text.Quoted

set_option autoImplicit false

/-! Ranges of explored values. A text gives one range a line, as two numbers in base
sixteen; blank lines are skipped and words after the second are ignored. The first
offending line is reported with its number, counted from one. -/

namespace EventKernel.Coverage

structure Range where
  low : UInt64
  high : UInt64
deriving DecidableEq, Repr, Inhabited

inductive LineError where
  | missingSecond
  | badNumber (word : List Char) (error : Text.NumberError)
  | reversed (low high : UInt64)
deriving DecidableEq, Repr

def LineError.detail : LineError → String
  | missingSecond => "expected two values"
  | badNumber word error => Text.quoted word ++ ": " ++ error.message
  | reversed low high =>
      "range 0x" ++ Text.showHex low.toNat ++ "..0x" ++ Text.showHex high.toNat ++ " is reversed"

structure MalformedLine where
  line : Nat
  error : LineError
deriving DecidableEq, Repr

def MalformedLine.message (malformed : MalformedLine) : String :=
  s!"malformed coverage input at line {malformed.line}: {malformed.error.detail}"

def readNumber (word : List Char) : Except LineError UInt64 :=
  match Text.readHex word with
  | .ok number => .ok number
  | .error error => .error (.badNumber word error)

def readLine : List (List Char) → Except LineError (Option Range)
  | [] => .ok none
  | [_] => .error .missingSecond
  | first :: second :: _ => do
      let low ← readNumber first
      let high ← readNumber second
      if high < low then .error (.reversed low high) else return some ⟨low, high⟩

def atLine {α : Type} (line : Nat) : Except LineError α → Except MalformedLine α
  | .ok value => .ok value
  | .error error => .error ⟨line, error⟩

def readLines : Nat → List (List Char) → Except MalformedLine (List Range)
  | _, [] => .ok []
  | line, text :: rest => do
      let range? ← atLine line (readLine (Text.words text))
      let ranges ← readLines (line + 1) rest
      return range?.toList ++ ranges

def readRanges (text : List Char) : Except MalformedLine (List Range) :=
  readLines 1 (Text.lines text)

/-- The largest number among words, or `largest`. -/
def largestWord (largest : UInt64) : List (List Char) → Except LineError UInt64
  | [] => .ok largest
  | word :: rest => do largestWord (max largest (← readNumber word)) rest

def largestOnLines (largest : UInt64) : Nat → List (List Char) → Except MalformedLine UInt64
  | _, [] => .ok largest
  | line, text :: rest => do
      largestOnLines (← atLine line (largestWord largest (Text.words text))) (line + 1) rest

def largestNumber (text : List Char) : Except MalformedLine UInt64 :=
  largestOnLines 0 1 (Text.lines text)

end EventKernel.Coverage
