import EventKernel.Text.Hexadecimal

set_option autoImplicit false

/-! Blanks, comments and quoted texts in TOML. Basic texts have escapes, literal texts have
none; both have a form of several lines, where a line break at the very start is dropped
and up to two quotation marks may stand before the closing three. -/

namespace EventKernel.Toml

/-- Whether a character may stand in a text or comment: all but controls, the tab allowed. -/
def isVisible (char : Char) : Bool :=
  char == '\t' || (decide (0x20 ≤ char.toNat) && char.toNat != 0x7F)

def isSpace (char : Char) : Bool := char == ' ' || char == '\t'

def skipSpace (text : List Char) : List Char := text.dropWhile isSpace

def lineBreak? : List Char → Option (List Char)
  | '\n' :: rest => some rest
  | '\r' :: '\n' :: rest => some rest
  | _ => none

/-- Skips a comment up to the end of its line; other texts are left as they are. -/
def skipComment : List Char → List Char
  | '#' :: rest => rest.dropWhile isVisible
  | text => text

/-- What follows the end of a line, if only blanks and a comment stand before it. -/
def endLine? (text : List Char) : Option (List Char) :=
  match skipComment (skipSpace text) with
  | [] => some []
  | rest => lineBreak? rest

/-- The character with a code point that is none of a surrogate. -/
def scalar? (code : Nat) : Option Char :=
  if code < 0xD800 ∨ 0xE000 ≤ code ∧ code < 0x110000 then some (Char.ofNat code) else none

def codeEscape? (digits : List Char) : Option Char := do
  let values ← digits.mapM Text.hexDigit?
  scalar? (values.foldl (fun code digit => code * 16 + digit) 0)

def readEscape : List Char → Option (Char × List Char)
  | 'b' :: rest => some ('\x08', rest)
  | 't' :: rest => some ('\t', rest)
  | 'n' :: rest => some ('\n', rest)
  | 'f' :: rest => some ('\x0c', rest)
  | 'r' :: rest => some ('\r', rest)
  | 'e' :: rest => some ('\x1b', rest)
  | '"' :: rest => some ('"', rest)
  | '\\' :: rest => some ('\\', rest)
  | 'x' :: rest => coded 2 rest
  | 'u' :: rest => coded 4 rest
  | 'U' :: rest => coded 8 rest
  | _ => none
where
  coded (count : Nat) (text : List Char) : Option (Char × List Char) :=
    if count ≤ text.length then
      (·, text.drop count) <$> codeEscape? (text.take count)
    else none

/-- A basic text of one line, behind its opening mark. The number bounds its length. -/
def readBasic : Nat → List Char → Option (List Char × List Char)
  | 0, _ => none
  | _, [] => none
  | _, '"' :: rest => some ([], rest)
  | fuel + 1, '\\' :: rest => do
      let (char, rest) ← readEscape rest
      let (chars, rest) ← readBasic fuel rest
      return (char :: chars, rest)
  | fuel + 1, char :: rest =>
      if isVisible char then do
        let (chars, rest) ← readBasic fuel rest
        return (char :: chars, rest)
      else none

def readLiteral : List Char → Option (List Char × List Char)
  | [] => none
  | '\'' :: rest => some ([], rest)
  | char :: rest =>
      if isVisible char then do
        let (chars, rest) ← readLiteral rest
        return (char :: chars, rest)
      else none

/-- Skips blanks and line breaks. The number bounds the line breaks. -/
def skipLinesWithin : Nat → List Char → List Char
  | 0, text => text
  | fuel + 1, text =>
      let text := skipSpace text
      match lineBreak? text with
      | some rest => skipLinesWithin fuel rest
      | none => text

def skipLines (text : List Char) : List Char := skipLinesWithin text.length text

/-- The marks at the start of a text that close it: of the first five, those beyond the
closing three are part of the text. -/
def closing? (mark : Char) (text : List Char) : Option (List Char × List Char) :=
  let count := min 5 (text.takeWhile (· == mark)).length
  if 3 ≤ count then some (List.replicate (count - 3) mark, text.drop count) else none

/-- A basic text of several lines, behind its opening marks. The number bounds its length. -/
def readBasicLines : Nat → List Char → Option (List Char × List Char)
  | 0, _ => none
  | fuel + 1, text =>
      match closing? '"' text with
      | some closed => some closed
      | none =>
          match text with
          | [] => none
          | '\\' :: rest =>
              match lineBreak? (skipSpace rest) with
              | some rest => readBasicLines fuel (skipLines rest)
              | none => do
                  let (char, rest) ← readEscape rest
                  let (chars, rest) ← readBasicLines fuel rest
                  return (char :: chars, rest)
          | char :: rest =>
              match lineBreak? text with
              | some rest => do
                  let (chars, rest) ← readBasicLines fuel rest
                  return ('\n' :: chars, rest)
              | none =>
                  if isVisible char then do
                    let (chars, rest) ← readBasicLines fuel rest
                    return (char :: chars, rest)
                  else none

/-- A literal text of several lines, behind its opening marks. The number bounds its
length. -/
def readLiteralLines : Nat → List Char → Option (List Char × List Char)
  | 0, _ => none
  | fuel + 1, text =>
      match closing? '\'' text with
      | some closed => some closed
      | none =>
          match text with
          | [] => none
          | char :: rest =>
              match lineBreak? text with
              | some rest => do
                  let (chars, rest) ← readLiteralLines fuel rest
                  return ('\n' :: chars, rest)
              | none =>
                  if isVisible char then do
                    let (chars, rest) ← readLiteralLines fuel rest
                    return (char :: chars, rest)
                  else none

def dropLineBreak (text : List Char) : List Char := (lineBreak? text).getD text

def readQuoted (text : List Char) : Option (String × List Char) :=
  let read (found : Option (List Char × List Char)) : Option (String × List Char) :=
    found.map fun (chars, rest) => (String.ofList chars, rest)
  match text with
  | '"' :: '"' :: '"' :: rest => read (readBasicLines (rest.length + 1) (dropLineBreak rest))
  | '\'' :: '\'' :: '\'' :: rest => read (readLiteralLines (rest.length + 1) (dropLineBreak rest))
  | '"' :: rest => read (readBasic (rest.length + 1) rest)
  | '\'' :: rest => read (readLiteral rest)
  | _ => none

end EventKernel.Toml
