import EventKernel.Text.Ranges

set_option autoImplicit false

/-! White space, lines and words of a text. -/

namespace EventKernel.Text

/-- The code points of the Unicode property White_Space. -/
def blankRanges : List (Nat × Nat) := [
  (0x9, 0xD), (0x20, 0x20), (0x85, 0x85), (0xA0, 0xA0), (0x1680, 0x1680), (0x2000, 0x200A),
  (0x2028, 0x2029), (0x202F, 0x202F), (0x205F, 0x205F), (0x3000, 0x3000)]

def isBlank (char : Char) : Bool := inRanges blankRanges char.toNat

/-- The lines of a text. A line ends at a line feed, which a carriage return may precede;
the last line need not be ended. -/
def lines : List Char → List (List Char)
  | [] => []
  | '\r' :: '\n' :: rest => [] :: lines rest
  | '\n' :: rest => [] :: lines rest
  | char :: rest =>
      match lines rest with
      | [] => [[char]]
      | line :: others => (char :: line) :: others

def words : List Char → List (List Char)
  | [] => []
  | char :: rest =>
      if isBlank char then words rest
      else match rest with
        | [] => [[char]]
        | next :: _ =>
            if isBlank next then [char] :: words rest
            else match words rest with
              | [] => [[char]]
              | word :: others => (char :: word) :: others

end EventKernel.Text
