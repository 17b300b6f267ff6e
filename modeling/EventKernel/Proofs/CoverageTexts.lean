import EventKernel.Coverage.Range
import EventKernel.Proofs.HexNumerals
import EventKernel.Proofs.TextGrammar
import Mathlib.Data.List.Forall2
import Mathlib.Data.List.ReduceOption

set_option autoImplicit false

/-! Texts that give ranges. A text is read exactly if each of its lines is blank or begins with two
numbers of which the second is not below the first; otherwise its first other line is named. What is
read does not depend on how the numbers are spelled, what stands between them and what ends the
lines: every way to write a list of ranges is read as that list. -/

namespace EventKernel.Coverage

open Text

/-- What a line gives: no range if it is blank, else that of its first two words. -/
inductive Gives (line : List Char) : Option Range → Prop
  | nothing (blank : ∀ char ∈ line, isBlank char = true) : Gives line none
  | range {first second : List Char} {others : List (List Char)} {low high : UInt64}
      (worded : Worded line (first :: second :: others)) (begins : Spells first low)
      (ends : Spells second high) (ordered : low ≤ high) : Gives line (some ⟨low, high⟩)

def Offends (line : List Char) : Prop := ∀ range?, ¬ Gives line range?

private theorem readNumber_eq_ok_iff {word : List Char} {number : UInt64} :
    readNumber word = .ok number ↔ Spells word number := by
  rw [← readHex_eq_ok_iff]
  unfold readNumber
  cases readHex word with
  | error error => simp
  | ok found => simp

private theorem readLine_pair {first second : List Char} (others : List (List Char))
    {range? : Option Range} :
    readLine (first :: second :: others) = .ok range? ↔ ∃ low high, Spells first low ∧
      Spells second high ∧ low ≤ high ∧ range? = some ⟨low, high⟩ := by
  have compared : readLine (first :: second :: others) =
      (readNumber first >>= fun low => readNumber second >>= fun high =>
        if high < low then .error (.reversed low high) else .ok (some (Range.mk low high))) := rfl
  simp only [← readNumber_eq_ok_iff, compared]
  constructor
  · intro read
    cases begins : readNumber first with
    | error error =>
        rw [begins] at read
        cases read
    | ok low =>
        cases ends : readNumber second with
        | error error =>
            rw [begins, ends] at read
            cases read
        | ok high =>
            rw [begins, ends] at read
            by_cases reversed : high < low
            · cases (if_pos reversed).symm.trans read
            · cases (if_neg reversed).symm.trans read
              exact ⟨low, high, rfl, rfl, UInt64.not_lt.mp reversed, rfl⟩
  · rintro ⟨low, high, begins, ends, ordered, rfl⟩
    rw [begins, ends]
    exact if_neg (UInt64.not_lt.mpr ordered)

private theorem readLine_eq_ok_iff {line : List Char} {range? : Option Range} :
    readLine (words line) = .ok range? ↔ Gives line range? := by
  have worded := worded_words line
  constructor
  · intro read
    cases shape : words line with
    | nil =>
        rw [shape] at read worded
        cases read
        cases worded with
        | blank blank => exact .nothing blank
    | cons first rest =>
        rw [shape] at read worded
        cases rest with
        | nil => cases read
        | cons second others =>
            obtain ⟨low, high, begins, ends, ordered, rfl⟩ := (readLine_pair others).mp read
            exact .range worded begins ends ordered
  · intro gives
    cases gives with
    | nothing blank =>
        rw [(Worded.blank blank).words_eq]
        rfl
    | range worded begins ends ordered =>
        rw [worded.words_eq]
        exact (readLine_pair _).mpr ⟨_, _, begins, ends, ordered, rfl⟩

private theorem gives_or_offends (line : List Char) :
    (∃ range?, Gives line range?) ∨ Offends line := by
  cases read : readLine (words line) with
  | ok range? => exact .inl ⟨range?, readLine_eq_ok_iff.mp read⟩
  | error error =>
      right
      intro range? gives
      cases read.symm.trans (readLine_eq_ok_iff.mpr gives)

private theorem readLines_of_gives {line : List Char} {range? : Option Range}
    (gives : Gives line range?) (number : Nat) (rest : List (List Char)) :
    readLines number (line :: rest) =
      (range?.toList ++ ·) <$> readLines (number + 1) rest := by
  have stepped : readLines number (line :: rest) =
      (atLine number (readLine (words line)) >>= fun range? =>
        readLines (number + 1) rest >>= fun ranges => .ok (range?.toList ++ ranges)) := rfl
  rw [stepped, readLine_eq_ok_iff.mpr gives]
  cases readLines (number + 1) rest <;> rfl

private theorem readLines_of_offends {line : List Char} (offends : Offends line) (number : Nat)
    (rest : List (List Char)) :
    ∃ error, readLines number (line :: rest) = .error ⟨number, error⟩ := by
  unfold readLines
  cases read : readLine (words line) with
  | ok range? => exact absurd (readLine_eq_ok_iff.mp read) (offends range?)
  | error error => exact ⟨error, rfl⟩

private theorem readLines_eq_ok_iff {lines : List (List Char)} {number : Nat}
    {ranges : List Range} :
    readLines number lines = .ok ranges ↔
      ∃ found, List.Forall₂ Gives lines found ∧ ranges = found.reduceOption := by
  induction lines generalizing number ranges with
  | nil =>
      constructor
      · intro read
        cases read
        exact ⟨[], .nil, rfl⟩
      · rintro ⟨found, given, rfl⟩
        cases given
        rfl
  | cons line rest ih =>
      constructor
      · intro read
        rcases gives_or_offends line with ⟨range?, gives⟩ | offends
        · rw [readLines_of_gives gives] at read
          cases later : readLines (number + 1) rest with
          | error malformed =>
              rw [later] at read
              cases read
          | ok others =>
              rw [later] at read
              cases read
              obtain ⟨found, given, rfl⟩ := ih.mp later
              refine ⟨range? :: found, .cons gives given, ?_⟩
              cases range? <;> rfl
        · obtain ⟨error, failed⟩ := readLines_of_offends offends number rest
          cases failed.symm.trans read
      · rintro ⟨found, given, rfl⟩
        cases given with
        | @cons _ range? _ found gives given =>
            rw [readLines_of_gives gives, ih.mpr ⟨found, given, rfl⟩]
            cases range? <;> rfl

/-- Reading ends at the first line that gives nothing, however many were read before it. -/
theorem readLines_eq_error_iff {lines : List (List Char)} {start number : Nat} :
    (∃ error, readLines start lines = .error ⟨number, error⟩) ↔
      ∃ before line after, lines = before ++ line :: after ∧
        (∀ earlier ∈ before, ∃ range?, Gives earlier range?) ∧ Offends line ∧
          number = start + before.length := by
  constructor
  · rintro ⟨error, read⟩
    induction lines generalizing start with
    | nil => cases read
    | cons first rest ih =>
        rcases gives_or_offends first with ⟨range?, gives⟩ | offends
        · rw [readLines_of_gives gives] at read
          cases later : readLines (start + 1) rest with
          | ok ranges =>
              rw [later] at read
              cases read
          | error malformed =>
              rw [later] at read
              cases read
              obtain ⟨before, line, after, rfl, given, offends, rfl⟩ := ih later
              refine ⟨first :: before, line, after, rfl, ?_, offends, ?_⟩
              · exact List.forall_mem_cons.mpr ⟨⟨range?, gives⟩, given⟩
              · rw [List.length_cons]
                omega
        · obtain ⟨offence, failed⟩ := readLines_of_offends offends start rest
          cases failed.symm.trans read
          exact ⟨[], first, rest, rfl, List.forall_mem_nil _, offends, rfl⟩
  · rintro ⟨before, line, after, rfl, given, offends, rfl⟩
    induction before generalizing start with
    | nil => exact readLines_of_offends offends start after
    | cons first others ih =>
        obtain ⟨⟨range?, gives⟩, given⟩ := List.forall_mem_cons.mp given
        have counted : start + (first :: others).length = start + 1 + others.length := by
          rw [List.length_cons]
          omega
        obtain ⟨error, failed⟩ : ∃ error, readLines (start + 1) (others ++ line :: after) =
            .error ⟨start + 1 + others.length, error⟩ := ih given
        refine ⟨error, ?_⟩
        rw [List.cons_append, readLines_of_gives gives, failed, counted]
        rfl

abbrev Blank := { char : Char // isBlank char = true ∧ char ≠ '\n' }

def spaces (gap : List Blank) : List Char := gap.map Subtype.val

/-- A line to be written: a blank one, or a range as two numbers with white space around them. -/
inductive Row where
  | blank (gap : List Blank)
  | pair (range : Range) (ordered : range.low ≤ range.high) (before : List Blank) (low : Numeral)
      (space : Blank) (more : List Blank) (high : Numeral) (after : List Blank)

namespace Row

def range? : Row → Option Range
  | blank _ => none
  | pair range .. => some range

def words : Row → List (List Char)
  | blank _ => []
  | pair range _ _ low _ _ high _ => [low.write range.low, high.write range.high]

def chars : Row → List Char
  | blank gap => spaces gap
  | pair range _ before low space more high after =>
      spaces before ++ low.write range.low ++
        (spaces (space :: more) ++ high.write range.high ++ spaces after)

end Row

def write (rows : List (Row × LineEnd)) (last : Row) : List Char :=
  (rows.flatMap fun row => row.1.chars ++ row.2.chars) ++ last.chars

def written (rows : List (Row × LineEnd)) (last : Row) : List Range :=
  (rows.map (·.1.range?) ++ [last.range?]).reduceOption

private theorem spaces_blank (gap : List Blank) : ∀ char ∈ spaces gap, isBlank char = true := by
  intro char member
  obtain ⟨blank, _, rfl⟩ := List.mem_map.mp member
  exact blank.property.1

private theorem Row.worded (row : Row) : Worded row.chars row.words := by
  cases row with
  | blank gap => exact .blank (spaces_blank gap)
  | pair range ordered before low space more high after =>
      have begins := low.spells_write range.low
      have ends := high.spells_write range.high
      have afterBlank : ∀ char ∈ (spaces after).head?, isBlank char = true :=
        fun char first => spaces_blank after char (List.mem_of_mem_head? first)
      refine .word (spaces_blank before) begins.ne_nil begins.solid ?_
        (.word (spaces_blank _) ends.ne_nil ends.solid afterBlank (.blank (spaces_blank after)))
      intro char first
      cases first
      exact space.property.1

private theorem Row.whole (row : Row) : '\n' ∉ row.chars := by
  have gaps : ∀ gap, '\n' ∉ spaces gap := by
    intro gap member
    obtain ⟨blank, _, same⟩ := List.mem_map.mp member
    exact blank.property.2 same
  have numbers : ∀ (numeral : Numeral) number, '\n' ∉ numeral.write number := by
    intro numeral number member
    have solid := (numeral.spells_write number).solid _ member
    revert solid
    decide
  cases row with
  | blank gap => exact gaps gap
  | pair range ordered before low space more high after =>
      simp only [chars, List.mem_append, not_or]
      exact ⟨⟨gaps _, numbers _ _⟩, ⟨gaps _, numbers _ _⟩, gaps _⟩

private theorem Row.gives {row : Row} {line : List Char} (read : Text.words line = row.words) :
    Gives line row.range? := by
  have worded := worded_iff.mpr read
  cases row with
  | blank gap =>
      cases worded with
      | blank blank => exact .nothing blank
  | pair range ordered before low space more high after =>
      exact .range worded (low.spells_write _) (high.spells_write _) ordered

/-- The lines of what is written have the words of the rows, and only an empty last row is none of
them. -/
theorem lines_write (rows : List (Row × LineEnd)) (last : Row) :
    ∃ read : List Row, List.Forall₂ (fun row line => Text.words line = row.words) read
        (lines (write rows last)) ∧
      (read.map Row.range?).reduceOption = written rows last := by
  induction rows with
  | nil =>
      by_cases empty : last.chars = []
      · -- An empty last row is no line, but gives no range either.
        refine ⟨[], ?_, ?_⟩
        · change List.Forall₂ _ [] (lines last.chars)
          rw [empty]
          exact .nil
        · cases last with
          | blank gap => rfl
          | pair range ordered before low space more high after =>
              have length := congrArg List.length empty
              simp [Row.chars, spaces] at length
      · refine ⟨[last], ?_, rfl⟩
        change List.Forall₂ _ [last] (lines last.chars)
        rw [(Lined.last empty last.whole).lines_eq]
        exact .cons last.worded.words_eq .nil
  | cons row rest ih =>
      obtain ⟨read, worded, ranges⟩ := ih
      obtain ⟨kept, split, same⟩ := lines_of_ended row.2 (write rest last) row.1.whole
      refine ⟨row.1 :: read, ?_, ?_⟩
      · have shape : write (row :: rest) last = row.1.chars ++ row.2.chars ++ write rest last := by
          simp [write]
        rw [shape, split]
        exact .cons (same.trans row.1.worded.words_eq) worded
      · unfold written at ranges ⊢
        rw [List.map_cons, List.map_cons, List.cons_append]
        cases row.1.range? with
        | none => exact ranges
        | some range => exact congrArg (range :: ·) ranges

/-- The largest end of some ranges, or zero if there are none. -/
structure LargestEnd (ranges : List Range) (largest : UInt64) : Prop where
  bound : ∀ range ∈ ranges, range.high ≤ largest
  reached : ranges ≠ [] → ∃ range ∈ ranges, range.high = largest
  none : ranges = [] → largest = 0

private theorem max_eq (first second : UInt64) :
    max first second = if first ≤ second then second else first := rfl

private theorem largestWord_row (row : Row) (largest : UInt64) :
    ∃ next, largestWord largest row.words = .ok next ∧ largest ≤ next ∧
      (∀ range, row.range? = some range → range.high ≤ next) ∧
      (next = largest ∨ ∃ range, row.range? = some range ∧ range.high = next) := by
  cases row with
  | blank gap =>
      refine ⟨largest, rfl, UInt64.le_refl _, ?_, .inl rfl⟩
      intro range none
      cases none
  | pair range ordered before low space more high after =>
      have begins := readNumber_eq_ok_iff.mpr (low.spells_write range.low)
      have ends := readNumber_eq_ok_iff.mpr (high.spells_write range.high)
      have raised : max (max largest range.low) range.high = max largest range.high := by
        simp only [max_eq]
        grind
      refine ⟨max largest range.high, ?_, ?_, ?_, ?_⟩
      · simp only [Row.words, largestWord, begins, ends, ← raised]
        rfl
      · rw [max_eq]
        grind
      · intro other same
        cases same
        rw [max_eq]
        grind
      · rw [max_eq]
        split
        · exact .inr ⟨range, rfl, rfl⟩
        · exact .inl rfl

private theorem largestOnLines_rows {read : List Row} {lines : List (List Char)}
    (worded : List.Forall₂ (fun row line => Text.words line = row.words) read lines)
    (number : Nat) (largest : UInt64) :
    ∃ last, largestOnLines largest number lines = .ok last ∧ largest ≤ last ∧
      (∀ range ∈ (read.map Row.range?).reduceOption, range.high ≤ last) ∧
      (last = largest ∨ ∃ range ∈ (read.map Row.range?).reduceOption, range.high = last) := by
  induction worded generalizing number largest with
  | nil => exact ⟨largest, rfl, UInt64.le_refl _, List.forall_mem_nil _, .inl rfl⟩
  | @cons row line read lines words _ ih =>
      obtain ⟨next, raised, above, bound, reached⟩ := largestWord_row row largest
      obtain ⟨last, laterRead, laterAbove, laterBound, laterReached⟩ := ih (number + 1) next
      simp only [List.reduceOption_mem_iff] at laterBound laterReached
      simp only [List.reduceOption_mem_iff, List.map_cons, List.mem_cons]
      refine ⟨last, ?_, UInt64.le_trans above laterAbove, ?_, ?_⟩
      · unfold largestOnLines
        rw [words, raised]
        exact laterRead
      · rintro range (here | later)
        · exact UInt64.le_trans (bound range here.symm) laterAbove
        · exact laterBound range later
      · rcases laterReached with same | ⟨range, later, same⟩
        · rw [same]
          rcases reached with kept | ⟨range, here, same⟩
          · exact .inl kept
          · exact .inr ⟨range, .inl here.symm, same⟩
        · exact .inr ⟨range, .inr later, same⟩

/-- A text is read exactly if every line gives something, and then the ranges are those given, in
the order of the lines. Otherwise the first line that gives nothing is named, where blank lines
count. Hence every way to write ranges is read as these ranges, and their largest end is the largest
number that stands in the text. -/
theorem coverage_text_read_exactly :
    (∀ text ranges, readRanges text = .ok ranges ↔ ∃ lines found, Lined text lines ∧
      List.Forall₂ Gives lines found ∧ ranges = found.reduceOption) ∧
    (∀ text number, (∃ error, readRanges text = .error ⟨number, error⟩) ↔
      ∃ before line after, Lined text (before ++ line :: after) ∧
        (∀ earlier ∈ before, ∃ range?, Gives earlier range?) ∧ Offends line ∧
          number = before.length + 1) ∧
    ∀ rows last, readRanges (write rows last) = .ok (written rows last) ∧
      ∃ largest, largestNumber (write rows last) = .ok largest ∧
        LargestEnd (written rows last) largest := by
  refine ⟨?_, ?_, ?_⟩
  · intro text ranges
    unfold readRanges
    rw [readLines_eq_ok_iff]
    constructor
    · rintro ⟨found, given, same⟩
      exact ⟨lines text, found, lined_lines text, given, same⟩
    · rintro ⟨all, found, lined, given, same⟩
      rw [lined.lines_eq]
      exact ⟨found, given, same⟩
  · intro text number
    unfold readRanges
    rw [readLines_eq_error_iff]
    constructor
    · rintro ⟨before, line, after, shape, given, offends, same⟩
      exact ⟨before, line, after, lined_iff.mpr shape, given, offends, by omega⟩
    · rintro ⟨before, line, after, lined, given, offends, same⟩
      exact ⟨before, line, after, lined.lines_eq, given, offends, by omega⟩
  · intro rows last
    obtain ⟨read, worded, ranges⟩ := lines_write rows last
    constructor
    · apply readLines_eq_ok_iff.mpr
      refine ⟨read.map Row.range?, ?_, ranges.symm⟩
      apply List.forall₂_map_right_iff.mpr
      exact (worded.imp fun row line same => Row.gives same).flip
    · obtain ⟨largest, found, _, bound, reached⟩ := largestOnLines_rows worded 1 0
      rw [ranges] at bound reached
      refine ⟨largest, found, bound, ?_, ?_⟩
      · intro some
        rcases reached with zero | reached
        · obtain ⟨range, member⟩ := List.exists_mem_of_ne_nil _ some
          have small := bound range member
          rw [zero] at small ⊢
          exact ⟨range, member, UInt64.le_antisymm small UInt64.zero_le⟩
        · exact reached
      · intro none
        rcases reached with zero | ⟨range, member, _⟩
        · exact zero
        · rw [none] at member
          cases member

example : readRanges "0x1 +fF\r\n\n 0X0\t01 more".toList = .ok [⟨1, 0xFF⟩, ⟨0, 1⟩] := by rfl

example : readRanges "0 1\n \n3 2\nz".toList = .error ⟨3, .reversed 3 2⟩ := by rfl

end EventKernel.Coverage
