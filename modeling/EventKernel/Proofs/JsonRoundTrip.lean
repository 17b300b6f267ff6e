import EventKernel.Json.Reader
import EventKernel.Json.Writer

set_option autoImplicit false

/-! What is written is read back. A text that was written ends where a comma, a closing bracket or
nothing follows, so a reader that meets it in front of others takes just that much; and every value
takes at least one character, so the length of a text is enough to bound its nesting. -/

namespace EventKernel.Json

/-! ### Characters -/

private theorem not_surrogate (char : Char) :
    (isHighSurrogate char.toNat || isLowSurrogate char.toNat) = false := by
  have valid : char.toNat < 0xD800 ∨ 0xDFFF < char.toNat ∧ char.toNat < 0x110000 := char.valid
  unfold isHighSurrogate isLowSurrogate
  simp only [Bool.or_eq_false_iff, Bool.and_eq_false_iff, decide_eq_false_iff_not]
  omega

private theorem joinSurrogates_cons (char : Char) (units : List Nat) :
    joinSurrogates (char.toNat :: units) = (char :: ·) <$> joinSurrogates units := by
  obtain ⟨high, low⟩ := Bool.or_eq_false_iff.mp (not_surrogate char)
  cases units with
  | nil =>
      unfold joinSurrogates
      rw [not_surrogate, Char.ofNat_toNat]
      rfl
  | cons next rest =>
      rw [joinSurrogates, high, low, Char.ofNat_toNat]
      rfl

private theorem joinSurrogates_written (text : List Char) :
    joinSurrogates (text.map Char.toNat) = some text := by
  induction text with
  | nil => rfl
  | cons char rest ih =>
      rw [List.map_cons, joinSurrogates_cons, ih]
      rfl

private theorem fourDigits_written : ∀ code < 0x20,
    fourDigits '0' '0' (Nat.digitChar (code / 16)) (Nat.digitChar (code % 16)) = some code := by
  decide

private theorem shortEscape_of_mark {char letter : Char} (marked : shortMark? char = some letter) :
    letter ≠ 'u' ∧ shortEscape? letter = some char := by
  unfold shortMark? at marked
  split at marked
  all_goals cases marked
  all_goals exact ⟨by decide, rfl⟩

private theorem plain_of_unmarked {char : Char} (unmarked : shortMark? char = none) :
    char ≠ '"' ∧ char ≠ '\\' := by
  constructor
  · rintro rfl
    cases unmarked
  · rintro rfl
    cases unmarked

private theorem readUnits_writeChar (char : Char) (rest : List Char) :
    readUnits (writeChar char ++ rest) = do
      let (units, rest) ← readUnits rest
      return (char.toNat :: units, rest) := by
  unfold writeChar
  cases marked : shortMark? char with
  | some letter =>
      obtain ⟨other, stands⟩ := shortEscape_of_mark marked
      change readUnits ('\\' :: letter :: rest) = _
      rw [readUnits, stands]
      · rfl
      · exact fun _ _ _ _ _ same => absurd same other
  | none =>
      obtain ⟨noQuote, noSlash⟩ := plain_of_unmarked marked
      simp only
      split
      · rename_i control
        change readUnits ('\\' :: 'u' :: '0' :: '0' :: _ :: _ :: rest) = _
        rw [readUnits, fourDigits_written _ control]
        rfl
      · rename_i visible
        change readUnits (char :: rest) = _
        rw [readUnits, if_neg (not_or.mpr ⟨visible, noSlash⟩)]
        · exact noQuote
        · exact fun _ _ _ _ _ same => absurd same noSlash
        · exact fun _ _ same => absurd same noSlash

private theorem readString_writeRest (text : String) (rest : List Char) :
    readString (writeRest text.toList ++ rest) = some (some text, rest) := by
  have units (chars : List Char) :
      readUnits (writeRest chars ++ rest) = some (chars.map Char.toNat, rest) := by
    unfold writeRest
    induction chars with
    | nil => rfl
    | cons char later ih =>
        rw [List.flatMap_cons, List.append_assoc, List.append_assoc, readUnits_writeChar,
          ← List.append_assoc, ih]
        rfl
  unfold readString
  rw [units]
  simp only [bind, Option.bind, joinSurrogates_written, Option.map_eq_map, Option.map_some,
    String.ofList_toList]
  rfl

/-! ### Numbers -/

def Closes (rest : List Char) : Prop :=
  ∀ char later, rest = char :: later → char = ',' ∨ char = ']' ∨ char = '\x7d'

namespace Closes

private theorem nil : Closes [] := by
  rintro _ _ ⟨⟩

private theorem comma (rest : List Char) : Closes (',' :: rest) := by
  rintro _ _ ⟨⟩
  exact .inl rfl

private theorem bracket (rest : List Char) : Closes (']' :: rest) := by
  rintro _ _ ⟨⟩
  exact .inr (.inl rfl)

private theorem brace (rest : List Char) : Closes ('\x7d' :: rest) := by
  rintro _ _ ⟨⟩
  exact .inr (.inr rfl)

variable {rest : List Char} (closes : Closes rest)

include closes

private theorem readDigits_eq {digits : List Char} (some_ : digits ≠ [])
    (all : ∀ char ∈ digits, char.isDigit = true) :
    readDigits (digits ++ rest) = some (digits, rest) := by
  have none_ : rest.takeWhile Char.isDigit = [] ∧ rest.dropWhile Char.isDigit = rest := by
    cases rest with
    | nil => exact ⟨rfl, rfl⟩
    | cons char later =>
        rcases closes char later rfl with rfl | rfl | rfl
        all_goals exact ⟨rfl, rfl⟩
  unfold readDigits
  rw [List.takeWhile_append_of_pos all, List.dropWhile_append_of_pos all, none_.1, none_.2,
    List.append_nil]
  cases digits with
  | nil => exact absurd rfl some_
  | cons digit others => rfl

private theorem readFraction_eq : readFraction rest = some ([], rest) := by
  cases rest with
  | nil => rfl
  | cons char later =>
      rcases closes char later rfl with rfl | rfl | rfl
      all_goals rfl

private theorem readExponent_eq : readExponent rest = some (none, rest) := by
  cases rest with
  | nil => rfl
  | cons char later =>
      rcases closes char later rfl with rfl | rfl | rfl
      all_goals rfl

end Closes

private theorem digitsValue_toDigits (value : Nat) :
    Decimal.digitsValue (Nat.toDigits 10 value) = value := by
  refine Eq.trans ?_ (Nat.ofDigitChars_ten_toDigits (n := value))
  rw [Nat.ofDigitChars_eq_foldl]
  unfold Decimal.digitsValue
  simp only [Nat.mul_comm]
  rfl

private theorem toDigits_of_zero_first (value : Nat) {later : List Char}
    (first : Nat.toDigits 10 value = '0' :: later) : value = 0 ∧ later = [] := by
  induction value using Nat.strongRecOn generalizing later with
  | ind value ih =>
      rcases Nat.lt_or_ge value 10 with small | large
      · rw [Nat.toDigits_of_lt_base small] at first
        obtain ⟨zero, nothing⟩ := List.cons.inj first
        exact ⟨Nat.digitChar_eq_zero.mp zero, nothing.symm⟩
      · rw [Nat.toDigits_of_base_le (by decide) large] at first
        rcases List.append_eq_cons_iff.mp first with ⟨nothing, _⟩ | ⟨front, begins, _⟩
        · exact absurd nothing Nat.toDigits_ne_nil
        · have zero := (ih (value / 10) (by omega) begins).1
          omega

private theorem readWhole_toDigits (value : Nat) {rest : List Char} (closes : Closes rest) :
    readWhole (Nat.toDigits 10 value ++ rest) = some (Nat.toDigits 10 value, rest) := by
  have read := closes.readDigits_eq (Nat.toDigits_ne_nil (n := value) (b := 10))
    fun char member => Nat.isDigit_of_mem_toDigits (by decide) (by decide) member
  cases digits : Nat.toDigits 10 value with
  | nil => exact absurd digits Nat.toDigits_ne_nil
  | cons digit later =>
      rw [digits] at read
      by_cases zero : digit = '0'
      · subst zero
        rw [(toDigits_of_zero_first value digits).2]
        rfl
      · change readWhole (digit :: (later ++ rest)) = _
        rw [readWhole]
        · exact read
        · exact fun _ same => absurd (List.cons.inj same).1 zero

private theorem readMagnitude_toDigits (negative : Bool) (value : Nat) {rest : List Char}
    (closes : Closes rest) (nonzero : negative = true → value ≠ 0) :
    readMagnitude negative (Nat.toDigits 10 value ++ rest) =
      some (.integer (if negative then -value else value), rest) := by
  unfold readMagnitude
  rw [readWhole_toDigits value closes]
  simp only [bind, Option.bind, closes.readFraction_eq, closes.readExponent_eq,
    digitsValue_toDigits]
  cases negative with
  | false => rfl
  | true =>
      have other : ((value : Int) == 0) = false :=
        beq_eq_false_iff_ne.mpr (Int.ofNat_ne_zero.mpr (nonzero rfl))
      rw [other]
      rfl

/-! ### Values -/

mutual

/-- Whether a value is made of what is written and can be read: neither a number with a fraction
nor a date, and nothing garbled. -/
def isWritable : Document → Bool
  | .decimal _ => false
  | .date _ => false
  | .garbled => false
  | .list items => areItemsWritable items
  | .table fields => areFieldsWritable fields
  | _ => true

def areItemsWritable : List Document → Bool
  | [] => true
  | item :: rest => isWritable item && areItemsWritable rest

def areFieldsWritable : List (String × Document) → Bool
  | [] => true
  | (_, value) :: rest => isWritable value && areFieldsWritable rest

end

def Begins (text : List Char) : Prop :=
  ∃ first later, text = first :: later ∧ isSpace first = false ∧ first ≠ ']'

private theorem Begins.append {text : List Char} (begins : Begins text) (rest : List Char) :
    Begins (text ++ rest) := by
  obtain ⟨first, later, rfl, visible, other⟩ := begins
  exact ⟨first, later ++ rest, rfl, visible, other⟩

private theorem skipSpace_visible {first : Char} (visible : isSpace first = false)
    (later : List Char) : skipSpace (first :: later) = first :: later := by
  unfold skipSpace
  rw [List.dropWhile_cons, visible]
  rfl

private theorem visible_of_digit {first : Char} (digit : first.isDigit = true) :
    isSpace first = false ∧ first ≠ '[' ∧ first ≠ ']' ∧ first ≠ '\x7b' := by
  refine ⟨?_, ?_, ?_, ?_⟩
  · unfold isSpace
    simp only [Bool.or_eq_false_iff, beq_eq_false_iff_ne]
    refine ⟨⟨⟨?_, ?_⟩, ?_⟩, ?_⟩
    all_goals
      rintro rfl
      cases digit
  all_goals
    rintro rfl
    cases digit

private theorem readPlain_digit {first : Char} (digit : first.isDigit = true)
    (later : List Char) : readPlain first later = readMagnitude false (first :: later) := by
  unfold readPlain
  split
  any_goals cases digit
  rfl

private theorem readValue_plain (fuel : Nat) {first : Char} (visible : isSpace first = false)
    (noList : first ≠ '[') (noTable : first ≠ '\x7b') (later : List Char) :
    readValue (fuel + 1) (first :: later) = readPlain first later := by
  rw [readValue, skipSpace_visible visible]
  split
  · contradiction
  · rename_i same
    exact absurd (List.cons.inj same).1 noList
  · rename_i same
    exact absurd (List.cons.inj same).1 noTable
  · rename_i same
    cases same
    rfl

private theorem readValue_list (fuel : Nat) {text : List Char} (begins : Begins text) :
    readValue (fuel + 1) ('[' :: text) = do
      let (items, rest) ← readItems fuel text
      return (.list items, rest) := by
  obtain ⟨first, later, rfl, visible, other⟩ := begins
  rw [readValue, skipSpace_visible rfl]
  simp only [skipSpace_visible visible]
  split
  · rename_i same
    exact absurd (List.cons.inj same).1 other
  · rfl

private theorem readValue_table (fuel : Nat) (text : List Char) :
    readValue (fuel + 1) ('\x7b' :: '"' :: text) = do
      let (fields, rest) ← readFields fuel ('"' :: text)
      return (tableOf fields, rest) := by
  rw [readValue, skipSpace_visible rfl]
  simp only [skipSpace_visible (show isSpace '"' = false from rfl)]
  rfl

private theorem readValue_writeInteger (fuel : Nat) (value : Int) {rest : List Char}
    (closes : Closes rest) :
    readValue (fuel + 1) (writeInteger value ++ rest) = some (.integer value, rest) := by
  cases value with
  | ofNat value =>
      have read := readMagnitude_toDigits false value closes Bool.noConfusion
      change readValue (fuel + 1) (Nat.toDigits 10 value ++ rest) = _
      cases digits : Nat.toDigits 10 value with
      | nil => exact absurd digits Nat.toDigits_ne_nil
      | cons first later =>
          have digit : first.isDigit = true := Nat.isDigit_of_mem_toDigits (by decide) (by decide)
            (digits ▸ List.mem_cons_self : first ∈ Nat.toDigits 10 value)
          obtain ⟨visible, noList, _, noTable⟩ := visible_of_digit digit
          rw [digits] at read
          rw [List.cons_append, readValue_plain fuel visible noList noTable, readPlain_digit digit]
          exact read
  | negSucc value =>
      have read := readMagnitude_toDigits true (value + 1) closes fun _ => Nat.succ_ne_zero value
      change readValue (fuel + 1) ('-' :: (Nat.toDigits 10 (value + 1) ++ rest)) = _
      rw [readValue_plain fuel rfl (by decide) (by decide)]
      exact read

private theorem write_begins (document : Document) : Begins (write document) := by
  have plain (first : Char) (later : List Char) (visible : isSpace first = false)
      (other : first ≠ ']') : Begins (first :: later) := ⟨first, later, rfl, visible, other⟩
  cases document with
  | flag value =>
      cases value with
      | false => exact plain _ _ rfl (by decide)
      | true => exact plain _ _ rfl (by decide)
  | integer value =>
      cases value with
      | ofNat value =>
          change Begins (Nat.toDigits 10 value)
          cases digits : Nat.toDigits 10 value with
          | nil => exact absurd digits Nat.toDigits_ne_nil
          | cons first later =>
              obtain ⟨visible, _, other, _⟩ := visible_of_digit
                (Nat.isDigit_of_mem_toDigits (by decide) (by decide)
                  (digits ▸ List.mem_cons_self : first ∈ Nat.toDigits 10 value))
              exact plain first later visible other
      | negSucc value => exact plain _ _ rfl (by decide)
  | _ => exact plain _ _ rfl (by decide)

private theorem writeItems_begins {items : List Document} (some_ : items ≠ []) :
    Begins (writeItems items) := by
  cases items with
  | nil => exact absurd rfl some_
  | cons item rest =>
      cases rest with
      | nil => exact write_begins item
      | cons next later => exact (write_begins item).append _

private theorem writeFields_begins {fields : List (String × Document)} (some_ : fields ≠ []) :
    ∃ later, writeFields fields = '"' :: later := by
  cases fields with
  | nil => exact absurd rfl some_
  | cons field rest =>
      cases rest with
      | nil => exact ⟨_, rfl⟩
      | cons next later => exact ⟨_, rfl⟩

private theorem tableOf_named (fields : List (String × Document)) :
    tableOf (fields.map fun field => (some field.1, field.2)) = .table fields := by
  have named : (fields.map fun field => (some field.1, field.2)).mapM
      (fun (field : Option String × Document) => (·, field.2) <$> field.1) = some fields := by
    induction fields with
    | nil => rfl
    | cons field rest ih =>
        rw [List.map_cons, List.mapM_cons, ih]
        rfl
  unfold tableOf
  rw [named]

private theorem readFields_last {fuel : Nat} {name : String} {text rest : List Char}
    {value : Document} (read : readValue fuel text = some (value, '\x7d' :: rest)) :
    readFields (fuel + 1) ('"' :: (writeRest name.toList ++ ':' :: text)) =
      some ([(some name, value)], rest) := by
  rw [readFields, skipSpace_visible rfl]
  simp only [readString_writeRest, bind, Option.bind,
    skipSpace_visible (show isSpace ':' = false from rfl), read,
    skipSpace_visible (show isSpace '\x7d' = false from rfl)]
  rfl

private theorem readFields_next {fuel : Nat} {name : String} {text rest left : List Char}
    {value : Document} {fields : List (Option String × Document)}
    (read : readValue fuel text = some (value, ',' :: rest))
    (others : readFields fuel rest = some (fields, left)) :
    readFields (fuel + 1) ('"' :: (writeRest name.toList ++ ':' :: text)) =
      some ((some name, value) :: fields, left) := by
  rw [readFields, skipSpace_visible rfl]
  simp only [readString_writeRest, bind, Option.bind,
    skipSpace_visible (show isSpace ':' = false from rfl), read,
    skipSpace_visible (show isSpace ',' = false from rfl), others]
  rfl

mutual

/-- A value that was written is read, and no more than that. -/
theorem readValue_write : ∀ (document : Document) (fuel : Nat) (rest : List Char),
    isWritable document = true → (write document).length ≤ fuel → Closes rest →
      readValue fuel (write document ++ rest) = some (document, rest)
  | document, 0, _, _, enough, _ => by
      obtain ⟨first, later, same, _⟩ := write_begins document
      rw [same] at enough
      cases enough
  | .null, _ + 1, _, _, _, _ => rfl
  | .flag true, _ + 1, _, _, _, _ => rfl
  | .flag false, _ + 1, _, _, _, _ => rfl
  | .integer value, fuel + 1, _, _, _, closes => readValue_writeInteger fuel value closes
  | .text value, fuel + 1, rest, _, _, _ => by
      change readValue (fuel + 1) ('"' :: (writeRest value.toList ++ rest)) = _
      rw [readValue_plain fuel rfl (by decide) (by decide), readPlain, readString_writeRest]
      rfl
  | .list [], _ + 1, _, _, _, _ => rfl
  | .list (item :: others), fuel + 1, rest, writable, enough, _ => by
      have read := readItems_write (item :: others) fuel rest (List.cons_ne_nil _ _) writable
        (by
          change (writeItems (item :: others) ++ [']']).length + 1 ≤ fuel + 1 at enough
          rw [List.length_append] at enough
          exact Nat.le_of_succ_le_succ enough)
      change readValue (fuel + 1) ('[' :: (writeItems (item :: others) ++ [']'] ++ rest)) = _
      rw [List.append_assoc, readValue_list fuel
        ((writeItems_begins (List.cons_ne_nil item others)).append _)]
      change (readItems fuel (writeItems (item :: others) ++ ']' :: rest) >>= _) = _
      rw [read]
      rfl
  | .table [], _ + 1, _, _, _, _ => rfl
  | .table (field :: others), fuel + 1, rest, writable, enough, _ => by
      have read := readFields_write (field :: others) fuel rest (List.cons_ne_nil _ _) writable
        (by
          change (writeFields (field :: others) ++ ['\x7d']).length + 1 ≤ fuel + 1 at enough
          rw [List.length_append] at enough
          exact Nat.le_of_succ_le_succ enough)
      obtain ⟨later, begins⟩ := writeFields_begins (List.cons_ne_nil field others)
      change readValue (fuel + 1)
        ('\x7b' :: (writeFields (field :: others) ++ ['\x7d'] ++ rest)) = _
      rw [begins] at read ⊢
      change readValue (fuel + 1) ('\x7b' :: '"' :: (later ++ ['\x7d'] ++ rest)) = _
      rw [readValue_table, List.append_assoc]
      change (readFields fuel ('"' :: later ++ '\x7d' :: rest) >>= _) = _
      rw [read, ← tableOf_named]
      rfl

theorem readItems_write : ∀ (items : List Document) (fuel : Nat) (rest : List Char),
    items ≠ [] → areItemsWritable items = true → (writeItems items).length + 1 ≤ fuel →
      readItems fuel (writeItems items ++ ']' :: rest) = some (items, rest)
  | [], _, _, some_, _, _ => absurd rfl some_
  | _, 0, _, _, _, enough => absurd enough (Nat.not_succ_le_zero _)
  | [item], fuel + 1, rest, _, writable, enough => by
      have read := readValue_write item fuel (']' :: rest) (Bool.and_eq_true_iff.mp writable).1
        (Nat.le_of_succ_le_succ enough) (.bracket rest)
      change readItems (fuel + 1) (write item ++ ']' :: rest) = _
      rw [readItems, read]
      rfl
  | item :: next :: later, fuel + 1, rest, _, writable, enough => by
      obtain ⟨here, there⟩ := Bool.and_eq_true_iff.mp writable
      change (write item ++ ',' :: writeItems (next :: later)).length + 1 ≤ fuel + 1 at enough
      rw [List.length_append, List.length_cons] at enough
      have read := readValue_write item fuel (',' :: (writeItems (next :: later) ++ ']' :: rest))
        here (by omega) (.comma _)
      have others := readItems_write (next :: later) fuel rest (List.cons_ne_nil _ _) there
        (by omega)
      change readItems (fuel + 1)
        (write item ++ ',' :: writeItems (next :: later) ++ ']' :: rest) = _
      rw [List.append_assoc, List.cons_append, readItems, read]
      simp only [bind, Option.bind, skipSpace_visible (show isSpace ',' = false from rfl), others]
      rfl

theorem readFields_write : ∀ (fields : List (String × Document)) (fuel : Nat) (rest : List Char),
    fields ≠ [] → areFieldsWritable fields = true → (writeFields fields).length + 1 ≤ fuel →
      readFields fuel (writeFields fields ++ '\x7d' :: rest) =
        some (fields.map fun field => (some field.1, field.2), rest)
  | [], _, _, some_, _, _ => absurd rfl some_
  | _, 0, _, _, _, enough => absurd enough (Nat.not_succ_le_zero _)
  | [(name, value)], fuel + 1, rest, _, writable, enough => by
      change (writeString name ++ ':' :: write value).length + 1 ≤ fuel + 1 at enough
      rw [List.length_append, List.length_cons] at enough
      have read := readValue_write value fuel ('\x7d' :: rest)
        (Bool.and_eq_true_iff.mp writable).1 (by omega) (.brace rest)
      change readFields (fuel + 1)
        ('"' :: (writeRest name.toList ++ ':' :: write value ++ '\x7d' :: rest)) = _
      rw [List.append_assoc, List.cons_append, readFields_last read]
      rfl
  | (name, value) :: next :: later, fuel + 1, rest, _, writable, enough => by
      obtain ⟨here, there⟩ := Bool.and_eq_true_iff.mp writable
      change (writeString name ++ ':' :: (write value ++ ',' :: writeFields (next :: later))).length
        + 1 ≤ fuel + 1 at enough
      simp only [List.length_append, List.length_cons] at enough
      have read := readValue_write value fuel
        (',' :: (writeFields (next :: later) ++ '\x7d' :: rest)) here (by omega) (.comma _)
      have others := readFields_write (next :: later) fuel rest (List.cons_ne_nil _ _) there
        (by omega)
      change readFields (fuel + 1) ('"' :: (writeRest name.toList ++
        ':' :: (write value ++ ',' :: writeFields (next :: later)) ++ '\x7d' :: rest)) = _
      rw [List.append_assoc, List.cons_append, List.append_assoc, List.cons_append,
        readFields_next read others]
      rfl

end

/-- Every document without fractions, dates and garbled values can be read back from its text. -/
theorem read_write (document : Document) (writable : isWritable document = true) :
    read (write document) = some document := by
  have value := readValue_write document ((write document).length + 1) [] writable
    (Nat.le_succ _) .nil
  rw [List.append_nil] at value
  unfold read
  rw [value]
  rfl

end EventKernel.Json
