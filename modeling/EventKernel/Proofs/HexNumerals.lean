import EventKernel.Text.Blank
import EventKernel.Text.Hexadecimal
import Mathlib.Data.Nat.Digits.Defs

set_option autoImplicit false

/-! Numbers in base sixteen as they may be written: with or without a base mark, with or without a
plus sign, with any number of zeros first, and each letter small or capital. A word is read as a
number exactly if it is one of the ways to write that number. -/

namespace EventKernel.Text

inductive BaseMark where
  | none
  | small
  | capital
deriving DecidableEq, Repr

def BaseMark.chars : BaseMark → List Char
  | none => []
  | small => ['0', 'x']
  | capital => ['0', 'X']

/-- A digit; a digit below ten is the same in both cases. -/
structure HexDigit where
  value : Fin 16
  capital : Bool
deriving DecidableEq, Repr

def HexDigit.char (digit : HexDigit) : Char :=
  if digit.capital then (Nat.digitChar digit.value).toUpper else Nat.digitChar digit.value

/-- A word that is a number: its mark, its sign and its digits, the most significant first. -/
structure Spelling where
  mark : BaseMark
  plus : Bool
  digits : List HexDigit
  some : digits ≠ []

namespace Spelling

def sign (plus : Bool) : List Char := if plus then ['+'] else []

def word (spelling : Spelling) : List Char :=
  spelling.mark.chars ++ sign spelling.plus ++ spelling.digits.map HexDigit.char

def value (spelling : Spelling) : Nat :=
  Nat.ofDigits 16 (spelling.digits.reverse.map fun digit => digit.value.val)

end Spelling

/-- The word is a 64-bit number in base sixteen. -/
def Spells (word : List Char) (number : UInt64) : Prop :=
  ∃ spelling : Spelling, spelling.word = word ∧ spelling.value = number.toNat

namespace HexDigit

def below (value : Nat) (digit : HexDigit) : Nat := value * 16 + digit.value

private theorem ofDigits_eq_foldl (digits : List HexDigit) :
    Nat.ofDigits 16 (digits.reverse.map fun digit => digit.value.val) = digits.foldl below 0 := by
  rw [Nat.ofDigits_eq_foldr, List.foldr_map, List.foldr_reverse]
  congr 1
  funext value digit
  unfold below
  simp only [Nat.cast_id]
  omega

private theorem le_foldl_below (digits : List HexDigit) (value : Nat) :
    value ≤ digits.foldl below value := by
  induction digits generalizing value with
  | nil => exact Nat.le_refl value
  | cons digit rest ih =>
      have grown := ih (below value digit)
      rw [List.foldl_cons]
      unfold below at grown ⊢
      omega

private theorem hexDigit?_char (digit : HexDigit) :
    hexDigit? digit.char = some digit.value.val := by
  have every : ∀ value : Fin 16, ∀ capital : Bool,
      hexDigit? (char ⟨value, capital⟩) = some value.val := by decide
  exact every digit.value digit.capital

private theorem exists_of_hexDigit? {char : Char} {value : Nat}
    (reads : hexDigit? char = some value) :
    ∃ digit : HexDigit, digit.char = char ∧ digit.value.val = value := by
  have every : ∀ code : Fin 0x67, (hexDigit? (Char.ofNat code)).all (fun value =>
      decide (∃ digit : Fin 16, ∃ capital : Bool,
        HexDigit.char ⟨digit, capital⟩ = Char.ofNat code ∧ digit.val = value)) = true := by
    decide
  have bound : char.toNat < 0x67 := by
    unfold hexDigit? at reads
    grind
  have here := every ⟨char.toNat, bound⟩
  rw [Char.ofNat_toNat, reads] at here
  obtain ⟨digit, capital, same, read⟩ := of_decide_eq_true here
  exact ⟨⟨digit, capital⟩, same, read⟩

end HexDigit

private theorem hexValue_eq_ok_iff {chars : List Char} {value result : Nat} :
    value < UInt64.size → (hexValue value chars = .ok result ↔
      ∃ digits : List HexDigit, digits.map HexDigit.char = chars ∧
        digits.foldl HexDigit.below value = result ∧ result < UInt64.size) := by
  induction chars generalizing value with
  | nil =>
      intro small
      constructor
      · intro read
        cases read
        exact ⟨[], rfl, rfl, small⟩
      · rintro ⟨digits, none, same, _⟩
        rw [List.map_eq_nil_iff] at none
        subst none
        exact congrArg Except.ok same
  | cons char rest ih =>
      intro _
      unfold hexValue
      constructor
      · intro read
        split at read
        · cases read
        · rename_i digit found
          obtain ⟨first, rfl, rfl⟩ := HexDigit.exists_of_hexDigit? found
          split at read
          · rename_i small
            obtain ⟨digits, rfl, total, bound⟩ := (ih small).mp read
            exact ⟨first :: digits, rfl, total, bound⟩
          · cases read
      · rintro ⟨digits, spelled, total, bound⟩
        cases digits with
        | nil => cases spelled
        | cons first others =>
            cases spelled
            rw [HexDigit.hexDigit?_char]
            -- What digits are read to never falls: were it too large here, it would stay so.
            have grown := HexDigit.le_foldl_below others (HexDigit.below value first)
            rw [List.foldl_cons] at total
            have small : value * 16 + first.value < UInt64.size := by
              unfold HexDigit.below at grown total
              omega
            simp only [if_pos small]
            exact (ih small).mpr ⟨others, rfl, total, bound⟩

private theorem exists_mark (word : List Char) :
    ∃ mark : BaseMark, word = mark.chars ++ dropBaseMark word := by
  unfold dropBaseMark
  split
  · exact ⟨.small, rfl⟩
  · exact ⟨.capital, rfl⟩
  · exact ⟨.none, rfl⟩

namespace HexDigit

private theorem char_ne (digit : HexDigit) :
    digit.char ≠ '+' ∧ digit.char ≠ 'x' ∧ digit.char ≠ 'X' := by
  have every : ∀ value : Fin 16, ∀ capital : Bool, char ⟨value, capital⟩ ≠ '+' ∧
      char ⟨value, capital⟩ ≠ 'x' ∧ char ⟨value, capital⟩ ≠ 'X' := by decide
  exact every digit.value digit.capital

end HexDigit

private theorem dropBaseMark_word (mark : BaseMark) (plus : Bool) (digits : List HexDigit) :
    dropBaseMark (mark.chars ++ Spelling.sign plus ++ digits.map HexDigit.char) =
      Spelling.sign plus ++ digits.map HexDigit.char := by
  cases mark with
  | small => rfl
  | capital => rfl
  | none =>
      cases plus with
      | true => rfl
      | false =>
          change dropBaseMark (digits.map HexDigit.char) = digits.map HexDigit.char
          cases digits with
          | nil => rfl
          | cons first others =>
              cases others with
              | nil =>
                  unfold dropBaseMark
                  split
                  · rename_i shape
                    cases congrArg List.length shape
                  · rename_i shape
                    cases congrArg List.length shape
                  · rfl
              | cons second others =>
                  obtain ⟨_, notSmall, notCapital⟩ := second.char_ne
                  unfold dropBaseMark
                  split
                  · rename_i shape
                    simp only [List.map_cons, List.cons.injEq] at shape
                    exact absurd shape.2.1 notSmall
                  · rename_i shape
                    simp only [List.map_cons, List.cons.injEq] at shape
                    exact absurd shape.2.1 notCapital
                  · rfl

private theorem readHex_cases {word : List Char} {number : UInt64} :
    readHex word = .ok number ↔ ∃ plus digits, dropBaseMark word = Spelling.sign plus ++ digits ∧
      digits ≠ [] ∧ (plus = false → digits.head? ≠ some '+') ∧
      Nat.toUInt64 <$> hexValue 0 digits = .ok number := by
  unfold readHex
  constructor
  · intro read
    split at read
    · cases read
    · cases read
    · rename_i digits notAlone shape
      exact ⟨true, digits, shape, notAlone, fun wrong => (nomatch wrong), read⟩
    · rename_i notEmpty notAlone unsigned
      refine ⟨false, dropBaseMark word, rfl, notEmpty, ?_, read⟩
      intro _ signed
      obtain ⟨digits, shape⟩ := List.head?_eq_some_iff.mp signed
      exact unsigned digits shape
  · rintro ⟨plus, digits, shape, some, first, read⟩
    rw [shape]
    cases digits with
    | nil => exact absurd rfl some
    | cons head rest =>
        cases plus with
        | true => exact read
        | false =>
            have unsigned : head ≠ '+' := fun signed => first rfl (congrArg Option.some signed)
            rw [Spelling.sign, if_neg Bool.false_ne_true, List.nil_append]
            split
            · rename_i nothing
              cases nothing
            · rename_i signed
              exact absurd (List.cons.inj signed).1 unsigned
            · rename_i signed
              exact absurd (List.cons.inj signed).1 unsigned
            · exact read

/-- A word is read as a number exactly if it is one of the ways to write it. -/
theorem readHex_eq_ok_iff {word : List Char} {number : UInt64} :
    readHex word = .ok number ↔ Spells word number := by
  rw [readHex_cases]
  have start : 0 < UInt64.size := by decide
  constructor
  · rintro ⟨plus, chars, shape, some, _, read⟩
    cases value : hexValue 0 chars with
    | error error =>
        rw [value] at read
        cases read
    | ok total =>
        rw [value] at read
        obtain ⟨digits, rfl, sum, bound⟩ := (hexValue_eq_ok_iff start).mp value
        obtain ⟨mark, marked⟩ := exists_mark word
        have notEmpty : digits ≠ [] := fun none => some (by rw [none]; rfl)
        refine ⟨⟨mark, plus, digits, notEmpty⟩, ?_, ?_⟩
        · rw [marked, shape, ← List.append_assoc]
          rfl
        · unfold Spelling.value
          rw [HexDigit.ofDigits_eq_foldl, sum, ← Except.ok.inj read]
          exact (UInt64.toNat_ofNat_of_lt' bound).symm
  · rintro ⟨spelling, rfl, total⟩
    refine ⟨spelling.plus, spelling.digits.map HexDigit.char, ?_, ?_, ?_, ?_⟩
    · exact dropBaseMark_word _ _ _
    · exact fun none => spelling.some (List.map_eq_nil_iff.mp none)
    · intro _ signed
      rw [List.head?_map] at signed
      obtain ⟨digit, _, same⟩ := Option.map_eq_some_iff.mp signed
      exact digit.char_ne.1 same
    · have read : hexValue 0 (spelling.digits.map HexDigit.char) = .ok number.toNat := by
        refine (hexValue_eq_ok_iff start).mpr ⟨spelling.digits, rfl, ?_, number.toNat_lt⟩
        rw [← HexDigit.ofDigits_eq_foldl]
        exact total
      rw [read]
      exact congrArg Except.ok UInt64.ofNat_toNat

theorem Spells.ne_nil {word : List Char} {number : UInt64} (spells : Spells word number) :
    word ≠ [] := by
  obtain ⟨spelling, rfl, _⟩ := spells
  unfold Spelling.word
  exact List.append_ne_nil_of_right_ne_nil _ fun none =>
    spelling.some (List.map_eq_nil_iff.mp none)

theorem Spells.solid {word : List Char} {number : UInt64} (spells : Spells word number) :
    ∀ char ∈ word, isBlank char = false := by
  obtain ⟨spelling, rfl, _⟩ := spells
  have marks : ∀ mark : BaseMark, mark.chars.all (fun char => !isBlank char) = true := by
    intro mark
    cases mark <;> rfl
  have signs : ∀ plus : Bool, (Spelling.sign plus).all (fun char => !isBlank char) = true := by
    intro plus
    cases plus <;> rfl
  have digits : ∀ value : Fin 16, ∀ capital : Bool,
      isBlank (HexDigit.char ⟨value, capital⟩) = false := by decide
  intro char member
  unfold Spelling.word at member
  rw [List.mem_append, List.mem_append] at member
  rcases member with (marked | signed) | counted
  · simpa using List.all_eq_true.mp (marks _) char marked
  · simpa using List.all_eq_true.mp (signs _) char signed
  · obtain ⟨digit, _, rfl⟩ := List.mem_map.mp counted
    exact digits digit.value digit.capital

/-- How a number is to be written. Positions of capital letters are counted behind mark and sign. -/
structure Numeral where
  mark : BaseMark
  plus : Bool
  zeros : Nat
  capitals : Nat → Bool

namespace Numeral

def digits (numeral : Numeral) (number : UInt64) : List Char :=
  (List.replicate numeral.zeros '0' ++ Nat.toDigits 16 number.toNat).mapIdx fun position char =>
    if numeral.capitals position then char.toUpper else char

def write (numeral : Numeral) (number : UInt64) : List Char :=
  numeral.mark.chars ++ Spelling.sign numeral.plus ++ numeral.digits number

private theorem exists_toDigits (number : Nat) :
    ∃ values : List (Fin 16),
      Nat.toDigits 16 number = values.map (fun value : Fin 16 => Nat.digitChar value) ∧
        values ≠ [] ∧ Nat.ofDigits 16 (values.reverse.map Fin.val) = number := by
  induction number using Nat.strongRecOn with
  | ind number ih =>
      by_cases small : number < 16
      · refine ⟨[⟨number, small⟩], ?_, List.cons_ne_nil _ _, ?_⟩
        · rw [Nat.toDigits_of_lt_base small]
          rfl
        · simp
      · have large : 16 ≤ number := Nat.le_of_not_lt small
        obtain ⟨values, shown, _, total⟩ := ih (number / 16) (by omega)
        have bound : number % 16 < 16 := Nat.mod_lt _ (by decide)
        refine ⟨values ++ [⟨number % 16, bound⟩], ?_, by simp, ?_⟩
        · rw [Nat.toDigits_of_base_le (by decide) large, shown, List.map_append]
          rfl
        · rw [List.reverse_append, List.reverse_singleton, List.singleton_append, List.map_cons,
            Nat.ofDigits_cons, total]
          simp only
          omega

private def chosen (capitals : Nat → Bool) (values : List (Fin 16)) : List HexDigit :=
  values.mapIdx fun position value => ⟨value, capitals position⟩

private theorem chosen_char (capitals : Nat → Bool) (values : List (Fin 16)) :
    (chosen capitals values).map HexDigit.char =
      (values.map fun value : Fin 16 => Nat.digitChar value).mapIdx fun position char =>
        if capitals position then char.toUpper else char := by
  unfold chosen
  apply List.ext_getElem?
  intro position
  simp only [List.getElem?_map, List.getElem?_mapIdx, Option.map_map]
  rfl

private theorem chosen_value (capitals : Nat → Bool) (values : List (Fin 16)) :
    (chosen capitals values).map HexDigit.value = values := by
  unfold chosen
  apply List.ext_getElem?
  intro position
  simp only [List.getElem?_map, List.getElem?_mapIdx, Option.map_map]
  exact Option.map_id'

private theorem spells_values (numeral : Numeral) {values : List (Fin 16)} (some : values ≠ [])
    {number : UInt64} (total : Nat.ofDigits 16 (values.reverse.map Fin.val) = number.toNat) :
    Spells (numeral.mark.chars ++ Spelling.sign numeral.plus ++
      (values.map fun value : Fin 16 => Nat.digitChar value).mapIdx fun position char =>
        if numeral.capitals position then char.toUpper else char) number := by
  have kept := chosen_value numeral.capitals values
  have notEmpty : chosen numeral.capitals values ≠ [] := by
    intro none
    rw [none] at kept
    exact some kept.symm
  refine ⟨⟨numeral.mark, numeral.plus, chosen numeral.capitals values, notEmpty⟩, ?_, ?_⟩
  · rw [← chosen_char]
    rfl
  · have read : (chosen numeral.capitals values).reverse.map (fun digit => digit.value.val) =
        ((chosen numeral.capitals values).map HexDigit.value).reverse.map Fin.val := by
      rw [← List.map_reverse, List.map_map]
      rfl
    unfold Spelling.value
    rw [read, kept, total]

theorem spells_write (numeral : Numeral) (number : UInt64) :
    Spells (numeral.write number) number := by
  obtain ⟨values, shown, some, total⟩ := exists_toDigits number.toNat
  have padded : Nat.ofDigits 16
      ((List.replicate numeral.zeros 0 ++ values).reverse.map Fin.val) = number.toNat := by
    rw [List.reverse_append, List.reverse_replicate, List.map_append, List.map_replicate, ← total]
    exact Nat.ofDigits_append_replicate_zero _
  have spelled := spells_values numeral (List.append_ne_nil_of_right_ne_nil _ some) padded
  rw [List.map_append, List.map_replicate, ← shown] at spelled
  exact spelled

end Numeral

end EventKernel.Text
