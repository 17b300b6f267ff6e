set_option autoImplicit false

/-! Dates and times of day in TOML, of which only their form and ranges matter here. -/

namespace EventKernel.Toml

def digits? (count : Nat) (text : List Char) : Option (Nat × List Char) :=
  let digits := text.take count
  if digits.length = count ∧ digits.all Char.isDigit then
    some (digits.foldl (fun value digit => value * 10 + (digit.toNat - 0x30)) 0, text.drop count)
  else none

def isLeapYear (year : Nat) : Bool :=
  year % 4 == 0 && (year % 100 != 0 || year % 400 == 0)

def daysInMonth (year month : Nat) : Nat :=
  if month = 2 then if isLeapYear year then 29 else 28
  else if month = 4 ∨ month = 6 ∨ month = 9 ∨ month = 11 then 30
  else 31

def afterDate? (text : List Char) : Option (List Char) := do
  let (year, rest) ← digits? 4 text
  let '-' :: rest := rest | none
  let (month, rest) ← digits? 2 rest
  let '-' :: rest := rest | none
  let (day, rest) ← digits? 2 rest
  if 1 ≤ month ∧ month ≤ 12 ∧ 1 ≤ day ∧ day ≤ daysInMonth year month then some rest else none

def afterFraction? : List Char → Option (List Char)
  | '.' :: rest =>
      match rest.takeWhile Char.isDigit with
      | [] => none
      | _ => some (rest.dropWhile Char.isDigit)
  | text => some text

def afterSeconds? : List Char → Option (List Char)
  | ':' :: rest => do
      let (second, rest) ← digits? 2 rest
      if second ≤ 60 then afterFraction? rest else none
  | text => some text

def afterTime? (text : List Char) : Option (List Char) := do
  let (hour, rest) ← digits? 2 text
  let ':' :: rest := rest | none
  let (minute, rest) ← digits? 2 rest
  if hour ≤ 23 ∧ minute ≤ 59 then afterSeconds? rest else none

def isOffset (text : List Char) : Bool :=
  let isDistance (text : List Char) : Bool :=
    match digits? 2 text with
    | some (hour, ':' :: rest) =>
        match digits? 2 rest with
        | some (minute, []) => decide (hour ≤ 23) && decide (minute ≤ 59)
        | _ => false
    | _ => false
  match text with
  | ['Z'] => true
  | ['z'] => true
  | '+' :: rest => isDistance rest
  | '-' :: rest => isDistance rest
  | _ => false

def isTime (text : List Char) : Bool :=
  match afterTime? text with
  | some [] => true
  | _ => false

/-- Whether a text is a time of day, perhaps with the offset of a time zone. -/
def isZonedTime (text : List Char) : Bool :=
  match afterTime? text with
  | some [] => true
  | some rest => isOffset rest
  | none => false

/-- Whether a text is a date, perhaps with a time of day, or a time of day alone. -/
def isDate (text : List Char) : Bool :=
  match afterDate? text with
  | some [] => true
  | some (mark :: rest) => (mark == 'T' || mark == 't' || mark == ' ') && isZonedTime rest
  | none => isTime text

end EventKernel.Toml
