import EventKernel.Document.Basic

set_option autoImplicit false

/-! How documents are read as records. A record is a table, where unknown names are passed
over and a known name may occur once; or a list of its fields in order, where fields may
be missing at the end. Formats differ in what they accept as a flag, a number or a choice
among names, under unknown names, and behind the last field of a list, so a reading says
how these are read. -/

namespace EventKernel.Document

structure Reading where
  flag : Document → Option Bool
  natural : Document → Option Nat
  choice : Document → Option String
  /-- Whether a value under an unknown name may be passed over. -/
  passesOver : Document → Bool
  /-- Whether a record written as a list may go on after its last field. -/
  ignoresSurplus : Bool

def strictFlag : Document → Option Bool
  | flag value => some value
  | _ => none

def strictNatural : Document → Option Nat
  | integer (.ofNat value) => some value
  | _ => none

def required {α : Type} (record : List (String × Document)) (name : String)
    (read : Document → Option α) : Option α :=
  match record.lookup name with
  | some value => read value
  | none => none

def defaulted {α : Type} (record : List (String × Document)) (name : String) (fallback : α)
    (read : Document → Option α) : Option α :=
  match record.lookup name with
  | some value => read value
  | none => some fallback

def readList {α : Type} (read : Document → Option α) : Document → Option (List α)
  | list items => items.mapM read
  | _ => none

namespace Reading

def record? (reading : Reading) (names : List String) :
    Document → Option (List (String × Document))
  | table fields =>
      let (known, unknown) := fields.partition fun field => names.contains field.1
      if (known.map Prod.fst).Nodup ∧ unknown.all fun field => reading.passesOver field.2 then
        some known
      else none
  | list items =>
      if items.length ≤ names.length || reading.ignoresSurplus then some (names.zip items)
      else none
  -- A date is a record of its own kind, which has none of the names.
  | date _ => some []
  | _ => none

def word64 (reading : Reading) (document : Document) : Option UInt64 :=
  match reading.natural document with
  | some value => if value < UInt64.size then some value.toUInt64 else none
  | none => none

def word32 (reading : Reading) (document : Document) : Option UInt32 :=
  match reading.natural document with
  | some value => if value < UInt32.size then some value.toUInt32 else none
  | none => none

def size (reading : Reading) (document : Document) : Option Nat :=
  match reading.natural document with
  | some value => if value < UInt64.size then some value else none
  | none => none

def oneOf {α : Type} (reading : Reading) (named : List (String × α)) (document : Document) :
    Option α :=
  match reading.choice document with
  | some name => named.lookup name
  | none => none

end Reading

def ofNat (value : Nat) : Document := integer value

end EventKernel.Document
