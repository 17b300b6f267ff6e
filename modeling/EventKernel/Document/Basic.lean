import EventKernel.Document.Decimal

set_option autoImplicit false

/-! Values as structured texts hold them, before they are read as anything in particular. -/

namespace EventKernel

inductive Document where
  | null
  | flag (value : Bool)
  | integer (value : Int)
  | decimal (value : Decimal)
  | text (value : String)
  /-- A date or a time of day, as written. -/
  | date (value : String)
  | list (items : List Document)
  | table (fields : List (String × Document))
  /-- A well-formed value that stands for nothing, such as a text with an escape for no
  character or a number without digits; at most it can be passed over. -/
  | garbled
deriving Inhabited

namespace Document

def isSignedWord (value : Int) : Bool :=
  decide (-0x8000000000000000 ≤ value) && decide (value < 0x8000000000000000)

def fields : Document → List (String × Document)
  | table fields => fields
  | _ => []

def items : Document → List Document
  | list items => items
  | _ => []

mutual

def isSound : Document → Bool
  | list items => areItemsSound items
  | table fields => areFieldsSound fields
  | garbled => false
  | _ => true

def areItemsSound : List Document → Bool
  | [] => true
  | item :: rest => item.isSound && areItemsSound rest

def areFieldsSound : List (String × Document) → Bool
  | [] => true
  | (_, value) :: rest => value.isSound && areFieldsSound rest

end

def putField (name : String) (value : Document) :
    List (String × Document) → List (String × Document)
  | [] => [(name, value)]
  | (other, held) :: rest =>
      if other = name then (name, value) :: rest else (other, held) :: putField name value rest

end Document

end EventKernel
