import EventKernel.Document.Basic

set_option autoImplicit false

/-! Paths into documents, such as `topology.links[0].delay`, and the replacement of what
they lead to. Whatever is missing or in the way is made: a name needs a table, an index
needs a list that is long enough. An index below zero counts from the end. -/

namespace EventKernel

inductive PathStep where
  | name (name : String)
  | index (index : Int)
deriving DecidableEq, Repr

namespace PathStep

def isNameChar (char : Char) : Bool :=
  char.isAlphanum || char == '_' || char == '-'

def readName (text : List Char) : Option (PathStep × List Char) :=
  match text.takeWhile isNameChar with
  | [] => none
  | chars => some (name (String.ofList chars), text.dropWhile isNameChar)

def skipBlanks (text : List Char) : List Char :=
  text.dropWhile fun char => char == ' ' || char == '\t'

/-- The digits of an index, behind its sign, and the bracket after them. -/
def readIndex (negative : Bool) (text : List Char) : Option (PathStep × List Char) :=
  match text.takeWhile Char.isDigit, skipBlanks (text.dropWhile Char.isDigit) with
  | [], _ => none
  | digits, ']' :: rest =>
      let value : Int := Decimal.digitsValue digits
      let value := if negative then -value else value
      if Document.isSignedWord value then some (index value, rest) else none
  | _, _ => none

/-- An index behind its opening bracket; blanks may stand around it. -/
def readBracketed (text : List Char) : Option (PathStep × List Char) :=
  match skipBlanks text with
  | '-' :: rest => readIndex true rest
  | rest => readIndex false rest

def readSteps : Nat → List Char → Option (List PathStep)
  | _, [] => some []
  | 0, _ => none
  | fuel + 1, '.' :: rest => do
      let (step, rest) ← readName rest
      return step :: (← readSteps fuel rest)
  | fuel + 1, '[' :: rest => do
      let (step, rest) ← readBracketed rest
      return step :: (← readSteps fuel rest)
  | _, _ => none

/-- The steps of a path. A text that is no path is one name, whatever its characters. -/
def ofText (text : String) : List PathStep :=
  let steps? := do
    let (step, rest) ← readName text.toList
    return step :: (← readSteps rest.length rest)
  steps?.getD [name text]

end PathStep

namespace Document

mutual

/-- Lays a value over another. Tables are joined name by name; any other value replaces
what was there. -/
def overlay (target : Document) : Document → Document
  | table fields => table (overlayFields target.fields fields)
  | incoming => incoming

def overlayFields (known : List (String × Document)) :
    List (String × Document) → List (String × Document)
  | [] => known
  | (name, value) :: rest =>
      overlayFields (putField name (overlay ((known.lookup name).getD null) value) known) rest

end

/-- The items of a list after room is made for an index, and the position it stands for. -/
def makeRoom (items : List Document) (index : Int) : List Document × Nat :=
  match index with
  | .ofNat position =>
      (items ++ List.replicate (position + 1 - items.length) null, position)
  | .negSucc before =>
      if before + 1 ≤ items.length then (items, items.length - (before + 1))
      else (List.replicate (before + 1 - items.length) null ++ items, 0)

def overlayAt (value : Document) : List PathStep → Document → Document
  | [], target => target.overlay value
  | .name name :: path, target =>
      let inner := (target.fields.lookup name).getD null
      table (putField name (overlayAt value path inner) target.fields)
  | .index index :: path, target =>
      let (items, position) := makeRoom target.items index
      list (items.modify position (overlayAt value path))

end Document

end EventKernel
