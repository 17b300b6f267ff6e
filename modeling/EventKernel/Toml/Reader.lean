import EventKernel.Document.Reading
import EventKernel.Toml.Scalar
import EventKernel.Toml.Table
import EventKernel.Toml.Text

set_option autoImplicit false

/-! TOML texts as documents, by version 1.1 of the format. Lists and inline tables may hold
line breaks and comments, and nest to a limited depth, which also limits the parts of a
key. -/

namespace EventKernel.Toml

/-- How deep lists and inline tables may nest, and how many parts a key may have. -/
def depthLimit : Nat := 80

def isBareKeyChar (char : Char) : Bool :=
  char.isAlphanum || char == '_' || char == '-'

def readKeyPart (text : List Char) : Option (String × List Char) :=
  match text with
  | '"' :: rest => (fun (chars, rest) => (String.ofList chars, rest)) <$>
      readBasic (rest.length + 1) rest
  | '\'' :: rest => (fun (chars, rest) => (String.ofList chars, rest)) <$> readLiteral rest
  | text =>
      match text.takeWhile isBareKeyChar with
      | [] => none
      | name => some (String.ofList name, text.dropWhile isBareKeyChar)

/-- A key of at most so many parts, divided by dots: all parts but the last, and the last. -/
def readParts : Nat → List Char → Option ((List String × String) × List Char)
  | 0, _ => none
  | fuel + 1, text => do
      let (name, rest) ← readKeyPart (skipSpace text)
      match skipSpace rest with
      | '.' :: rest =>
          let ((path, last), rest) ← readParts fuel rest
          return ((name :: path, last), rest)
      | rest => return (([], name), rest)

def readKey (text : List Char) : Option ((List String × String) × List Char) :=
  readParts depthLimit text

/-- Skips blanks, line breaks and comments. The number bounds the comments. -/
def skipTrivia : Nat → List Char → List Char
  | 0, text => text
  | fuel + 1, text =>
      match skipSpace text with
      | '#' :: rest => skipTrivia fuel (skipComment ('#' :: rest))
      | rest =>
          match lineBreak? rest with
          | some rest => skipTrivia fuel rest
          | none => rest

def skipAllTrivia (text : List Char) : List Char := skipTrivia (text.length + 1) text

mutual

/-- A value within so many others. The first number bounds the values within it. -/
def readValue : Nat → Nat → List Char → Option (Document × List Char)
  | 0, _, _ => none
  | fuel + 1, depth, text =>
      match text with
      | '[' :: rest =>
          if depthLimit ≤ depth then none
          else do
            let (items, rest) ← readItems fuel (depth + 1) rest
            return (.list items, rest)
      | '\x7b' :: rest =>
          if depthLimit ≤ depth then none
          else do
            let (node, rest) ← readFields fuel (depth + 1) ⟨.implied, []⟩ rest
            return (.table (entryDocuments node.entries), rest)
      | '"' :: _ => (fun (quoted, rest) => (.text quoted, rest)) <$> readQuoted text
      | '\'' :: _ => (fun (quoted, rest) => (.text quoted, rest)) <$> readQuoted text
      | text => readScalar text

/-- The items of a list, behind its opening bracket or a comma. -/
def readItems : Nat → Nat → List Char → Option (List Document × List Char)
  | 0, _, _ => none
  | fuel + 1, depth, text =>
      match skipAllTrivia text with
      | ']' :: rest => some ([], rest)
      | text => do
          let (item, rest) ← readValue fuel depth text
          match skipAllTrivia rest with
          | ',' :: rest =>
              let (items, rest) ← readItems fuel depth rest
              return (item :: items, rest)
          | ']' :: rest => return ([item], rest)
          | _ => none

/-- The fields of an inline table, behind its opening brace or a comma, added to those
before them. Line breaks and comments may also stand around the equals sign. -/
def readFields : Nat → Nat → Node → List Char → Option (Node × List Char)
  | 0, _, _, _ => none
  | fuel + 1, depth, node, text =>
      match skipAllTrivia text with
      | '\x7d' :: rest => some (node, rest)
      | text => do
          let ((path, name), rest) ← readKey text
          match skipAllTrivia rest with
          | '=' :: rest =>
              let (value, rest) ← readValue fuel depth (skipAllTrivia rest)
              let node ← node.assign .own path name value
              match skipAllTrivia rest with
              | ',' :: rest => readFields fuel depth node rest
              | '\x7d' :: rest => return (node, rest)
              | _ => none
          | _ => none

end

/-- The tables read so far, the path of the table that values are added to, and how far keys
with dots reach. -/
structure State where
  root : Node
  current : List String
  reach : DotReach

/-- A header behind its opening bracket: one more bracket begins an element of a list. -/
def readHeader (state : State) (text : List Char) : Option (State × List Char) :=
  match text with
  | '[' :: rest => do
      let ((path, name), rest) ← readKey rest
      match rest with
      | ']' :: ']' :: rest =>
          let root ← Node.descend false (Node.openElement name) path state.root
          return ({ state with root, current := path ++ [name] }, rest)
      | _ => none
  | rest => do
      let ((path, name), rest) ← readKey rest
      match rest with
      | ']' :: rest =>
          let root ← Node.descend false (Node.openTable name) path state.root
          return ({ state with root, current := path ++ [name] }, rest)
      | _ => none

def readAssignment (state : State) (text : List Char) : Option (State × List Char) := do
  let ((path, name), rest) ← readKey text
  match rest with
  | '=' :: rest =>
      let (value, rest) ← readValue (rest.length + 1) 0 (skipSpace rest)
      let change := Node.assign state.reach path name value
      let root ← Node.descend false change state.current state.root
      return ({ state with root }, rest)
  | _ => none

/-- The lines of a text, added to what was read before them. The number bounds the lines. -/
def readLines : Nat → State → List Char → Option State
  | 0, _, _ => none
  | fuel + 1, state, text =>
      match skipSpace text with
      | [] => some state
      | '[' :: rest => do
          let (state, rest) ← readHeader state rest
          readLines fuel state (← endLine? rest)
      | first :: rest =>
          match endLine? (first :: rest) with
          | some rest => readLines fuel state rest
          | none => do
              let (state, rest) ← readAssignment state (first :: rest)
              readLines fuel state (← endLine? rest)

def dropByteOrderMark : List Char → List Char
  | char :: rest => if char.toNat = 0xFEFF then rest else char :: rest
  | [] => []

def read (reach : DotReach) (text : List Char) : Option Document := do
  let text := dropByteOrderMark text
  let state ← readLines (text.length + 1) ⟨⟨.header, []⟩, [], reach⟩ text
  return .table (entryDocuments state.root.entries)

/-- A choice without content is its name, or a table that holds an empty table or list
under it. -/
def choice : Document → Option String
  | .text name => some name
  | .table [(name, .table [])] => some name
  | .table [(name, .list [])] => some name
  | _ => none

/-- Values are of the kind that is asked for, and those under unknown names have a value
too. -/
def reading : Document.Reading :=
  ⟨Document.strictFlag, Document.strictNatural, choice, Document.isSound, true⟩

end EventKernel.Toml
