import EventKernel.Document.Basic

set_option autoImplicit false

/-! Tables in the making. Each header and each key with dots adds to a tree of tables, and
how a table came about decides what may still be added to it: a table has one header at
most, a header never opens a table made by dots, and dots never enter a table that has a
header. Whether dots may add to a table that only headers within it implied is a choice of
the reader. -/

namespace EventKernel.Toml

inductive Origin where
  /-- By its own header, or as an element of a list of tables. -/
  | header
  /-- By the header of a table within it. -/
  | implied
  | dots
deriving DecidableEq, Repr

/-- Which tables a key with dots may add a value to. -/
inductive DotReach where
  | own
  /-- Those made by dots, and those that only headers within them implied. -/
  | implied
deriving DecidableEq, Repr

/-- What a key stands for while tables are in the making. -/
inductive Item where
  | value (document : Document)
  | table (origin : Origin) (entries : List (String × Item))
  /-- A list of tables, each begun by a header of its own. -/
  | tables (elements : List (List (String × Item)))

structure Node where
  origin : Origin
  entries : List (String × Item)

namespace Node

def putEntry (name : String) (item : Item) : List (String × Item) → List (String × Item)
  | [] => [(name, item)]
  | (other, held) :: rest =>
      if other = name then (name, item) :: rest else (other, held) :: putEntry name item rest

def put (node : Node) (name : String) (item : Item) : Node :=
  { node with entries := putEntry name item node.entries }

def replaceLast {α : Type} (items : List α) (last : α) : List α := items.dropLast ++ [last]

/-- Changes the table at the end of a path, making the tables on the way that are missing;
a list of tables stands for its last one. Dots do not pass through a table with a header. -/
def descend (byDots : Bool) (change : Node → Option Node) : List String → Node → Option Node
  | [], node => change node
  | name :: path, node =>
      match node.entries.lookup name with
      | none => do
          let child ← descend byDots change path ⟨if byDots then .dots else .implied, []⟩
          return node.put name (.table child.origin child.entries)
      | some (.value _) => none
      | some (.table origin entries) =>
          if byDots && origin == .header then none
          else do
            let child ← descend byDots change path ⟨origin, entries⟩
            return node.put name (.table child.origin child.entries)
      | some (.tables elements) =>
          match elements.getLast? with
          | none => none
          | some entries => do
              let child ← descend byDots change path ⟨.header, entries⟩
              return node.put name (.tables (replaceLast elements child.entries))

/-- Whether a table takes a value: behind dots if it is within their reach, and under a plain
key unless dots made it. -/
def takesValue (reach : DotReach) (byDots : Bool) : Origin → Bool
  | .header => !byDots
  | .implied => !byDots || reach == .implied
  | .dots => byDots

def addValue (reach : DotReach) (byDots : Bool) (name : String) (document : Document)
    (node : Node) : Option Node :=
  if takesValue reach byDots node.origin then
    match node.entries.lookup name with
    | none => some (node.put name (.value document))
    | some _ => none
  else none

def assign (reach : DotReach) (path : List String) (name : String) (document : Document)
    (node : Node) : Option Node :=
  descend true (addValue reach (!path.isEmpty) name document) path node

/-- Opens a table by its header: a new one, or one that only headers within it implied. -/
def openTable (name : String) (node : Node) : Option Node :=
  match node.entries.lookup name with
  | none => some (node.put name (.table .header []))
  | some (.table .implied entries) => some (node.put name (.table .header entries))
  | some _ => none

def openElement (name : String) (node : Node) : Option Node :=
  match node.entries.lookup name with
  | none => some (node.put name (.tables [[]]))
  | some (.tables elements) => some (node.put name (.tables (elements ++ [[]])))
  | some _ => none

end Node

mutual

def Item.document : Item → Document
  | .value document => document
  | .table _ entries => .table (entryDocuments entries)
  | .tables elements => .list (elementDocuments elements)

def entryDocuments : List (String × Item) → List (String × Document)
  | [] => []
  | (name, item) :: rest => (name, item.document) :: entryDocuments rest

def elementDocuments : List (List (String × Item)) → List Document
  | [] => []
  | entries :: rest => .table (entryDocuments entries) :: elementDocuments rest

end

end EventKernel.Toml
