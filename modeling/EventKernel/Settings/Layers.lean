import EventKernel.Document.Settings
import EventKernel.Settings.Environment
import EventKernel.Settings.Lenient
import EventKernel.Settings.Path
import EventKernel.Toml.Reader

set_option autoImplicit false

/-! Settings from several sources, each laid over those before it: the standard values, the
file of the user, the file of the project, its local file, and the environment. -/

namespace EventKernel

inductive LayerError where
  /-- A file is no TOML, or holds a value that no layer can. -/
  | unreadable
  /-- The merged values are no settings. -/
  | unfit
deriving DecidableEq, Repr

def LayerError.message : LayerError → String
  | unreadable => "Failed to build configuration"
  | unfit => "Failed to deserialize configuration"

namespace Document

mutual

/-- A value as layers hold it: dates are texts, whole numbers have 64 bits and a sign, and
nothing is garbled. -/
def forLayers : Document → Option Document
  | integer value =>
      if isSignedWord value then some (integer value) else none
  | date value => some (text value)
  | list items => list <$> itemsForLayers items
  | table fields => table <$> fieldsForLayers fields
  | garbled => none
  | other => some other

def itemsForLayers : List Document → Option (List Document)
  | [] => some []
  | item :: rest => do
      let item ← item.forLayers
      return item :: (← itemsForLayers rest)

def fieldsForLayers : List (String × Document) → Option (List (String × Document))
  | [] => some []
  | (name, value) :: rest => do
      let value ← value.forLayers
      return (name, value) :: (← fieldsForLayers rest)

end

def overlayAll (target : Document) (layer : List (String × Document)) : Document :=
  layer.foldl (fun target (name, value) => overlayAt value (PathStep.ofText name) target) target

end Document

/-- The texts and variables that settings are read from. -/
structure SettingsSources where
  user : Option String
  project : Option String
  localFile : Option String
  environment : List (String × String)
  /-- What the names of the variables begin with. -/
  label : String

namespace SettingsSources

/-- The layer of a file; a file that is not there adds nothing. A byte order mark is dropped
from a file before its text is read as TOML, which may begin with another. -/
def fileLayer : Option String → Except LayerError (List (String × Document))
  | none => .ok []
  | some text =>
      match (Toml.read .implied (Toml.dropByteOrderMark text.toList)).bind Document.forLayers with
      | some document => .ok document.fields
      | none => .error .unreadable

def environmentLayer (sources : SettingsSources) : List (String × Document) :=
  sources.environment.filterMap fun (name, value) =>
    (Environment.path? sources.label name).map (·, Environment.value value)

def layers (sources : SettingsSources) :
    Except LayerError (List (List (String × Document))) := do
  let user ← fileLayer sources.user
  let project ← fileLayer sources.project
  let localFile ← fileLayer sources.localFile
  return [(Document.ofSettings .standard).fields, user, project, localFile,
    sources.environmentLayer]

def settings (sources : SettingsSources) : Except LayerError Settings := do
  let merged := (← sources.layers).foldl Document.overlayAll (.table [])
  match Document.lenient.settings merged with
  | some settings => return settings
  | none => throw .unfit

end SettingsSources

def Settings.ofToml? (text : List Char) : Option Settings :=
  (Toml.read .own text).bind Toml.reading.settings

end EventKernel
