import Stencil.Data.Check
import Stencil.Data.Toml
import Stencil.Data.Value
import Stencil.Files.Text
import Stencil.Settings.Basic
import Stencil.Template.Library

/-! Settings from data, and from the file in the root of a project. -/
namespace Stencil
open Data

namespace IgnoreRule

/-- A text that is a pattern. -/
def checkPattern (v : Value) : Checked String :=
  match v.asString with
  | .error e => .error e
  | .ok s =>
    match Pattern.Regex.parse s with
    | .ok _ => .ok s
    | .error fault =>
      .fail (.value s!"Invalid ignore message pattern {Text.quote s}: {fault.message}")

def fields : List String := ["identifier", "message"]

def check : Value → Checked IgnoreRule
  | .table t =>
    let identifier := Fields.optional t "identifier" none (Value.asNullable Value.asString)
    let pattern := Fields.optional t "message" none (Value.asNullable checkPattern)
    .both (.both (.both (.ok fun i p _ => ⟨i, p⟩) identifier) pattern) (Fields.closed t fields)
  | _ => .fail .modelType

end IgnoreRule

namespace CheckerSettings

def fields : List String := ["render_functions", "python_executable", "extra_args"]

def check : Value → Checked CheckerSettings
  | .table t =>
    let d := CheckerSettings.default
    let texts := Value.asList Value.asString
    let functions := Fields.optional t "render_functions" d.renderFunctions texts
    let executable :=
      Fields.optional t "python_executable" d.executable (Value.asNullable Value.asString)
    let extra := Fields.optional t "extra_args" d.extraArgs texts
    .both
      (.both (.both (.both (.ok fun f e x _ => ⟨f, e, x⟩) functions) executable) extra)
      (Fields.closed t fields)
  | _ => .fail .modelType

end CheckerSettings

/-- Why data are no settings. -/
inductive SettingsFault
  | issues (issues : List Issue)
  /-- The suffixes of templates are not even a list. -/
  | suffixesNotListed

namespace Settings

/-- The file in the root of a project that has its settings. -/
def fileName : String := "jinjastan.toml"

def suffixesNotListedText : String := "template_extensions must be a list of suffixes"

/-- What is wrong with a suffix of templates. -/
def suffixFault? : Value → Option String
  | .str s =>
    if !s.startsWith "." then some (badStart (.str s))
    else if s == ".py" then some "'.py' cannot be used as a template extension"
    else none
  | v => some (badStart v)
where
  badStart (v : Value) : String := s!"Invalid template extension {v.shown}: must start with '.'"

def checkSuffixes (v : Value) : Checked (List String) :=
  match v with
  | .list items =>
    match items.findSome? suffixFault? with
    | some text => .fail (.value text)
    | none => v.asList Value.asString
  | _ => .fail .listType

def fields : List String := [
  "scratch_dir", "template_paths", "namespaces", "template_extensions", "extensions", "include",
  "exclude", "nested_gitignore", "baseline", "default_ignores", "ignore", "checker"]

def checkFields (t : Fields) : Checked Settings :=
  let d := Settings.default
  let text := Value.asString
  let texts := Value.asList Value.asString
  let make := fun scratchDir templatePaths namespaces templateSuffixes extensions includes excludes
      nestedIgnores baseline defaultIgnores ignore checker (_ : Unit) =>
    (⟨scratchDir, templatePaths, namespaces, templateSuffixes, extensions, includes, excludes,
      nestedIgnores, baseline, defaultIgnores, ignore, checker⟩ : Settings)
  let c := Checked.both (.ok make) (t.optional "scratch_dir" d.scratchDir text)
  let c := Checked.both c (t.optional "template_paths" d.templatePaths texts)
  let c := Checked.both c (t.optional "namespaces" d.namespaces (Value.asTable text))
  let c := Checked.both c (t.optional "template_extensions" d.templateSuffixes checkSuffixes)
  let c := Checked.both c (t.optional "extensions" d.extensions texts)
  let c := Checked.both c (t.optional "include" d.includes texts)
  let c := Checked.both c (t.optional "exclude" d.excludes texts)
  let c := Checked.both c (t.optional "nested_gitignore" d.nestedIgnores Value.asBool)
  let c := Checked.both c (t.optional "baseline" d.baseline (Value.asNullable text))
  let c := Checked.both c (t.optional "default_ignores" d.defaultIgnores Value.asBool)
  let c := Checked.both c (t.optional "ignore" d.ignore (Value.asList IgnoreRule.check))
  let c := Checked.both c (t.optional "checker" d.checker CheckerSettings.check)
  Checked.both c (t.closed fields)

/-- Holds if the suffixes of templates are given as something other than a list. -/
def suffixesNotListed (t : Fields) : Bool :=
  match t.lookup "template_extensions" with
  | none | some (.list _) => false
  | some _ => true

/-- The settings that data stand for. -/
def ofValue : Value → Except SettingsFault Settings
  | .table t =>
    if suffixesNotListed t then .error .suffixesNotListed
    else (checkFields t).mapError .issues
  | _ => .error (.issues [⟨[], .modelType⟩])

/-- Why the settings of a project cannot be used. -/
inductive Invalid
  | toml (file : Path)
  | fields (file : Path) (fault : SettingsFault)
  | undecodable
  | longNumber

/-- The message for those who wrote the settings. -/
def Invalid.message? : Invalid → Option String
  | toml p => some s!"Invalid TOML in {p}"
  | fields p _ => some s!"Invalid config in {p}"
  | undecodable | longNumber => none

/-- The settings of the project at `root`: the default ones if it has no file for them. -/
def load (t : Files.Tree) (root : Path) : Except Invalid Settings :=
  let file := root.child fileName
  if !t.isFile file.parts then .ok .default
  else
    match t.readBytes file with
    | .error _ => .ok .default
    | .ok bytes =>
      match String.fromUTF8? bytes with
      | none => .error .undecodable
      | some s =>
        match Toml.parse s with
        | .error .malformed => .error (.toml file)
        | .error .longNumber => .error .longNumber
        | .ok entries => (ofValue (.table entries)).mapError (.fields file)

/-- Where the project at `root` keeps its templates. -/
def shelves (s : Settings) (root : Path) : Template.Shelves where
  paths := s.templatePaths.map fun p => root.join (Path.ofString p)
  namespaces := s.namespaces.map fun n => (n.1, root.join (Path.ofString n.2))

end Settings

end Stencil
