import Stencil.Files.Text
import Stencil.Text.Quoted

/-!
Where templates are found by name. A template is identified by the resolved path of its file, so two
references agree if they lead to one file, whatever links and search paths are between.
-/
namespace Stencil.Template

/-- Directories with templates: those searched in turn, and those that answer to the first part of a
name. -/
structure Shelves where
  paths : List Path
  namespaces : List (String × Path)

/-- Where a library takes its templates from. -/
inductive Loader
  | absent
  | files (shelves : Shelves)
  /-- Templates that are known by name alone. -/
  | named (names : List Text.Points)

inductive Absence
  | noLoader | notFound | noFile
deriving DecidableEq, Repr

def Absence.text : Absence → String
  | noLoader => "no template loader configured"
  | notFound => "template not found"
  | noFile => "loader did not report a file"

/-- A name or path that leads to no template, and why. -/
structure Unresolved where
  name : Text.Points
  reason : String
deriving DecidableEq, Repr

def Unresolved.message (u : Unresolved) : String :=
  s!"Unable to resolve template {Text.quotePoints u.name}: {u.reason}"

/-- Why no template is found: there is none, or its file holds no text. -/
inductive Miss
  | unresolved (u : Unresolved)
  | undecodable

/-- The parts of a name, which must stay below the directory it is looked up in. -/
def nameParts? (name : String) : Option (List String) :=
  let parts := (Text.splitOnChar '/' name).filter fun p => p != "" && p != "."
  if parts.contains ".." then none else some parts

namespace Shelves

variable (shelves : Shelves) (t : Files.Tree)

/-- The first file of that name below one of the directories. -/
def search (name : String) (dirs : List Path) : Option Path :=
  match nameParts? name with
  | none => none
  | some parts => (dirs.map fun d => d.join ⟨false, parts⟩).find? fun p => t.isFile p.parts

/-- A name whose first part is a namespace, without that part. -/
def named? (name : String) : Option (Path × String) :=
  match name.toList.span (· ≠ '/') with
  | (space, '/' :: rest) =>
    (shelves.namespaces.lookup (String.ofList space)).map fun dir => (dir, String.ofList rest)
  | _ => none

def file? (name : String) : Option Path :=
  (search t name shelves.paths).or
    ((shelves.named? name).bind fun space => search t space.2 [space.1])

/-- The file of a name, its path resolved. The file is read and must be text. -/
def find (name : String) : Except Miss (Option Path) :=
  match shelves.file? t name with
  | none => .ok none
  | some p =>
    match t.readText p with
    | .error _ => .error .undecodable
    | .ok _ =>
      match t.resolve false p.normalized.parts with
      | .ok q => .ok (some ⟨true, q⟩)
      | .error _ => .ok none

end Shelves

/-- A loader together with the names that it has resolved before. -/
structure Library where
  loader : Loader
  known : List (Text.Points × Path)

namespace Library

variable (lib : Library) (t : Files.Tree) (name : Text.Points)

def ofLoader (loader : Loader) : Library := ⟨loader, []⟩

def absent {α : Type} (name : Text.Points) (why : Absence) : Except Miss α :=
  .error (.unresolved ⟨name, why.text⟩)

/-- Looks a name up afresh. -/
def search : Except Miss Path :=
  match lib.loader with
  | .absent => absent name .noLoader
  | .named names => absent name (if names.contains name then .noFile else .notFound)
  | .files shelves =>
    match name.toString? with
    | none => absent name .notFound
    | some s =>
      match shelves.find t s with
      | .error e => .error e
      | .ok none => absent name .notFound
      | .ok (some p) => .ok p

/-- The template of a name. A name keeps its template once it has one. -/
def find : Except Miss Path :=
  match lib.known.lookup name with
  | some p => .ok p
  | none => lib.search t name

/-- The library that knows the template found for a name. -/
def learn (found : Except Miss Path) : Library :=
  match found with
  | .ok p => { lib with known := (name, p) :: lib.known }
  | .error _ => lib

theorem find_learn (n : Text.Points) :
    (lib.learn name (lib.find t name)).find t n = lib.find t n := by
  unfold learn
  cases hfound : lib.find t name with
  | error e => rfl
  | ok p =>
    by_cases h : n = name
    · subst h
      rw [hfound]
      simp [find]
    · have hne : (n == name) = false := by simpa using h
      simp [find, search, List.lookup_cons, hne]

/-- The template at a path. -/
def atPath (p : Path) : Except Unresolved Path :=
  match t.resolve true p.parts with
  | .error e => .error ⟨Text.Points.ofString p.text, e.message⟩
  | .ok q =>
    if t.isFile q then .ok ⟨true, q⟩ else .error ⟨Text.Points.ofString p.text, "not a file"⟩

/-- The template of a reference: a name, or else the absolute path of a file. -/
def resolve (reference : String) : Except Miss Path :=
  match lib.find t (Text.Points.ofString reference) with
  | .error (.unresolved u) =>
    let p := Path.ofString reference
    if p.absolute && t.isFile p.parts then (atPath t p).mapError .unresolved
    else .error (.unresolved u)
  | found => found

end Library

end Stencil.Template
