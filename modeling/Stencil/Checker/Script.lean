import Stencil.Checker.Basic
import Stencil.Diagnosis.Given
import Stencil.Files.Text

/-! A type checker that follows a script: it says what it is told to say about the files it is
given. -/
namespace Stencil
open Data Diagnosis

def Observed.Observation.ofValue (t : Files.Tree) (v : Value) : Observed.Observation where
  template := referenceIn t (v.field "template").text
  file := .ofValue (v.field "file")
  line := (v.field "line").number
  passed := (v.field "variables").items.map fun x =>
    ⟨(x.field "name").text, (x.field "annotation").text, (x.field "modules").items.map (·.text)⟩

namespace Checker

/-- What is found on each line with some text. -/
structure Rule where
  contains : String
  message : String
  identifier : Option String
  tip : Option String
  suppressible : Bool

namespace Rule

def ofValue (v : Value) : Rule where
  contains := (v.field "contains").text
  message := (v.field "message").text
  identifier := (v.field "identifier").text?
  tip := (v.field "tip").text?
  suppressible := (v.field "can_be_suppressed").flag true

def holdsOf (r : Rule) (line : String) : Bool :=
  Flatten.occursIn r.contains.toList line.toList

def finding (r : Rule) (file : Path) (line : Nat) : Finding :=
  ⟨file, line, r.message, r.identifier, r.tip, r.suppressible⟩

end Rule

/-- What the rules find in a file, line by line. -/
def findingsIn (rules : List Rule) (t : Files.Tree) (file : Path) : List Finding :=
  match t.readText file with
  | .error _ => []
  | .ok source =>
    ((Text.splitOnChar '\n' source).zipIdx 1).flatMap fun (line, n) =>
      (rules.filter (·.holdsOf line)).map fun r => r.finding file n

/-- The checker whose script is given as data. -/
def ofScript (v : Value) : Checker where
  collect t _ :=
    ⟨(v.field "render_calls").items.map (.ofValue t),
      (v.field "observations").items.map (.ofValue t),
      (v.field "collect_errors").items.map (·.text)⟩
  analyze t files :=
    ⟨(v.field "raw").items.map .ofValue ++
        files.flatMap (findingsIn ((v.field "rules").items.map .ofValue) t),
      (v.field "analyze_errors").items.map (·.text)⟩

end Checker

end Stencil
