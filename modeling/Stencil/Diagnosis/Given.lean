import Stencil.Data.Access
import Stencil.Diagnosis.RenderTable

/-! Findings, diagnostics and what belongs to them, given as data. -/
namespace Stencil
open Data

def Path.ofValue (v : Value) : Path := .ofString v.text

/-- A file and a line. -/
def Location.ofValue (v : Value) : Location := ⟨.ofValue (v.item 0), (v.item 1).number?⟩

def Chain.ofValue? (v : Value) : Option Chain := Chain.ofList? (v.items.map .ofValue)

/-- Entries by line; of entries for one line the last counts, in the place of the first. -/
def Chain.mapOfValue (v : Value) : List (Nat × Chain) :=
  v.items.foldl (fun done e =>
    let n := (e.item 0).number.toNat
    match Chain.ofValue? (e.item 1) with
    | none => done
    | some c => if (done.lookup n).isSome then done.map fun x => if x.1 = n then (n, c) else x
      else done ++ [(n, c)]) []

namespace Diagnosis

def Finding.ofValue (v : Value) : Finding where
  file := .ofValue (v.field "file")
  line := (v.field "line").number
  message := (v.field "message").text
  identifier := (v.field "identifier").text?
  tip := (v.field "tip").text?
  suppressible := (v.field "can_be_suppressed").flag true

def RenderPoint.ofValue (v : Value) : RenderPoint :=
  ⟨.ofValue (v.item 0), .ofValue (.list (v.items.drop 1))⟩

def Diagnostic.ofValue (v : Value) : Diagnostic where
  message := (v.field "message").text
  identifier := (v.field "identifier").text?
  tip := (v.field "tip").text?
  file := (v.field "python_file").present?.map .ofValue
  line := (v.field "python_line").number?
  chain := Chain.ofValue? (v.field "chain")
  renderPoints := (v.field "render_points").items.map .ofValue
  suppressible := (v.field "can_be_suppressed").flag true

/-- A reference that leads to something in the tree stands for its path; others are names. -/
def referenceIn (t : Files.Tree) (s : String) : String :=
  let p := Path.ofString s
  if p.absolute && t.exists? p.parts then p.text else s

def RenderCall.ofValue (t : Files.Tree) (v : Value) : RenderCall :=
  ⟨referenceIn t (v.item 0).text, .ofValue (v.item 1), (v.item 2).number⟩

end Diagnosis

end Stencil
