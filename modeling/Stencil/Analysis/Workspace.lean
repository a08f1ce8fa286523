import Stencil.Analysis.Basic
import Stencil.Analysis.Event

/-! The files a run works on. What was done to them stays done, also if the run ends early. -/
namespace Stencil.Analysis

/-- The tree, what was said so far, and the files that the checker was given. -/
structure Workspace where
  tree : Files.Tree
  events : List Event
  collected : List Path
  analyzed : List Path

def Workspace.ofTree (t : Files.Tree) : Workspace := ⟨t, [], [], []⟩

/-- Work on a workspace. -/
abbrev Work := ExceptT Stop (StateM Workspace)

def tree : Work Files.Tree := return (← get).tree

def note (e : Event) : Work Unit := modify fun w => { w with events := w.events ++ [e] }

/-- The value of an outcome; an error ends the run. -/
def orStop {ε α : Type} (stop : ε → Stop) : Except ε α → Work α
  | .ok a => pure a
  | .error e => throw (stop e)

/-- Makes a change to the tree, if it can be made. -/
def change (f : Files.Tree → Except Files.Trouble Files.Tree) : Work Unit := do
  let t ← orStop .trouble (f (← tree))
  modify fun w => { w with tree := t }

def write (file : Path) (source : String) : Work Unit :=
  change fun t => (t.writeText file source).mapError (·.trouble)

/-- Makes an empty directory, whatever was there before. -/
def renew (directory : Path) : Work Unit := do
  modify fun w => { w with tree := w.tree.removeDir directory.parts }
  change fun t => t.makeNewDir directory.parts

/-- The path without links. -/
def resolved (p : Path) : Work Path := do
  let q ← orStop .resolving ((← tree).resolve false p.parts)
  return ⟨true, q⟩

/-- The directories for the files of the stages. -/
structure Scratch where
  compilation : Path
  flattening : Path
  injection : Path
  checking : Path

namespace Scratch

def below (place : Path) : Scratch where
  compilation := place.child "compilation"
  flattening := place.child "flattening"
  injection := place.child "scope-injection"
  checking := place.child "mypy"

def toList (s : Scratch) : List Path := [s.compilation, s.flattening, s.injection, s.checking]

/-- Makes the directories, all of them empty. -/
def prepare (root : Path) (s : Settings) : Work Scratch := do
  let place ← orStop .scratch (Settings.resolveScratch (← tree) root s.scratchDir)
  (below place).toList.forM renew
  return below place

end Scratch

end Stencil.Analysis
