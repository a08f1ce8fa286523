import Stencil.Diagnosis.Basic
import Stencil.Diagnosis.Merge
import Stencil.Diagnosis.RenderTable
import Stencil.Diagnosis.Wording
import Stencil.Observed.Injection
import Stencil.Settings.Basic

/-!
From what a type checker finds to what is reported of it. Findings on generated lines become diagnostics of the
template lines they come from.
-/
namespace Stencil.Diagnosis
open Observed

/-- The unit in a file; of several the last one written. -/
def injectedIn (units : List InjectedUnit) (file : Path) : Option InjectedUnit :=
  units.reverse.find? (·.file = file)

/-- A finding that belongs to no line of a template. It cannot be suppressed. -/
def Finding.unlocated (f : Finding) : Diagnostic :=
  ⟨f.message, f.identifier, f.tip, some f.file, some f.line, none, [], false⟩

/-- The diagnostic of a finding. Lines that come from no template have none. -/
def Finding.locate (units : List InjectedUnit) (table : RenderTable) (f : Finding) :
    Option Diagnostic :=
  match injectedIn units f.file with
  | none => some f.unlocated
  | some u =>
    if f.line < 1 then some f.unlocated
    else
      (chainAt u.sourceMap f.line).map fun c =>
        ⟨f.message, f.identifier, f.tip, some f.file, some f.line, some c,
          (table.lookup c.last.file).getD [], f.suppressible⟩

def locate (units : List InjectedUnit) (table : RenderTable) (findings : List Finding) :
    List Diagnostic :=
  findings.filterMap (·.locate units table)

/-- Holds if the settings say to ignore it. -/
def Diagnostic.ignoredBy (rules : List IgnoreRule) (d : Diagnostic) : Bool :=
  rules.any fun r => r.covers d.message d.identifier

def withoutIgnored (rules : List IgnoreRule) (ds : List Diagnostic) : List Diagnostic :=
  ds.filter fun d => !d.ignoredBy rules

/-- The problems that findings are about, without those to ignore, each as one diagnostic. -/
def problemsOf (rules : List IgnoreRule) (units : List InjectedUnit) (table : RenderTable)
    (findings : List Finding) : List Diagnostic :=
  collapse (withoutIgnored rules (locate units table findings))

/-- The diagnostics of findings in the words of templates. -/
def report (rules : List IgnoreRule) (units : List InjectedUnit) (table : RenderTable)
    (findings : List Finding) : List Diagnostic :=
  (problemsOf rules units table findings).map (·.reword)

end Stencil.Diagnosis
