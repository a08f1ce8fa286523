import Stencil.Pattern.Parser
import Stencil.Pattern.Search

/-! What can be set for a run. -/
namespace Stencil

/-- Findings to leave out: those that have the identifier, and whose message the pattern occurs in.
What is not given is not asked for; a rule without anything leaves out nothing. -/
structure IgnoreRule where
  identifier : Option String
  pattern : Option String
deriving DecidableEq, Repr

namespace IgnoreRule

variable (r : IgnoreRule) (message : String) (identifier : Option String)

def occursIn (pattern message : String) : Bool :=
  match Pattern.Regex.parse pattern with
  | .ok regex => regex.occursIn message
  | .error _ => false

def covers : Bool :=
  (r.identifier.isSome || r.pattern.isSome) &&
    r.identifier.all (some · == identifier) && r.pattern.all fun p => occursIn p message

/-- Names that only generated code uses. Functions of blocks are not among them: that one is missing
is a fault of the template. -/
def scaffolding : IgnoreRule :=
  ⟨none, some "\"_jt_(?:out|buf\\d+|include_\\d+|caller_\\d+|render)\""⟩

def defaults : List IgnoreRule := [scaffolding, ⟨some "unused-ignore", none⟩]

end IgnoreRule

/-- How the type checker is run. -/
structure CheckerSettings where
  /-- The functions that render the template they get first. -/
  renderFunctions : List String
  executable : Option String
  extraArgs : List String
deriving DecidableEq, Repr

def CheckerSettings.default : CheckerSettings where
  renderFunctions := ["flask.templating.render_template", "flask.templating.stream_template"]
  executable := none
  extraArgs := []

/-- The settings of a project. Paths are relative to its root. -/
structure Settings where
  scratchDir : String
  templatePaths : List String
  /-- First parts of template names, with the directories they stand for. -/
  namespaces : List (String × String)
  templateSuffixes : List String
  extensions : List String
  /-- Patterns that one of has to cover a file, if there are any. -/
  includes : List String
  excludes : List String
  nestedIgnores : Bool
  baseline : Option String
  defaultIgnores : Bool
  ignore : List IgnoreRule
  checker : CheckerSettings
deriving DecidableEq, Repr

namespace Settings

def default : Settings where
  scratchDir := ".jinjastan"
  templatePaths := ["templates"]
  namespaces := []
  templateSuffixes := [".html", ".htm", ".xml", ".txt", ".jinja", ".jinja2", ".j2"]
  extensions := []
  includes := []
  excludes := []
  nestedIgnores := false
  baseline := some "jinjastan-baseline.json"
  defaultIgnores := true
  ignore := []
  checker := .default

/-- The default rules, unless they are off, and those of the project behind them. -/
def ignoreRules (s : Settings) : List IgnoreRule :=
  (if s.defaultIgnores then IgnoreRule.defaults else []) ++ s.ignore

end Settings

end Stencil
