import Stencil.Template.Syntax

/-! The names that occur in a template and what they stand for there. -/
namespace Stencil.Template

/-- The part that a name plays where it occurs. -/
inductive Role
  | load
  /-- The namespace of an attribute that is assigned. -/
  | space
  /-- Everything that gives the name a meaning. -/
  | bind
deriving DecidableEq, Repr

structure Mention where
  id : String
  role : Role
deriving DecidableEq, Repr

def Usage.role : Usage → Role
  | .load => .load
  | _ => .bind

mutual

/-- The mentions in an expression, from the outside in. -/
def Expr.mentions : Expr → List Mention
  | .name _ id usage => [⟨id, usage.role⟩]
  | .attrRef _ space _ => [⟨space, .space⟩]
  | .const .. | .data .. | .context .. => []
  | .tuple _ items | .list _ items | .concat _ items | .other _ _ items => mentionsAll items
  | .dict _ items => mentionsPairs items
  | .cond _ test body otherwise =>
    test.mentions ++ body.mentions ++ mentionsOption otherwise
  | .filter _ input _ args named rest restNamed =>
    mentionsOption input ++ mentionsAll args ++ mentionsNamed named ++ mentionsOption rest ++
      mentionsOption restNamed
  | .test _ input _ args named rest restNamed | .call _ input args named rest restNamed =>
    input.mentions ++ mentionsAll args ++ mentionsNamed named ++ mentionsOption rest ++
      mentionsOption restNamed
  | .item _ owner index => owner.mentions ++ index.mentions
  | .attr _ owner _ => owner.mentions
  | .slice _ start stop step =>
    mentionsOption start ++ mentionsOption stop ++ mentionsOption step
  | .compare _ first others => first.mentions ++ mentionsOperands others
  | .binary _ _ left right => left.mentions ++ right.mentions
  | .unary _ _ operand => operand.mentions
  | .safe _ value => value.mentions
termination_by structural e => e

def mentionsAll : List Expr → List Mention
  | [] => []
  | e :: es => e.mentions ++ mentionsAll es
termination_by structural es => es

def mentionsOption : Option Expr → List Mention
  | none => []
  | some e => e.mentions
termination_by structural e => e

def mentionsPairs : List (Expr × Expr) → List Mention
  | [] => []
  | (key, value) :: es => key.mentions ++ value.mentions ++ mentionsPairs es
termination_by structural es => es

def mentionsNamed : List (String × Expr) → List Mention
  | [] => []
  | (_, e) :: es => e.mentions ++ mentionsNamed es
termination_by structural es => es

def mentionsOperands : List (CompareOp × Expr) → List Mention
  | [] => []
  | (_, e) :: es => e.mentions ++ mentionsOperands es
termination_by structural es => es

end

def bindAll (ids : List String) : List Mention := ids.map (⟨·, .bind⟩)

mutual

def Stmt.mentions : Stmt → List Mention
  | .output _ nodes => mentionsAll nodes
  | .extends_ _ template | .include_ _ template _ _ => template.mentions
  | .for_ _ target source body otherwise test _ =>
    target.mentions ++ source.mentions ++ bodyMentions body ++ bodyMentions otherwise ++
      mentionsOption test
  | .if_ _ test body branches otherwise =>
    test.mentions ++ bodyMentions body ++ branchMentions branches ++ bodyMentions otherwise
  | .macro_ _ id params defaults body =>
    ⟨id, .bind⟩ :: bindAll params ++ mentionsAll defaults ++ bodyMentions body
  | .callBlock _ call params defaults body =>
    call.mentions ++ bindAll params ++ mentionsAll defaults ++ bodyMentions body
  | .filterBlock _ body filter => bodyMentions body ++ filter.mentions
  | .with_ _ targets values body =>
    mentionsAll targets ++ mentionsAll values ++ bodyMentions body
  | .block _ _ body _ _ | .scope _ body => bodyMentions body
  | .import_ _ template target _ => template.mentions ++ [⟨target, .bind⟩]
  | .fromImport _ template names _ => template.mentions ++ bindAll (names.map (·.2))
  | .exprStmt _ value => value.mentions
  | .assign _ target value => target.mentions ++ value.mentions
  | .assignBlock _ target filter body =>
    target.mentions ++ mentionsOption filter ++ bodyMentions body
  | .scopedOptions _ options body => bodyMentions body ++ mentionsNamed options
  | .options _ options => mentionsNamed options
  | .continue_ _ | .break_ _ | .other .. => []
termination_by structural s => s

def bodyMentions : List Stmt → List Mention
  | [] => []
  | s :: ss => s.mentions ++ bodyMentions ss
termination_by structural ss => ss

def branchMentions : List Branch → List Mention
  | [] => []
  | b :: bs => b.mentions ++ branchMentions bs
termination_by structural bs => bs

def Branch.mentions : Branch → List Mention
  | .mk _ test body => test.mentions ++ bodyMentions body
termination_by structural b => b

end

/-- The names that are loaded in `ms`. -/
def loads (ms : List Mention) : List String :=
  ms.filterMap fun m => if m.role = .load then some m.id else none

end Stencil.Template
