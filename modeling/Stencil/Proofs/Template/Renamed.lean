import Mathlib.Tactic.Common
import Stencil.Code.Name
import Stencil.Template.Mention
import Stencil.Template.Reference

/-! Templates with other names for what they define and read. -/
namespace Stencil.Template

/-- A name for each name. -/
abbrev Naming := String → String

/-- The name of an argument in a call. A keyword is no name of a parameter. -/
def Naming.key (ν : Naming) (name : String) : String := if Code.isKeyword name then name else ν name

variable {ν : Naming}

mutual

/-- The expression with its names replaced. Names of filters and tests, and of their arguments, are kept. -/
def Expr.rename (ν : Naming) : Expr → Expr
  | .name line id usage => .name line (ν id) usage
  | .attrRef line space attr => .attrRef line (ν space) attr
  | .const line value => .const line value
  | .data line text => .data line text
  | .tuple line items => .tuple line (renameAll ν items)
  | .list line items => .list line (renameAll ν items)
  | .dict line items => .dict line (renamePairs ν items)
  | .cond line test body otherwise => .cond line (test.rename ν) (body.rename ν) (renameOption ν otherwise)
  | .filter line input name args named rest restNamed =>
    .filter line (renameOption ν input) name (renameAll ν args) (renameNamed ν id named) (renameOption ν rest)
      (renameOption ν restNamed)
  | .test line input name args named rest restNamed =>
    .test line (input.rename ν) name (renameAll ν args) (renameNamed ν id named) (renameOption ν rest)
      (renameOption ν restNamed)
  | .call line callee args named rest restNamed =>
    .call line (callee.rename ν) (renameAll ν args) (renameNamed ν ν.key named) (renameOption ν rest)
      (renameOption ν restNamed)
  | .item line owner index => .item line (owner.rename ν) (index.rename ν)
  | .attr line owner attr => .attr line (owner.rename ν) attr
  | .slice line start stop step => .slice line (renameOption ν start) (renameOption ν stop) (renameOption ν step)
  | .concat line items => .concat line (renameAll ν items)
  | .compare line first others => .compare line (first.rename ν) (renameOperands ν others)
  | .binary line op left right => .binary line op (left.rename ν) (right.rename ν)
  | .unary line op operand => .unary line op (operand.rename ν)
  | .safe line value => .safe line (value.rename ν)
  | .context line => .context line
  | .other line kind children => .other line kind (renameAll ν children)
termination_by structural e => e

def renameAll (ν : Naming) : List Expr → List Expr
  | [] => []
  | e :: es => e.rename ν :: renameAll ν es
termination_by structural es => es

def renameOption (ν : Naming) : Option Expr → Option Expr
  | none => none
  | some e => some (e.rename ν)
termination_by structural e => e

def renamePairs (ν : Naming) : List (Expr × Expr) → List (Expr × Expr)
  | [] => []
  | (key, value) :: es => (key.rename ν, value.rename ν) :: renamePairs ν es
termination_by structural es => es

/-- Arguments whose names become those that `key` gives. -/
def renameNamed (ν key : Naming) : List (String × Expr) → List (String × Expr)
  | [] => []
  | (name, e) :: es => (key name, e.rename ν) :: renameNamed ν key es
termination_by structural es => es

def renameOperands (ν : Naming) : List (CompareOp × Expr) → List (CompareOp × Expr)
  | [] => []
  | (op, e) :: es => (op, e.rename ν) :: renameOperands ν es
termination_by structural es => es

end

mutual

/-- The statement with its names replaced. Names of blocks and of what other templates define are kept. -/
def Stmt.rename (ν : Naming) : Stmt → Stmt
  | .output line nodes => .output line (renameAll ν nodes)
  | .extends_ line template => .extends_ line (template.rename ν)
  | .for_ line target source body otherwise test isRecursive =>
    .for_ line (target.rename ν) (source.rename ν) (renameBody ν body) (renameBody ν otherwise) (renameOption ν test)
      isRecursive
  | .if_ line test body branches otherwise =>
    .if_ line (test.rename ν) (renameBody ν body) (renameBranches ν branches) (renameBody ν otherwise)
  | .macro_ line id params defaults body =>
    .macro_ line (ν id) (params.map ν) (renameAll ν defaults) (renameBody ν body)
  | .callBlock line call params defaults body =>
    .callBlock line (call.rename ν) (params.map ν) (renameAll ν defaults) (renameBody ν body)
  | .filterBlock line body filter => .filterBlock line (renameBody ν body) (filter.rename ν)
  | .with_ line targets values body => .with_ line (renameAll ν targets) (renameAll ν values) (renameBody ν body)
  | .block line id body isScoped required => .block line id (renameBody ν body) isScoped required
  | .include_ line template withContext ignoreMissing => .include_ line (template.rename ν) withContext ignoreMissing
  | .import_ line template target withContext => .import_ line (template.rename ν) (ν target) withContext
  | .fromImport line template names withContext =>
    .fromImport line (template.rename ν) (names.map fun n => (n.1, ν n.2)) withContext
  | .exprStmt line value => .exprStmt line (value.rename ν)
  | .assign line target value => .assign line (target.rename ν) (value.rename ν)
  | .assignBlock line target filter body =>
    .assignBlock line (target.rename ν) (renameOption ν filter) (renameBody ν body)
  | .scope line body => .scope line (renameBody ν body)
  | .scopedOptions line options body => .scopedOptions line (renameNamed ν id options) (renameBody ν body)
  | .options line options => .options line (renameNamed ν id options)
  | .continue_ line => .continue_ line
  | .break_ line => .break_ line
  | .other line kind => .other line kind
termination_by structural s => s

def renameBody (ν : Naming) : List Stmt → List Stmt
  | [] => []
  | s :: ss => s.rename ν :: renameBody ν ss
termination_by structural ss => ss

def renameBranches (ν : Naming) : List Branch → List Branch
  | [] => []
  | b :: bs => b.rename ν :: renameBranches ν bs
termination_by structural bs => bs

def Branch.rename (ν : Naming) : Branch → Branch
  | .mk line test body => .mk line (test.rename ν) (renameBody ν body)
termination_by structural b => b

end

def Document.rename (ν : Naming) (d : Document) : Document := ⟨renameBody ν d.body⟩

/-! ### What stays -/

@[simp] theorem Expr.line_rename (e : Expr) : (e.rename ν).line = e.line := by cases e <;> rfl

@[simp] theorem Stmt.line_rename (s : Stmt) : (s.rename ν).line = s.line := by cases s <;> rfl

theorem isEmpty_renameBody (ss : List Stmt) : (renameBody ν ss).isEmpty = ss.isEmpty := by cases ss <;> rfl

theorem zip_renameAll (es es' : List Expr) : (renameAll ν es).zip (renameAll ν es') = renamePairs ν (es.zip es') := by
  induction es generalizing es' with
  | nil => rfl
  | cons e es ih =>
    cases es' with
    | nil => rfl
    | cons e' es' => exact congrArg _ (ih es')

mutual

/-- An expression stands for the same templates. -/
theorem Expr.templateNames?_rename (e : Expr) : (e.rename ν).templateNames? = e.templateNames? :=
  match e with
  | .list _ items | .tuple _ items => templateNamesAll?_rename items
  | .cond _ _ body none => by
    simp only [Expr.rename, renameOption, Expr.templateNames?, body.templateNames?_rename]
  | .cond _ _ body (some e) => by
    simp only [Expr.rename, renameOption, Expr.templateNames?, body.templateNames?_rename, e.templateNames?_rename]
  | .name .. | .attrRef .. | .const .. | .data .. | .dict .. | .filter .. | .test .. | .call .. | .item .. | .attr ..
  | .slice .. | .concat .. | .compare .. | .binary .. | .unary .. | .safe .. | .context .. | .other .. => rfl
termination_by structural e

theorem templateNamesAll?_rename (es : List Expr) : templateNamesAll? (renameAll ν es) = templateNamesAll? es :=
  match es with
  | [] => rfl
  | e :: es => by simp only [renameAll, templateNamesAll?, e.templateNames?_rename, templateNamesAll?_rename es]
termination_by structural es

end

/-! ### Mentions -/

/-- A mention of what a name becomes. -/
def Mention.rename (ν : Naming) (m : Mention) : Mention := { m with id := ν m.id }

theorem loads_rename (ms : List Mention) : loads (ms.map (Mention.rename ν)) = (loads ms).map ν := by
  rw [loads, loads, List.filterMap_map, List.map_filterMap]
  congr 1
  funext m
  by_cases hrole : m.role = .load <;> simp [Mention.rename, hrole]

theorem bindAll_rename (ids : List String) : bindAll (ids.map ν) = (bindAll ids).map (Mention.rename ν) := by
  simp [bindAll, Mention.rename]

mutual

/-- The names that are mentioned become others. -/
theorem Expr.mentions_rename (e : Expr) : (e.rename ν).mentions = e.mentions.map (Mention.rename ν) :=
  match e with
  | .name .. | .attrRef .. | .const .. | .data .. | .context .. => rfl
  | .tuple _ items | .list _ items | .concat _ items | .other _ _ items => mentionsAll_rename items
  | .dict _ items => mentionsPairs_rename items
  | .cond _ test body otherwise => by
    simp only [Expr.rename, Expr.mentions, List.map_append, test.mentions_rename, body.mentions_rename,
      mentionsOption_rename otherwise]
  | .filter _ input _ args named rest restNamed => by
    simp only [Expr.rename, Expr.mentions, List.map_append, mentionsOption_rename input, mentionsAll_rename args,
      mentionsNamed_rename named, mentionsOption_rename rest, mentionsOption_rename restNamed]
  | .test _ input _ args named rest restNamed | .call _ input args named rest restNamed => by
    simp only [Expr.rename, Expr.mentions, List.map_append, input.mentions_rename, mentionsAll_rename args,
      mentionsNamed_rename named, mentionsOption_rename rest, mentionsOption_rename restNamed]
  | .item _ owner index => by
    simp only [Expr.rename, Expr.mentions, List.map_append, owner.mentions_rename, index.mentions_rename]
  | .attr _ owner _ => owner.mentions_rename
  | .slice _ start stop step => by
    simp only [Expr.rename, Expr.mentions, List.map_append, mentionsOption_rename start, mentionsOption_rename stop,
      mentionsOption_rename step]
  | .compare _ first others => by
    simp only [Expr.rename, Expr.mentions, List.map_append, first.mentions_rename, mentionsOperands_rename others]
  | .binary _ _ left right => by
    simp only [Expr.rename, Expr.mentions, List.map_append, left.mentions_rename, right.mentions_rename]
  | .unary _ _ operand => operand.mentions_rename
  | .safe _ value => value.mentions_rename
termination_by structural e

theorem mentionsAll_rename (es : List Expr) :
    mentionsAll (renameAll ν es) = (mentionsAll es).map (Mention.rename ν) :=
  match es with
  | [] => rfl
  | e :: es => by simp only [renameAll, mentionsAll, List.map_append, e.mentions_rename, mentionsAll_rename es]
termination_by structural es

theorem mentionsOption_rename (e : Option Expr) :
    mentionsOption (renameOption ν e) = (mentionsOption e).map (Mention.rename ν) :=
  match e with
  | none => rfl
  | some e => e.mentions_rename
termination_by structural e

theorem mentionsPairs_rename (es : List (Expr × Expr)) :
    mentionsPairs (renamePairs ν es) = (mentionsPairs es).map (Mention.rename ν) :=
  match es with
  | [] => rfl
  | (key, value) :: es => by
    simp only [renamePairs, mentionsPairs, List.map_append, key.mentions_rename, value.mentions_rename,
      mentionsPairs_rename es]
termination_by structural es

theorem mentionsNamed_rename {key : Naming} (es : List (String × Expr)) :
    mentionsNamed (renameNamed ν key es) = (mentionsNamed es).map (Mention.rename ν) :=
  match es with
  | [] => rfl
  | (_, e) :: es => by
    simp only [renameNamed, mentionsNamed, List.map_append, e.mentions_rename, mentionsNamed_rename es]
termination_by structural es

theorem mentionsOperands_rename (es : List (CompareOp × Expr)) :
    mentionsOperands (renameOperands ν es) = (mentionsOperands es).map (Mention.rename ν) :=
  match es with
  | [] => rfl
  | (_, e) :: es => by
    simp only [renameOperands, mentionsOperands, List.map_append, e.mentions_rename, mentionsOperands_rename es]
termination_by structural es

end

mutual

theorem Stmt.mentions_rename (s : Stmt) : (s.rename ν).mentions = s.mentions.map (Mention.rename ν) :=
  match s with
  | .output _ nodes => mentionsAll_rename nodes
  | .extends_ _ template | .include_ _ template _ _ => template.mentions_rename
  | .for_ _ target source body otherwise test _ => by
    simp only [Stmt.rename, Stmt.mentions, List.map_append, target.mentions_rename, source.mentions_rename,
      bodyMentions_rename body, bodyMentions_rename otherwise, mentionsOption_rename test]
  | .if_ _ test body branches otherwise => by
    simp only [Stmt.rename, Stmt.mentions, List.map_append, test.mentions_rename, bodyMentions_rename body,
      branchMentions_rename branches, bodyMentions_rename otherwise]
  | .macro_ _ id params defaults body => by
    simp only [Stmt.rename, Stmt.mentions, List.map_append, List.map_cons, List.cons_append, bindAll_rename,
      mentionsAll_rename defaults, bodyMentions_rename body, Mention.rename]
  | .callBlock _ call params defaults body => by
    simp only [Stmt.rename, Stmt.mentions, List.map_append, call.mentions_rename, bindAll_rename,
      mentionsAll_rename defaults, bodyMentions_rename body]
  | .filterBlock _ body filter => by
    simp only [Stmt.rename, Stmt.mentions, List.map_append, bodyMentions_rename body, filter.mentions_rename]
  | .with_ _ targets values body => by
    simp only [Stmt.rename, Stmt.mentions, List.map_append, mentionsAll_rename targets, mentionsAll_rename values,
      bodyMentions_rename body]
  | .block _ _ body _ _ | .scope _ body => bodyMentions_rename body
  | .import_ _ template target _ => by
    simp only [Stmt.rename, Stmt.mentions, List.map_append, template.mentions_rename, List.map_cons, List.map_nil,
      Mention.rename]
  | .fromImport _ template names _ => by
    simp only [Stmt.rename, Stmt.mentions, List.map_append, template.mentions_rename, ← bindAll_rename, List.map_map]
    rfl
  | .exprStmt _ value => value.mentions_rename
  | .assign _ target value => by
    simp only [Stmt.rename, Stmt.mentions, List.map_append, target.mentions_rename, value.mentions_rename]
  | .assignBlock _ target filter body => by
    simp only [Stmt.rename, Stmt.mentions, List.map_append, target.mentions_rename, mentionsOption_rename filter,
      bodyMentions_rename body]
  | .scopedOptions _ options body => by
    simp only [Stmt.rename, Stmt.mentions, List.map_append, bodyMentions_rename body, mentionsNamed_rename options]
  | .options _ options => mentionsNamed_rename options
  | .continue_ _ | .break_ _ | .other .. => rfl
termination_by structural s

theorem bodyMentions_rename (ss : List Stmt) :
    bodyMentions (renameBody ν ss) = (bodyMentions ss).map (Mention.rename ν) :=
  match ss with
  | [] => rfl
  | s :: ss => by simp only [renameBody, bodyMentions, List.map_append, s.mentions_rename, bodyMentions_rename ss]
termination_by structural ss

theorem branchMentions_rename (bs : List Branch) :
    branchMentions (renameBranches ν bs) = (branchMentions bs).map (Mention.rename ν) :=
  match bs with
  | [] => rfl
  | b :: bs => by
    simp only [renameBranches, branchMentions, List.map_append, b.mentions_rename, branchMentions_rename bs]
termination_by structural bs

theorem Branch.mentions_rename (b : Branch) : (b.rename ν).mentions = b.mentions.map (Mention.rename ν) :=
  match b with
  | .mk _ test body => by
    simp only [Branch.rename, Branch.mentions, List.map_append, test.mentions_rename, bodyMentions_rename body]
termination_by structural b

end

end Stencil.Template
