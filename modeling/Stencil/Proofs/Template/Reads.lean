import Stencil.Compile.Expression
import Stencil.Proofs.Template.Parsed
import Stencil.Proofs.Template.Worded
import Stencil.Template.Reference

/-!
The places in a template where expressions stand, and the names that it reads there. What something is assigned to
reads nothing, and the parser gives every value a target and every default a parameter.
-/
namespace Stencil.Template

/-- The part that an expression plays in its statement. -/
inductive Part
  /-- What something is assigned to. -/
  | target
  | value
  /-- The name of a template that is included or extended. -/
  | template
  /-- The name of a template that nothing is imported from. -/
  | idle
  /-- An option for the text around. -/
  | option
deriving DecidableEq, Repr

/-- An expression with the line of what contains it: a statement, a branch, or a child of an output. -/
structure Site where
  line : Line
  part : Part
  content : Expr

/-- The places of several expressions that play one part. -/
def sitesAt (line : Line) (part : Part) (es : List Expr) : List Site := es.map (⟨line, part, ·⟩)

mutual

def Stmt.sites : Stmt → List Site
  | .output _ nodes => nodes.map fun e => ⟨e.line, .value, e⟩
  | .extends_ line template | .include_ line template _ _ => [⟨line, .template, template⟩]
  | .for_ line target source body otherwise test _ =>
    ⟨line, .target, target⟩ :: ⟨line, .value, source⟩ :: sitesAt line .value test.toList ++
      bodySites body ++ bodySites otherwise
  | .if_ line test body branches otherwise =>
    ⟨line, .value, test⟩ :: bodySites body ++ branchSites branches ++ bodySites otherwise
  | .macro_ line _ _ defaults body => sitesAt line .value defaults ++ bodySites body
  | .callBlock line call _ defaults body =>
    ⟨line, .value, call⟩ :: sitesAt line .value defaults ++ bodySites body
  | .filterBlock line body filter => ⟨line, .value, filter⟩ :: bodySites body
  | .with_ line targets values body =>
    sitesAt line .target targets ++ sitesAt line .value values ++ bodySites body
  | .block _ _ body _ _ | .scope _ body => bodySites body
  | .import_ line template _ _ => [⟨line, .value, template⟩]
  | .fromImport line template names _ =>
    [⟨line, if names.isEmpty then .idle else .value, template⟩]
  | .exprStmt line value => [⟨line, .value, value⟩]
  | .assign line target value => [⟨line, .target, target⟩, ⟨line, .value, value⟩]
  | .assignBlock line target filter body =>
    ⟨line, .target, target⟩ :: sitesAt line .value filter.toList ++ bodySites body
  | .scopedOptions line options body => sitesAt line .option (options.map (·.2)) ++ bodySites body
  | .options line options => sitesAt line .option (options.map (·.2))
  | .continue_ _ | .break_ _ | .other .. => []
termination_by structural s => s

def bodySites : List Stmt → List Site
  | [] => []
  | s :: ss => s.sites ++ bodySites ss
termination_by structural ss => ss

def branchSites : List Branch → List Site
  | [] => []
  | b :: bs => b.sites ++ branchSites bs
termination_by structural bs => bs

def Branch.sites : Branch → List Site
  | .mk line test body => ⟨line, .value, test⟩ :: bodySites body
termination_by structural b => b

end

/-- The places in a template where expressions stand. -/
def Document.sites (d : Document) : List Site := bodySites d.body

variable {p : String → Prop}

/-- The names at a place satisfy `p`. -/
def Site.Worded (p : String → Prop) (s : Site) : Prop := s.content.Worded p false

@[simp] theorem Site.worded_mk {line : Line} {part : Part} {e : Expr} :
    Site.Worded p ⟨line, part, e⟩ ↔ e.Worded p false := Iff.rfl

theorem sitesAt_worded {line : Line} {part : Part} {es : List Expr} (h : ∀ e ∈ es, e.Worded p false) :
    ∀ s ∈ sitesAt line part es, s.Worded p := by
  simpa [sitesAt] using h

theorem wordedOption_toList {o : Option Expr} (h : wordedOption p o) :
    ∀ e ∈ o.toList, e.Worded p false := by
  cases o with
  | none => simp
  | some e => simpa [wordedOption] using h

theorem wordedNamed_values {options : List (String × Expr)} (h : wordedNamed p options) :
    ∀ e ∈ options.map (·.2), e.Worded p false := by
  simp only [List.mem_map, forall_exists_index, and_imp]
  rintro _ o ho rfl
  exact (wordedNamed_iff.1 h o ho).2

mutual

theorem Stmt.sites_worded (s : Stmt) (h : s.Worded p) : ∀ i ∈ s.sites, i.Worded p :=
  match s with
  | .output _ nodes => by simpa [Stmt.sites] using wordedAll_iff.1 h
  | .extends_ _ template | .include_ _ template _ _ => by simpa [Stmt.sites, Stmt.Worded] using h
  | .for_ line target source body otherwise test _ => by
    simp only [Stmt.sites, List.cons_append, List.forall_mem_cons, List.forall_mem_append]
    exact ⟨h.1, h.2.1, ⟨sitesAt_worded (wordedOption_toList h.2.2.2.2), bodySites_worded body h.2.2.1⟩,
      bodySites_worded otherwise h.2.2.2.1⟩
  | .if_ line test body branches otherwise => by
    simp only [Stmt.sites, List.cons_append, List.forall_mem_cons, List.forall_mem_append]
    exact ⟨h.1, ⟨bodySites_worded body h.2.1, branchSites_worded branches h.2.2.1⟩,
      bodySites_worded otherwise h.2.2.2⟩
  | .macro_ line _ _ defaults body => by
    simp only [Stmt.sites, List.forall_mem_append]
    exact ⟨sitesAt_worded (wordedAll_iff.1 h.2.2.1), bodySites_worded body h.2.2.2⟩
  | .callBlock line call _ defaults body => by
    simp only [Stmt.sites, List.cons_append, List.forall_mem_cons, List.forall_mem_append]
    exact ⟨h.1, sitesAt_worded (wordedAll_iff.1 h.2.2.1), bodySites_worded body h.2.2.2⟩
  | .filterBlock line body filter => by
    simp only [Stmt.sites, List.forall_mem_cons]
    exact ⟨h.2, bodySites_worded body h.1⟩
  | .with_ line targets values body => by
    simp only [Stmt.sites, List.forall_mem_append]
    exact ⟨⟨sitesAt_worded (wordedAll_iff.1 h.1), sitesAt_worded (wordedAll_iff.1 h.2.1)⟩,
      bodySites_worded body h.2.2⟩
  | .block _ _ body _ _ => bodySites_worded body h.2
  | .scope _ body => bodySites_worded body h
  | .import_ line template _ _ => by simpa [Stmt.sites] using h.1
  | .fromImport line template names _ => by simpa [Stmt.sites] using h.1
  | .exprStmt line value => by simpa [Stmt.sites, Stmt.Worded] using h
  | .assign line target value => by simpa [Stmt.sites, Stmt.Worded] using h
  | .assignBlock line target filter body => by
    simp only [Stmt.sites, List.cons_append, List.forall_mem_cons, List.forall_mem_append]
    exact ⟨h.1, sitesAt_worded (wordedOption_toList h.2.1), bodySites_worded body h.2.2⟩
  | .scopedOptions line options body => by
    simp only [Stmt.sites, List.forall_mem_append]
    exact ⟨sitesAt_worded (wordedNamed_values h.1), bodySites_worded body h.2⟩
  | .options line options => sitesAt_worded (wordedNamed_values h)
  | .continue_ _ | .break_ _ | .other .. => by simp [Stmt.sites]
termination_by structural s

theorem bodySites_worded (ss : List Stmt) (h : wordedBody p ss) : ∀ i ∈ bodySites ss, i.Worded p :=
  match ss with
  | [] => by simp [bodySites]
  | s :: ss => List.forall_mem_append.2 ⟨s.sites_worded h.1, bodySites_worded ss h.2⟩
termination_by structural ss

theorem branchSites_worded (bs : List Branch) (h : wordedBranches p bs) : ∀ i ∈ branchSites bs, i.Worded p :=
  match bs with
  | [] => by simp [branchSites]
  | b :: bs => List.forall_mem_append.2 ⟨b.sites_worded h.1, branchSites_worded bs h.2⟩
termination_by structural bs

theorem Branch.sites_worded (b : Branch) (h : b.Worded p) : ∀ i ∈ b.sites, i.Worded p :=
  match b with
  | .mk _ _ body => List.forall_mem_cons.2 ⟨h.1, bodySites_worded body h.2⟩
termination_by structural b

end

end Stencil.Template

namespace Stencil.Template
open Compile (isSuper isSelf)

mutual

/-- The names that an expression reads. The blocks of a template and the parent of a block are reached
by names that are no variables; the arguments of a parent's call are not looked at. -/
def Expr.reads : Expr → List String
  | .name _ id usage => if usage = .load then [id] else []
  | .attrRef .. | .const .. | .data .. | .context .. => []
  | .tuple _ items | .list _ items | .concat _ items | .other _ _ items => readsAll items
  | .dict _ items => readsPairs items
  | .cond _ test body otherwise => test.reads ++ body.reads ++ readsOption otherwise
  | .filter _ input _ args named rest restNamed =>
    readsOption input ++ readsAll args ++ readsNamed named ++ readsOption rest ++ readsOption restNamed
  | .test _ input _ args named rest restNamed =>
    input.reads ++ readsAll args ++ readsNamed named ++ readsOption rest ++ readsOption restNamed
  | .call _ callee args named rest restNamed =>
    if isSuper callee then []
    else callee.reads ++ readsAll args ++ readsNamed named ++ readsOption rest ++ readsOption restNamed
  | .item _ owner index => owner.reads ++ index.reads
  | .attr _ owner _ => if isSelf owner then [] else owner.reads
  | .slice _ start stop step => readsOption start ++ readsOption stop ++ readsOption step
  | .compare _ first others => first.reads ++ readsOperands others
  | .binary _ _ left right => left.reads ++ right.reads
  | .unary _ _ operand => operand.reads
  | .safe _ value => value.reads
termination_by structural e => e

def readsAll : List Expr → List String
  | [] => []
  | e :: es => e.reads ++ readsAll es
termination_by structural es => es

def readsOption : Option Expr → List String
  | none => []
  | some e => e.reads
termination_by structural e => e

def readsPairs : List (Expr × Expr) → List String
  | [] => []
  | (key, value) :: es => key.reads ++ value.reads ++ readsPairs es
termination_by structural es => es

def readsNamed : List (String × Expr) → List String
  | [] => []
  | (_, e) :: es => e.reads ++ readsNamed es
termination_by structural es => es

def readsOperands : List (CompareOp × Expr) → List String
  | [] => []
  | (_, e) :: es => e.reads ++ readsOperands es
termination_by structural es => es

end

/-- The names that are read at a place. Neither options nor constant names of templates are looked up
when the template runs. -/
def Site.reads (s : Site) : List String :=
  match s.part with
  | .target | .value | .idle => s.content.reads
  | .template => if s.content.templateNames?.isSome then [] else s.content.reads
  | .option => []

/-! ### Targets and defaults -/

mutual

/-- No target reads a name, and there are as many targets as values and no fewer parameters than
defaults. -/
def Stmt.Paired : Stmt → Prop
  | .for_ _ target _ body otherwise _ _ => target.reads = [] ∧ pairedBody body ∧ pairedBody otherwise
  | .if_ _ _ body branches otherwise => pairedBody body ∧ pairedBranches branches ∧ pairedBody otherwise
  | .macro_ _ _ params defaults body | .callBlock _ _ params defaults body =>
    defaults.length ≤ params.length ∧ pairedBody body
  | .with_ _ targets values body =>
    (∀ e ∈ targets, e.reads = []) ∧ targets.length = values.length ∧ pairedBody body
  | .assign _ target _ => target.reads = []
  | .assignBlock _ target _ body => target.reads = [] ∧ pairedBody body
  | .filterBlock _ body _ | .block _ _ body _ _ | .scope _ body | .scopedOptions _ _ body => pairedBody body
  | .output .. | .extends_ .. | .include_ .. | .import_ .. | .fromImport .. | .exprStmt .. | .options ..
  | .continue_ _ | .break_ _ | .other .. => True
termination_by structural s => s

def pairedBody : List Stmt → Prop
  | [] => True
  | s :: ss => s.Paired ∧ pairedBody ss
termination_by structural ss => ss

def pairedBranches : List Branch → Prop
  | [] => True
  | b :: bs => b.Paired ∧ pairedBranches bs
termination_by structural bs => bs

def Branch.Paired : Branch → Prop
  | .mk _ _ body => pairedBody body
termination_by structural b => b

end

theorem pairedBody_iff {ss : List Stmt} : pairedBody ss ↔ ∀ s ∈ ss, s.Paired := by
  induction ss with
  | nil => simp [pairedBody]
  | cons s ss ih => simp [pairedBody, ih]

theorem pairedBranches_iff {bs : List Branch} : pairedBranches bs ↔ ∀ b ∈ bs, b.Paired := by
  induction bs with
  | nil => simp [pairedBranches]
  | cons b bs ih => simp [pairedBranches, ih]

end Stencil.Template

namespace Stencil.Template.Parser

variable {α : Type} {fuel n : Nat} {e : Expr} {es : List Expr} {ss : List Stmt}
  {statements : List String → Parser (List Stmt)} {expression : Parser Expr} {R : α → Prop} {x : Parser α}

/-- What holds of a parser's answer whatever the tokens are. -/
abbrev Gives (x : Parser α) (R : α → Prop) : Prop := Keeps (fun _ => True) x R

theorem gives_any : Gives x fun _ => True := fun _ _ _ _ _ => ⟨trivial, trivial⟩

theorem failAt_gives {line : Nat} {fault : Fault} : Gives (failAt line fault : Parser α) R := Keeps.throw

theorem fail_gives {fault : Fault} : Gives (fail fault : Parser α) R := gives_any.bind fun _ _ => failAt_gives

mutual

theorem reads_withUsage {usage : Usage} (hu : usage ≠ .load) (e : Expr) (h : assignable e) :
    (withUsage usage e).reads = [] :=
  match e with
  | .name .. => by simp [withUsage, Expr.reads, hu]
  | .tuple _ items => by
    rw [assignable] at h
    simpa [withUsage, Expr.reads] using readsAll_withUsage hu items h
  | .attrRef .. => by simp [withUsage, Expr.reads]
  | .const .. | .data .. | .list .. | .dict .. | .cond .. | .filter .. | .test .. | .call .. | .item .. | .attr ..
  | .slice .. | .concat .. | .compare .. | .binary .. | .unary .. | .safe .. | .context .. | .other .. => by
    simp [assignable] at h
termination_by structural e

theorem readsAll_withUsage {usage : Usage} (hu : usage ≠ .load) (es : List Expr) (h : assignableAll es) :
    readsAll (withUsageAll usage es) = [] :=
  match es with
  | [] => rfl
  | e :: es => by
    simp only [assignableAll, Bool.and_eq_true] at h
    simp [withUsageAll, readsAll, reads_withUsage hu e h.1, readsAll_withUsage hu es h.2]
termination_by structural es

end

theorem targets_gives {spaces : Bool} {usage : Usage} (hu : usage ≠ .load) :
    Gives (targets fuel spaces usage) fun e => e.reads = [] :=
  gives_any.bind fun e _ => Keeps.ite (fun h => Keeps.pure (reads_withUsage hu e h)) fun _ => failAt_gives

theorem parameters_gives {ps : List String} (h : es.length ≤ ps.length) :
    Gives (parameters fuel n ps es) fun r => r.2.length ≤ r.1.length := by
  have hparameter (es : List Expr) : Gives (parameter fuel es) fun r => r.2.length ≤ es.length + 1 := by
    refine gives_any.bind fun _ _ => gives_any.bind fun _ _ => Keeps.ite (fun _ => ?_) fun _ => ?_
    · exact gives_any.bind fun _ _ => Keeps.pure (by simp)
    · exact Keeps.ite (fun _ => Keeps.pure (by simp)) fun _ => fail_gives
  induction n generalizing ps es with
  | zero => exact Keeps.pure h
  | succ n ih =>
    refine gives_any.bind fun _ _ => Keeps.ite (fun _ => Keeps.pure h) fun _ => ?_
    refine Keeps.ite (fun _ => gives_any.bind fun _ _ => ?_) fun _ => ?_
    all_goals exact (hparameter es).bind fun r hr => ih (by simpa using Nat.le_trans hr (by omega))

theorem signature_gives : Gives (signature fuel) fun r => r.2.length ≤ r.1.length :=
  gives_any.bind fun _ _ => (parameters_gives (by simp)).bind fun _ hr => gives_any.bind fun _ _ => Keeps.pure hr

section Bodies

variable (hbodies : ∀ ends, Gives (statements ends) pairedBody)

include hbodies

theorem body_gives {ends : List String} : Gives (body statements ends) pairedBody := by
  refine gives_any.bind fun _ _ => gives_any.bind fun _ _ => gives_any.bind fun _ _ =>
    (hbodies ends).bind fun stmts hstmts => gives_any.bind fun _ _ => gives_any.bind fun l _ => ?_
  split
  · exact gives_any.bind fun _ _ => gives_any.bind fun _ _ => gives_any.bind fun _ _ => failAt_gives
  · exact Keeps.pure hstmts

theorem closedBody_gives {close : String} : Gives (closedBody statements close) pairedBody :=
  (body_gives hbodies).bind fun _ h => gives_any.bind fun _ _ => Keeps.pure h

theorem blockStmt_gives : Gives (blockStmt statements) Stmt.Paired := by
  refine gives_any.bind fun _ _ => gives_any.bind fun r _ => gives_any.bind fun _ _ =>
    gives_any.bind fun required _ =>
    gives_any.bind fun _ _ => Keeps.ite (fun _ => fail_gives) fun _ => ?_
  refine (closedBody_gives hbodies).bind fun stmts hstmts => Keeps.ite (fun _ => fail_gives) fun _ => ?_
  exact gives_any.bind fun _ _ => Keeps.pure hstmts

theorem forStmt_gives : Gives (forStmt fuel statements) Stmt.Paired := by
  refine gives_any.bind fun _ _ => (targets_gives (by decide)).bind fun target htarget => ?_
  refine gives_any.bind fun _ _ => gives_any.bind fun source _ => gives_any.bind fun _ _ =>
    Keeps.either (R := fun _ => True) (fun _ => gives_any) (fun _ => gives_any) fun test _ => ?_
  refine gives_any.bind fun _ _ => (body_gives hbodies).bind fun stmts hstmts => gives_any.bind fun _ _ => ?_
  exact Keeps.either (R := pairedBody) (fun _ => Keeps.pure trivial) (fun _ => closedBody_gives hbodies)
    fun otherwise hotherwise => Keeps.pure ⟨htarget, hstmts, hotherwise⟩

theorem ifTail_gives {bs : List Branch} (h : ∀ b ∈ bs, b.Paired) :
    Gives (ifTail fuel statements n bs) fun r => (∀ b ∈ r.1, b.Paired) ∧ pairedBody r.2 := by
  have hrev {bs : List Branch} (h : ∀ b ∈ bs, b.Paired) : ∀ b ∈ bs.reverse, b.Paired :=
    fun b hb => h b (List.mem_reverse.1 hb)
  induction n generalizing bs with
  | zero => exact Keeps.pure ⟨hrev h, trivial⟩
  | succ n ih =>
    refine gives_any.bind fun _ _ => Keeps.ite (fun _ => ?_) fun _ => Keeps.ite (fun _ => ?_) fun _ => ?_
    · exact gives_any.bind fun _ _ => gives_any.bind fun _ _ => (body_gives hbodies).bind fun stmts hstmts =>
        ih (List.forall_mem_cons.2 ⟨hstmts, h⟩)
    · exact (closedBody_gives hbodies).bind fun _ hstmts => Keeps.pure ⟨hrev h, hstmts⟩
    · exact Keeps.pure ⟨hrev h, trivial⟩

theorem ifStmt_gives : Gives (ifStmt fuel statements) Stmt.Paired :=
  gives_any.bind fun _ _ => gives_any.bind fun _ _ => (body_gives hbodies).bind fun _ hstmts =>
    (ifTail_gives hbodies (by simp)).bind fun _ hr => Keeps.pure ⟨hstmts, pairedBranches_iff.2 hr.1, hr.2⟩

theorem setStmt_gives : Gives (setStmt fuel statements) Stmt.Paired := by
  refine gives_any.bind fun _ _ => (targets_gives (by decide)).bind fun target htarget => gives_any.bind fun _ _ => ?_
  refine Keeps.ite (fun _ => gives_any.bind fun _ _ => Keeps.pure htarget) fun _ => ?_
  exact gives_any.bind fun _ _ => (closedBody_gives hbodies).bind fun _ hstmts => Keeps.pure ⟨htarget, hstmts⟩

theorem withStmt_gives : Gives (withStmt fuel statements) Stmt.Paired := by
  have hitems (n : Nat) {items : List (Expr × Expr)} (h : ∀ i ∈ items, i.1.reads = []) :
      Gives (withItems fuel n items) fun items => ∀ i ∈ items, i.1.reads = [] := by
    induction n generalizing items with
    | zero => exact Keeps.pure h
    | succ n ih =>
      refine gives_any.bind fun _ _ => Keeps.ite (fun _ => Keeps.pure h) fun _ => ?_
      refine Keeps.ite (fun _ => gives_any.bind fun _ _ => ?_) fun _ => ?_
      all_goals
        exact (targets_gives (by decide)).bind fun _ htarget => gives_any.bind fun _ _ => gives_any.bind fun _ _ =>
          ih (List.forall_mem_append.2 ⟨h, List.forall_mem_singleton.2 htarget⟩)
  refine gives_any.bind fun _ _ => (hitems fuel (by simp)).bind fun items hitems =>
    (closedBody_gives hbodies).bind fun _ hstmts => Keeps.pure ⟨?_, by simp, hstmts⟩
  rintro _ he
  obtain ⟨i, hi, rfl⟩ := List.mem_map.1 he
  exact hitems i hi

theorem callStmt_gives : Gives (callStmt fuel statements) Stmt.Paired := by
  refine gives_any.bind fun _ _ => gives_any.bind fun _ _ => Keeps.either (R := fun r => r.2.length ≤ r.1.length)
    (fun _ => signature_gives) (fun _ => Keeps.pure (by simp)) fun r hr => gives_any.bind fun call _ => ?_
  split
  · exact (closedBody_gives hbodies).bind fun _ hstmts => Keeps.pure ⟨hr, hstmts⟩
  · exact failAt_gives

omit hbodies in
theorem includeStmt_gives : Gives (includeStmt fuel) Stmt.Paired := by
  refine gives_any.bind fun t _ => gives_any.bind fun e _ => gives_any.bind fun _ _ => ?_
  have hlast (ignoreMissing : Bool) : Gives (do
      let context ← contextChoice
      return .include_ (some t.line) e (context.getD true) ignoreMissing) Stmt.Paired :=
    gives_any.bind fun _ _ => Keeps.pure trivial
  refine Keeps.ite (fun _ => gives_any.bind fun _ _ => Keeps.ite (fun _ => ?_) fun _ => hlast false)
    fun _ => hlast false
  exact gives_any.bind fun _ _ => gives_any.bind fun _ _ => hlast true

omit hbodies in
theorem translation_gives : Gives (translation fuel expression) pairedBody := by
  have hassigning (t : Translation) {output : Stmt} (ho : output.Paired) : pairedBody (t.assigning output) := by
    unfold Translation.assigning
    split
    · exact ⟨ho, trivial⟩
    · exact ⟨rfl, ho, trivial⟩
  refine gives_any.bind fun start _ => gives_any.bind fun _ _ => ?_
  split
  on_goal 1 => refine gives_any.bind fun _ _ => ?_
  all_goals
    refine (Keeps.pure trivial).bind (R := fun _ => True) fun context _ => gives_any.bind fun t _ =>
      gives_any.bind fun _ _ => gives_any.bind fun r _ => gives_any.bind fun _ _ => ?_
    refine Keeps.ite (fun _ => gives_any.bind fun s _ => ?_) fun _ => gives_any.bind fun _ _ => ?_
    · obtain ⟨text, names, counted⟩ := s
      cases counted with
      | none =>
        simp only [pure_bind]
        exact failAt_gives.bind (R := fun _ => False) fun _ h => h.elim
      | some e => exact Keeps.pure (hassigning _ trivial)
    · exact Keeps.pure (hassigning _ trivial)

omit hbodies in
theorem leafStmts_gives : Gives (extendsStmt fuel) Stmt.Paired ∧ Gives (printStmt fuel) Stmt.Paired ∧
    Gives (fromStmt fuel) Stmt.Paired ∧ Gives (importStmt fuel) Stmt.Paired ∧ Gives (doStmt fuel) Stmt.Paired ∧
    Gives debugStmt Stmt.Paired := by
  refine ⟨?_, ?_, ?_, ?_, ?_, ?_⟩
  · exact gives_any.bind fun _ _ => gives_any.bind fun _ _ => Keeps.pure trivial
  · exact gives_any.bind fun _ _ => gives_any.bind fun _ _ => Keeps.pure trivial
  · exact gives_any.bind fun _ _ => gives_any.bind fun _ _ => gives_any.bind fun _ _ =>
      gives_any.bind fun _ _ => Keeps.pure trivial
  · exact gives_any.bind fun _ _ => gives_any.bind fun _ _ => gives_any.bind fun _ _ =>
      gives_any.bind fun _ _ => gives_any.bind fun _ _ => Keeps.pure trivial
  · exact gives_any.bind fun _ _ => gives_any.bind fun _ _ => Keeps.pure trivial
  · exact gives_any.bind fun _ _ => Keeps.pure trivial

theorem macroStmt_gives : Gives (macroStmt fuel statements) Stmt.Paired :=
  gives_any.bind fun _ _ => gives_any.bind fun _ _ => signature_gives.bind fun _ hr =>
    (closedBody_gives hbodies).bind fun _ hstmts => Keeps.pure ⟨hr, hstmts⟩

theorem autoescapeStmt_gives : Gives (autoescapeStmt fuel statements) Stmt.Paired :=
  gives_any.bind fun _ _ => gives_any.bind fun _ _ => (closedBody_gives hbodies).bind fun _ hstmts =>
    Keeps.pure ⟨hstmts, trivial⟩

theorem filterStmt_gives : Gives (filterStmt fuel statements) Stmt.Paired :=
  gives_any.bind fun _ _ => gives_any.bind fun _ _ => gives_any.bind fun _ _ =>
    (closedBody_gives hbodies).bind fun _ hstmts => Keeps.pure hstmts

theorem tagStmt?_gives {dialect : Dialect} {tag : String} {x : Parser (List Stmt)}
    (h : tagStmt? fuel statements dialect tag = some x) : Gives x pairedBody := by
  have hone {y : Parser Stmt} (hy : Gives y Stmt.Paired) (h : some (do return [← y]) = some x) :
      Gives x pairedBody :=
    Option.some.inj h ▸ hy.bind fun _ h => Keeps.pure ⟨h, trivial⟩
  have hleaf (line : Int → Stmt) (hl : ∀ n, (line n).Paired) :
      Gives (do return line (← next).line : Parser Stmt) Stmt.Paired :=
    gives_any.bind fun _ _ => Keeps.pure (hl _)
  obtain ⟨hextends, hprint, hfrom, himport, hdo, hdebug⟩ := @leafStmts_gives fuel
  unfold tagStmt? at h
  split at h
  · exact hone (forStmt_gives hbodies) h
  · exact hone (ifStmt_gives hbodies) h
  · exact hone (blockStmt_gives hbodies) h
  · exact hone hextends h
  · exact hone hprint h
  · exact hone (macroStmt_gives hbodies) h
  · exact hone includeStmt_gives h
  · exact hone hfrom h
  · exact hone himport h
  · exact hone (setStmt_gives hbodies) h
  · exact hone (withStmt_gives hbodies) h
  · exact hone (autoescapeStmt_gives hbodies) h
  · exact hone (callStmt_gives hbodies) h
  · exact hone (filterStmt_gives hbodies) h
  · exact hone hdo h
  · exact hone (hleaf (fun n => .break_ (some n)) fun _ => trivial) h
  · exact hone (hleaf (fun n => .continue_ (some n)) fun _ => trivial) h
  · split at h
    · exact Option.some.inj h ▸ translation_gives
    · cases h
  · split at h
    · exact hone hdebug h
    · cases h
  · cases h

theorem statement_gives : Gives (statement fuel statements) pairedBody := by
  refine gives_any.bind fun t _ => ?_
  split
  · refine gives_any.bind fun _ _ => ?_
    split
    · exact gives_any.bind fun _ _ => gives_any.bind fun _ _ => failAt_gives
    · next x hx =>
      exact gives_any.bind fun _ _ => (tagStmt?_gives hbodies hx).bind fun _ h =>
        gives_any.bind fun _ _ => Keeps.pure h
  · exact failAt_gives

theorem items_gives {ends : List String} {pieces : List Expr} (hs : ∀ s ∈ ss, s.Paired) :
    Gives (items fuel statements ends n pieces ss) pairedBody := by
  have hdone {ss : List Stmt} (hs : ∀ s ∈ ss, s.Paired) : pairedBody ss.reverse :=
    pairedBody_iff.2 fun s h => hs s (List.mem_reverse.1 h)
  have hflush {ss : List Stmt} (pieces : List Expr) (hs : ∀ s ∈ ss, s.Paired) : ∀ s ∈ flush pieces ss, s.Paired := by
    unfold flush
    split
    · exact hs
    · exact List.forall_mem_cons.2 ⟨trivial, hs⟩
  induction n generalizing pieces ss with
  | zero => exact Keeps.pure (hdone (hflush _ hs))
  | succ n ih =>
    refine gives_any.bind fun t _ => ?_
    split
    · exact gives_any.bind fun _ _ => ih hs
    · exact gives_any.bind fun _ _ => gives_any.bind fun _ _ => gives_any.bind fun _ _ => ih hs
    · refine gives_any.bind fun _ _ => gives_any.bind fun _ _ => ?_
      refine Keeps.ite (fun _ => Keeps.pure (hdone (hflush _ hs))) fun _ => ?_
      refine (statement_gives hbodies).bind fun more hmore => gives_any.bind fun _ _ => ih ?_
      refine List.forall_mem_append.2 ⟨fun s h => ?_, hflush _ hs⟩
      exact pairedBody_iff.1 hmore s (List.mem_reverse.1 h)
    · exact Keeps.pure (hdone (hflush _ hs))

end Bodies

theorem statements_gives {ends : List String} : Gives (Parser.statements fuel ends) pairedBody := by
  induction fuel generalizing ends with
  | zero => exact Keeps.throw
  | succ fuel ih => exact items_gives (fun _ => ih) (by simp)

end Stencil.Template.Parser

namespace Stencil.Template

/-- What the parser gives pairs targets with values and defaults with parameters. -/
theorem Document.parse_paired {dialect : Dialect} {source : String} {d : Document}
    (h : Document.parse dialect source = .ok d) : pairedBody d.body := by
  unfold Document.parse at h
  cases hforced : Parser.forced 1 (TokenStream.ofSource source) with
  | error e => simp [hforced, Bind.bind, Except.bind] at h
  | ok r =>
    simp only [hforced, Bind.bind, Except.bind] at h
    split at h
    · cases h
    · next r hrun =>
      cases h
      exact (Parser.statements_gives trivial hrun).2

end Stencil.Template
