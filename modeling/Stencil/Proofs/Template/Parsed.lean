import Stencil.Proofs.Template.ParsedExpression
import Stencil.Template.StmtParser

/-!
Statements and whole templates are made of names that stand in them as tokens, and of a few that the
parser brings along.
-/
namespace Stencil.Template.Parser

variable {α β : Type} {p : String → Prop} {fuel n : Nat} {e : Expr} {es : List Expr} {s : String}
  {ss : List Stmt} {statements : List String → Parser (List Stmt)} {expression : Parser Expr}

/-- The names that the parser brings along. -/
structure Brought (p : String → Prop) : Prop where
  autoescape : p "autoescape"
  counter : p "_trans"
  gettext : ∀ plural contextual : Bool,
    p ((if plural then "n" else "") ++ (if contextual then "p" else "") ++ "gettext")

/-! ### Targets -/

mutual

theorem withUsage_worded {usage : Usage} {slices : Bool} (e : Expr) (h : e.Worded p slices) :
    (withUsage usage e).Worded p slices :=
  match e with
  | .name .. => h
  | .tuple _ items => withUsageAll_worded items h
  | .attrRef .. | .const .. | .data .. | .list .. | .dict .. | .cond .. | .filter .. | .test .. | .call ..
  | .item .. | .attr .. | .slice .. | .concat .. | .compare .. | .binary .. | .unary .. | .safe ..
  | .context .. | .other .. => h
termination_by structural e

theorem withUsageAll_worded {usage : Usage} {slices : Bool} (es : List Expr) (h : wordedAll p slices es) :
    wordedAll p slices (withUsageAll usage es) :=
  match es with
  | [] => trivial
  | e :: es => ⟨withUsage_worded e h.1, withUsageAll_worded es h.2⟩
termination_by structural es

end

theorem checkTarget_reads {usage : Usage} {line : Nat} (h : e.Worded p false) :
    Reads p (checkTarget usage line e) fun e => e.Worded p false :=
  Keeps.ite (fun _ => Keeps.pure (withUsage_worded e h)) fun _ => failAt_reads

theorem targetName_reads : Reads p targetName fun r => p r.2 :=
  expectName_reads.bind fun r hr => (checkTarget_reads (e := .name (some r.1) r.2 .store) hr).bind
    fun _ _ => Keeps.pure hr

theorem contextChoice_reads : Reads p contextChoice fun _ => True := by
  refine lexeme_reads.bind fun l _ => ?_
  dsimp only
  split
  · exact Keeps.pure trivial
  · exact look_reads.bind fun _ _ => Keeps.ite (fun _ => next_reads.bind fun _ _ =>
      next_reads.bind fun _ _ => Keeps.pure trivial) fun _ => Keeps.pure trivial

section Expressions

variable (hdotted : ∀ s, p s → Dotted p s)

include hdotted

theorem targets_reads {spaces : Bool} {usage : Usage} :
    Reads p (targets fuel spaces usage) fun e => e.Worded p false :=
  (tuple_reads (primary_reads (expression_reads hdotted fuel))).bind fun _ he => checkTarget_reads he

theorem parameter_reads (h : ∀ e ∈ es, e.Worded p false) :
    Reads p (parameter fuel es) fun r => p r.1 ∧ ∀ e ∈ r.2, e.Worded p false := by
  refine targetName_reads.bind fun r hr => skipIf_reads.bind fun _ _ => Keeps.ite (fun _ => ?_) fun _ => ?_
  · refine (expression_reads hdotted fuel).bind fun e he => Keeps.pure ⟨hr, ?_⟩
    exact List.forall_mem_append.2 ⟨h, List.forall_mem_singleton.2 he⟩
  · exact Keeps.ite (fun _ => Keeps.pure ⟨hr, h⟩) fun _ => fail_reads

theorem parameters_reads {ps : List String} (hp : ∀ s ∈ ps, p s) (h : ∀ e ∈ es, e.Worded p false) :
    Reads p (parameters fuel n ps es) fun r => (∀ s ∈ r.1, p s) ∧ ∀ e ∈ r.2, e.Worded p false := by
  induction n generalizing ps es with
  | zero => exact Keeps.pure ⟨hp, h⟩
  | succ n ih =>
    refine isOp_reads.bind fun _ _ => Keeps.ite (fun _ => Keeps.pure ⟨hp, h⟩) fun _ => ?_
    refine Keeps.ite (fun _ => expect_reads.bind fun _ _ => ?_) fun _ => ?_
    all_goals
      exact (parameter_reads hdotted h).bind fun r hr =>
        ih (List.forall_mem_append.2 ⟨hp, List.forall_mem_singleton.2 hr.1⟩) hr.2

theorem signature_reads :
    Reads p (signature fuel) fun r => (∀ s ∈ r.1, p s) ∧ ∀ e ∈ r.2, e.Worded p false :=
  expect_reads.bind fun _ _ => (parameters_reads hdotted (by simp) (by simp)).bind fun _ hr =>
    expect_reads.bind fun _ _ => Keeps.pure hr

end Expressions

/-! ### Bodies -/

/-- What of the state says nothing about the tokens may change. -/
theorem modify_reads {f : ParserState → ParserState} (h : ∀ s, (f s).current = s.current ∧ (f s).rest = s.rest) :
    Reads p (modify f) fun _ => True :=
  Keeps.modify fun s hs => by rwa [ParserState.Named, (h s).1, (h s).2]

theorem misplaced_reads {α : Type} {R : α → Prop} {line : Nat} {tag : Option String} {ends : List (List String)} :
    Reads p (misplaced line tag ends : Parser α) R :=
  Keeps.get.bind fun _ _ => failAt_reads

section Bodies

variable (hbodies : ∀ ends, Reads p (statements ends) (wordedBody p))

include hbodies

theorem body_reads {ends : List String} : Reads p (body statements ends) (wordedBody p) := by
  refine skipIf_reads.bind fun _ _ => expect_reads.bind fun _ _ => (modify_reads ?_).bind fun _ _ => ?_
  · exact fun _ => ⟨rfl, rfl⟩
  refine (hbodies ends).bind fun stmts hstmts => (modify_reads ?_).bind fun _ _ => ?_
  · exact fun _ => ⟨rfl, rfl⟩
  refine lexeme_reads.bind fun l _ => ?_
  split
  · exact line_reads.bind fun _ _ => Keeps.get.bind fun _ _ => misplaced_reads
  · exact Keeps.pure hstmts

theorem closedBody_reads {close : String} : Reads p (closedBody statements close) (wordedBody p) :=
  (body_reads hbodies).bind fun _ h => next_reads.bind fun _ _ => Keeps.pure h

theorem blockStmt_reads : Reads p (blockStmt statements) (Stmt.Worded p) := by
  refine next_reads.bind fun _ _ => expectName_reads.bind fun r hr => skipIf_reads.bind fun _ _ =>
    skipIf_reads.bind fun required _ => isOp_reads.bind fun _ _ => ?_
  refine Keeps.ite (fun _ => fail_reads) fun _ => ?_
  refine (closedBody_reads hbodies).bind fun stmts hstmts => ?_
  refine Keeps.ite (fun _ => fail_reads) fun _ => ?_
  exact skipIf_reads.bind fun _ _ => Keeps.pure ⟨hr, hstmts⟩

variable (hdotted : ∀ s, p s → Dotted p s)

include hdotted

theorem forStmt_reads : Reads p (forStmt fuel statements) (Stmt.Worded p) := by
  refine expect_reads.bind fun _ _ => (targets_reads hdotted).bind fun target htarget => ?_
  refine expect_reads.bind fun _ _ => (tuple_reads (plainExpression_reads hdotted fuel)).bind fun source hsource => ?_
  refine skipIf_reads.bind fun _ _ => Keeps.either (R := wordedOption p)
    (fun _ => (expression_reads hdotted fuel).map fun _ he => he) (fun _ => Keeps.pure trivial) fun test htest => ?_
  refine skipIf_reads.bind fun _ _ => (body_reads hbodies).bind fun stmts hstmts => next_reads.bind fun _ _ => ?_
  exact Keeps.either (R := wordedBody p) (fun _ => Keeps.pure trivial) (fun _ => closedBody_reads hbodies)
    fun otherwise hotherwise => Keeps.pure ⟨htarget, hsource, hstmts, hotherwise, htest⟩

theorem ifTail_reads {bs : List Branch} (h : ∀ b ∈ bs, b.Worded p) :
    Reads p (ifTail fuel statements n bs) fun r => (∀ b ∈ r.1, b.Worded p) ∧ wordedBody p r.2 := by
  have hrev {bs : List Branch} (h : ∀ b ∈ bs, b.Worded p) : ∀ b ∈ bs.reverse, b.Worded p :=
    fun b hb => h b (List.mem_reverse.1 hb)
  induction n generalizing bs with
  | zero => exact Keeps.pure ⟨hrev h, trivial⟩
  | succ n ih =>
    refine next_reads.bind fun _ _ => Keeps.ite (fun _ => ?_) fun _ => Keeps.ite (fun _ => ?_) fun _ => ?_
    · refine nodeLine_reads.bind fun _ _ => (tuple_reads (plainExpression_reads hdotted fuel)).bind
        fun test htest => (body_reads hbodies).bind fun stmts hstmts => ih ?_
      exact List.forall_mem_cons.2 ⟨⟨htest, hstmts⟩, h⟩
    · exact (closedBody_reads hbodies).bind fun _ hstmts => Keeps.pure ⟨hrev h, hstmts⟩
    · exact Keeps.pure ⟨hrev h, trivial⟩

theorem ifStmt_reads : Reads p (ifStmt fuel statements) (Stmt.Worded p) := by
  refine expect_reads.bind fun _ _ => (tuple_reads (plainExpression_reads hdotted fuel)).bind fun test htest => ?_
  refine (body_reads hbodies).bind fun stmts hstmts => (ifTail_reads hbodies hdotted (by simp)).bind fun r hr => ?_
  exact Keeps.pure ⟨htest, hstmts, wordedBranches_iff.2 hr.1, hr.2⟩

theorem setStmt_reads : Reads p (setStmt fuel statements) (Stmt.Worded p) := by
  refine next_reads.bind fun _ _ => (targets_reads hdotted).bind fun target htarget => skipIf_reads.bind fun _ _ => ?_
  refine Keeps.ite (fun _ => (expressions_reads hdotted fuel).bind fun _ hvalue => Keeps.pure ⟨htarget, hvalue⟩)
    fun _ => ?_
  exact (filters_reads (expression_reads hdotted fuel) hdotted fuel (show wordedOption p none from trivial)).bind
    fun _ hfilter => (closedBody_reads hbodies).bind fun _ hstmts => Keeps.pure ⟨htarget, hfilter, hstmts⟩

omit hbodies in
theorem withItems_reads {items : List (Expr × Expr)} (h : ∀ i ∈ items, i.1.Worded p false ∧ i.2.Worded p false) :
    Reads p (withItems fuel n items) fun items => ∀ i ∈ items, i.1.Worded p false ∧ i.2.Worded p false := by
  induction n generalizing items with
  | zero => exact Keeps.pure h
  | succ n ih =>
    refine lexeme_reads.bind fun _ _ => Keeps.ite (fun _ => Keeps.pure h) fun _ => ?_
    refine Keeps.ite (fun _ => expect_reads.bind fun _ _ => ?_) fun _ => ?_
    all_goals
      exact (targets_reads hdotted).bind fun _ htarget => expect_reads.bind fun _ _ =>
        (expression_reads hdotted fuel).bind fun _ hvalue =>
          ih (List.forall_mem_append.2 ⟨h, List.forall_mem_singleton.2 ⟨htarget, hvalue⟩⟩)

theorem withStmt_reads : Reads p (withStmt fuel statements) (Stmt.Worded p) := by
  refine next_reads.bind fun _ _ => (withItems_reads hdotted (by simp)).bind fun items hitems => ?_
  refine (closedBody_reads hbodies).bind fun _ hstmts => Keeps.pure
    ⟨wordedAll_iff.2 fun e he => ?_, wordedAll_iff.2 fun e he => ?_, hstmts⟩
  · obtain ⟨i, hi, rfl⟩ := List.mem_map.1 he
    exact (hitems i hi).1
  · obtain ⟨i, hi, rfl⟩ := List.mem_map.1 he
    exact (hitems i hi).2

theorem autoescapeStmt_reads (hname : p "autoescape") : Reads p (autoescapeStmt fuel statements) (Stmt.Worded p) :=
  next_reads.bind fun _ _ => (expression_reads hdotted fuel).bind fun _ hvalue =>
    (closedBody_reads hbodies).bind fun _ hstmts => Keeps.pure ⟨⟨⟨hname, hvalue, trivial⟩, hstmts⟩, trivial⟩

theorem callStmt_reads : Reads p (callStmt fuel statements) (Stmt.Worded p) := by
  refine next_reads.bind fun _ _ => isOp_reads.bind fun _ _ => Keeps.either
    (R := fun r => (∀ s ∈ r.1, p s) ∧ ∀ e ∈ r.2, e.Worded p false) (fun _ => signature_reads hdotted)
    (fun _ => Keeps.pure ⟨by simp, by simp⟩) fun r hr => (expression_reads hdotted fuel).bind fun call hcall => ?_
  split
  · exact (closedBody_reads hbodies).bind fun _ hstmts => Keeps.pure ⟨hcall, hr.1, wordedAll_iff.2 hr.2, hstmts⟩
  · exact failAt_reads

theorem filterStmt_reads : Reads p (filterStmt fuel statements) (Stmt.Worded p) := by
  refine next_reads.bind fun _ _ => (filterStep_reads (expression_reads hdotted fuel) hdotted
    (show wordedOption p none from trivial)).bind fun first hfirst => ?_
  refine (filters_reads (expression_reads hdotted fuel) hdotted fuel (show wordedOption p (some first) from hfirst)).bind
    fun filter hfilter => (closedBody_reads hbodies).bind fun _ hstmts => Keeps.pure ⟨hstmts, ?_⟩
  cases filter with
  | none => exact hfirst
  | some e => exact hfilter

theorem macroStmt_reads : Reads p (macroStmt fuel statements) (Stmt.Worded p) :=
  next_reads.bind fun _ _ => targetName_reads.bind fun _ hname => (signature_reads hdotted).bind fun _ hr =>
    (closedBody_reads hbodies).bind fun _ hstmts => Keeps.pure ⟨hname, hr.1, wordedAll_iff.2 hr.2, hstmts⟩

end Bodies

/-! ### Statements without bodies -/

theorem importContext_reads : Reads p importContext fun _ => True := by
  refine lexeme_reads.bind fun l _ => ?_
  dsimp only
  split
  · exact contextChoice_reads
  · exact look_reads.bind fun _ _ => Keeps.ite (fun _ => next_reads.bind fun _ _ =>
      next_reads.bind fun _ _ => Keeps.pure trivial) fun _ => Keeps.pure trivial

theorem importedName_reads : Reads p importedName fun r => p r.1 ∧ p r.2 := by
  refine targetName_reads.bind fun r hr => Keeps.ite (fun _ => failAt_reads) fun _ => ?_
  refine skipIf_reads.bind fun _ _ => Keeps.ite (fun _ => ?_) fun _ => Keeps.pure ⟨hr, hr⟩
  exact targetName_reads.bind fun _ htarget => Keeps.pure ⟨hr, htarget⟩

theorem importedNames_reads {names : List (String × String)} (h : ∀ m ∈ names, p m.1 ∧ p m.2) :
    Reads p (importedNames n names) fun r => ∀ m ∈ r.1, p m.1 ∧ p m.2 := by
  induction n generalizing names with
  | zero => exact Keeps.pure h
  | succ n ih =>
    refine Keeps.ite (fun _ => expect_reads.bind fun _ _ => ?_) fun _ => ?_
    all_goals
      refine lexeme_reads.bind fun _ _ => ?_
      split
      · refine contextChoice_reads.bind fun _ _ => ?_
        split
        · exact Keeps.pure h
        · refine importedName_reads.bind fun m hm => importContext_reads.bind fun _ _ => ?_
          have hall := List.forall_mem_append.2 ⟨h, List.forall_mem_singleton.2 hm⟩
          split
          · exact Keeps.pure hall
          · exact isOp_reads.bind fun _ _ => Keeps.ite (fun _ => ih hall) fun _ => Keeps.pure hall
      · exact refuse_reads

section Leaves

variable (hdotted : ∀ s, p s → Dotted p s)

include hdotted

theorem extendsStmt_reads : Reads p (extendsStmt fuel) (Stmt.Worded p) :=
  next_reads.bind fun _ _ => (expression_reads hdotted fuel).bind fun _ he => Keeps.pure he

theorem includeStmt_reads : Reads p (includeStmt fuel) (Stmt.Worded p) := by
  refine next_reads.bind fun t _ => (expression_reads hdotted fuel).bind fun e he => isName_reads.bind fun _ _ => ?_
  have hlast (ignoreMissing : Bool) : Reads p (do
      let context ← contextChoice
      return .include_ (some t.line) e (context.getD true) ignoreMissing) (Stmt.Worded p) :=
    contextChoice_reads.bind fun _ _ => Keeps.pure he
  refine Keeps.ite (fun _ => look_reads.bind fun _ _ => Keeps.ite (fun _ => ?_) fun _ => hlast false) fun _ => hlast false
  exact next_reads.bind fun _ _ => next_reads.bind fun _ _ => hlast true

theorem importStmt_reads : Reads p (importStmt fuel) (Stmt.Worded p) :=
  next_reads.bind fun _ _ => (expression_reads hdotted fuel).bind fun _ he => expect_reads.bind fun _ _ =>
    targetName_reads.bind fun _ htarget => contextChoice_reads.bind fun _ _ => Keeps.pure ⟨he, htarget⟩

theorem fromStmt_reads : Reads p (fromStmt fuel) (Stmt.Worded p) :=
  next_reads.bind fun _ _ => (expression_reads hdotted fuel).bind fun _ he => expect_reads.bind fun _ _ =>
    (importedNames_reads (by simp)).bind fun _ hnames => Keeps.pure ⟨he, hnames⟩

theorem printItems_reads (h : ∀ e ∈ es, e.Worded p false) :
    Reads p (printItems fuel n es) fun es => ∀ e ∈ es, e.Worded p false := by
  induction n generalizing es with
  | zero => exact Keeps.pure h
  | succ n ih =>
    refine lexeme_reads.bind fun _ _ => Keeps.ite (fun _ => Keeps.pure h) fun _ => ?_
    refine Keeps.ite (fun _ => expect_reads.bind fun _ _ => ?_) fun _ => ?_
    all_goals
      exact (expression_reads hdotted fuel).bind fun _ he =>
        ih (List.forall_mem_append.2 ⟨h, List.forall_mem_singleton.2 he⟩)

theorem printStmt_reads : Reads p (printStmt fuel) (Stmt.Worded p) :=
  next_reads.bind fun _ _ => (printItems_reads hdotted (by simp)).bind fun _ h =>
    Keeps.pure (wordedAll_iff.2 h)

theorem doStmt_reads : Reads p (doStmt fuel) (Stmt.Worded p) :=
  next_reads.bind fun _ _ => (expressions_reads hdotted fuel).bind fun _ he => Keeps.pure he

end Leaves

theorem debugStmt_reads : Reads p debugStmt (Stmt.Worded p) :=
  next_reads.bind fun _ _ => Keeps.pure ⟨⟨trivial, ⟨trivial, trivial⟩, trivial, trivial, trivial⟩, trivial⟩

/-! ### Translations -/

/-- All names in the values of a translation satisfy `p`. -/
structure Translation.Worded (p : String → Prop) (t : Translation) : Prop where
  bindings : ∀ b ∈ t.bindings, b.2.Worded p false
  plural : wordedOption p t.plural
  assigned : wordedOption p t.assigned

namespace Translation.Worded

variable {t : Translation} {line : Line}

theorem bind (h : t.Worded p) (hb : Brought p) {name : String} {value : Expr} (hv : value.Worded p false) :
    (t.bind line name value).Worded p := by
  have hadd (e : Expr) (he : e.Worded p false) : ∀ b ∈ t.bindings ++ [(name, e)], b.2.Worded p false :=
    List.forall_mem_append.2 ⟨h.bindings, List.forall_mem_singleton.2 he⟩
  unfold Translation.bind
  split
  · exact ⟨hadd _ hb.counter, hb.counter, hv⟩
  · exact ⟨hadd _ hv, hv, h.assigned⟩
  · exact ⟨hadd _ hv, h.plural, h.assigned⟩

theorem bindFree (h : t.Worded p) {names : List String} (hn : ∀ s ∈ names, p s) :
    (t.bindFree line names).Worded p := by
  unfold Translation.bindFree
  induction names generalizing t with
  | nil => exact h
  | cons name names ih =>
    rw [List.forall_mem_cons] at hn
    rw [List.foldl_cons]
    refine ih ?_ hn.2
    split
    · exact h
    · exact ⟨List.forall_mem_append.2 ⟨h.bindings, List.forall_mem_singleton.2 hn.1⟩, h.plural, h.assigned⟩

theorem countFirst (h : t.Worded p) {names : List String} (hn : ∀ s ∈ names, p s) :
    (t.countFirst line names).Worded p := by
  unfold Translation.countFirst
  split
  · exact ⟨h.bindings, hn _ (by simp), h.assigned⟩
  · exact h

theorem assigning (h : t.Worded p) (hb : Brought p) {output : Stmt} (ho : output.Worded p) :
    wordedBody p (t.assigning output) := by
  unfold Translation.assigning
  split
  · exact ⟨ho, trivial⟩
  · next e he => exact ⟨⟨hb.counter, (he ▸ h.assigned : wordedOption p (some e))⟩, ho, trivial⟩

end Translation.Worded

section Translations

variable {line : Line} {t : Translation} (hb : Brought p)

include hb

theorem translationItem_reads (he : Reads p expression fun e => e.Worded p false) (h : t.Worded p) :
    Reads p (translationItem line expression t) (Translation.Worded p) := by
  refine expectName_reads.bind fun r hr => Keeps.ite (fun _ => failAt_reads) fun _ => ?_
  refine skipIf_reads.bind fun _ _ => Keeps.ite (fun _ => ?_) fun _ => Keeps.ite (fun _ => ?_) fun _ => ?_
  · exact he.bind fun _ he => Keeps.pure (h.bind hb he)
  · exact Keeps.pure ⟨h.bindings, h.plural, h.assigned⟩
  · exact Keeps.pure (h.bind hb hr)

theorem translationItems_reads (he : Reads p expression fun e => e.Worded p false) (h : t.Worded p) :
    Reads p (translationItems line expression n t) (Translation.Worded p) := by
  induction n generalizing t with
  | zero => exact Keeps.pure h
  | succ n ih =>
    refine lexeme_reads.bind fun _ _ => Keeps.ite (fun _ => Keeps.pure h) fun _ => ?_
    refine Keeps.ite (fun _ => expect_reads.bind fun _ _ => ?_) fun _ => ?_
    all_goals
      exact skipIf_reads.bind fun _ _ => Keeps.ite (fun _ => Keeps.pure h) fun _ =>
        (translationItem_reads hb he h).bind fun _ h => ih h

omit hb in
theorem translationText_reads {singular : Bool} :
    Reads p (translationText singular n) fun r => ∀ s ∈ r.2, p s := by
  induction n with
  | zero => exact Keeps.pure (by simp)
  | succ n ih =>
    refine lexeme_reads.bind fun _ _ => ?_
    split
    · exact next_reads.bind fun _ _ => ih.bind fun _ h => Keeps.pure h
    · exact next_reads.bind fun _ _ => expectName_reads.bind fun _ hr => expect_reads.bind fun _ _ =>
        ih.bind fun _ h => Keeps.pure (List.forall_mem_cons.2 ⟨hr, h⟩)
    · refine next_reads.bind fun _ _ => lexeme_reads.bind fun _ _ => ?_
      split
      · exact Keeps.pure (by simp)
      · exact Keeps.ite (fun _ => Keeps.pure (by simp)) fun _ => fail_reads
      all_goals exact fail_reads
    · exact fail_reads

omit hb in
theorem pluralPart_reads (h : t.Worded p) :
    Reads p (pluralPart fuel t) fun r => (∀ s ∈ r.2.1, p s) ∧ wordedOption p r.2.2 := by
  have hrest (counted : Option Expr) (hc : wordedOption p counted) : Reads p (do
      let _ ← expectBlockEnd
      let r ← translationText false fuel
      let _ ← next
      return (r.1, r.2, counted)) fun r => (∀ s ∈ r.2.1, p s) ∧ wordedOption p r.2.2 :=
    expect_reads.bind fun _ _ => translationText_reads.bind fun _ hnames =>
      next_reads.bind fun _ _ => Keeps.pure ⟨hnames, hc⟩
  refine lexeme_reads.bind fun _ _ => Keeps.ite (fun _ => hrest _ h.plural) fun _ => ?_
  refine expectName_reads.bind fun r _ => ?_
  obtain ⟨line, name⟩ := r
  dsimp only
  split
  · exact failAt_reads.bind (R := fun _ => False) fun _ h => h.elim
  · next e hlookup =>
    obtain ⟨l, r, hbindings, -⟩ := List.lookup_eq_some_iff.1 hlookup
    exact hrest _ (h.bindings (name, e) (by simp [hbindings]))

theorem translationCall_worded {context : Option Text.Points} {singular : List Char}
    {plural : Option (List Char × Expr)} {bindings : List (String × Expr)} {referenced : Bool}
    (hp : ∀ r ∈ plural, r.2.Worded p false) (hbindings : ∀ b ∈ bindings, b.2.Worded p false) :
    (translationCall line context singular plural bindings referenced).Worded p := by
  have hcall {args : List Expr} (hargs : ∀ e ∈ args, e.Worded p false) :
      (Expr.safe line (.call line (.name line ((if plural.isSome then "n" else "") ++
        (if context.isSome then "p" else "") ++ "gettext") .load) args [] none none)).Worded p false :=
    ⟨hb.gettext _ _, wordedAll_iff.2 hargs, trivial, trivial, trivial⟩
  have hdict (f : String → List Char) : (Expr.dict line (bindings.map fun b => (textConst line (f b.1), b.2))).Worded p false := by
    refine wordedPairs_iff.2 fun e he => ?_
    obtain ⟨b, hb, rfl⟩ := List.mem_map.1 he
    exact ⟨trivial, hbindings b hb⟩
  have hconst (value : Const) : (Expr.const line value).Worded p false := trivial
  unfold translationCall
  refine ⟨?_, trivial⟩
  cases context <;> cases plural
  all_goals
    dsimp only
    split
    · exact hcall (by simp_all [textConst])
    · exact ⟨hcall (by simp_all [textConst]), hdict _⟩

theorem section_worded (h : t.Worded p) {names : List String} (hn : ∀ s ∈ names, p s) {context : Option Text.Points}
    {singular : List Char} {plural : Option (List Char × Expr)} {referenced : Bool}
    (hp : ∀ r ∈ plural, r.2.Worded p false) :
    wordedBody p ((t.bindFree line names).assigning
      (translationCall line context singular plural (t.bindFree line names).bindings referenced)) :=
  have hfree := h.bindFree hn
  hfree.assigning hb (translationCall_worded hb hp hfree.bindings)

theorem translation_reads (he : Reads p expression fun e => e.Worded p false) :
    Reads p (translation fuel expression) (wordedBody p) := by
  have hstart : Translation.Worded p ⟨[], none, none, none⟩ := ⟨by simp, trivial, trivial⟩
  refine next_reads.bind fun start _ => lexeme_reads.bind fun _ _ => ?_
  split
  on_goal 1 => refine next_reads.bind fun _ _ => ?_
  all_goals
    refine (Keeps.pure trivial).bind (R := fun _ => True) fun context _ => ?_
    refine (translationItems_reads hb he hstart).bind fun t ht => expect_reads.bind fun _ _ => ?_
    refine translationText_reads.bind fun r hr => skipIf_reads.bind fun _ _ => ?_
    replace ht : (t.countFirst (some (start.line : Int)) r.2).Worded p := ht.countFirst hr
    refine Keeps.ite (fun _ => (pluralPart_reads ht).bind fun s hs => ?_) fun _ => next_reads.bind fun _ _ => ?_
    · obtain ⟨text, names, counted⟩ := s
      have hnames := List.forall_mem_append.2 ⟨hr, hs.1⟩
      cases counted with
      | none =>
        simp only [pure_bind]
        exact failAt_reads.bind (R := fun _ => False) fun _ h => h.elim
      | some e => exact Keeps.pure (section_worded hb ht hnames fun _ h => Option.some.inj h ▸ hs.2)
    · exact Keeps.pure (section_worded hb ht (by simpa using hr) (by simp))

end Translations

/-! ### Whole templates -/

section Whole

theorem flush_worded {pieces : List Expr} (hp : ∀ e ∈ pieces, e.Worded p false) (hs : ∀ s ∈ ss, s.Worded p) :
    ∀ s ∈ flush pieces ss, s.Worded p := by
  unfold flush
  split
  · exact hs
  · next e es hpieces =>
    refine List.forall_mem_cons.2 ⟨wordedAll_iff.2 fun f hf => hp f ?_, hs⟩
    rw [← List.mem_reverse, hpieces]
    exact hf

variable (hdotted : ∀ s, p s → Dotted p s) (hb : Brought p) (hbodies : ∀ ends, Reads p (statements ends) (wordedBody p))

include hdotted hb hbodies

theorem tagStmt?_reads {dialect : Dialect} {tag : String} {x : Parser (List Stmt)}
    (h : tagStmt? fuel statements dialect tag = some x) : Reads p x (wordedBody p) := by
  have hone {y : Parser Stmt} (hy : Reads p y (Stmt.Worded p))
      (h : some (do return [← y]) = some x) : Reads p x (wordedBody p) :=
    Option.some.inj h ▸ hy.bind fun _ h => Keeps.pure ⟨h, trivial⟩
  unfold tagStmt? at h
  split at h
  · exact hone (forStmt_reads hbodies hdotted) h
  · exact hone (ifStmt_reads hbodies hdotted) h
  · exact hone (blockStmt_reads hbodies) h
  · exact hone (extendsStmt_reads hdotted) h
  · exact hone (printStmt_reads hdotted) h
  · exact hone (macroStmt_reads hbodies hdotted) h
  · exact hone (includeStmt_reads hdotted) h
  · exact hone (fromStmt_reads hdotted) h
  · exact hone (importStmt_reads hdotted) h
  · exact hone (setStmt_reads hbodies hdotted) h
  · exact hone (withStmt_reads hbodies hdotted) h
  · exact hone (autoescapeStmt_reads hbodies hdotted hb.autoescape) h
  · exact hone (callStmt_reads hbodies hdotted) h
  · exact hone (filterStmt_reads hbodies hdotted) h
  · exact hone (doStmt_reads hdotted) h
  · exact hone (next_reads.bind fun _ _ => Keeps.pure (by trivial)) h
  · exact hone (next_reads.bind fun _ _ => Keeps.pure (by trivial)) h
  · split at h
    · exact Option.some.inj h ▸ translation_reads hb (expression_reads hdotted fuel)
    · cases h
  · split at h
    · exact hone debugStmt_reads h
    · cases h
  · cases h

theorem statement_reads : Reads p (statement fuel statements) (wordedBody p) := by
  refine current_reads.bind fun t _ => ?_
  split
  · refine Keeps.get.bind fun _ _ => ?_
    split
    · exact Keeps.get.bind fun _ _ => misplaced_reads
    · next x hx =>
      refine (modify_reads ?_).bind fun _ _ => (tagStmt?_reads hdotted hb hbodies hx).bind fun _ h =>
        (modify_reads ?_).bind fun _ _ => Keeps.pure h
      · exact fun _ => ⟨rfl, rfl⟩
      · exact fun _ => ⟨rfl, rfl⟩
  · exact failAt_reads

theorem items_reads {ends : List String} {pieces : List Expr} (hp : ∀ e ∈ pieces, e.Worded p false)
    (hs : ∀ s ∈ ss, s.Worded p) : Reads p (items fuel statements ends n pieces ss) (wordedBody p) := by
  have hdone {ss : List Stmt} (hs : ∀ s ∈ ss, s.Worded p) : wordedBody p ss.reverse :=
    wordedBody_iff.2 fun s h => hs s (List.mem_reverse.1 h)
  induction n generalizing pieces ss with
  | zero => exact Keeps.pure (hdone (flush_worded hp hs))
  | succ n ih =>
    refine current_reads.bind fun t _ => ?_
    split
    · exact next_reads.bind fun _ _ => ih (List.forall_mem_cons.2 ⟨trivial, hp⟩) hs
    · exact next_reads.bind fun _ _ => (expressions_reads hdotted fuel).bind fun _ he =>
        expect_reads.bind fun _ _ => ih (List.forall_mem_cons.2 ⟨he, hp⟩) hs
    · refine next_reads.bind fun _ _ => lexeme_reads.bind fun _ _ => ?_
      have hflush := flush_worded hp hs
      refine Keeps.ite (fun _ => Keeps.pure (hdone hflush)) fun _ => ?_
      refine (statement_reads hdotted hb hbodies).bind fun more hmore => expect_reads.bind fun _ _ => ih (by simp) ?_
      refine List.forall_mem_append.2 ⟨fun s h => ?_, hflush⟩
      exact wordedBody_iff.1 hmore s (List.mem_reverse.1 h)
    · exact Keeps.pure (hdone (flush_worded hp hs))

omit hbodies in
theorem statements_reads {ends : List String} : Reads p (Parser.statements fuel ends) (wordedBody p) := by
  induction fuel generalizing ends with
  | zero => exact Keeps.throw
  | succ fuel ih => exact items_reads hdotted hb (fun _ => ih) (by simp) (by simp)

end Whole

end Stencil.Template.Parser

namespace Stencil.Template

variable {p : String → Prop} {dialect : Dialect} {source : String} {d : Document}

/-- The names in a template are names in its tokens, and names that the parser brings along. -/
theorem Document.parse_worded (hdotted : ∀ s, p s → Dotted p s) (hb : Parser.Brought p)
    (hnamed : (TokenStream.ofSource source).Named p) (h : Document.parse dialect source = .ok d) :
    wordedBody p d.body := by
  unfold Document.parse at h
  cases hforced : Parser.forced 1 (TokenStream.ofSource source) with
  | error e => simp [hforced, Bind.bind, Except.bind] at h
  | ok r =>
    simp only [hforced, Bind.bind, Except.bind] at h
    split at h
    · cases h
    · next r hrun =>
      cases h
      exact (Parser.statements_reads hdotted hb (Parser.named_forced hnamed hforced) hrun).2

end Stencil.Template
