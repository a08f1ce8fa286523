import Stencil.Compile.Unit
import Stencil.Proofs.Keeps

/-! What a translation keeps true of its builder: a unit uses what the references lead to. -/
namespace Stencil.Compile

open Template

variable {α β : Type} {P : Builder → Prop} {R : α → Prop} {Q : β → Prop} {x : Build α}

namespace Keeps

theorem stopAt {obstacle : Obstacle} {line : Line} : Keeps P (stopAt obstacle line : Build α) R :=
  Keeps.throw

theorem stops {obstacle : Obstacle} {line : Line} {f : α → Build β} :
    Keeps P (Compile.stopAt obstacle line >>= f) Q :=
  Keeps.stopAt.bind fun _ (hfalse : False) => hfalse.elim

theorem ofResult {r : Result α} (h : ∀ a, r = .ok a → R a) : Keeps P (ofResult r) R := by
  cases r with
  | error e => exact stopAt
  | ok a => exact Keeps.pure (h a rfl)

/-- Results of other translations have nothing to do with the builder. -/
theorem after {r : Result α} {f : α → Build β} (h : ∀ a, Keeps P (f a) Q) :
    Keeps P (Compile.ofResult r >>= f) Q :=
  (ofResult fun _ _ => trivial).bind fun a (_ : True) => h a

end Keeps

variable {u : Setting} {scope : Scope} {S : Path → Prop} {names : TemplateNames} {line : Line}

theorem firstFound_mem {find : Text.Points → Except Miss Path} {p : Path}
    (h : firstFound find names = .ok (some p)) : ∃ n ∈ names, find n = .ok p := by
  induction names with
  | nil => cases h
  | cons n names ih =>
    unfold firstFound at h
    cases hn : find n with
    | ok q =>
      simp only [hn, Except.ok.injEq, Option.some.injEq] at h
      exact ⟨n, List.mem_cons_self, h ▸ hn⟩
    | error e =>
      cases e with
      | undecodable => simp [hn] at h
      | unresolved v =>
        simp only [hn] at h
        obtain ⟨m, hm, hp⟩ := ih h
        exact ⟨m, List.mem_cons_of_mem n hm, hp⟩

/-- All that the names of these references lead to satisfies `S`. -/
def LeadInto (find : Text.Points → Except Miss Path) (S : Path → Prop) (rs : List Reference) :
    Prop :=
  ∀ r ∈ rs, ∀ n ∈ r.names.getD [], ∀ p, find n = .ok p → S p

theorem LeadInto.append {find : Text.Points → Except Miss Path} {rs rs' : List Reference} :
    LeadInto find S (rs ++ rs') ↔ LeadInto find S rs ∧ LeadInto find S rs' := by
  simp only [LeadInto, List.mem_append, or_imp, forall_and]

theorem LeadInto.single {find : Text.Points → Except Miss Path} {r : Reference}
    (h : LeadInto find S [r]) (hnames : r.names = some names) :
    ∀ n ∈ names, ∀ p, find n = .ok p → S p := by
  intro n hn
  exact h r (List.mem_singleton_self r) n (by rw [hnames]; exact hn)

/-- The templates found so far satisfy `S`. -/
def Within (S : Path → Prop) (b : Builder) : Prop :=
  (∀ p ∈ b.parent, S p) ∧ ∀ p ∈ b.includes, S p

theorem within_freshNumber : Keeps (Within S) freshNumber fun _ => True := by
  refine Keeps.get.bind fun b hb => Keeps.bind (Keeps.set ?_) fun _ _ => Keeps.pure trivial
  exact hb

theorem keeps_resolve {ignoreMissing : Bool} (h : ∀ n ∈ names, ∀ p, u.find n = .ok p → S p) :
    Keeps P (resolve u names ignoreMissing line) fun found => ∀ p ∈ found, S p := by
  refine (Keeps.lift (R := fun found => ∀ p ∈ found, S p) fun found hfound p hp => ?_).bind
    fun found hfound => ?_
  · obtain rfl := hp
    obtain ⟨n, hn, hp⟩ := firstFound_mem hfound
    exact h n hn p hp
  · cases found with
    | some p => exact Keeps.pure hfound
    | none => exact Keeps.ite (fun _ => Keeps.pure hfound) fun _ => Keeps.stopAt

theorem within_openBlock {name : String} : Keeps (Within S) (openBlock name line) fun _ => True := by
  refine Keeps.get.bind fun b hb => Keeps.ite (fun _ => Keeps.stops) fun _ => Keeps.set ?_
  exact hb

theorem within_closeBlock {name : String} {ls : Lines} :
    Keeps (Within S) (closeBlock name ls) fun _ => True :=
  Keeps.modify fun _ hb => hb

theorem within_extendsLine {template : Expr}
    (h : LeadInto u.find S [⟨.extends_, line, template.templateNames?, false⟩]) :
    Keeps (Within S) (extendsLine u scope template line) fun _ => True := by
  refine Keeps.ite (fun _ => Keeps.stops) fun _ => Keeps.get.bind fun b _ =>
    Keeps.ite (fun _ => Keeps.stops) fun _ => ?_
  cases hnames : template.templateNames? with
  | none => exact Keeps.stopAt
  | some names =>
    refine (keeps_resolve (h.single hnames)).bind fun found hfound => ?_
    cases found with
    | none => exact Keeps.stopAt
    | some parent =>
      refine (Keeps.modify fun b hb => ?_).bind fun _ _ => Keeps.pure trivial
      exact ⟨hfound, hb.2⟩

theorem within_includeLine {template : Expr} {ignoreMissing : Bool}
    (h : LeadInto u.find S [⟨.include_, line, template.templateNames?, ignoreMissing⟩]) :
    Keeps (Within S) (includeLine u scope template ignoreMissing line) fun _ => True := by
  unfold includeLine
  cases hnames : template.templateNames? with
  | none => exact Keeps.after fun _ => Keeps.pure trivial
  | some names =>
    refine (keeps_resolve (h.single hnames)).bind fun found hfound => ?_
    cases found with
    | none => exact Keeps.pure trivial
    | some included =>
      refine (Keeps.modify fun b hb => ⟨hb.1, fun p hp => ?_⟩).bind fun _ _ => Keeps.pure trivial
      rcases List.mem_append.1 hp with hp | hp
      · exact hb.2 p hp
      · exact hfound p (by simpa using (List.mem_singleton.1 hp).symm)

theorem within_outputLines (nodes : List Expr) :
    Keeps (Within S) (outputLines u scope nodes) fun _ => True := by
  induction nodes with
  | nil => exact Keeps.pure trivial
  | cons e es ih =>
    have hline : Keeps (Within S) (outputLine u scope e) fun _ => True := by
      cases e
      case data line text => exact Keeps.ite (fun _ => Keeps.pure trivial) fun _ => Keeps.pure trivial
      all_goals exact Keeps.after fun _ => Keeps.pure trivial
    exact hline.bind fun _ _ => ih.bind fun _ _ => Keeps.pure trivial

theorem keeps_loopTarget (e : Expr) : Keeps P (loopTarget e) fun _ => True :=
  Keeps.after fun _ => by cases e <;> exact Keeps.pure trivial

theorem within_loopTest (test : Option Expr) :
    Keeps (Within S) (loopTest u scope line test) fun _ => True := by
  cases test with
  | none => exact Keeps.pure trivial
  | some e => exact Keeps.after fun _ => Keeps.pure trivial

theorem keeps_captured {buffer : String} (filter : Option Expr) :
    Keeps P (captured scope buffer filter) fun _ => True := by
  cases filter with
  | none => exact Keeps.pure trivial
  | some e => exact Keeps.ofResult fun _ _ => trivial

theorem within_assignments (pairs : List (Expr × Expr)) :
    Keeps (Within S) (assignments u scope line pairs) fun _ => True := by
  induction pairs with
  | nil => exact Keeps.pure trivial
  | cons pair pairs ih =>
    exact Keeps.after fun _ => Keeps.after fun _ => ih.bind fun _ _ => Keeps.pure trivial

mutual

/-- A statement finds what its references lead to. -/
theorem within_statement (u : Setting) (scope : Scope) (s : Stmt)
    (h : LeadInto u.find S s.references) :
    Keeps (Within S) (statement u scope s) fun _ => True := by
  cases s with
  | output line nodes => exact within_outputLines nodes
  | extends_ line template => exact within_extendsLine h
  | for_ line target source body otherwise test isRecursive =>
    obtain ⟨hbody, hotherwise⟩ := LeadInto.append.1 h
    refine Keeps.after fun _ => (keeps_loopTarget target).bind fun _ _ =>
      (within_loopTest test).bind fun _ _ =>
      (within_statements u _ body hbody).bind fun _ _ => ?_
    refine Keeps.ite (fun _ => Keeps.pure trivial) fun _ => ?_
    exact (within_statements u _ otherwise hotherwise).bind fun _ _ => Keeps.pure trivial
  | if_ line test body branches otherwise =>
    obtain ⟨hfirst, hotherwise⟩ := LeadInto.append.1 h
    obtain ⟨hbody, hbranches⟩ := LeadInto.append.1 hfirst
    refine Keeps.after fun _ => (within_statements u _ body hbody).bind fun _ _ =>
      (within_elifs u scope branches hbranches).bind fun _ _ =>
      (within_statements u _ otherwise hotherwise).bind fun _ _ => ?_
    cases otherwise <;> exact Keeps.pure trivial
  | macro_ line id params defaults body =>
    exact Keeps.after fun _ => (within_statements u _ body h).bind fun _ _ => Keeps.pure trivial
  | callBlock line call params defaults body =>
    exact within_freshNumber.bind fun _ _ => Keeps.after fun _ =>
      (within_statements u _ body h).bind fun _ _ => Keeps.after fun _ => Keeps.pure trivial
  | filterBlock line body filter =>
    exact within_freshNumber.bind fun _ _ => (keeps_captured _).bind fun _ _ =>
      (within_statements u _ body h).bind fun _ _ => Keeps.pure trivial
  | with_ line targets values body =>
    exact (within_assignments _).bind fun _ _ =>
      (within_statements u scope body h).bind fun _ _ => Keeps.pure trivial
  | block line id body isScoped required =>
    exact within_openBlock.bind fun _ _ => (within_statements u _ body h).bind fun _ _ =>
      within_closeBlock.bind fun _ _ => Keeps.pure trivial
  | include_ line template withContext ignoreMissing => exact within_includeLine h
  | import_ line template target withContext => exact Keeps.after fun _ => Keeps.pure trivial
  | fromImport line template names withContext => exact Keeps.after fun _ => Keeps.pure trivial
  | exprStmt line value => exact Keeps.after fun _ => Keeps.pure trivial
  | assign line target value => exact within_assignments _
  | assignBlock line target filter body =>
    exact within_freshNumber.bind fun _ _ => (keeps_captured filter).bind fun _ _ =>
      Keeps.after fun _ => (within_statements u _ body h).bind fun _ _ => Keeps.pure trivial
  | scope line body | scopedOptions line options body => exact within_statements u scope body h
  | options | continue_ | break_ => exact Keeps.pure trivial
  | other line kind => exact Keeps.stopAt
termination_by structural s

theorem within_statements (u : Setting) (scope : Scope) (ss : List Stmt)
    (h : LeadInto u.find S (referencesAll ss)) :
    Keeps (Within S) (statements u scope ss) fun _ => True := by
  cases ss with
  | nil => exact Keeps.pure trivial
  | cons s ss =>
    obtain ⟨hs, hss⟩ := LeadInto.append.1 h
    exact (within_statement u scope s hs).bind fun _ _ =>
      (within_statements u scope ss hss).bind fun _ _ => Keeps.pure trivial
termination_by structural ss

theorem within_elifs (u : Setting) (scope : Scope) (bs : List Branch)
    (h : LeadInto u.find S (branchReferences bs)) :
    Keeps (Within S) (elifs u scope bs) fun _ => True := by
  cases bs with
  | nil => exact Keeps.pure trivial
  | cons b bs =>
    obtain ⟨hb, hbs⟩ := LeadInto.append.1 h
    exact (within_elif u scope b hb).bind fun _ _ =>
      (within_elifs u scope bs hbs).bind fun _ _ => Keeps.pure trivial
termination_by structural bs

theorem within_elif (u : Setting) (scope : Scope) (b : Branch)
    (h : LeadInto u.find S b.references) : Keeps (Within S) (elif u scope b) fun _ => True := by
  cases b with
  | mk line test body =>
    exact Keeps.after fun _ => (within_statements u _ body h).bind fun _ _ => Keeps.pure trivial
termination_by structural b

end

/-- A unit uses only templates that the names of its document lead to. -/
theorem ofDocument_within {template directory : Path} {find : Text.Points → Except Miss Path}
    {d : Document} {unit : CompiledUnit} (h : ofDocument template directory find d = .ok unit) :
    ∀ p, unit.parent = some p ∨ p ∈ unit.includes → ∃ n ∈ d.names, find n = .ok p := by
  unfold ofDocument at h
  have hkeeps : Keeps (Within fun p => ∃ n ∈ d.names, find n = .ok p)
      (statements ⟨template, find⟩ Scope.top d.body) fun _ => True :=
    within_statements _ _ _ fun r hr n hn p hp => ⟨n, List.mem_flatMap.2 ⟨r, hr, hn⟩, hp⟩
  have hempty : Within (fun p => ∃ n ∈ d.names, find n = .ok p) Builder.empty :=
    ⟨fun p hp => by simp [Builder.empty] at hp, fun p hp => by simp [Builder.empty] at hp⟩
  split at h
  · next body b hrun =>
    obtain ⟨hb, -⟩ := hkeeps hempty hrun
    cases h
    rintro p (hp | hp)
    · exact hb.1 p hp
    · exact hb.2 p hp
  all_goals cases h

end Stencil.Compile
