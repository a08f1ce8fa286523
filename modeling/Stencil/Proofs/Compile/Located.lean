import Stencil.Proofs.Code.Origin
import Stencil.Proofs.Compile.Keeps

/-! Compiled lines come from nowhere or from lines of the template that is compiled. -/
namespace Stencil.Compile
open Template Code

variable {u : Setting} {scope : Scope} {line : Line} {text : String} {ls ms : Lines} {R : Builder → Prop}
  {template : Path}

/-- Lines with no other origins than lines of a template. -/
def Located (template : Path) (ls : Lines) : Prop := ∀ l ∈ ls, ∀ o ∈ l.origin, o.file = template

namespace Located

theorem nil : Located template [] := List.forall_mem_nil _

theorem append (h : Located template ls) (h' : Located template ms) : Located template (ls ++ ms) :=
  List.forall_mem_append.2 ⟨h, h'⟩

theorem lineAt {indent : Int} (h : Located u.template ls) : Located u.template (lineAt u indent text line :: ls) :=
  List.forall_mem_cons.2 ⟨by simp [Compile.lineAt], h⟩

theorem emit : Located u.template [emit u scope text line] := lineAt nil

theorem scaffold {indent : Int} (h : Located template ls) : Located template (scaffold indent text :: ls) :=
  List.forall_mem_cons.2 ⟨by simp [Code.scaffold], h⟩

theorem suite (h : Located u.template ls) (scope : Scope) (line : Line) :
    Located u.template (suiteOf u scope ls line) := by
  unfold suiteOf
  split
  · exact emit
  · exact h

theorem functionOf {indent : Int} (h : Located u.template ls) : Located u.template (functionOf u indent text line ls) :=
  lineAt (scaffold (h.append (scaffold nil)))

end Located

/-- All functions of blocks are lines of the template. -/
def LocatedBlocks (template : Path) (b : Builder) : Prop := ∀ d ∈ b.blocks, Located template d.2

theorem located_freshNumber : Keeps (LocatedBlocks template) freshNumber fun _ => True := by
  refine Keeps.get.bind fun b hb => Keeps.bind (Keeps.set ?_) fun _ _ => Keeps.pure trivial
  exact hb

theorem located_openBlock {name : String} : Keeps (LocatedBlocks template) (openBlock name line) fun _ => True := by
  refine Keeps.get.bind fun b hb => Keeps.ite (fun _ => Keeps.stops) fun _ => Keeps.set ?_
  exact List.forall_mem_append.2 ⟨hb, List.forall_mem_singleton.2 .nil⟩

theorem located_closeBlock {name : String} (h : Located template ls) :
    Keeps (LocatedBlocks template) (closeBlock name ls) fun _ => True := by
  refine Keeps.modify fun b hb d hd => ?_
  obtain ⟨e, he, rfl⟩ := List.mem_map.1 hd
  split
  · exact h
  · exact hb e he

theorem located_outputLines (nodes : List Expr) : Keeps R (outputLines u scope nodes) (Located u.template) := by
  induction nodes with
  | nil => exact Keeps.pure .nil
  | cons e es ih =>
    have hline : Keeps R (outputLine u scope e) (Located u.template) := by
      cases e
      case data line text => exact Keeps.ite (fun _ => Keeps.pure .nil) fun _ => Keeps.pure .emit
      all_goals exact Keeps.after fun _ => Keeps.pure .emit
    exact hline.bind fun _ hls => ih.bind fun _ hms => Keeps.pure (hls.append hms)

theorem located_loopTest (test : Option Expr) : Keeps R (loopTest u scope line test) (Located u.template) := by
  cases test with
  | none => exact Keeps.pure .nil
  | some e => exact Keeps.after fun _ => Keeps.pure (.lineAt (.lineAt .nil))

theorem located_assignments (pairs : List (Expr × Expr)) :
    Keeps R (assignments u scope line pairs) (Located u.template) := by
  induction pairs with
  | nil => exact Keeps.pure .nil
  | cons pair pairs ih => exact Keeps.after fun _ => Keeps.after fun _ => ih.bind fun _ hls => Keeps.pure (.lineAt hls)

theorem located_extendsLine (target : Expr) :
    Keeps (LocatedBlocks u.template) (extendsLine u scope target line) (Located u.template) := by
  refine Keeps.ite (fun _ => Keeps.stops) fun _ => Keeps.get.bind fun b _ =>
    Keeps.ite (fun _ => Keeps.stops) fun _ => ?_
  cases target.templateNames? with
  | none => exact Keeps.stopAt
  | some names =>
    refine (keeps_resolve (S := fun _ => True) fun _ _ _ _ => trivial).bind fun found _ => ?_
    cases found with
    | none => exact Keeps.stopAt
    | some parent =>
      refine (Keeps.modify fun b hb => ?_).bind fun _ _ => Keeps.pure .emit
      exact hb

theorem located_includeLine (target : Expr) (ignoreMissing : Bool) :
    Keeps (LocatedBlocks u.template) (includeLine u scope target ignoreMissing line) (Located u.template) := by
  unfold includeLine
  cases target.templateNames? with
  | none => exact Keeps.after fun _ => Keeps.pure .emit
  | some names =>
    refine (keeps_resolve (S := fun _ => True) fun _ _ _ _ => trivial).bind fun found _ => ?_
    cases found with
    | none => exact Keeps.pure .nil
    | some included =>
      refine (Keeps.modify fun b hb => ?_).bind fun _ _ => Keeps.pure .emit
      exact hb

theorem located_importLines (names : List (String × String)) :
    Located u.template (importLines u scope text line names) :=
  List.forall_mem_map.2 fun _ _ => by simp [emit, lineAt]

mutual

/-- A statement becomes lines of the template. -/
theorem located_statement (u : Setting) (scope : Scope) (s : Stmt) :
    Keeps (LocatedBlocks u.template) (statement u scope s) (Located u.template) := by
  cases s with
  | output line nodes => exact located_outputLines nodes
  | extends_ line template => exact located_extendsLine template
  | for_ line target source body otherwise test isRecursive =>
    refine Keeps.after fun _ => (keeps_loopTarget target).bind fun _ _ => (located_loopTest test).bind fun _ htest =>
      (located_statements u _ body).bind fun _ hbody => ?_
    have hhead := htest.append (hbody.suite scope.nested line)
    refine Keeps.ite (fun _ => Keeps.pure (.lineAt hhead)) fun _ => ?_
    refine (located_statements u _ otherwise).bind fun _ hls => Keeps.pure ?_
    exact .append (.lineAt hhead) (.lineAt (hls.suite _ _))
  | if_ line test body branches otherwise =>
    refine Keeps.after fun _ => (located_statements u _ body).bind fun _ hbody =>
      (located_elifs u scope branches).bind fun _ hbranches =>
      (located_statements u _ otherwise).bind fun _ hotherwise => ?_
    have hhead := (hbody.suite scope.nested line).append hbranches
    cases otherwise with
    | nil => exact Keeps.pure (.lineAt hhead)
    | cons first otherwise => exact Keeps.pure (.append (.lineAt hhead) (.lineAt (hotherwise.suite _ _)))
  | macro_ line id params defaults body =>
    exact Keeps.after fun _ => (located_statements u _ body).bind fun _ hbody => Keeps.pure hbody.functionOf
  | callBlock line call params defaults body =>
    exact located_freshNumber.bind fun _ _ => Keeps.after fun _ => (located_statements u _ body).bind fun _ hbody =>
      Keeps.after fun _ => Keeps.pure (hbody.functionOf.append .emit)
  | filterBlock line body filter =>
    exact located_freshNumber.bind fun _ _ => (keeps_captured _).bind fun _ _ =>
      (located_statements u _ body).bind fun _ hbody => Keeps.pure (.lineAt (hbody.append .emit))
  | with_ line targets values body =>
    exact (located_assignments _).bind fun _ hls => (located_statements u scope body).bind fun _ hms =>
      Keeps.pure (hls.append hms)
  | block line id body isScoped required =>
    exact located_openBlock.bind fun _ _ => (located_statements u _ body).bind fun _ hbody =>
      (located_closeBlock hbody.functionOf).bind fun _ _ => Keeps.pure .emit
  | include_ line template withContext ignoreMissing => exact located_includeLine template ignoreMissing
  | import_ line template target withContext => exact Keeps.after fun _ => Keeps.pure .emit
  | fromImport line template names withContext => exact Keeps.after fun _ => Keeps.pure (located_importLines names)
  | exprStmt line value => exact Keeps.after fun _ => Keeps.pure .emit
  | assign line target value => exact located_assignments _
  | assignBlock line target filter body =>
    exact located_freshNumber.bind fun _ _ => (keeps_captured filter).bind fun _ _ => Keeps.after fun _ =>
      (located_statements u _ body).bind fun _ hbody => Keeps.pure (.lineAt (hbody.append .emit))
  | scope line body | scopedOptions line options body => exact located_statements u scope body
  | options => exact Keeps.pure .nil
  | continue_ | break_ => exact Keeps.pure .emit
  | other line kind => exact Keeps.stopAt
termination_by structural s

theorem located_statements (u : Setting) (scope : Scope) (ss : List Stmt) :
    Keeps (LocatedBlocks u.template) (statements u scope ss) (Located u.template) := by
  cases ss with
  | nil => exact Keeps.pure .nil
  | cons s ss =>
    exact (located_statement u scope s).bind fun _ hls =>
      (located_statements u scope ss).bind fun _ hms => Keeps.pure (hls.append hms)
termination_by structural ss

theorem located_elifs (u : Setting) (scope : Scope) (bs : List Branch) :
    Keeps (LocatedBlocks u.template) (elifs u scope bs) (Located u.template) := by
  cases bs with
  | nil => exact Keeps.pure .nil
  | cons b bs =>
    exact (located_elif u scope b).bind fun _ hls =>
      (located_elifs u scope bs).bind fun _ hms => Keeps.pure (hls.append hms)
termination_by structural bs

theorem located_elif (u : Setting) (scope : Scope) (b : Branch) :
    Keeps (LocatedBlocks u.template) (elif u scope b) (Located u.template) := by
  cases b with
  | mk line test body =>
    exact Keeps.after fun _ => (located_statements u _ body).bind fun _ hbody => Keeps.pure (.lineAt (hbody.suite _ _))
termination_by structural b

end

/-- The source map of a unit leads to lines of its template. -/
theorem file_of_sourceMap {directory : Path} {find : Text.Points → Except Miss Path} {d : Document} {unit : CompiledUnit}
    (h : ofDocument template directory find d = .ok unit) : ∀ e ∈ unit.sourceMap, e.2.file = unit.template := by
  unfold ofDocument at h
  split at h
  case h_2 | h_3 | h_4 => cases h
  case h_1 body b hrun =>
    cases h
    obtain ⟨hblocks, hbody⟩ := located_statements ⟨template, find⟩ Scope.top d.body
      (by simp [LocatedBlocks, Builder.empty]) hrun
    have hdefinitions : Located template (b.blocks.flatMap (·.2)) := List.forall_mem_flatMap.2 hblocks
    have hmain : Located template (scaffold 0 prologue :: body ++ [scaffold 0 epilogue]) :=
      (hbody.append (.scaffold .nil)).scaffold
    rintro ⟨n, o⟩ he
    obtain ⟨k, l, -, hl, ho⟩ := Parts.mem_originsFrom.1 he
    rw [Parts.statements, List.append_assoc] at hl
    exact hdefinitions.append hmain l (List.mem_of_getElem? hl) o ho

end Stencil.Compile
