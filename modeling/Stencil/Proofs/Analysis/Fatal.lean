import Stencil.Analysis.Run
import Stencil.Proofs.Ensures
import Stencil.Proofs.Checker.Mypy
import Stencil.Proofs.Diagnosis.RenderTable
import Stencil.Proofs.Diagnosis.Report
import Stencil.Proofs.Lists

/-!
What ends a run. A checker that fails as a whole leaves no report, and the problems of single templates end
only runs that are to be debugged.
-/
namespace Stencil.Analysis
open Checker

variable {checker : Stencil.Checker} {r : Request} {s : Setup} {settings : Settings}

/-! ### Failures of the checker -/

theorem ends_collect (h : ∀ t files, (checker.collect t files).errors ≠ []) (units : List Flatten.FlattenedUnit) :
    Ensures (fun _ => True) (collect checker s settings units) (fun _ _ => False) fun _ _ => True := by
  unfold collect
  refine .bind (.trivial _) fun _ => .bind (.trivial _) fun t => .bind (.trivial _) fun code => ?_
  refine .bind (.trivial _) fun _ => .bind (.trivial _) fun t => .ite (fun _ => ?_) fun hnone => ?_
  · exact .bind (.throw fun _ _ => trivial) (Q := fun _ _ => False) fun _ => .absurd _
  · simp [h] at hnone

theorem ends_check (h : ∀ t files, (checker.analyze t files).errors ≠ []) (units : List Observed.InjectedUnit) :
    Ensures (fun _ => True) (check checker units) (fun _ _ => False) fun _ _ => True := by
  unfold check
  refine .bind (.trivial _) fun _ => .bind (.trivial _) fun _ => .bind (.trivial _) fun t => ?_
  refine .ite (fun _ => ?_) fun hnone => ?_
  · exact .bind (.throw fun _ _ => trivial) (Q := fun _ _ => False) fun _ => .absurd _
  · simp [h] at hnone

theorem ends_analyze_of_collect (h : ∀ t files, (checker.collect t files).errors ≠ []) :
    Ensures (fun _ => True) (analyze checker r) (fun _ w => Event.noTemplates ∈ w.events) fun _ _ => True := by
  unfold analyze
  refine .bind (.trivial _) fun s => .bind (.trivial _) fun t => .bind (.trivial _) fun found => ?_
  refine .bind (.trivial _) fun t => .bind (.trivial _) fun (entries, misplaced) => .ite (fun _ => ?_) fun _ => ?_
  · exact .bind (.note fun _ _ => List.mem_append_right _ List.mem_cons_self) fun _ => .pure fun _ => id
  refine .bind (.trivial _) fun (ordered, lib, warnings) => .bind (.trivial _) fun (compiled, uncompiled) => ?_
  exact .bind (.trivial _) fun (flattened, unflattened) => .bind (ends_collect h flattened) fun _ => .absurd _

theorem ends_analyze_of_check (h : ∀ t files, (checker.analyze t files).errors ≠ []) :
    Ensures (fun _ => True) (analyze checker r) (fun _ w => Event.noTemplates ∈ w.events ∨ Event.noneLeft ∈ w.events)
      fun _ _ => True := by
  unfold analyze
  refine .bind (.trivial _) fun s => .bind (.trivial _) fun t => .bind (.trivial _) fun found => ?_
  refine .bind (.trivial _) fun t => .bind (.trivial _) fun (entries, misplaced) => .ite (fun _ => ?_) fun _ => ?_
  · exact .bind (.note fun _ _ => .inl (List.mem_append_right _ List.mem_cons_self)) fun _ => .pure fun _ => id
  refine .bind (.trivial _) fun (ordered, lib, warnings) => .bind (.trivial _) fun (compiled, uncompiled) => ?_
  refine .bind (.trivial _) fun (flattened, unflattened) => .bind (.trivial _) fun collection => ?_
  refine .bind (.trivial _) fun table => .bind (.trivial _) fun injected => .ite (fun _ => ?_) fun _ => ?_
  · exact .bind (.note fun _ _ => .inr (List.mem_append_right _ List.mem_cons_self)) fun _ => .pure fun _ => id
  · exact .bind (ends_check h _) fun _ => .absurd _

/-- A run of the checker that failed leaves errors that belong to no file and nothing else, and with such errors
there is no report but where the checker was not asked. The runs that failed are those that did not start
and those whose status is two or more. -/
theorem failures_fatal (m : Mypy) (o : Outcome) (checker : Stencil.Checker) (r : Request) (t : Files.Tree) :
    (o.read.2 = [] ↔ ∃ output errors status, o = .ended output errors status ∧ status < 2) ∧
    (o.read.2 ≠ [] → m.collection t o = .ok (⟨[], [], o.read.2⟩, []) ∧ m.analysis t o = .ok ⟨[], o.read.2⟩) ∧
    ((∀ t files, (checker.collect t files).errors ≠ []) → ∀ report, (run checker r t).1 = .ok report →
      Event.noTemplates ∈ (run checker r t).2.events) ∧
    ((∀ t files, (checker.analyze t files).errors ≠ []) → ∀ report, (run checker r t).1 = .ok report →
      Event.noTemplates ∈ (run checker r t).2.events ∨ Event.noneLeft ∈ (run checker r t).2.events) := by
  refine ⟨o.read_errors_eq_nil_iff, fun h => ⟨m.collection_of_errors t h, m.analysis_of_errors t h⟩, ?_, ?_⟩
  · exact fun h report hreport => (ends_analyze_of_collect h).ok trivial hreport
  · exact fun h report hreport => (ends_analyze_of_check h).ok trivial hreport

/-! ### Problems of single templates -/

/-- Holds of what is only about one template: it is not found, not compiled or not flattened. -/
def Stop.AboutTemplate : Stop → Prop
  | unresolved _ | compiling _ | flattening (.error _) => True
  | _ => False

/-- Work that stops with nothing that is only about one template. -/
def Spares {α : Type} (x : Work α) : Prop :=
  Ensures (fun _ => True) x (fun _ _ => True) fun s _ => ¬ s.AboutTemplate

namespace Spares

variable {α β ε : Type} {x y : Work α}

theorem bind {f : α → Work β} (hx : Spares x) (hf : ∀ a, Spares (f a)) : Spares (x >>= f) := Ensures.bind hx hf

theorem pure (a : α) : Spares (pure a) := Ensures.pure fun _ _ => True.intro

theorem throw {s : Stop} (h : ¬ s.AboutTemplate) : Spares (throw s : Work α) := Ensures.throw fun _ _ => h

theorem ite {c : Prop} {_ : Decidable c} (hx : c → Spares x) (hy : ¬ c → Spares y) : Spares (if c then x else y) :=
  Ensures.ite hx hy

theorem modify (f : Workspace → Workspace) : Spares (modify f) := Ensures.modify fun _ _ => True.intro

theorem note (e : Event) : Spares (note e) := modify _

theorem tree : Spares tree := Ensures.tree fun _ _ => True.intro

theorem orStop {stop : ε → Stop} {r : Except ε α} (h : ∀ e, r = .error e → ¬ (stop e).AboutTemplate) :
    Spares (orStop stop r) :=
  Ensures.orStop (fun _ _ _ _ => True.intro) fun e he _ _ => h e he

theorem forM {as : List β} {f : β → Work PUnit} (h : ∀ b, Spares (f b)) : Spares (as.forM f) :=
  Ensures.forM fun b _ => h b

theorem mapM {as : List β} {f : β → Work α} (h : ∀ b, Spares (f b)) : Spares (as.mapM f) :=
  Ensures.mono (Ensures.mapM fun b _ => h b) (fun _ => id) (fun _ _ => id) fun _ _ => id

theorem forIn {as : List β} {f : β → PUnit → Work (ForInStep PUnit)} (h : ∀ b, Spares (f b ⟨⟩)) :
    Spares (forIn as ⟨⟩ f) := by
  induction as with
  | nil => exact pure _
  | cons a as ih =>
    rw [List.forIn_cons]
    refine .bind (h a) fun step => ?_
    split
    · exact pure _
    · exact ih

theorem write (file : Path) (source : String) : Spares (write file source) :=
  .bind .tree fun _ => .bind (.orStop fun _ _ => id) fun _ => .modify _

theorem resolved (p : Path) : Spares (resolved p) := .bind .tree fun _ => .bind (.orStop fun _ _ => id) fun _ => .pure _

theorem renew (directory : Path) : Spares (renew directory) :=
  .bind (.modify _) fun _ => .bind .tree fun _ => .bind (.orStop fun _ _ => id) fun _ => .modify _

theorem prepare (root : Path) (s : Settings) : Spares (Scratch.prepare root s) :=
  .bind .tree fun _ => .bind (.orStop fun _ _ => id) fun _ => .bind (.forM renew) fun _ => .pure _

theorem setup (r : Request) : Spares (setup r) :=
  .bind (.resolved _) fun _ => .bind (.prepare _ _) fun _ => .bind (.orStop fun _ _ => id) fun _ => .pure _

theorem order (s : Setup) (entries : List Path) : Spares (order s entries) := by
  refine .bind (.note _) fun _ => .bind .tree fun _ => .bind (.orStop fun e _ => ?_) fun _ => ?_
  · cases e <;> exact id
  · exact .bind (.note _) fun _ => .bind (.orStop fun _ _ => id) fun _ => .bind (.note _) fun _ => .pure _

theorem compileOne (s : Setup) (lib : Template.Library) (template : Path) : Spares (compileOne s false lib template) := by
  unfold Analysis.compileOne
  refine .bind .tree fun t => ?_
  split
  · exact .bind (.write _ _) fun _ => .bind (.note _) fun _ => .pure _
  · exact .ite nofun fun _ => .bind (.note _) fun _ => .pure _
  · exact .throw id
  · exact .throw id

theorem compileAll (s : Setup) (lib : Template.Library) (ordered : List Path) :
    Spares (compileAll s false lib ordered) :=
  .bind (.note _) fun _ => .bind (.mapM (compileOne s lib)) fun _ => .pure _

end Spares

/-- The same for work with a state of its own. -/
def SparesWith {σ α : Type} (x : StateT σ Work α) : Prop := ∀ s, Spares (x.run s)

namespace SparesWith

variable {σ α β : Type} {x y : StateT σ Work α}

theorem bind {f : α → StateT σ Work β} (hx : SparesWith x) (hf : ∀ a, SparesWith (f a)) : SparesWith (x >>= f) := by
  intro s
  rw [StateT.run_bind]
  exact .bind (hx s) fun r => hf r.1 r.2

theorem pure (a : α) : SparesWith (pure a : StateT σ Work α) := fun _ => .pure _

theorem lift {x : Work α} (hx : Spares x) : SparesWith (liftM x : StateT σ Work α) := fun _ =>
  .bind hx fun _ => .pure _

theorem get : SparesWith (get : StateT σ Work σ) := fun _ => .pure _

theorem set (s : σ) : SparesWith (set s : StateT σ Work PUnit) := fun _ => .pure _

theorem throw {s : Stop} (h : ¬ s.AboutTemplate) : SparesWith (throw s : StateT σ Work α) := fun _ =>
  .throw h

theorem ite {c : Prop} {_ : Decidable c} (hx : c → SparesWith x) (hy : ¬ c → SparesWith y) :
    SparesWith (if c then x else y) := by
  by_cases hc : c
  · simpa only [if_pos hc] using hx hc
  · simpa only [if_neg hc] using hy hc

theorem mapM {as : List β} {f : β → StateT σ Work α} (h : ∀ b, SparesWith (f b)) : SparesWith (as.mapM f) := by
  induction as with
  | nil => exact pure _
  | cons a as ih =>
    rw [List.mapM_cons]
    exact .bind (h a) fun _ => .bind ih fun _ => pure _

theorem flattenOne (s : Setup) (sources : List Flatten.Source) (template : Path) :
    SparesWith (flattenOne s false sources template) := by
  unfold Analysis.flattenOne
  refine .bind get fun table => ?_
  obtain ⟨outcome, made⟩ := (Flatten.Shared.flattenUnit sources s.scratch.flattening template).run table
  refine .bind (set made) fun _ => ?_
  cases outcome with
  | ok u => exact .bind (lift (.write _ _)) fun _ => .bind (lift (.note _)) fun _ => pure _
  | error f =>
    cases f with
    | error e => exact .ite nofun fun _ => .bind (lift (.note _)) fun _ => pure _
    | fault => exact throw id
    | endless => exact throw id

end SparesWith

namespace Spares

theorem flattenAll (s : Setup) (units : List Compile.CompiledUnit) : Spares (flattenAll s false units) := by
  unfold Analysis.flattenAll
  refine .bind (.note _) fun _ => ?_
  have hrun : SparesWith (units.mapM fun u => flattenOne s false (units.map Flatten.Source.ofUnit) u.template) :=
    .mapM fun u => .flattenOne s _ u.template
  exact .bind (.bind (hrun []) fun _ => .pure _) fun _ => .pure _

theorem collect (checker : Stencil.Checker) (s : Setup) (settings : Settings) (units : List Flatten.FlattenedUnit) :
    Spares (collect checker s settings units) :=
  .bind (.note _) fun _ => .bind .tree fun _ => .bind (.orStop fun _ _ => id) fun _ => .bind (.modify _) fun _ =>
    .bind .tree fun _ => .ite (fun _ => .bind (.throw id) fun _ => .pure _) fun _ => .pure _

/-- References that are not known are left out. -/
theorem ofMiss_of_foldlM {σ β : Type} {f : σ → β → Except Template.Miss σ} {l : List β} {s : σ} {e : Template.Miss}
    (hf : ∀ s b u, f s b ≠ .error (.unresolved u)) (h : l.foldlM f s = .error e) :
    ¬ (Stop.ofMiss e).AboutTemplate := by
  obtain ⟨b, -, s', -, he⟩ := exists_of_foldlM_error (p := fun _ => True) (fun _ _ _ _ _ => True.intro) True.intro h
  cases e with
  | unresolved u => exact absurd he (hf s' b u)
  | undecodable => exact id

theorem noteUnknown (lib : Template.Library) (event : String → Event) (references : List String) :
    Spares (noteUnknown lib event references) := by
  unfold Analysis.noteUnknown
  refine .bind (.forIn fun reference => .bind .tree fun t => ?_) fun _ => .pure _
  split
  · exact .pure _
  · exact .bind (.note _) fun _ => .pure _
  · exact .bind (.throw id) fun _ => .pure _

theorem renderPoints (lib : Template.Library) (units : List Flatten.FlattenedUnit) (calls : List Diagnosis.RenderCall) :
    Spares (renderPoints lib units calls) := by
  refine .bind (noteUnknown _ _ _) fun _ => .bind .tree fun t => .orStop fun e he => ?_
  cases e with
  | miss m =>
    obtain rfl := Diagnosis.eq_undecodable_of_renderTableIn he
    exact id
  | disorder d => exact id

theorem injectOne (s : Setup) (found : List (Path × Observed.Observation)) (u : Flatten.FlattenedUnit) :
    Spares (injectOne s found u) := by
  unfold Analysis.injectOne
  split
  · exact .throw id
  · exact .bind (.write _ _) fun _ => .bind (.note _) fun _ => .pure _

theorem injectAll (s : Setup) (lib : Template.Library) (observations : List Observed.Observation)
    (units : List Flatten.FlattenedUnit) : Spares (injectAll s lib observations units) := by
  refine .bind (.note _) fun _ => .bind (noteUnknown _ _ _) fun _ => .bind .tree fun t => ?_
  refine .bind (.orStop fun e he => ?_) fun found => .mapM (injectOne s found)
  refine ofMiss_of_foldlM (fun found o u => ?_) he
  split <;> simp

theorem check (checker : Stencil.Checker) (units : List Observed.InjectedUnit) : Spares (check checker units) :=
  .bind (.note _) fun _ => .bind (.modify _) fun _ => .bind .tree fun _ =>
    .ite (fun _ => .bind (.throw id) fun _ => .pure _) fun _ => .pure _

theorem writeBaseline (file : Path) (ds : List Diagnosis.Diagnostic) : Spares (writeBaseline file ds) :=
  .bind (.resolved _) fun _ => .bind (.orStop fun _ _ => id) fun _ => .bind .tree fun _ => .bind (.modify _) fun _ =>
    .bind (.orStop fun _ _ => id) fun _ => .bind (.note _) fun _ => .bind (.note _) fun _ => .pure _

theorem analyze (checker : Stencil.Checker) (r : Request) (hdebug : r.debug = false) : Spares (analyze checker r) := by
  unfold Analysis.analyze
  rw [hdebug]
  refine .bind (.setup _) fun s => .bind .tree fun t => .bind (.orStop fun _ _ => id) fun found => ?_
  refine .bind .tree fun t => .bind (.orStop fun u hu => ?_) fun (entries, misplaced) => .ite (fun _ => ?_) fun _ => ?_
  · obtain ⟨p, -, done, -, hp⟩ :=
      exists_of_foldlM_error (p := fun _ => True) (fun _ _ _ _ _ => True.intro) True.intro hu
    dsimp only at hp
    split at hp <;> cases hp
  · exact .bind (.note _) fun _ => .pure _
  refine .bind (.order _ _) fun (ordered, lib, warnings) => .bind (.compileAll _ _ _) fun (compiled, uncompiled) => ?_
  refine .bind (.flattenAll _ _) fun (flattened, unflattened) => .bind (.collect _ _ _ _) fun collection => ?_
  refine .bind (.renderPoints _ _ _) fun table => .bind (.injectAll _ _ _ _) fun injected => .ite (fun _ => ?_) fun _ => ?_
  · exact .bind (.note _) fun _ => .pure _
  refine .bind (.check _ _) fun findings => .bind (.forM fun _ => .note _) fun _ => ?_
  split
  · exact .bind (.writeBaseline _ _) fun _ => .pure _
  · exact .bind .tree fun _ => .bind (.orStop fun _ _ => id) fun _ => .pure _

end Spares

/-- A template that is not found, not compiled or not flattened does not end a run that is not to be debugged. -/
theorem run_spares (checker : Stencil.Checker) (r : Request) (t : Files.Tree) :
    match (run checker { r with debug := false } t).1 with
    | .ok _ => True
    | .error s => ¬ s.AboutTemplate := by
  have hspares := Spares.analyze checker { r with debug := false } rfl
  cases h : (run checker { r with debug := false } t).1 with
  | ok report => trivial
  | error s => exact hspares.error trivial h

end Stencil.Analysis
