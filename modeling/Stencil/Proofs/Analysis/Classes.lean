import Mathlib.Data.List.Forall2
import Stencil.Analysis.Run
import Stencil.Proofs.Ensures
import Stencil.Proofs.Dependency.Targets

/-!
What becomes of every template of a run: it is not compiled, or it is not flattened, or it has a unit. The checker
is given the units of the templates that were asked for.
-/
namespace Stencil.Analysis
open Compile Flatten Observed Diagnosis

variable {α β ε κ : Type} {checker : Stencil.Checker} {r : Request} {s : Setup}

/-! ### A run in parts -/

/-- What is known of a run once the templates have been found. -/
structure Found where
  setup : Setup
  entries : List Path
  misplaced : List Issue

def finding (r : Request) : Work Found := do
  let s ← setup r
  let found ← orStop .scanning (findTemplates (← tree) s.root r.settings r.paths)
  let (entries, misplaced) ← orStop .unresolved (entriesOf r.debug (← tree) found)
  return ⟨s, entries, misplaced⟩

/-- What there is of a run when the checker is asked about units. -/
structure Prepared where
  issues : List Issue
  table : RenderTable
  injected : List InjectedUnit

/-- From the sorted templates to their units. -/
def preparing (checker : Stencil.Checker) (r : Request) (f : Found) (ordered : List Path) (lib : Template.Library)
    (warnings : List Issue) : Work Prepared := do
  let (compiled, uncompiled) ← compileAll f.setup r.debug lib ordered
  let (flattened, unflattened) ← flattenAll f.setup r.debug compiled
  let collection ← collect checker f.setup r.settings flattened
  let table ← renderPoints lib flattened collection.renderCalls
  let injected ← injectAll f.setup lib collection.observations flattened
  return ⟨f.misplaced ++ warnings ++ uncompiled ++ unflattened, table, injected⟩

/-- What the checker says about the units. -/
def concluding (checker : Stencil.Checker) (r : Request) (f : Found) (p : Prepared) : Work Report := do
  let units := f.entries.filterMap fun t => p.injected.find? (·.template = t)
  let templates := units.map (·.template)
  if units.isEmpty then
    note .noneLeft
    return ⟨[], p.issues, [], none⟩
  let findings ← check checker units
  (findings.filter fun f => (f.locate p.injected p.table).isNone).forM fun f => note (.dropped f)
  let ds := diagnose r.settings p.injected p.table findings
  match r.baseline with
  | some file => return ⟨ds, p.issues, templates, some (← writeBaseline file ds)⟩
  | none =>
    let known ← orStop .notAccepted (accepted (← tree) f.setup.root r.settings)
    return ⟨known.filter ds, p.issues, templates, none⟩

theorem analyze_eq (checker : Stencil.Checker) (r : Request) :
    analyze checker r = (do
      let f ← finding r
      if f.entries.isEmpty then
        note .noTemplates
        return ⟨[], f.misplaced, [], none⟩
      let (ordered, lib, warnings) ← order f.setup f.entries
      concluding checker r f (← preparing checker r f ordered lib warnings)) := by
  unfold analyze finding preparing concluding
  simp only [bind_assoc, pure_bind] <;> rfl

/-! ### Work in front of the analysis -/

/-- Work whose answers satisfy `R` and which gives no file to the analysis of the checker. -/
def Answers (x : Work α) (R : α → Prop) : Prop :=
  ∀ files, Ensures (fun w => w.analyzed = files) x (fun a w => R a ∧ w.analyzed = files) fun _ _ => True

namespace Answers

variable {x y : Work α} {R R' : α → Prop} {Q : β → Prop}

theorem bind {f : α → Work β} (hx : Answers x R) (hf : ∀ a, R a → Answers (f a) Q) : Answers (x >>= f) Q :=
  fun files => Ensures.bind (hx files) fun a w hw => hf a hw.1 files w hw.2

theorem pure {a : α} (h : R a) : Answers (pure a) R := fun _ => Ensures.pure fun _ hw => ⟨h, hw⟩

theorem mono (hx : Answers x R) (h : ∀ a, R a → R' a) : Answers x R' := fun files =>
  (hx files).mono (fun _ => id) (fun a _ hw => ⟨h a hw.1, hw.2⟩) fun _ _ => id

theorem throw {e : Stop} : Answers (throw e : Work α) R := fun _ => Ensures.throw fun _ _ => trivial

theorem ite {c : Prop} {_ : Decidable c} (hx : c → Answers x R) (hy : ¬ c → Answers y R) :
    Answers (if c then x else y) R :=
  fun files => Ensures.ite (fun hc => hx hc files) fun hc => hy hc files

theorem modify {f : Workspace → Workspace} (h : ∀ w, (f w).analyzed = w.analyzed) :
    Answers (modify f) fun _ => True :=
  fun _ => Ensures.modify fun w hw => ⟨trivial, (h w).trans hw⟩

theorem note (e : Event) : Answers (note e) fun _ => True := modify fun _ => rfl

theorem tree : Answers tree fun _ => True := fun _ => Ensures.tree fun _ hw => ⟨trivial, hw⟩

theorem orStop {stop : ε → Stop} {r : Except ε α} : Answers (orStop stop r) fun a => r = .ok a :=
  fun _ => Ensures.orStop (fun _ ha _ hw => ⟨ha, hw⟩) fun _ _ _ _ => trivial

theorem forM {as : List β} {f : β → Work PUnit} (h : ∀ b, Answers (f b) fun _ => True) :
    Answers (as.forM f) fun _ => True := by
  induction as with
  | nil => exact pure trivial
  | cons a as ih => exact (h a).bind fun _ _ => ih

theorem forIn {as : List β} {f : β → PUnit → Work (ForInStep PUnit)} (h : ∀ b, Answers (f b ⟨⟩) fun _ => True) :
    Answers (forIn as ⟨⟩ f) fun _ => True := by
  induction as with
  | nil => exact pure trivial
  | cons a as ih =>
    rw [List.forIn_cons]
    refine (h a).bind fun step _ => ?_
    split
    · exact pure trivial
    · exact ih

theorem mapM {as : List β} {f : β → Work α} {R : β → α → Prop} (h : ∀ b, Answers (f b) (R b)) :
    Answers (as.mapM f) (List.Forall₂ R as) := by
  induction as with
  | nil => exact pure .nil
  | cons a as ih =>
    rw [List.mapM_cons]
    exact (h a).bind fun _ hb => ih.bind fun _ hbs => pure (.cons hb hbs)

theorem write (file : Path) (source : String) : Answers (write file source) fun _ => True :=
  tree.bind fun _ _ => orStop.bind fun _ _ => modify fun _ => rfl

theorem resolved (p : Path) : Answers (resolved p) fun _ => True :=
  tree.bind fun _ _ => orStop.bind fun _ _ => pure trivial

theorem renew (directory : Path) : Answers (renew directory) fun _ => True :=
  .bind (modify fun _ => rfl) fun _ _ => tree.bind fun _ _ => orStop.bind fun _ _ => modify fun _ => rfl

theorem setup (r : Request) : Answers (setup r) fun _ => True := by
  refine (resolved _).bind fun root _ => .bind (R := fun _ => True) ?_ fun _ _ => orStop.bind fun _ _ => pure trivial
  exact tree.bind fun _ _ => orStop.bind fun _ _ => (forM renew).bind fun _ _ => pure trivial

end Answers

/-! ### Finding and sorting -/

/-- What is no template is not a problem of the compilation or the flattening. -/
theorem stage_entriesOf {t : Files.Tree} {found entries : List Path} {issues : List Issue} {debug : Bool}
    (h : entriesOf debug t found = .ok (entries, issues)) : ∀ i ∈ issues, i.stage = .discovery := by
  refine Dependency.Discovery.foldlM_keeps (p := fun r : List Path × List Issue => ∀ i ∈ r.2, i.stage = .discovery)
    (fun before p after _ hbefore h => ?_) (by simp) h
  obtain ⟨entries, issues⟩ := before
  dsimp only at h
  split at h
  · cases h
    exact hbefore
  · split at h
    · cases h
    · cases h
      exact List.forall_mem_append.2 ⟨hbefore, by simp⟩

theorem Answers.finding (r : Request) :
    Answers (finding r) fun f => ∀ i ∈ f.misplaced, i.stage = .discovery :=
  (Answers.setup r).bind fun _ _ => Answers.tree.bind fun _ _ => Answers.orStop.bind fun _ _ =>
    Answers.tree.bind fun _ _ => Answers.orStop.bind fun _ h => Answers.pure (stage_entriesOf h)

/-- Every entry is there, each template once, and warnings belong to a stage of their own. -/
theorem Answers.order (s : Setup) (entries : List Path) :
    Answers (order s entries) fun r =>
      r.1.Nodup ∧ (∀ t ∈ entries, t ∈ r.1) ∧ ∀ i ∈ r.2.2, i.stage = .dependencies := by
  refine (note _).bind fun _ _ => tree.bind fun _ _ => orStop.bind fun d _ => (note _).bind fun _ _ =>
    orStop.bind fun ordered hsort => (note _).bind fun _ _ => pure ?_
  have horder := Dependency.Graph.sort_isOrder d.graph entries
  rw [hsort] at horder
  exact ⟨horder.2.nodup, fun t ht => (horder.2.mem t).2 (.inl ht), List.forall_mem_map.2 fun _ _ => rfl⟩

/-! ### Compiling and flattening -/

theorem template_of_compile_error {dialect : Template.Dialect} {library : Template.Library} {t : Files.Tree}
    {template directory : Path} {e : CompileError}
    (h : compile dialect library t template directory = .error (.error e)) : e.template = template := by
  unfold compile at h
  split at h
  · next u _ =>
    cases u <;> cases h <;> rfl
  · unfold ofDocument at h
    split at h <;> cases h
    rfl

/-- The template that an outcome of the compilation is about. -/
def compiledOf : Except CompileError CompiledUnit → Path
  | .ok u => u.template
  | .error e => e.template

theorem Answers.compileOne (s : Setup) (debug : Bool) (lib : Template.Library) (template : Path) :
    Answers (compileOne s debug lib template) fun outcome => compiledOf outcome = template := by
  unfold Analysis.compileOne
  refine tree.bind fun t _ => ?_
  split
  · next u h => exact (write _ _).bind fun _ _ => (note _).bind fun _ _ => pure (Dependency.template_of_compile h)
  · next e h =>
    have hnoted : Answers (do Analysis.note (.notCompiled e); return .error e) fun outcome =>
        compiledOf outcome = template := (note _).bind fun _ _ => pure (template_of_compile_error h)
    exact ite (fun _ => throw.bind fun _ (_ : True) => hnoted) fun _ => hnoted
  · exact throw
  · exact throw

/-- The same for work with a state of its own. -/
def AnswersWith {σ : Type} (x : StateT σ Work α) (R : α → Prop) : Prop := ∀ s, Answers (x.run s) fun r => R r.1

namespace AnswersWith

variable {σ : Type} {x y : StateT σ Work α} {R : α → Prop} {Q : β → Prop}

theorem bind {f : α → StateT σ Work β} (hx : AnswersWith x R) (hf : ∀ a, R a → AnswersWith (f a) Q) :
    AnswersWith (x >>= f) Q := by
  intro s
  rw [StateT.run_bind]
  exact (hx s).bind fun r hr => hf r.1 hr r.2

theorem pure {a : α} (h : R a) : AnswersWith (pure a : StateT σ Work α) R := fun _ => Answers.pure h

theorem lift {x : Work α} (hx : Answers x R) : AnswersWith (liftM x : StateT σ Work α) R := fun _ =>
  hx.bind fun _ ha => Answers.pure ha

theorem set (s : σ) : AnswersWith (set s : StateT σ Work PUnit) fun _ => True := fun _ => Answers.pure trivial

theorem throw {e : Stop} : AnswersWith (throw e : StateT σ Work α) R := fun _ => Answers.throw

theorem mapM {as : List β} {f : β → StateT σ Work α} {R : β → α → Prop} (h : ∀ b, AnswersWith (f b) (R b)) :
    AnswersWith (as.mapM f) (List.Forall₂ R as) := by
  induction as with
  | nil => exact pure .nil
  | cons a as ih =>
    rw [List.mapM_cons]
    exact (h a).bind fun _ hb => ih.bind fun _ hbs => pure (.cons hb hbs)

theorem get : AnswersWith (get : StateT σ Work σ) fun _ => True := fun _ => Answers.pure trivial

theorem flattenOne (s : Setup) (debug : Bool) (sources : List Source) (template : Path) :
    AnswersWith (flattenOne s debug sources template) fun outcome => templateOf outcome = template := by
  unfold Analysis.flattenOne
  refine get.bind fun table _ => ?_
  have hof := flattenUnit_isOf sources s.scratch.flattening template table trivial
  generalize (Shared.flattenUnit sources s.scratch.flattening template).run table = result at hof ⊢
  obtain ⟨outcome, made⟩ := result
  refine (set made).bind fun _ _ => ?_
  cases outcome with
  | ok u => exact (lift (.write _ _)).bind fun _ _ => (lift (.note _)).bind fun _ _ => pure hof
  | error f =>
    cases f with
    | error e =>
      have hnoted : AnswersWith (do Analysis.note (.notFlattened e); return .error e : StateT Table Work _) fun outcome =>
          templateOf outcome = template := (lift (.note _)).bind fun _ _ => pure hof
      dsimp only
      split
      · exact throw.bind fun _ (_ : True) => hnoted
      · exact hnoted
    | fault f => exact throw
    | endless => exact throw

end AnswersWith

theorem partition_ok (a : α) (outcomes : List (Except ε α)) :
    partition (.ok a :: outcomes) = (a :: (partition outcomes).1, (partition outcomes).2) := rfl

theorem partition_error (e : ε) (outcomes : List (Except ε α)) :
    partition (.error e :: outcomes) = ((partition outcomes).1, e :: (partition outcomes).2) := rfl

/-- Among outcomes about these templates, those about one are as many as it is among the templates. -/
theorem count_partition {outcomes : List (Except ε α)} {about : Except ε α → Path} {templates : List Path}
    (h : List.Forall₂ (fun t outcome => about outcome = t) templates outcomes) (t : Path) :
    ((partition outcomes).2.map fun e => about (.error e)).count t +
      ((partition outcomes).1.map fun a => about (.ok a)).count t = templates.count t := by
  induction h with
  | nil => rfl
  | @cons t' outcome templates outcomes hof _ ih =>
    rw [List.count_cons, ← ih]
    cases outcome with
    | ok a => simp [partition_ok, List.count_cons, hof, Nat.add_assoc]
    | error e => simp [partition_error, List.count_cons, hof, Nat.add_right_comm]

/-! ### What becomes of a template -/

/-- The number of issues of a stage that are about a template. -/
def issueCount (issues : List Issue) (stage : Stage) (t : Path) : Nat :=
  issues.countP fun i => i.stage = stage ∧ i.template = some t

theorem issueCount_map {stage : Stage} (issue : α → Issue) (about : α → Path)
    (h : ∀ a, (issue a).stage = stage ∧ (issue a).template = some (about a)) (found : List α) (t : Path) :
    issueCount (found.map issue) stage t = (found.map about).count t := by
  rw [issueCount, List.countP_map, List.count, List.countP_map]
  exact List.countP_congr fun a _ => by simp [h a]

theorem issueCount_append (issues more : List Issue) (stage : Stage) (t : Path) :
    issueCount (issues ++ more) stage t = issueCount issues stage t + issueCount more stage t :=
  List.countP_append ..

theorem issueCount_other {issues : List Issue} {stage other : Stage} (h : ∀ i ∈ issues, i.stage = other)
    (hne : other ≠ stage) (t : Path) : issueCount issues stage t = 0 := by
  refine List.countP_eq_zero.2 fun i hi => ?_
  simp [h i hi, hne]

namespace Answers

/-- Each template is compiled, or there is one issue about it. -/
theorem compileAll (s : Setup) (debug : Bool) (lib : Template.Library) (ordered : List Path) :
    Answers (compileAll s debug lib ordered) fun r => (∀ i ∈ r.2, i.stage = .compilation) ∧
      ∀ t, issueCount r.2 .compilation t + (r.1.map (·.template)).count t = ordered.count t := by
  refine (note _).bind fun _ _ => (mapM (compileOne s debug lib)).bind fun outcomes h => pure ?_
  refine ⟨List.forall_mem_map.2 fun _ _ => rfl, fun t => ?_⟩
  rw [← count_partition h t]
  exact congrArg (· + _) (issueCount_map Issue.ofCompileError CompileError.template (fun _ => ⟨rfl, rfl⟩) _ t)

theorem flattenAll (s : Setup) (debug : Bool) (units : List CompiledUnit) :
    Answers (flattenAll s debug units) fun r => (∀ i ∈ r.2, i.stage = .flattening) ∧
      ∀ t, issueCount r.2 .flattening t + (r.1.map (·.template)).count t = (units.map (·.template)).count t := by
  refine (note _).bind fun _ _ => ?_
  have hrun : AnswersWith (units.mapM fun u => flattenOne s debug (units.map Source.ofUnit) u.template)
      (List.Forall₂ (fun u outcome => templateOf outcome = u.template) units) :=
    .mapM fun u => .flattenOne s debug _ u.template
  refine ((hrun []).bind fun r hr => pure hr).bind fun outcomes h => pure ?_
  refine ⟨List.forall_mem_map.2 fun _ _ => rfl, fun t => ?_⟩
  have hof : List.Forall₂ (fun t outcome => templateOf outcome = t) (units.map (·.template)) outcomes :=
    List.forall₂_map_left_iff.2 h
  rw [← count_partition hof t]
  exact congrArg (· + _) (issueCount_map Issue.ofFlattenError FlattenError.template (fun _ => ⟨rfl, rfl⟩) _ t)

theorem collect (checker : Stencil.Checker) (s : Setup) (settings : Settings) (units : List FlattenedUnit) :
    Answers (collect checker s settings units) fun _ => True := by
  unfold Analysis.collect
  refine (note _).bind fun _ _ => tree.bind fun _ _ => orStop.bind fun code _ => ?_
  refine .bind (modify fun _ => rfl) fun _ _ => tree.bind fun t _ => ?_
  exact ite (fun _ => throw.bind fun _ (_ : True) => pure trivial) fun _ => pure trivial

theorem noteUnknown (lib : Template.Library) (event : String → Event) (references : List String) :
    Answers (noteUnknown lib event references) fun _ => True := by
  unfold Analysis.noteUnknown
  refine (forIn fun reference => tree.bind fun t _ => ?_).bind fun _ _ => pure trivial
  split
  · exact pure trivial
  · exact (note _).bind fun _ _ => pure trivial
  · exact throw.bind fun _ (_ : True) => pure trivial

theorem renderPoints (lib : Template.Library) (units : List FlattenedUnit) (calls : List RenderCall) :
    Answers (renderPoints lib units calls) fun _ => True :=
  (noteUnknown _ _ _).bind fun _ _ => tree.bind fun _ _ => orStop.mono fun _ _ => trivial

/-- Every unit is injected. -/
theorem injectAll (s : Setup) (lib : Template.Library) (observations : List Observation)
    (units : List FlattenedUnit) :
    Answers (injectAll s lib observations units) fun injected =>
      injected.map (·.template) = units.map (·.template) := by
  refine (note _).bind fun _ _ => (noteUnknown _ _ _).bind fun _ _ => tree.bind fun t _ => orStop.bind fun found _ => ?_
  have hone (u : FlattenedUnit) : Answers (injectOne s found u) fun i => i.template = u.template := by
    unfold injectOne
    split
    · exact throw
    · next i h =>
      refine (write _ _).bind fun _ _ => (note _).bind fun _ _ => pure ?_
      obtain ⟨_, _, rfl⟩ := Option.map_eq_some_iff.1 h
      rfl
  refine (mapM hone).mono fun injected h => ?_
  rw [← List.forall₂_eq_eq_eq, List.forall₂_map_left_iff, List.forall₂_map_right_iff]
  exact h.flip

end Answers

/-- Of each template there is one issue of the compilation, one of the flattening or one unit. -/
def Accounted (ordered : List Path) (issues : List Issue) (units : List InjectedUnit) : Prop :=
  ∀ t ∈ ordered, issueCount issues .compilation t + issueCount issues .flattening t +
    (units.map (·.template)).count t = 1

theorem Answers.preparing (checker : Stencil.Checker) (r : Request) {f : Found} {ordered : List Path}
    {warnings : List Issue} (hf : ∀ i ∈ f.misplaced, i.stage = .discovery) (hnodup : ordered.Nodup)
    (hwarnings : ∀ i ∈ warnings, i.stage = .dependencies) (lib : Template.Library) :
    Answers (preparing checker r f ordered lib warnings) fun p => Accounted ordered p.issues p.injected := by
  unfold Analysis.preparing
  refine (compileAll _ _ _ _).bind fun (compiled, uncompiled) ⟨huncompiled, hcompiled⟩ => ?_
  refine (flattenAll _ _ _).bind fun (flattened, unflattened) ⟨hunflattened, hflattened⟩ => ?_
  refine (collect _ _ _ _).bind fun _ _ => (renderPoints _ _ _).bind fun _ _ => ?_
  refine (injectAll _ _ _ _).bind fun injected hinjected => pure fun t ht => ?_
  replace hcompiled : issueCount uncompiled .compilation t + (compiled.map (·.template)).count t = 1 :=
    (hcompiled t).trans (List.count_eq_one_of_mem hnodup ht)
  replace hflattened : issueCount unflattened .flattening t + (flattened.map (·.template)).count t =
      (compiled.map (·.template)).count t := hflattened t
  -- An issue of another stage is none of these.
  simp only [issueCount_append, issueCount_other hf, issueCount_other hwarnings, issueCount_other huncompiled,
    issueCount_other hunflattened, ne_eq, reduceCtorEq, not_false_eq_true, hinjected]
  omega

/-! ### What the checker analyzes -/

/-- The report has the issues and names the entries that have a unit. The checker was given their units. -/
structure Concluded (entries : List Path) (p : Prepared) (report : Report) (w : Workspace) : Prop where
  issues : report.issues = p.issues
  templates : report.templates = entries.filter (· ∈ p.injected.map (·.template))
  analyzed : List.Forall₂ (fun t file => ∃ i ∈ p.injected, i.template = t ∧ i.file = file) report.templates w.analyzed

/-- The units found for templates are those of the templates that have one. -/
theorem map_filterMap_find (entries : List Path) (injected : List InjectedUnit) :
    (entries.filterMap fun t => injected.find? (·.template = t)).map (·.template) =
      entries.filter (· ∈ injected.map (·.template)) := by
  induction entries with
  | nil => rfl
  | cons t entries ih =>
    cases hfind : injected.find? (·.template = t) with
    | none =>
      have hnone : t ∉ injected.map (·.template) := fun h => by
        obtain ⟨i, hi, rfl⟩ := List.mem_map.1 h
        simpa using List.find?_eq_none.1 hfind i hi
      rw [List.filter_cons_of_neg (by simpa using hnone), ← ih]
      simp only [List.filterMap_cons, hfind]
    | some i =>
      have htemplate : i.template = t := by simpa using List.find?_some hfind
      have hmem : t ∈ injected.map (·.template) := htemplate ▸ List.mem_map_of_mem (List.mem_of_find?_eq_some hfind)
      rw [List.filter_cons_of_pos (by simpa using hmem), ← ih]
      simp only [List.filterMap_cons, hfind, List.map_cons, htemplate]

theorem ensures_check (units : List InjectedUnit) :
    Ensures (fun w => w.analyzed = []) (check checker units) (fun _ w => w.analyzed = units.map (·.file))
      fun _ _ => True := by
  unfold check
  refine .bind (Answers.note _ []) fun _ => .bind (Q := fun _ w => w.analyzed = units.map (·.file)) ?_ fun _ => ?_
  · exact .modify fun w hw => by simp [hw.2]
  refine .bind (.tree fun _ h => h) (Q := fun _ w => w.analyzed = units.map (·.file)) fun t => ?_
  refine .ite (fun _ => ?_) fun _ => .pure fun _ h => h
  exact .bind (Q := fun _ _ => False) (.throw fun _ _ => trivial) fun _ => .absurd _

theorem Answers.writeBaseline (file : Path) (ds : List Diagnostic) : Answers (writeBaseline file ds) fun _ => True := by
  refine (resolved _).bind fun file _ => orStop.bind fun entries _ => tree.bind fun t _ => ?_
  refine .bind (modify fun _ => rfl) fun _ _ => orStop.bind fun _ _ => (note _).bind fun _ _ => ?_
  exact (note _).bind fun _ _ => pure trivial

theorem ensures_concluding (f : Found) (p : Prepared) :
    Ensures (fun w => w.analyzed = []) (concluding checker r f p) (Concluded f.entries p) fun _ _ => True := by
  have htemplates := map_filterMap_find f.entries p.injected
  unfold concluding
  set units := f.entries.filterMap fun t => p.injected.find? (·.template = t) with hunits
  have hmem : ∀ i ∈ units, i ∈ p.injected := fun i hi => by
    obtain ⟨t, -, ht⟩ := List.mem_filterMap.1 hi
    exact List.mem_of_find?_eq_some ht
  have hasked : List.Forall₂ (fun t file => ∃ i ∈ p.injected, i.template = t ∧ i.file = file)
      (units.map (·.template)) (units.map (·.file)) := by
    rw [List.forall₂_map_left_iff, List.forall₂_map_right_iff, List.forall₂_same]
    exact fun i hi => ⟨i, hmem i hi, rfl, rfl⟩
  refine .ite (fun hnone => ?_) fun _ => (ensures_check units).bind fun findings => ?_
  · rw [List.isEmpty_iff] at hnone
    rw [hnone] at htemplates
    refine .bind (Answers.note _ []) fun _ => .pure fun w hw => ⟨rfl, htemplates, ?_⟩
    rw [hw.2]
    exact .nil
  · have hends (report : Report) (h : report.issues = p.issues ∧ report.templates = units.map (·.template)) (w : Workspace)
        (hw : w.analyzed = units.map (·.file)) : Concluded f.entries p report w :=
      ⟨h.1, h.2.trans htemplates, by rw [h.2, hw]; exact hasked⟩
    refine .mono (Answers.bind (Answers.forM fun _ => Answers.note _) (fun _ _ => ?_) (units.map (·.file))) (fun _ => id)
      (fun report w h => hends report h.1 w h.2) fun _ _ => id
    split
    · exact (Answers.writeBaseline _ _).bind fun _ _ => Answers.pure ⟨rfl, rfl⟩
    · exact Answers.tree.bind fun _ _ => Answers.orStop.bind fun _ _ => Answers.pure ⟨rfl, rfl⟩

/-! ### All of a run -/

theorem Answers.ok {x : Work α} {R : α → Prop} {a : α} {w w' : Workspace} (hx : Answers x R)
    (h : x.run w = (.ok a, w')) : R a ∧ w'.analyzed = w.analyzed := by
  have hok := (hx w.analyzed).ok rfl (congrArg Prod.fst h)
  rwa [congrArg Prod.snd h] at hok

/-- Of each template that was sorted, the report has one issue of the compilation or one of the flattening, or there
is one unit for it. The templates of the report are the entries with a unit, in their order, and the checker was
given the units of these. Without entries nothing is sorted. -/
def Accounts (checker : Stencil.Checker) (r : Request) (t : Files.Tree) (report : Report) (w : Workspace) : Prop :=
  ∃ f w₁, (finding r).run (.ofTree t) = (.ok f, w₁) ∧ (f.entries ≠ [] →
    ∃ ordered lib warnings w₂ p w₃, (order f.setup f.entries).run w₁ = (.ok (ordered, lib, warnings), w₂) ∧
      (preparing checker r f ordered lib warnings).run w₂ = (.ok p, w₃) ∧
      ordered.Nodup ∧ (∀ a ∈ f.entries, a ∈ ordered) ∧ Accounted ordered report.issues p.injected ∧
      Concluded f.entries p report w)

/-- No template is left out in silence. -/
theorem run_accounts {t : Files.Tree} {report : Report} {w : Workspace} (h : run checker r t = (.ok report, w)) :
    Accounts checker r t report w := by
  rw [run, analyze_eq] at h
  obtain ⟨f, w₁, hfound, h⟩ := exists_of_run_bind h
  obtain ⟨hmisplaced, hnew⟩ := (Answers.finding r).ok hfound
  refine ⟨f, w₁, hfound, fun hentries => ?_⟩
  rw [if_neg (by simpa using hentries)] at h
  obtain ⟨⟨ordered, lib, warnings⟩, w₂, hsorted, h⟩ := exists_of_run_bind h
  obtain ⟨p, w₃, hprepared, h⟩ := exists_of_run_bind h
  obtain ⟨⟨hnodup, hmem, hwarnings⟩, hold⟩ := (Answers.order _ _).ok hsorted
  obtain ⟨haccounted, hkept⟩ := (Answers.preparing checker r hmisplaced hnodup hwarnings lib).ok hprepared
  have hconcluded : Concluded f.entries p report w := by
    have hok := (ensures_concluding f p).ok (hkept.trans (hold.trans hnew)) (congrArg Prod.fst h)
    rwa [congrArg Prod.snd h] at hok
  refine ⟨ordered, lib, warnings, w₂, p, w₃, hsorted, hprepared, hnodup, hmem, ?_, hconcluded⟩
  rw [hconcluded.issues]
  exact haccounted

/-- A checker with nothing to say. -/
def silent : Stencil.Checker := ⟨fun _ _ => ⟨[], [], []⟩, fun _ _ => ⟨[], []⟩⟩

/-- A page that ends in a tag. -/
def brokenPage : Files.Tree := ⟨[(Dependency.page.parts, .file "\x7b%".toUTF8)]⟩

def onlyPage : Request :=
  ⟨Dependency.root, { Settings.default with templateSuffixes := [""] }, [Dependency.page], false, none⟩

theorem run_accounts_brokenPage : ∃ report w, run silent onlyPage brokenPage = (.ok report, w) ∧
    issueCount report.issues .compilation Dependency.page = 1 ∧ report.templates = [] ∧
    Accounts silent onlyPage brokenPage report w := by
  obtain ⟨report, hreport, hseen⟩ : ∃ report, (run silent onlyPage brokenPage).1 = .ok report ∧
      (issueCount report.issues .compilation Dependency.page, report.templates) = (1, []) :=
    Dependency.of_toOption_map (by decide +kernel)
  obtain ⟨hissues, htemplates⟩ := Prod.mk.inj hseen
  have hrun : run silent onlyPage brokenPage = (.ok report, (run silent onlyPage brokenPage).2) := Prod.ext hreport rfl
  exact ⟨report, _, hrun, hissues, htemplates, run_accounts hrun⟩

end Stencil.Analysis
