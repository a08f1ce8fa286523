import Stencil.Proofs.Analysis.Classes
import Stencil.Proofs.Baseline.RoundTrip
import Stencil.Proofs.Files.Confined

/-!
Where a run leaves traces. It works in its scratch directory, which lies below the root, and makes what is missing
above it; a baseline is written where it was asked for. Nothing else is made, changed or removed, however the
run ends.
-/
namespace Stencil.Analysis
open Compile Diagnosis Flatten Observed Files Tree

variable {α β ε : Type} {checker : Stencil.Checker} {r : Request} {start t t' : Files.Tree} {place d : Path} {s : Setup}
  {ds : List Path} {name : String}

/-! ### Files of the stages -/

theorem fileName_ne_up (template : Path) : Code.fileName template ≠ ".." := by
  intro h
  have hlast := congrArg (fun s : String => s.toList.getLast?) h
  have hend : (".py" : String).toList = ['.', 'p', 'y'] := rfl
  rw [Code.fileName, String.toList_append, hend, List.getLast?_append] at hlast
  cases hlast

theorem file_of_compile {dialect : Template.Dialect} {library : Template.Library} {template directory : Path}
    {u : CompiledUnit} (h : compile dialect library t template directory = .ok u) :
    u.file = directory.child (Code.fileName template) := by
  obtain ⟨document, -, hdocument⟩ := compile_eq_ok h
  unfold ofDocument at hdocument
  split at hdocument <;> cases hdocument
  rfl

theorem file_of_flattenUnit (sources : List Source) (directory template : Path) :
    Ensures (fun _ => True) (Shared.flattenUnit sources directory template)
      (fun u _ => u.file = directory.child (Code.fileName template)) fun _ _ => True := by
  unfold Shared.flattenUnit
  rw [map_eq_pure_bind]
  exact .bind (.trivial _) fun c => .pure fun _ _ => rfl

theorem file_of_injectUnit {directory : Path} {sighting : Sighting} {u : FlattenedUnit} {i : InjectedUnit}
    (h : injectUnit directory sighting u = some i) : i.file = directory.child (Code.fileName u.template) := by
  obtain ⟨_, -, rfl⟩ := Option.map_eq_some_iff.1 h
  rfl

/-! ### Work that stays in place -/

theorem exists_stage (h : d ∈ (Scratch.below place).toList) : ∃ name, name ≠ ".." ∧ d = place.child name := by
  simp only [Scratch.toList, Scratch.below, List.mem_cons, List.not_mem_nil, or_false] at h
  obtain rfl | rfl | rfl | rfl := h
  · exact ⟨"compilation", by decide, rfl⟩
  · exact ⟨"flattening", by decide, rfl⟩
  · exact ⟨"scope-injection", by decide, rfl⟩
  · exact ⟨"mypy", by decide, rfl⟩

/-- The tree that a run is at: nothing was touched outside of its place, and no link is in the way of what is put
into directories that are ready. -/
structure Settled (start : Files.Tree) (place : Path) (ds : List Path) (t : Files.Tree) : Prop where
  confined : Confined (place.parts <+: ·) place.parts start t
  rooted : t.Rooted
  ready : ∀ d ∈ ds, t.Plain d.parts

theorem Settled.initial (ht : start.Rooted) : Settled start place [] start := ⟨.refl, ht, by simp⟩

theorem Settled.of_subset {ds' : List Path} (h : Settled start place ds t) (hsub : ∀ d ∈ ds', d ∈ ds) :
    Settled start place ds' t :=
  ⟨h.confined, h.rooted, fun d hd => h.ready d (hsub d hd)⟩

theorem Settled.change (h : Settled start place ds t) (hc : Confined (place.parts <+: ·) place.parts t t') :
    Settled start place ds t' :=
  ⟨h.confined.trans hc, hc.rooted h.rooted, fun d hd => (h.ready d hd).of_confined hc⟩

theorem Settled.write {source : String} (h : Settled start place (Scratch.below place).toList t)
    (hd : d ∈ (Scratch.below place).toList) (hname : name ≠ "..")
    (hwrite : t.writeText (d.child name) source = .ok t') : Settled start place (Scratch.below place).toList t' := by
  have hwrite : t.write (d.child name).parts source.toUTF8 = .ok t' := by
    rw [writeText] at hwrite
    split at hwrite <;> cases hwrite
    assumption
  have hplace : place.parts <+: (d.child name).parts := by
    obtain ⟨stage, -, rfl⟩ := exists_stage hd
    exact ⟨[stage, name], by simp [Path.child]⟩
  refine h.change ((confined_write h.rooted ((h.ready d hd).child hname) hwrite).mono (fun p hp => ?_) List.prefix_rfl)
  rwa [hp]

/-- Work whose answers satisfy `R` and which keeps `I` true of the tree, also if it fails. -/
def Stays (I : Files.Tree → Prop) (x : Work α) (R : α → Prop) : Prop :=
  Ensures (fun w => I w.tree) x (fun a w => R a ∧ I w.tree) fun _ w => I w.tree

namespace Stays

variable {I : Files.Tree → Prop} {x y : Work α} {R R' : α → Prop} {Q : β → Prop}

theorem bind {f : α → Work β} (hx : Stays I x R) (hf : ∀ a, R a → Stays I (f a) Q) : Stays I (x >>= f) Q := by
  refine Ensures.bind hx fun a w hw => ?_
  exact hf a hw.1 w hw.2

theorem pure {a : α} (h : R a) : Stays I (pure a) R := Ensures.pure fun _ hw => ⟨h, hw⟩

theorem throw {e : Stop} : Stays I (throw e : Work α) R := Ensures.throw fun _ => id

theorem mono (hx : Stays I x R) (h : ∀ a, R a → R' a) : Stays I x R' :=
  Ensures.mono hx (fun _ => id) (fun a _ hw => ⟨h a hw.1, hw.2⟩) fun _ _ => id

theorem ite {c : Prop} {_ : Decidable c} (hx : c → Stays I x R) (hy : ¬ c → Stays I y R) :
    Stays I (if c then x else y) R :=
  Ensures.ite hx hy

theorem modify {f : Workspace → Workspace} (h : ∀ w, (f w).tree = w.tree) : Stays I (modify f) fun _ => True :=
  Ensures.modify fun w hw => ⟨trivial, by rwa [h w]⟩

theorem note (e : Event) : Stays I (note e) fun _ => True := modify fun _ => rfl

theorem tree : Stays I tree I := Ensures.tree fun _ hw => ⟨hw, hw⟩

theorem orStop {stop : ε → Stop} {r : Except ε α} : Stays I (orStop stop r) fun a => r = .ok a :=
  Ensures.orStop (fun _ ha _ hw => ⟨ha, hw⟩) fun _ _ _ hw => hw

theorem forIn {as : List β} {f : β → PUnit → Work (ForInStep PUnit)} (h : ∀ b, Stays I (f b ⟨⟩) fun _ => True) :
    Stays I (forIn as ⟨⟩ f) fun _ => True := by
  induction as with
  | nil => exact pure trivial
  | cons a as ih =>
    rw [List.forIn_cons]
    refine (h a).bind fun step _ => ?_
    split
    · exact pure trivial
    · exact ih

theorem forM {as : List β} {f : β → Work PUnit} (h : ∀ b, Stays I (f b) fun _ => True) :
    Stays I (as.forM f) fun _ => True := by
  induction as with
  | nil => exact pure trivial
  | cons a as ih => exact (h a).bind fun _ _ => ih

theorem mapM {as : List β} {f : β → Work α} (h : ∀ b, Stays I (f b) fun _ => True) :
    Stays I (as.mapM f) fun _ => True := by
  induction as with
  | nil => exact pure trivial
  | cons a as ih =>
    rw [List.mapM_cons]
    exact (h a).bind fun _ _ => ih.bind fun _ _ => pure trivial

/-- A change that can be made keeps `I`. -/
theorem change {f : Files.Tree → Except Trouble Files.Tree} (h : ∀ t t', I t → f t = .ok t' → I t') :
    Stays I (change f) fun _ => True := by
  refine Ensures.tree_bind fun t ht => Ensures.orStop_bind (fun t' ht' => ?_) fun _ _ w hw => hw ▸ ht
  exact Ensures.modify fun w _ => ⟨trivial, h t t' ht ht'⟩

end Stays

/-! ### The scratch directories -/

/-- A directory is ready once it was renewed, whatever was there. -/
theorem renew_settles (hplace : start.Straight place.parts) (hname : name ≠ "..") (ds : List Path) :
    Ensures (fun w => Settled start place ds w.tree) (renew (place.child name))
      (fun _ w => Settled start place (place.child name :: ds) w.tree) fun _ w => Settled start place ds w.tree := by
  have hbelow : place.parts <+: place.parts ++ [name] := List.prefix_append _ _
  refine Ensures.bind (Q := fun _ w => Settled start place ds w.tree) (Ensures.modify fun w hw => ?_) fun _ => ?_
  · exact hw.change ((removeDir_straight (hw.confined.straight hplace) hname).mono (fun p hp => hbelow.trans hp)
      List.prefix_rfl)
  refine Ensures.tree_bind fun t ht => Ensures.orStop_bind (fun t' hmake => Ensures.modify fun w _ => ?_)
    fun _ _ w hw => hw ▸ ht
  obtain ⟨hconfined, hplain⟩ := makeNewDir_plain ht.rooted (ht.confined.straight hplace) hmake
  have hchange := ht.change hconfined.of_child
  exact ⟨hchange.confined, hchange.rooted, List.forall_mem_cons.2 ⟨hplain, hchange.ready⟩⟩

theorem forM_renew_settles (hplace : start.Straight place.parts) (ds done : List Path)
    (hds : ∀ d ∈ ds, ∃ name, name ≠ ".." ∧ d = place.child name) :
    Ensures (fun w => Settled start place done w.tree) (ds.forM renew)
      (fun _ w => Settled start place (ds ++ done) w.tree) fun _ w => Settled start place [] w.tree := by
  induction ds generalizing done with
  | nil => exact .pure fun _ => id
  | cons d ds ih =>
    obtain ⟨⟨name, hname, rfl⟩, hrest⟩ := List.forall_mem_cons.1 hds
    refine Ensures.bind ((renew_settles hplace hname done).mono (fun _ => id) (fun _ _ => id)
      fun _ w hw => hw.of_subset (by simp)) fun _ => ?_
    refine (ih (place.child name :: done) hrest).mono (fun _ => id) (fun _ w hw => hw.of_subset ?_) fun _ _ => id
    simp [or_left_comm]

/-- The scratch directory is where the settings say, and the directories of the stages are ready. -/
theorem setup_settles (ht : start.Rooted) {base : Place} (hbase : start.resolve false r.root.parts = .ok base)
    (hscratch : Settings.resolveScratch start ⟨true, base⟩ r.settings.scratchDir = .ok place)
    (hplace : start.Straight place.parts) :
    Ensures (fun w => w.tree = start) (setup r)
      (fun s w => s.scratch = .below place ∧ Settled start place (Scratch.below place).toList w.tree)
      fun _ w => Settled start place [] w.tree := by
  have hold (w : Workspace) (hw : w.tree = start) : Settled start place [] w.tree := by
    rw [hw]
    exact .initial ht
  have hprepare : Ensures (fun w => w.tree = start) (Scratch.prepare ⟨true, base⟩ r.settings)
      (fun s w => s = .below place ∧ Settled start place (Scratch.below place).toList w.tree)
      fun _ w => Settled start place [] w.tree := by
    refine Ensures.known_tree_bind (Ensures.orStop_bind (fun place' h => ?_) fun _ _ => hold)
    obtain rfl := Except.ok.inj (hscratch.symm.trans h)
    refine Ensures.bind ((forM_renew_settles hplace _ [] fun d => exists_stage).mono hold (fun _ _ => id) fun _ _ => id)
      fun _ => Ensures.pure fun w hw => ⟨rfl, by simpa using hw⟩
  refine Ensures.resolved_bind (fun q hq => ?_) fun _ _ => hold
  obtain rfl := Except.ok.inj (hbase.symm.trans hq)
  refine Ensures.bind hprepare fun scratch => Ensures.orStop_bind (fun dialect _ => Ensures.pure fun w hw => hw)
    fun _ _ w hw => hw.2.of_subset (by simp)

/-! ### The stages -/

namespace Stays

variable {I : Files.Tree → Prop}

theorem order (s : Setup) (entries : List Path) : Stays I (order s entries) fun _ => True :=
  (note _).bind fun _ _ => tree.bind fun _ _ => orStop.bind fun _ _ => (note _).bind fun _ _ => orStop.bind fun _ _ =>
    (note _).bind fun _ _ => pure trivial

theorem collect (checker : Stencil.Checker) (s : Setup) (settings : Settings) (units : List FlattenedUnit) :
    Stays I (collect checker s settings units) fun _ => True := by
  unfold Analysis.collect
  refine (note _).bind fun _ _ => tree.bind fun _ _ => orStop.bind fun code _ => ?_
  refine .bind (modify fun _ => rfl) fun _ _ => tree.bind fun t _ => ?_
  exact ite (fun _ => throw.bind fun _ (_ : True) => pure trivial) fun _ => pure trivial

theorem noteUnknown (lib : Template.Library) (event : String → Event) (references : List String) :
    Stays I (noteUnknown lib event references) fun _ => True := by
  unfold Analysis.noteUnknown
  refine (forIn fun reference => tree.bind fun t _ => ?_).bind fun _ _ => pure trivial
  split
  · exact pure trivial
  · exact (note _).bind fun _ _ => pure trivial
  · exact throw.bind fun _ (_ : True) => pure trivial

theorem renderPoints (lib : Template.Library) (units : List FlattenedUnit) (calls : List RenderCall) :
    Stays I (renderPoints lib units calls) fun _ => True :=
  (noteUnknown _ _ _).bind fun _ _ => tree.bind fun _ _ => orStop.mono fun _ _ => trivial

theorem check (checker : Stencil.Checker) (units : List InjectedUnit) : Stays I (check checker units) fun _ => True := by
  unfold Analysis.check
  refine (note _).bind fun _ _ => .bind (modify fun _ => rfl) fun _ _ => tree.bind fun _ _ => ?_
  exact ite (fun _ => throw.bind fun _ (_ : True) => pure trivial) fun _ => pure trivial

end Stays

/-- The same for work with a state of its own. -/
def StaysWith {σ : Type} (I : Files.Tree → Prop) (x : StateT σ Work α) : Prop := ∀ s, Stays I (x.run s) fun _ => True

namespace StaysWith

variable {I : Files.Tree → Prop} {σ : Type} {x y : StateT σ Work α}

theorem bind {f : α → StateT σ Work β} (hx : StaysWith I x) (hf : ∀ a, StaysWith I (f a)) : StaysWith I (x >>= f) := by
  intro s
  rw [StateT.run_bind]
  exact (hx s).bind fun r _ => hf r.1 r.2

theorem pure (a : α) : StaysWith I (pure a : StateT σ Work α) := fun _ => .pure trivial

theorem lift {x : Work α} (hx : Stays I x fun _ => True) : StaysWith I (liftM x : StateT σ Work α) := fun _ =>
  hx.bind fun _ _ => .pure trivial

theorem get : StaysWith I (get : StateT σ Work σ) := fun _ => .pure trivial

theorem set (s : σ) : StaysWith I (set s : StateT σ Work PUnit) := fun _ => .pure trivial

theorem throw (e : Stop) : StaysWith I (throw e : StateT σ Work α) := fun _ => .throw

theorem mapM {f : β → StateT σ Work α} (h : ∀ b, StaysWith I (f b)) (bs : List β) : StaysWith I (bs.mapM f) := by
  induction bs with
  | nil => exact pure _
  | cons b bs ih =>
    rw [List.mapM_cons]
    exact (h b).bind fun _ => ih.bind fun _ => pure _

end StaysWith

/-- Work that leaves no traces but in the directories of the stages. -/
abbrev Works (start : Files.Tree) (place : Path) (x : Work α) : Prop :=
  Stays (Settled start place (Scratch.below place).toList) x fun _ => True

theorem works_write {directory : Path} (hd : directory ∈ (Scratch.below place).toList) (template : Path)
    (source : String) : Works start place (write (directory.child (Code.fileName template)) source) :=
  .change fun t t' h hwrite => by
    cases hw : t.writeText (directory.child (Code.fileName template)) source with
    | error e => simp [hw, Except.mapError] at hwrite
    | ok t'' =>
      rw [hw] at hwrite
      cases hwrite
      exact h.write hd (fileName_ne_up template) hw

section Stages

variable (hs : s.scratch = .below place)
include hs

theorem compileOne_works (debug : Bool) (lib : Template.Library) (template : Path) :
    Works start place (compileOne s debug lib template) := by
  unfold compileOne
  refine Stays.tree.bind fun t _ => ?_
  split
  · next u h =>
    have hwrite : Works start place (write u.file u.source) := by
      rw [file_of_compile h, hs]
      exact works_write (by simp [Scratch.toList]) template u.source
    exact hwrite.bind fun _ _ => (Stays.note _).bind fun _ _ => .pure trivial
  · exact .ite (fun _ => Stays.throw.bind fun _ (_ : True) => (Stays.note _).bind fun _ _ => .pure trivial)
      fun _ => (Stays.note _).bind fun _ _ => .pure trivial
  · exact .throw
  · exact .throw

theorem compileAll_works (debug : Bool) (lib : Template.Library) (ordered : List Path) :
    Works start place (compileAll s debug lib ordered) :=
  (Stays.note _).bind fun _ _ => (Stays.mapM (compileOne_works hs debug lib)).bind fun _ _ => .pure trivial

theorem flattenOne_works (debug : Bool) (sources : List Source) (template : Path) :
    StaysWith (Settled start place (Scratch.below place).toList) (flattenOne s debug sources template) := by
  unfold flattenOne
  refine .bind .get fun table => ?_
  have hfile := file_of_flattenUnit sources s.scratch.flattening template table trivial
  generalize (Shared.flattenUnit sources s.scratch.flattening template).run table = result at hfile ⊢
  obtain ⟨outcome, made⟩ := result
  refine .bind (.set made) fun _ => ?_
  cases outcome with
  | ok u =>
    have hwrite : Works start place (write u.file u.source) := by
      rw [hfile, hs]
      exact works_write (by simp [Scratch.toList]) template u.source
    exact .bind (.lift hwrite) fun _ => .bind (.lift (.note _)) fun _ => .pure _
  | error f =>
    cases f with
    | error e =>
      dsimp only
      split
      · exact .bind (.throw _) fun _ => .bind (.lift (.note _)) fun _ => .pure _
      · exact .bind (.lift (.note _)) fun _ => .pure _
    | fault => exact .throw _
    | endless => exact .throw _

theorem flattenAll_works (debug : Bool) (units : List CompiledUnit) : Works start place (flattenAll s debug units) := by
  have hone (u : CompiledUnit) : StaysWith (Settled start place (Scratch.below place).toList)
      (flattenOne s debug (units.map Source.ofUnit) u.template) :=
    flattenOne_works hs debug (units.map Source.ofUnit) u.template
  have hrun := StaysWith.mapM hone
  exact (Stays.note _).bind fun _ _ => ((hrun units []).bind (Q := fun _ => True) fun _ _ => .pure trivial).bind
    fun _ _ => .pure trivial

theorem injectAll_works (lib : Template.Library) (observations : List Observation) (units : List FlattenedUnit) :
    Works start place (injectAll s lib observations units) := by
  have hone (found : List (Path × Observation)) (u : FlattenedUnit) : Works start place (injectOne s found u) := by
    unfold injectOne
    split
    · exact .throw
    · next i h =>
      have hwrite : Works start place (write i.file i.source) := by
        rw [file_of_injectUnit h, hs]
        exact works_write (by simp [Scratch.toList]) u.template i.source
      exact hwrite.bind fun _ _ => (Stays.note _).bind fun _ _ => .pure trivial
  exact (Stays.note _).bind fun _ _ => (Stays.noteUnknown _ _ _).bind fun _ _ => Stays.tree.bind fun _ _ =>
    Stays.orStop.bind fun found _ => .mapM (hone found)

end Stages

theorem preparing_works {f : Found} (hs : f.setup.scratch = .below place) (ordered : List Path) (lib : Template.Library)
    (warnings : List Issue) : Works start place (preparing checker r f ordered lib warnings) :=
  (compileAll_works hs _ _ _).bind fun (_, _) _ => (flattenAll_works hs _ _).bind fun (_, _) _ =>
    (Stays.collect _ _ _ _).bind fun _ _ => (Stays.renderPoints _ _ _).bind fun _ _ =>
      (injectAll_works hs _ _ _).bind fun _ _ => .pure trivial

theorem finding_works (ht : start.Rooted) {base : Place} (hbase : start.resolve false r.root.parts = .ok base)
    (hscratch : Settings.resolveScratch start ⟨true, base⟩ r.settings.scratchDir = .ok place)
    (hplace : start.Straight place.parts) :
    Ensures (fun w => w.tree = start) (finding r)
      (fun f w => f.setup.scratch = .below place ∧ Settled start place (Scratch.below place).toList w.tree)
      fun _ w => Settled start place [] w.tree := by
  refine Ensures.bind (setup_settles ht hbase hscratch hplace) fun s => ?_
  intro w ⟨hs, hw⟩
  have hstays {x : Work Found} (hx : Stays (Settled start place (Scratch.below place).toList) x
      fun f => f.setup.scratch = .below place) :
      Ensures (fun w => Settled start place (Scratch.below place).toList w.tree) x
        (fun f w => f.setup.scratch = .below place ∧ Settled start place (Scratch.below place).toList w.tree)
        fun _ w => Settled start place [] w.tree :=
    Ensures.mono hx (fun _ => id) (fun _ _ => id) fun _ _ h => h.of_subset (by simp)
  refine hstays (Stays.tree.bind fun _ _ => Stays.orStop.bind fun _ _ => Stays.tree.bind fun _ _ =>
    Stays.orStop.bind fun _ _ => ?_) w hw
  exact .pure hs

/-! ### Baselines -/

/-- A baseline is written where its path is, in directories that are made if they are missing. -/
theorem dump_confined (ht : t.Rooted) {p : Path} (hp : t.Straight p.parts) (entries : List Baseline.Entry) :
    Confined (· = p.parts) p.parts.dropLast t ((Baseline.dump p entries).run.run t).2 := by
  rw [Baseline.run_dump]
  split
  · exact .refl
  split
  · exact .refl
  next t' hmake =>
  have hdirs : Confined (· = p.parts) p.parts.dropLast t t' :=
    (makeDirs_straight (hp.of_prefix (List.dropLast_prefix _)) hmake).mono (fun _ => False.elim) List.prefix_rfl
  split
  · split
    · exact hdirs
    · next t'' hwrite =>
      rw [writeText] at hwrite
      split at hwrite <;> cases hwrite
      next hwrite => exact hdirs.trans (confined_write (hdirs.rooted ht) (hdirs.straight hp) hwrite)
  · exact hdirs

/-- The baseline was written to where the path leads, or the tree is as it was. What is written behind a loop of
links is left open. -/
def Written (file : Path) (t t' : Files.Tree) : Prop :=
  t' = t ∨ ∃ q, t.resolve false file.parts = .ok q ∧ (t.Loopless file.parts → Confined (· = q) q.dropLast t t')

theorem writeBaseline_written (ht : t.Rooted) (file : Path) (ds : List Diagnostic) :
    Ensures (fun w => w.tree = t) (writeBaseline file ds) (fun _ w => Written file t w.tree)
      fun _ w => Written file t w.tree := by
  unfold writeBaseline
  refine Ensures.resolved_bind (fun q hq => Ensures.orStop_bind (fun entries _ => ?_) fun _ _ _ => .inl) fun _ _ _ => .inl
  refine Ensures.known_tree_bind (Ensures.bind (Q := fun _ w => Written file t w.tree)
    (Ensures.modify fun w hw => .inr ⟨q, hq, fun hloop => ?_⟩) fun _ => ?_)
  · exact dump_confined (p := ⟨true, q⟩) ht ((hloop.clear hq).straight ht) entries
  · refine Ensures.orStop_bind (fun _ _ => ?_) fun _ _ _ => id
    exact Ensures.bind (Ensures.note fun _ => id) fun _ => Ensures.bind (Ensures.note fun _ => id) fun _ =>
      Ensures.pure fun _ => id

/-! ### All of a run -/

/-- A run worked in `place`, and made what was missing above it. Then it wrote a baseline if it was asked to. -/
def Worked (r : Request) (place : Path) (t t' : Files.Tree) : Prop :=
  ∃ mid, Confined (place.parts <+: ·) place.parts t mid ∧
    (t' = mid ∨ ∃ file, r.baseline = some file ∧ Written file mid t')

theorem Settled.worked {ds : List Path} (h : Settled start place ds t) : Worked r place start t :=
  ⟨t, h.confined, .inl rfl⟩

theorem concluding_worked (f : Found) (p : Prepared) :
    Ensures (fun w => Settled start place (Scratch.below place).toList w.tree) (concluding checker r f p)
      (fun _ w => Worked r place start w.tree) fun _ w => Worked r place start w.tree := by
  have hworks {α : Type} {x : Work α} {R : α → Prop} (hx : Stays (Settled start place (Scratch.below place).toList) x R) :
      Ensures (fun w => Settled start place (Scratch.below place).toList w.tree) x
        (fun _ w => Settled start place (Scratch.below place).toList w.tree) fun _ w => Worked r place start w.tree :=
    Ensures.mono hx (fun _ => id) (fun _ _ => And.right) fun _ _ h => h.worked
  have hends {α : Type} {x : Work α} {R : α → Prop} (hx : Stays (Settled start place (Scratch.below place).toList) x R) :
      Ensures (fun w => Settled start place (Scratch.below place).toList w.tree) x
        (fun _ w => Worked r place start w.tree) fun _ w => Worked r place start w.tree :=
    (hworks hx).mono (fun _ => id) (fun _ _ h => h.worked) fun _ _ => id
  unfold concluding
  refine .ite (fun _ => ?_) fun _ => ?_
  · exact hends (R := fun _ => True) ((Stays.note _).bind fun _ _ => .pure trivial)
  refine Ensures.bind (hworks (Stays.check _ _)) fun findings => Ensures.bind (hworks (.forM fun _ => .note _)) fun _ => ?_
  split
  · next file hfile =>
    intro w hw
    have hwritten := writeBaseline_written hw.rooted file (diagnose r.settings p.injected p.table findings)
    have hworked {w' : Workspace} (h : Written file w.tree w'.tree) : Worked r place start w'.tree :=
      ⟨w.tree, hw.confined, .inr ⟨file, hfile, h⟩⟩
    refine (?_ : Ensures (fun w' => w'.tree = w.tree) _ (fun _ w' => Worked r place start w'.tree)
      fun _ w' => Worked r place start w'.tree) w rfl
    exact Ensures.bind (hwritten.mono (fun _ => id) (fun _ _ => hworked) fun _ _ => hworked) fun _ => Ensures.pure fun _ => id
  · exact hends (R := fun _ => True) (Stays.tree.bind fun _ _ => Stays.orStop.bind fun _ _ => .pure trivial)

theorem analyze_worked (ht : start.Rooted) {base : Place} (hbase : start.resolve false r.root.parts = .ok base)
    (hscratch : Settings.resolveScratch start ⟨true, base⟩ r.settings.scratchDir = .ok place)
    (hplace : start.Straight place.parts) :
    Ensures (fun w => w.tree = start) (analyze checker r) (fun _ w => Worked r place start w.tree)
      fun _ w => Worked r place start w.tree := by
  rw [analyze_eq]
  refine Ensures.bind ((finding_works ht hbase hscratch hplace).mono (fun _ => id) (fun _ _ => id) fun _ _ h => h.worked)
    fun f => ?_
  intro w ⟨hs, hw⟩
  refine (?_ : Ensures (fun w => Settled start place (Scratch.below place).toList w.tree) _ _ _) w hw
  refine .ite (fun _ => ?_) fun _ => ?_
  · exact Ensures.bind (Q := fun _ w => Settled start place (Scratch.below place).toList w.tree)
      (Ensures.note fun _ h => h) fun _ => Ensures.pure fun _ h => h.worked
  · have hworks {α : Type} {x : Work α} (hx : Works start place x) :
        Ensures (fun w => Settled start place (Scratch.below place).toList w.tree) x
          (fun _ w => Settled start place (Scratch.below place).toList w.tree) fun _ w => Worked r place start w.tree :=
      Ensures.mono hx (fun _ => id) (fun _ _ => And.right) fun _ _ h => h.worked
    exact Ensures.bind (hworks (Stays.order _ _)) fun (_, _, _) => Ensures.bind (hworks (preparing_works hs _ _ _)) fun p =>
      concluding_worked f p

theorem resolveScratch_eq_ok {root : Path} {dir : String} (h : Settings.resolveScratch t root dir = .ok place) :
    ∃ base, t.resolve false root.parts = .ok base ∧
      t.resolve false (base ++ (Path.ofString dir).parts) = .ok place.parts ∧ base <+: place.parts ∧ place.parts ≠ base := by
  unfold Settings.resolveScratch at h
  split at h
  · cases h
  split at h
  · cases h
  cases hbase : t.resolve false root.parts with
  | error e => simp [hbase] at h
  | ok base =>
    cases hplace : t.resolve false (base ++ (Path.ofString dir).parts) with
    | error e => simp [hbase, hplace] at h
    | ok q =>
      simp only [hbase, hplace] at h
      split at h
      · cases h
      next hbelow =>
      split at h
      · cases h
      next hlength =>
      cases h
      exact ⟨base, rfl, hplace, by simpa using hbelow, fun heq => hlength (beq_iff_eq.2 (congrArg List.length heq))⟩

/-- Work that begins with an answer that is not there ends with the tree as it was. -/
theorem unchanged_of_setup (h : Ensures (fun w => w.tree = t) (setup r) (fun _ _ => False) fun _ w => w.tree = t) :
    (run checker r t).2.tree = t := by
  have hanalyze : Ensures (fun w => w.tree = t) (analyze checker r) (fun _ w => w.tree = t) fun _ w => w.tree = t := by
    unfold analyze
    exact Ensures.bind h fun _ => .absurd _
  cases hrun : (run checker r t).1 with
  | ok report => exact hanalyze.ok rfl hrun
  | error e => exact hanalyze.error rfl hrun

/-- A run leaves traces only in its scratch directory, which lies below the root, and in directories above it that
were missing; if it is to write a baseline, also in this file and in directories above it that were missing. If
there is no scratch directory it leaves none. Nothing is said of paths that run into a loop of links. -/
theorem run_confined (checker : Stencil.Checker) (r : Request) {t : Files.Tree} (ht : t.Rooted) :
    (∀ e, t.resolve false r.root.parts = .error e → (run checker r t).2.tree = t) ∧
    ∀ base, t.resolve false r.root.parts = .ok base →
      (∀ e, Settings.resolveScratch t ⟨true, base⟩ r.settings.scratchDir = .error e → (run checker r t).2.tree = t) ∧
      ∀ place, Settings.resolveScratch t ⟨true, base⟩ r.settings.scratchDir = .ok place →
        t.Loopless r.root.parts → t.Loopless (base ++ (Path.ofString r.settings.scratchDir).parts) →
        base <+: place.parts ∧ place.parts ≠ base ∧ Worked r place t (run checker r t).2.tree := by
  refine ⟨fun e he => unchanged_of_setup ?_, fun base hbase => ⟨fun e he => unchanged_of_setup ?_, ?_⟩⟩
  · refine Ensures.resolved_bind (fun q hq => ?_) fun _ _ _ => id
    cases he.symm.trans hq
  · refine Ensures.resolved_bind (fun q hq => ?_) fun _ _ _ => id
    obtain rfl := Except.ok.inj (hbase.symm.trans hq)
    rw [Scratch.prepare, bind_assoc]
    refine Ensures.known_tree_bind ?_
    rw [bind_assoc]
    refine Ensures.orStop_bind (fun place hplace => ?_) fun _ _ _ => id
    cases he.symm.trans hplace
  · intro place hscratch hroot hloop
    -- the scratch directory is looked for at the resolved root, which is resolved once more
    obtain ⟨base', hbase', hplace, hbelow, hne⟩ := resolveScratch_eq_ok hscratch
    obtain rfl : base = base' := Except.ok.inj ((resolve_resolved hroot hbase).symm.trans hbase')
    refine ⟨hbelow, hne, ?_⟩
    have hworked : Ensures _ (analyze checker r) _ _ :=
      analyze_worked ht hbase hscratch ((hloop.clear hplace).straight ht)
    cases hrun : (run checker r t).1 with
    | ok report => exact hworked.ok rfl hrun
    | error e => exact hworked.error rfl hrun

/-- A project whose scratch directory is a link to where nothing is. -/
def linkedScratch : Files.Tree := ⟨[(["site"], .dir), (["site", "cache"], .link ⟨false, ["build", "out"]⟩)]⟩

def site : Path := ⟨true, ["site"]⟩

/-- A run with a scratch directory and no templates. -/
def withScratch (dir : String) : Request :=
  ⟨site, { Settings.default with scratchDir := dir }, [site.child "page"], false, none⟩

theorem run_confined_linkedScratch :
    ["site"] <+: ["site", "build", "out"] ∧
      Worked (withScratch "cache") ⟨true, ["site", "build", "out"]⟩ linkedScratch
        (run silent (withScratch "cache") linkedScratch).2.tree := by
  have hrooted : linkedScratch.Rooted := by
    refine rooted_of_entries (List.forall_mem_cons.2 ⟨⟨by decide, rfl⟩, List.forall_mem_singleton.2 ⟨by decide, rfl⟩⟩)
  have hbase : linkedScratch.resolve false site.parts = .ok ["site"] := by rfl
  obtain ⟨place, hscratch, rfl⟩ : ∃ place, Settings.resolveScratch linkedScratch site "cache" = .ok place ∧
      id place = ⟨true, ["site", "build", "out"]⟩ := Dependency.of_toOption_map (by decide +kernel)
  obtain ⟨hbelow, -, hworked⟩ := ((run_confined silent (withScratch "cache") hrooted).2 _ hbase).2 _ hscratch
    (by decide +kernel) (by decide +kernel)
  exact ⟨hbelow, hworked⟩

/-- A project with nothing in it. -/
def emptySite : Files.Tree := ⟨[(["site"], .dir)]⟩

/-- A project with a link to itself and one to a directory elsewhere. -/
def loopedSite : Files.Tree := ⟨[(["site"], .dir), (["site", "loop"], .link ⟨false, ["loop"]⟩),
  (["site", "x"], .link ⟨true, ["elsewhere"]⟩), (["elsewhere"], .dir), (["elsewhere", "compilation"], .dir),
  (["elsewhere", "compilation", "keep.txt"], .file "kept".toUTF8)]⟩

/-- Not all that is made or removed is below the scratch directory: a directory above it that is missing is made,
and behind a loop of links its path leads to what is elsewhere, which is removed. -/
theorem traces_outside_scratch :
    (∃ place, Settings.resolveScratch emptySite site "build/cache" = .ok place ∧ ¬ place.parts <+: ["site", "build"] ∧
      (emptySite.entry? ["site", "build"]).isNone ∧
      (Tree.entry? (run silent (withScratch "build/cache") emptySite).2.tree ["site", "build"]).isSome) ∧
    ∃ place, Settings.resolveScratch loopedSite site "loop/../x" = .ok place ∧
      ¬ place.parts <+: ["elsewhere", "compilation", "keep.txt"] ∧
      (loopedSite.entry? ["elsewhere", "compilation", "keep.txt"]).isSome ∧
      (Tree.entry? (run silent (withScratch "loop/../x") loopedSite).2.tree ["elsewhere", "compilation", "keep.txt"]).isNone := by
  constructor
  · obtain ⟨place, hscratch, rfl⟩ : ∃ place, Settings.resolveScratch emptySite site "build/cache" = .ok place ∧
        id place = ⟨true, ["site", "build", "cache"]⟩ := Dependency.of_toOption_map (by decide +kernel)
    exact ⟨_, hscratch, by decide, by decide, by decide +kernel⟩
  · obtain ⟨place, hscratch, rfl⟩ : ∃ place, Settings.resolveScratch loopedSite site "loop/../x" = .ok place ∧
        id place = ⟨true, ["site", "x"]⟩ := Dependency.of_toOption_map (by decide +kernel)
    exact ⟨_, hscratch, by decide, by decide, by decide +kernel⟩

end Stencil.Analysis
