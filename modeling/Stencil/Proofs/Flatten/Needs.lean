import Mathlib.Data.List.Perm.Subperm
import Mathlib.Logic.Relation
import Mathlib.Tactic.Common
import Stencil.Flatten.Unit

/-!
What a template needs. The composition asks for the composites of the templates that it needs and of
no others, whatever the monad it works in; so it need not be opened to compare two compositions.
Where no template needs itself, a composition goes no deeper than there are templates.
-/
namespace Stencil.Flatten

open Relation

variable {sources sources' : List Source} {r : Reading} {s' : Source} {template t c : Path}
  {path : List Path}

/-- The template that is included at a segment. -/
def Segment.included? (s : Segment) : Option Path :=
  match s.directive with
  | some ⟨.include_ _, target⟩ => some target
  | _ => none

/-- The template that is extended at a segment. -/
def Segment.extended? (s : Segment) : Option Path :=
  match s.directive with
  | some ⟨.extends_, target⟩ => some target
  | _ => none

namespace Reading

def segments (r : Reading) : List Segment := r.definitions.flatMap (·.2) ++ r.body

/-- The template that is extended. Of several the last one counts. -/
def parent? (r : Reading) : Option Path := (r.segments.filterMap Segment.extended?).getLast?

/-- The templates whose composites go into that of the template. -/
def needs (r : Reading) : List Path := r.segments.filterMap Segment.included? ++ r.parent?.toList

end Reading

/-- The source of `a` has been read, and `b` goes into its composite. -/
def Needs (sources : List Source) (a b : Path) : Prop :=
  ∃ s r, sourceOf sources a = some s ∧ s.reading = .ok r ∧ b ∈ r.needs

theorem mem_of_sourceOf (h : sourceOf sources t = some s') : s' ∈ sources ∧ s'.template = t :=
  ⟨List.mem_of_find?_eq_some h, by simpa using List.find?_some h⟩

/-! ### Two compositions side by side -/

/-- A way to compare what two monads do with the composites of dependencies: `rel asked x y P` is
about `x` and `y` that ask for the composites of `asked` and give results with `P`. -/
structure Comparison {m m' : Type → Type} [Monad m] [Monad m'] (dependency : Path → m Composite)
    (dependency' : Path → m' Composite) where
  rel : {α : Type} → List Path → m α → m' α → (α → Prop) → Prop
  pure : ∀ {α : Type} {P : α → Prop} {a : α}, P a → rel [] (pure a) (pure a) P
  bind : ∀ {α β : Type} {asked asked' : List Path} {x : m α} {y : m' α} {f : α → m β} {g : α → m' β}
    {P : α → Prop} {Q : β → Prop}, rel asked x y P → (∀ a, P a → rel asked' (f a) (g a) Q) →
      rel (asked ++ asked') (x >>= f) (y >>= g) Q
  ask : ∀ d, rel [d] (dependency d) (dependency' d) fun _ => True

/-- The parent that is known after some segments, given the one that was known before. -/
def parentAfter (ss : List Segment) (parent : Option Path) : Option Path :=
  (ss.filterMap Segment.extended?).getLast?.or parent

theorem parentAfter_append (ss ss' : List Segment) (parent : Option Path) :
    parentAfter (ss ++ ss') parent = parentAfter ss' (parentAfter ss parent) := by
  unfold parentAfter
  rw [List.filterMap_append, List.getLast?_append, Option.or_assoc]

/-- The template of the parent that has been found. -/
def Progress.found (p : Progress) : Option Path := p.parent.map (·.1)

namespace Comparison

variable {m m' : Type → Type} [Monad m] [Monad m'] {dependency : Path → m Composite}
  {dependency' : Path → m' Composite} (C : Comparison dependency dependency')

theorem expandSegment (lines : Lines) (p : Progress) (s : Segment) :
    C.rel ([s].filterMap Segment.included?) (expandSegment dependency lines p s)
      (expandSegment dependency' lines p s) fun q => q.2.found = parentAfter [s] p.found := by
  unfold Flatten.expandSegment
  split
  · next h =>
    simpa [Segment.included?, h] using C.pure (by simp [parentAfter, Segment.extended?, h])
  · next target h =>
    simpa [Segment.included?, h] using
      C.pure (by simp [parentAfter, Segment.extended?, h, Progress.found])
  · next buffer target h =>
    simpa [Segment.included?, h] using C.bind (C.ask target) fun included _ =>
      C.pure (by simp [parentAfter, Segment.extended?, h, Progress.found])

theorem expand (lines : Lines) (p : Progress) (ss : List Segment) :
    C.rel (ss.filterMap Segment.included?) (expand dependency lines p ss)
      (expand dependency' lines p ss) fun q => q.2.found = parentAfter ss p.found := by
  induction ss generalizing lines p with
  | nil => exact C.pure rfl
  | cons s ss ih =>
    rw [show s :: ss = [s] ++ ss from rfl, List.filterMap_append]
    refine C.bind (C.expandSegment lines p s) fun q hq => ?_
    rw [parentAfter_append, ← hq]
    exact ih q.1 q.2

theorem expandDefinitions (p : Progress) (ds : List (String × List Segment)) :
    C.rel ((ds.flatMap (·.2)).filterMap Segment.included?) (expandDefinitions dependency p ds)
      (expandDefinitions dependency' p ds)
      fun q => q.2.found = parentAfter (ds.flatMap (·.2)) p.found := by
  induction ds generalizing p with
  | nil => exact C.pure rfl
  | cons d ds ih =>
    rw [List.flatMap_cons, List.filterMap_append]
    refine C.bind (C.expand [] p d.2) fun q hq => ?_
    rw [parentAfter_append, ← hq]
    simpa using C.bind (ih q.2) fun q' hq' => C.pure hq'

/-- The composition asks for what the template needs, in this order. -/
theorem compose (context : List String) (r : Reading) :
    C.rel r.needs (compose dependency context r) (compose dependency' context r) fun _ => True := by
  have hparent : parentAfter r.body (parentAfter (r.definitions.flatMap (·.2)) none) = r.parent? := by
    rw [← parentAfter_append]
    exact Option.or_none
  rw [Reading.needs, Reading.segments, List.filterMap_append, List.append_assoc]
  refine C.bind (C.expandDefinitions ⟨0, context, none⟩ r.definitions) fun q hq => ?_
  refine C.bind (C.expand [] q.2 r.body) fun ⟨body, p⟩ hp => ?_
  replace hp : p.found = r.parent? := by rw [hp, hq]; exact hparent
  rw [← hp]
  unfold Progress.found
  cases h : p.parent with
  | none => simpa [h] using C.pure (P := fun _ => True) trivial
  | some parent =>
    simpa [h] using C.bind (C.ask parent.1) fun ancestor _ => C.pure (P := fun _ => True) trivial

end Comparison

/-- Equal results, where what is asked for is equal. -/
def Comparison.equally (dependency dependency' : Path → Except Failure Composite) :
    Comparison dependency dependency' where
  rel asked x y P := (∀ d ∈ asked, dependency d = dependency' d) → x = y ∧ ∀ a, x = .ok a → P a
  pure := by
    rintro α P a ha -
    exact ⟨rfl, fun b hb => Except.ok.inj hb ▸ ha⟩
  bind := by
    intro α β asked asked' x y f g P Q hx hf hall
    obtain ⟨rfl, hP⟩ := hx fun d hd => hall d (List.mem_append_left _ hd)
    cases x with
    | error e => exact ⟨rfl, fun _ h => by cases h⟩
    | ok a => exact hf a (hP a rfl) fun d hd => hall d (List.mem_append_right _ hd)
  ask d hall := ⟨hall d (by simp), fun _ _ => trivial⟩

theorem compose_congr {dependency dependency' : Path → Except Failure Composite}
    (context : List String) (h : ∀ d ∈ r.needs, dependency d = dependency' d) :
    compose dependency context r = compose dependency' context r :=
  ((Comparison.equally dependency dependency').compose context r h).1

/-- Success if all that is asked for is there, else the failure of one of these. -/
def Comparison.outcome (dependency : Path → Except Failure Composite) : Comparison dependency dependency where
  rel asked x _ P :=
    match x with
    | .ok a => P a ∧ ∀ d ∈ asked, ∃ c, dependency d = .ok c
    | .error f => ∃ d ∈ asked, dependency d = .error f
  pure ha := ⟨ha, by simp⟩
  bind := by
    intro α β asked asked' x y f g P Q hx hf
    cases x with
    | error e =>
      obtain ⟨d, hd, he⟩ := hx
      exact ⟨d, List.mem_append_left _ hd, he⟩
    | ok a =>
      obtain ⟨hP, hall⟩ := hx
      replace hf := hf a hP
      cases hfa : f a with
      | error e =>
        rw [hfa] at hf
        obtain ⟨d, hd, he⟩ := hf
        simp only [Bind.bind, Except.bind, hfa]
        exact ⟨d, List.mem_append_right _ hd, he⟩
      | ok b =>
        rw [hfa] at hf
        simp only [Bind.bind, Except.bind, hfa]
        exact ⟨hf.1, fun d hd => (List.mem_append.1 hd).elim (hall d) (hf.2 d)⟩
  ask d := by
    cases hd : dependency d with
    | error f => exact ⟨d, by simp, hd⟩
    | ok c => exact ⟨trivial, fun d' hd' => ⟨c, by rwa [List.mem_singleton.1 hd']⟩⟩

/-- A template has a composite if all that it needs have one; else it fails as one of these does. -/
theorem compose_spec (dependency : Path → Except Failure Composite) (context : List String)
    (r : Reading) :
    match compose dependency context r with
    | .ok _ => ∀ d ∈ r.needs, ∃ c, dependency d = .ok c
    | .error f => ∃ d ∈ r.needs, dependency d = .error f := by
  have h := (Comparison.outcome dependency).compose context r
  simp only [Comparison.outcome] at h
  cases hc : compose dependency context r with
  | ok c => exact (hc ▸ h : _ ∧ _).2
  | error f => exact (hc ▸ h : ∃ _, _)

/-- The sources know the same of a template. -/
theorem composeAmong_congr {dependency dependency' : Path → Except Failure Composite}
    (hs : sourceOf sources t = sourceOf sources' t)
    (h : ∀ d, Needs sources t d → dependency d = dependency' d) :
    composeAmong sources dependency t = composeAmong sources' dependency' t := by
  unfold composeAmong
  rw [← hs]
  cases hsource : sourceOf sources t with
  | none => rfl
  | some s =>
    cases hr : s.reading with
    | error f => simp only [hr]
    | ok r =>
      simp only [hr]
      exact compose_congr s.context fun d hd => h d ⟨s, r, hsource, hr, hd⟩

/-! ### How deep a composition goes -/

/-- The templates of a path, each of which leads to `t`. -/
structure Under (sources : List Source) (path : List Path) (t : Path) : Prop where
  nodup : path.Nodup
  compiled : ∀ a ∈ path, (sourceOf sources a).isSome
  leads : ∀ a ∈ path, TransGen (Needs sources) a t

namespace Under

theorem nil (sources : List Source) (t : Path) : Under sources [] t :=
  ⟨List.nodup_nil, by simp, by simp⟩

theorem push (hacyclic : ∀ t, ¬ TransGen (Needs sources) t t) (h : Under sources path t)
    (hneeds : Needs sources t c) : Under sources (t :: path) c where
  nodup := List.nodup_cons.2 ⟨fun ht => hacyclic t (h.leads t ht), h.nodup⟩
  compiled a ha := by
    rcases List.mem_cons.1 ha with rfl | ha
    · obtain ⟨s, r, hs, -⟩ := hneeds
      simp [hs]
    · exact h.compiled a ha
  leads a ha := by
    rcases List.mem_cons.1 ha with rfl | ha
    · exact .single hneeds
    · exact (h.leads a ha).tail hneeds

theorem length_le (h : Under sources path t) : path.length ≤ sources.length := by
  have hsubset : path ⊆ sources.map (·.template) := by
    intro a ha
    obtain ⟨s, hs⟩ := Option.isSome_iff_exists.1 (h.compiled a ha)
    obtain ⟨hmem, rfl⟩ := mem_of_sourceOf hs
    exact List.mem_map_of_mem hmem
  simpa using (List.subperm_of_subset h.nodup hsubset).length_le

end Under

/-- Induction along what templates need, with a depth that is enough for all of them: the templates
of the path are those whose composition is under way. -/
theorem deep_induction (hacyclic : ∀ t, ¬ TransGen (Needs sources) t t)
    {motive : Nat → Path → Prop}
    (step : ∀ depth t, (∀ d, Needs sources t d → motive depth d) → motive (depth + 1) t)
    {depth : Nat} (hdepth : sources.length < depth) (t : Path) : motive depth t := by
  suffices h : ∀ depth path t, Under sources path t → sources.length < depth + path.length →
      motive depth t from h depth [] t (.nil sources t) (by simpa using hdepth)
  intro depth
  induction depth with
  | zero =>
    intro path t hpath hdepth
    have := hpath.length_le
    omega
  | succ depth ih =>
    intro path t hpath hdepth
    refine step depth t fun d hd => ih (t :: path) d (hpath.push hacyclic hd) ?_
    rw [List.length_cons]
    omega

end Stencil.Flatten
