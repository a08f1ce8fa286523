import Stencil.Proofs.Lists
import Stencil.Proofs.Observed.Imported

/-!
The types that variables are declared with. An observation counts for the template that its reference leads to, and for
no other; so it does not matter by which reference a template was observed. A reference to a file that holds no text keeps
all units from being injected.
-/
namespace Stencil.Observed
open Code Compile Flatten Template

variable {lib : Library} {t : Files.Tree} {observations observations' : List Observation} {found : List (Path × Observation)}
  {vs : List Variable} {reads : List String} {name : String} {template : Path}

/-! ### Declarations -/

/-- Variables declared in order: those that are read, then the others that were observed. The type of a variable is the
union of its types, each once, unless one of them takes everything; a variable without types can be everything. -/
structure Declared (reads : List String) (vs : List Variable) (declarations : List (String × String)) : Prop where
  names : declarations.map (·.1) = further reads (vs.map (·.name))
  union : ∀ d ∈ declarations, typesOf vs d.1 ≠ [] → anyType ∉ typesOf vs d.1 →
    d.2 = " | ".intercalate (typesOf vs d.1).eraseDups
  any : ∀ d ∈ declarations, typesOf vs d.1 = [] ∨ anyType ∈ typesOf vs d.1 → d.2 = anyType

theorem type_of_mem_declarations {d : String × String} (h : d ∈ declarations reads (sightingOf found template)) :
    d.2 = unionType (typesOf (passedTo found template) d.1) := by
  rw [← lookup_sightingOf]
  obtain h | h := List.mem_append.1 h
  · obtain ⟨name, -, rfl⟩ := List.mem_map.1 h
    rfl
  · obtain ⟨e, -, rfl⟩ := List.mem_map.1 h
    rfl

theorem declared_declarations (reads : List String) (found : List (Path × Observation)) (template : Path) :
    Declared reads (passedTo found template) (declarations reads (sightingOf found template)) where
  names := by
    have hnames : (declarations reads (sightingOf found template)).map (·.1) =
        reads ++ ((sightingOf found template).types.map (·.1)).filter (fun name => !reads.contains name) := by
      simp [declarations, List.filter_map, Function.comp_def]
    rw [hnames, names_sightingOf, filter_eraseDups, further]
    simp
  union d hd hsome hany := by
    rw [type_of_mem_declarations hd, unionType, if_neg]
    simp [hsome, hany]
  any d hd h := by
    rw [type_of_mem_declarations hd, unionType, if_pos]
    simpa using h

/-! ### Observations of a template -/

/-- The observations whose reference leads to a template. -/
def observedAt (lib : Library) (t : Files.Tree) (observations : List Observation) (template : Path) : List Observation :=
  observations.filter fun o => (lib.resolve t o.template).toOption = some template

/-- The file that a reference leads to holds a text, if there is one. -/
def Legible (lib : Library) (t : Files.Tree) (reference : String) : Prop :=
  lib.resolve t reference ≠ .error .undecodable

instance (lib : Library) (t : Files.Tree) (reference : String) : Decidable (Legible lib t reference) :=
  match h : lib.resolve t reference with
  | .ok _ => isTrue (by simp [Legible, h])
  | .error (.unresolved _) => isTrue (by simp [Legible, h])
  | .error .undecodable => isFalse (· h)

/-- One more observation with its template, if it has one. -/
def locateOne (lib : Library) (t : Files.Tree) (found : List (Path × Observation)) (o : Observation) :
    Except Miss (List (Path × Observation)) :=
  match lib.resolve t o.template with
  | .ok p => .ok (found ++ [(p, o)])
  | .error (.unresolved _) => .ok found
  | .error .undecodable => .error .undecodable

theorem located_eq (lib : Library) (t : Files.Tree) (observations : List Observation) :
    located lib t observations = observations.foldlM (locateOne lib t) [] := rfl

/-- An observation without a template is left out. -/
theorem locateOne_of_legible {o : Observation} (h : Legible lib t o.template) (found : List (Path × Observation)) :
    locateOne lib t found o = .ok (found ++ ((lib.resolve t o.template).toOption.map (·, o)).toList) := by
  unfold locateOne
  split
  · next hresolve => simp [hresolve, Except.toOption]
  · next hresolve => simp [hresolve, Except.toOption]
  · next hresolve => exact absurd hresolve h

theorem foldlM_locateOne (h : ∀ o ∈ observations, Legible lib t o.template) (found : List (Path × Observation)) :
    observations.foldlM (locateOne lib t) found =
      .ok (found ++ observations.filterMap fun o => (lib.resolve t o.template).toOption.map (·, o)) := by
  induction observations generalizing found with
  | nil => simp [pure, Except.pure]
  | cons o observations ih =>
    obtain ⟨ho, hrest⟩ := List.forall_mem_cons.1 h
    rw [List.foldlM_cons, locateOne_of_legible ho]
    refine (ih hrest _).trans ?_
    rw [List.append_assoc, List.filterMap_cons]
    cases (lib.resolve t o.template).toOption <;> rfl

theorem foldlM_locateOne_error (h : ¬ ∀ o ∈ observations, Legible lib t o.template) (found : List (Path × Observation)) :
    observations.foldlM (locateOne lib t) found = .error .undecodable := by
  induction observations generalizing found with
  | nil => exact absurd (List.forall_mem_nil _) h
  | cons o observations ih =>
    rw [List.foldlM_cons]
    by_cases ho : Legible lib t o.template
    · rw [locateOne_of_legible ho]
      exact ih (fun hrest => h (List.forall_mem_cons.2 ⟨ho, hrest⟩)) _
    · rw [locateOne, not_not.1 ho]
      rfl

theorem passedTo_filterMap (lib : Library) (t : Files.Tree) (observations : List Observation) (template : Path) :
    passedTo (observations.filterMap fun o => (lib.resolve t o.template).toOption.map (·, o)) template =
      (observedAt lib t observations template).flatMap (·.passed) := by
  induction observations with
  | nil => rfl
  | cons o observations ih =>
    unfold passedTo observedAt at *
    cases hresolve : (lib.resolve t o.template).toOption with
    | none => simpa [hresolve] using ih
    | some p => by_cases hp : p = template <;> simpa [hresolve, hp] using ih

theorem legible_of_located (h : located lib t observations = .ok found) : ∀ o ∈ observations, Legible lib t o.template := by
  by_contra hno
  rw [located_eq, foldlM_locateOne_error hno] at h
  cases h

/-- The variables that were observed for a template are those of its observations. -/
theorem passedTo_of_located (h : located lib t observations = .ok found) (template : Path) :
    passedTo found template = (observedAt lib t observations template).flatMap (·.passed) := by
  have hlegible := legible_of_located h
  rw [located_eq, foldlM_locateOne hlegible, List.nil_append] at h
  obtain rfl := Except.ok.inj h
  exact passedTo_filterMap lib t observations template

theorem located_of_legible (h : ∀ o ∈ observations, Legible lib t o.template) :
    ∃ found, located lib t observations = .ok found := ⟨_, foldlM_locateOne h []⟩

/-! ### Injected units -/

/-- The same call with another reference, which leads to the same template or like the first one to none. -/
structure Renamed (lib : Library) (t : Files.Tree) (o o' : Observation) : Prop where
  call : o' = { o with template := o'.template }
  legible : Legible lib t o'.template
  leads : (lib.resolve t o'.template).toOption = (lib.resolve t o.template).toOption

theorem Renamed.passed_eq {o o' : Observation} (h : Renamed lib t o o') : o'.passed = o.passed := by
  rw [h.call]

theorem legible_of_renamed (h : List.Forall₂ (Renamed lib t) observations observations') :
    ∀ o ∈ observations', Legible lib t o.template := by
  induction h with
  | nil => exact List.forall_mem_nil _
  | cons ho _ ih => exact List.forall_mem_cons.2 ⟨ho.legible, ih⟩

/-- By other references the same is observed of each template. -/
theorem passed_of_renamed (h : List.Forall₂ (Renamed lib t) observations observations') (template : Path) :
    (observedAt lib t observations' template).flatMap (·.passed) =
      (observedAt lib t observations template).flatMap (·.passed) := by
  induction h with
  | nil => rfl
  | @cons o o' observations observations' ho _ ih =>
    unfold observedAt at *
    by_cases htemplate : (lib.resolve t o.template).toOption = some template
    · simp [ho.leads, htemplate, ho.passed_eq, ih]
    · simp [ho.leads, htemplate, ih]

theorem exists_isCut_of_flatten {units : List CompiledUnit} {directory : Path} {u : FlattenedUnit}
    {outcomes : List (Except FlattenError FlattenedUnit)} (h : Shared.flatten units directory = .ok outcomes)
    (hu : .ok u ∈ outcomes) : ∃ s, IsCut (Text.lines u.source) s := by
  have htrivial : Composes (sourcesOf units) (fun _ _ => True) fun _ _ => True := by constructor <;> simp
  obtain ⟨v, -, c, -, rfl⟩ := flatten_has htrivial h hu
  obtain ⟨s, hs, -⟩ := exists_isCut_unitOf directory v.template c
  exact ⟨s, hs⟩

theorem template_of_injectUnit {target : Path} {s : Sighting} {u : FlattenedUnit} {i : InjectedUnit}
    (h : injectUnit target s u = some i) : i.template = u.template := by
  obtain ⟨_, -, rfl⟩ := Option.map_eq_some_iff.1 h
  rfl

/-- Units with a context section are all injected, each by itself. -/
theorem exists_inject {us : List FlattenedUnit} {q : FlattenedUnit → InjectedUnit → Prop} {target : Path}
    (h : ∀ u ∈ us, ∃ i, injectUnit target (sightingOf found u.template) u = some i ∧ q u i) :
    ∃ is, inject found target us = some is ∧ List.Forall₂ q us is := by
  unfold inject
  induction us with
  | nil => exact ⟨[], rfl, .nil⟩
  | cons u us ih =>
    obtain ⟨⟨i, hi, hq⟩, hrest⟩ := List.forall_mem_cons.1 h
    obtain ⟨is, his, hall⟩ := ih hrest
    refine ⟨i :: is, ?_, .cons hq hall⟩
    rw [List.mapM_cons, hi, his]
    rfl

/-- Whatever references templates are observed by, the variables of a template are declared with the types that
observations of it gave. All observations count unless one leads to a file that holds no text, and then none does. Other
references to the same templates change nothing, and observations of other templates change nothing in a unit. -/
theorem inject_declared (lib : Library) (t : Files.Tree) (observations : List Observation) :
    match located lib t observations with
    | .error miss => miss = .undecodable ∧ ¬ ∀ o ∈ observations, Legible lib t o.template
    | .ok found => (∀ o ∈ observations, Legible lib t o.template) ∧
      (∀ units directory outcomes, Shared.flatten units directory = .ok outcomes →
        ∀ us, (∀ u ∈ us, .ok u ∈ outcomes) → ∀ target, ∃ is, inject found target us = some is ∧
          List.Forall₂ (fun u i => i.template = u.template ∧
            Declared u.reads ((observedAt lib t observations u.template).flatMap (·.passed)) i.declarations) us is) ∧
      (∀ observations', List.Forall₂ (Renamed lib t) observations observations' →
        ∃ found', located lib t observations' = .ok found' ∧
          ∀ target us, inject found' target us = inject found target us) ∧
      ∀ observations' found' u, located lib t observations' = .ok found' →
        observedAt lib t observations' u.template = observedAt lib t observations u.template →
        ∀ target, injectUnit target (sightingOf found' u.template) u =
          injectUnit target (sightingOf found u.template) u := by
  cases hlocated : located lib t observations with
  | error miss =>
    have hno : ¬ ∀ o ∈ observations, Legible lib t o.template := by
      intro hlegible
      obtain ⟨found, hfound⟩ := located_of_legible hlegible
      rw [hlocated] at hfound
      cases hfound
    rw [located_eq, foldlM_locateOne_error hno] at hlocated
    exact ⟨(Except.error.inj hlocated).symm, hno⟩
  | ok found =>
    have hpassed := passedTo_of_located hlocated
    refine ⟨legible_of_located hlocated, ?_, ?_, ?_⟩
    · intro units directory outcomes hflatten us hus target
      refine exists_inject fun u hu => ?_
      obtain ⟨s, hs⟩ := exists_isCut_of_flatten hflatten (hus u hu)
      obtain ⟨i, hi, -, hdeclarations⟩ := injectUnit_eq hs target (sightingOf found u.template)
      refine ⟨i, hi, template_of_injectUnit hi, ?_⟩
      rw [hdeclarations, ← hpassed]
      exact declared_declarations u.reads found u.template
    · intro observations' hrenamed
      obtain ⟨found', hfound'⟩ := located_of_legible (legible_of_renamed hrenamed)
      refine ⟨found', hfound', fun target us => ?_⟩
      unfold inject
      congr 1
      funext u
      rw [sightingOf_eq, sightingOf_eq, hpassed, passedTo_of_located hfound', passed_of_renamed hrenamed]
    · intro observations' found' u hfound' hsame target
      rw [sightingOf_eq, sightingOf_eq, hpassed, passedTo_of_located hfound', hsame]

section Base

open Dependency

/-- A page is rendered by its name and by its path, and another one that is not there. -/
def renderings : List Observation :=
  [⟨"base", root, 1, [⟨"x", "builtins.int", ["builtins"]⟩]⟩,
    ⟨"/base", root, 2, [⟨"x", "builtins.str", ["builtins"]⟩, ⟨"y", "builtins.int", ["builtins"]⟩]⟩,
    ⟨"nowhere", root, 3, [⟨"x", "builtins.bytes", ["builtins"]⟩]⟩]

/-- The same calls with other references. -/
def rerenderings : List Observation :=
  [⟨"./base", root, 1, [⟨"x", "builtins.int", ["builtins"]⟩]⟩,
    ⟨"base", root, 2, [⟨"x", "builtins.str", ["builtins"]⟩, ⟨"y", "builtins.int", ["builtins"]⟩]⟩,
    ⟨"../base", root, 3, [⟨"x", "builtins.bytes", ["builtins"]⟩]⟩]

theorem renamed_rerenderings : List.Forall₂ (Renamed everywhere pageOnBase) renderings rerenderings :=
  .cons ⟨rfl, by decide +kernel, by decide +kernel⟩ <| .cons ⟨rfl, by decide +kernel, by decide +kernel⟩ <|
    .cons ⟨rfl, by decide +kernel, by decide +kernel⟩ .nil

/-- Both types count for the page, by whichever references it was rendered. -/
theorem inject_declared_base : ∃ v u outcomes found found' i,
    compile noExtensions everywhere pageOnBase base root = .ok v ∧ Shared.flatten [v] root = .ok outcomes ∧
    .ok u ∈ outcomes ∧ located everywhere pageOnBase renderings = .ok found ∧
    located everywhere pageOnBase rerenderings = .ok found' ∧ inject found root [u] = some [i] ∧
    inject found' root [u] = some [i] ∧ i.declarations.map (·.1) = further u.reads ["x", "x", "y"] ∧
    ∀ d ∈ i.declarations, d.1 = "x" → d.2 = "builtins.int | builtins.str" := by
  obtain ⟨v, u, outcomes, hv, -, hflatten, hu, htemplate⟩ := flatten_base
  obtain ⟨found, hfound, -⟩ : ∃ found, located everywhere pageOnBase renderings = .ok found ∧
      found.map (·.1) = [base, base] := of_toOption_map (by decide +kernel)
  have h := inject_declared everywhere pageOnBase renderings
  rw [hfound] at h
  obtain ⟨-, hinject, hrenamed, -⟩ := h
  obtain ⟨found', hfound', hsame⟩ := hrenamed rerenderings renamed_rerenderings
  obtain ⟨is, his, hall⟩ := hinject [v] root outcomes hflatten [u] (by simpa using hu) root
  obtain ⟨i, rest, ⟨-, hdeclared⟩, hrest, rfl⟩ := List.forall₂_cons_left_iff.1 hall
  obtain rfl := List.forall₂_nil_left_iff.1 hrest
  rw [htemplate] at hdeclared
  have htypes : typesOf ((observedAt everywhere pageOnBase renderings base).flatMap (·.passed)) "x" =
      ["builtins.int", "builtins.str"] := by decide +kernel
  have hnames : ((observedAt everywhere pageOnBase renderings base).flatMap (·.passed)).map (·.name) =
      ["x", "x", "y"] := by decide +kernel
  refine ⟨v, u, outcomes, found, found', i, hv, hflatten, hu, hfound, hfound', his, (hsame root [u]).trans his, ?_, ?_⟩
  · rw [hdeclared.names, hnames]
  · intro d hd hx
    rw [hdeclared.union d hd (by rw [hx, htypes]; decide) (by rw [hx, htypes]; decide), hx, htypes]
    decide +kernel

end Base

end Stencil.Observed
