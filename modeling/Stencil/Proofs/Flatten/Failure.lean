import Mathlib.Data.List.Induction
import Stencil.Proofs.Lists
import Stencil.Proofs.Flatten.Needs

/-!
Which templates cannot be flattened. A template has a composite if all that it needs, directly or
through others, was compiled and can be read.
-/
namespace Stencil.Flatten

open Relation

variable {sources : List Source} {t c : Path} {units : List Compile.CompiledUnit} {depth : Nat}

/-! ### All that a template needs -/

/-- A template that was not compiled or whose unit cannot be read. -/
def Broken (sources : List Source) (a : Path) : Prop :=
  ∀ s, sourceOf sources a = some s → ∃ f, s.reading = .error f

/-- A fault of the reader that no unit is to blame for, met behind a template. -/
def Faulty (sources : List Source) (t : Path) (f : ReadFault) : Prop :=
  f.message? = none ∧ ∃ c s, ReflTransGen (Needs sources) t c ∧ sourceOf sources c = some s ∧
    s.reading = .error f

/-- What the composition of a template comes to. -/
def Composed (sources : List Source) (t : Path) : Except Failure Composite → Prop
  | .ok _ => ∀ c, ReflTransGen (Needs sources) t c → ¬ Broken sources c
  | .error (.error e) => e.template = t ∧ ∃ c, ReflTransGen (Needs sources) t c ∧ Broken sources c
  | .error (.fault f) => Faulty sources t f
  | .error .endless => False

/-- A failure of what a template needs is one of the template. -/
theorem Composed.blame {f : Failure} (h : Needs sources t c)
    (hf : Composed sources c (.error f)) : Composed sources t (.error (blame t c f)) := by
  cases f with
  | error e =>
    obtain ⟨-, b, hb, hbroken⟩ := hf
    exact ⟨rfl, b, .head h hb, hbroken⟩
  | fault f =>
    obtain ⟨hmessage, b, s, hb, hs⟩ := hf
    exact ⟨hmessage, b, s, .head h hb, hs⟩
  | endless => exact hf

/-- No template is composed inside itself, so a depth beyond the number of templates is enough. -/
theorem composite_composed (hacyclic : ∀ t, ¬ TransGen (Needs sources) t t)
    (hdepth : sources.length < depth) (t : Path) :
    Composed sources t (composite sources depth t) := by
  refine deep_induction hacyclic (motive := fun depth t =>
    Composed sources t (composite sources depth t)) (fun depth t hdependency => ?_) hdepth t
  unfold composite composeAmong
  cases hs : sourceOf sources t with
  | none => exact ⟨rfl, t, .refl, fun s h => by simp [hs] at h⟩
  | some s =>
    cases hr : s.reading with
    | error f =>
      cases hmessage : f.message? with
      | some m =>
        simp only [hr, hmessage]
        refine ⟨rfl, t, .refl, fun s' h => ⟨f, ?_⟩⟩
        obtain rfl : s = s' := by simpa [hs] using h
        exact hr
      | none =>
        simp only [hr, hmessage]
        exact ⟨hmessage, t, s, .refl, hs, hr⟩
    | ok r =>
      have hneeds : ∀ d ∈ r.needs, Needs sources t d := fun d hd => ⟨s, r, hs, hr, hd⟩
      have hspec := compose_spec
        (fun d => (composite sources depth d).mapError (Flatten.blame t d)) s.context r
      simp only [hr]
      split at hspec
      · next composite' hcompose =>
        rw [hcompose]
        intro c hc hbroken
        obtain rfl | ⟨d, htd, hdc⟩ := ReflTransGen.cases_head hc
        · obtain ⟨f, hf⟩ := hbroken s hs
          simp [hr] at hf
        · obtain ⟨s', r', hs', hr', hd⟩ := id htd
          obtain rfl : s = s' := by simpa [hs] using hs'
          obtain rfl : r = r' := by simpa [hr] using hr'
          obtain ⟨c', hc'⟩ := hspec d hd
          have hd' := hdependency d htd
          cases hdc' : composite sources depth d with
          | error f => simp [hdc', Except.mapError] at hc'
          | ok c'' =>
            rw [hdc'] at hd'
            exact hd' c hdc hbroken
      · next f hcompose =>
        rw [hcompose]
        obtain ⟨d, hd, hf⟩ := hspec
        have hd' := hdependency d (hneeds d hd)
        cases hdc : composite sources depth d with
        | ok c => simp [hdc, Except.mapError] at hf
        | error f' =>
          rw [hdc] at hd'
          obtain rfl : Flatten.blame t d f' = f := by simpa [hdc, Except.mapError] using hf
          exact hd'.blame (hneeds d hd)

/-- A template has a composite if nothing behind it is broken. -/
theorem composite_ok (hacyclic : ∀ t, ¬ TransGen (Needs sources) t t)
    (hdepth : sources.length < depth)
    (hsound : ∀ c, ReflTransGen (Needs sources) t c → ¬ Broken sources c) :
    ∃ c, composite sources depth t = .ok c := by
  have h := composite_composed hacyclic hdepth t
  cases hc : composite sources depth t with
  | ok c => exact ⟨c, rfl⟩
  | error f =>
    rw [hc] at h
    cases f with
    | error e =>
      obtain ⟨-, c, hreach, hbroken⟩ := h
      exact absurd hbroken (hsound c hreach)
    | fault f =>
      obtain ⟨-, c, s, hreach, hs, hf⟩ := h
      refine absurd (fun s' hs' => ⟨f, ?_⟩) (hsound c hreach)
      rwa [← Option.some.inj (hs.symm.trans hs')]
    | endless => exact h.elim

/-- What a unit needs, if it can be read. -/
def Source.needs? (s : Source) : Option (List Path) := s.reading.toOption.map (·.needs)

theorem needs_iff {a b : Path} {s : Source} {ds : List Path} (hs : sourceOf sources a = some s)
    (hds : s.needs? = some ds) : Needs sources a b ↔ b ∈ ds := by
  unfold Source.needs? at hds
  cases hr : s.reading with
  | error f => simp [hr, Except.toOption] at hds
  | ok r =>
    obtain rfl : r.needs = ds := by simpa [hr, Except.toOption] using hds
    constructor
    · rintro ⟨s', r', hs', hr', hb⟩
      obtain rfl : s = s' := Option.some.inj (hs.symm.trans hs')
      obtain rfl : r = r' := Except.ok.inj (hr.symm.trans hr')
      exact hb
    · exact fun hb => ⟨s, r, hs, hr, hb⟩

/-- Templates that need one another, and nothing else, are never composed. -/
theorem composite_endless {p : Path → Prop}
    (h : ∀ a, p a → (∃ b, Needs sources a b) ∧ ∀ b, Needs sources a b → p b) (depth : Nat) (ht : p t) :
    composite sources depth t = .error .endless := by
  induction depth generalizing t with
  | zero => rfl
  | succ depth ih =>
    obtain ⟨⟨b, s, r, hs, hr, hb⟩, hall⟩ := h t ht
    have hneeds : ∀ d ∈ r.needs, composite sources depth d = .error .endless := fun d hd =>
      ih (hall d ⟨s, r, hs, hr, hd⟩)
    have hspec := compose_spec (fun d => (composite sources depth d).mapError (blame t d)) s.context r
    unfold composite composeAmong
    simp only [hs, hr]
    split at hspec
    · obtain ⟨c, hc⟩ := hspec b hb
      simp [hneeds b hb, Except.mapError] at hc
    · next f hcompose =>
      obtain ⟨d, hd, hf⟩ := hspec
      rw [hcompose, ← hf, hneeds d hd]
      rfl

/-! ### All templates -/

/-- What flattening a template comes to. -/
def Flattened (sources : List Source) (t : Path) : Except FlattenError FlattenedUnit → Prop
  | .ok u => u.template = t ∧ ∀ c, ReflTransGen (Needs sources) t c → ¬ Broken sources c
  | .error e => e.template = t ∧ ∃ c, ReflTransGen (Needs sources) t c ∧ Broken sources c

/-- The units that count, as the composition sees them. -/
def sourcesOf (units : List Compile.CompiledUnit) : List Source := (latest units).map Source.ofUnit

/-- A unit takes the place of an earlier one of its template. -/
theorem templates_replaced (done : List Compile.CompiledUnit) (u : Compile.CompiledUnit) :
    (done.map fun v => if v.template == u.template then u else v).map (·.template) =
      done.map (·.template) := by
  rw [List.map_map]
  refine List.map_congr_left fun v _ => ?_
  by_cases h : v.template = u.template <;> simp [h]

/-- One unit of each template counts. -/
theorem latest_templates (units : List Compile.CompiledUnit) :
    ((latest units).map (·.template)).Nodup ∧
      ∀ t, t ∈ (latest units).map (·.template) ↔ t ∈ units.map (·.template) := by
  unfold latest
  induction units using List.reverseRecOn with
  | nil => simp
  | append_singleton units u ih =>
    rw [List.foldl_append, List.foldl_cons, List.foldl_nil]
    obtain ⟨hnodup, hall⟩ := ih
    split
    · next hany =>
      rw [templates_replaced]
      refine ⟨hnodup, fun t => ?_⟩
      have hmem : u.template ∈ units.map (·.template) := (hall _).1 (by simpa using hany)
      rw [hall, List.map_append, List.mem_append]
      exact ⟨.inl, fun h => h.elim id fun h => by simpa [List.mem_singleton.1 h] using hmem⟩
    · next hany =>
      have hnew : u.template ∉ units.map (·.template) := fun h => hany (by simpa using (hall _).2 h)
      refine ⟨?_, fun t => ?_⟩
      · rw [List.map_append, List.map_singleton]
        refine List.nodup_append.2 ⟨hnodup, by simp, fun t ht t' ht' => ?_⟩
        rintro rfl
        exact hnew ((hall _).1 (by simpa [List.mem_singleton.1 ht'] using ht))
      · rw [List.map_append, List.mem_append, hall, List.map_append, List.mem_append]

theorem mem_of_mem_latest {u : Compile.CompiledUnit} (h : u ∈ latest units) : u ∈ units := by
  induction units using List.reverseRecOn generalizing u with
  | nil => cases h
  | append_singleton units v ih =>
    rw [latest, List.foldl_concat] at h
    split at h
    · obtain ⟨w, hw, rfl⟩ := List.mem_map.1 h
      split
      · simp
      · exact List.mem_append_left _ (ih hw)
    · obtain h | h := List.mem_append.1 h
      · exact List.mem_append_left _ (ih h)
      · exact List.mem_append_right _ h

theorem flattenUnit_flattened (hacyclic : ∀ t, ¬ TransGen (Needs sources) t t) (directory t : Path) :
    match orError (flattenUnit sources directory t) with
    | .ok outcome => Flattened sources t outcome
    | .error f => ∃ r, f = .fault r ∧ Faulty sources t r := by
  have h : Composed sources t (composite sources (sources.length + 1) t) :=
    composite_composed hacyclic (Nat.lt_succ_self _) t
  unfold flattenUnit
  cases hc : composite sources (sources.length + 1) t with
  | ok c =>
    rw [hc] at h
    exact ⟨rfl, h⟩
  | error f =>
    rw [hc] at h
    cases f with
    | error e => exact h
    | fault r => exact ⟨r, rfl, h⟩
    | endless => exact h.elim

/-- Errors end the work if and only if there are any. -/
theorem strict_of_outcomes {outcomes : List (Except FlattenError FlattenedUnit)}
    {results : Compile.CompiledUnit → Except Failure FlattenedUnit}
    (h : List.Forall₂ (fun u outcome => orError (results u) = .ok outcome) units outcomes) :
    (∃ found, units.mapM results = .ok found ∧ outcomes = found.map .ok) ∨
      ∃ e, units.mapM results = .error (.error e) ∧ .error e ∈ outcomes := by
  have hstrict := mapM_spec results units
  split at hstrict
  · next found hfound =>
    refine .inl ⟨found, hfound, ?_⟩
    clear hfound
    induction h generalizing found with
    | nil => cases hstrict; rfl
    | cons hu _ ih =>
      cases hstrict with
      | cons hv hrest =>
        rw [hv] at hu
        cases hu
        rw [ih _ hrest, List.map_cons]
  · next f hf =>
    obtain ⟨u, hu, hresult⟩ := hstrict
    obtain ⟨outcome, houtcome, he⟩ : ∃ outcome ∈ outcomes, orError (results u) = .ok outcome := by
      clear hf
      induction h with
      | nil => simp at hu
      | cons hv _ ih =>
        rcases List.mem_cons.1 hu with rfl | hu
        · exact ⟨_, by simp, hv⟩
        · obtain ⟨outcome, hmem, he⟩ := ih hu
          exact ⟨outcome, List.mem_cons_of_mem _ hmem, he⟩
    rw [hresult] at he
    cases f with
    | error e =>
      cases he
      exact .inr ⟨e, hf, houtcome⟩
    | fault r => cases he
    | endless => cases he

/-- What flattening some units comes to: every template that was compiled gets a unit or an error of
its own. If errors end the work, one of them does. -/
structure Outcomes (units : List Compile.CompiledUnit) (directory : Path)
    (outcomes : List (Except FlattenError FlattenedUnit)) : Prop where
  nodup : ((latest units).map (·.template)).Nodup
  compiled : ∀ t, t ∈ (latest units).map (·.template) ↔ t ∈ units.map (·.template)
  each : List.Forall₂ (fun u outcome => Flattened (sourcesOf units) u.template outcome)
    (latest units) outcomes
  strict : (∃ found, flattenStrict units directory = .ok found ∧ outcomes = found.map .ok) ∨
    ∃ e, flattenStrict units directory = .error (.error e) ∧ .error e ∈ outcomes

/-- Each template that counts has an outcome of its own, unless there is a unit that the reader can
neither read nor refuse. -/
theorem flatten_each (hacyclic : ∀ t, ¬ TransGen (Needs (sourcesOf units)) t t) (directory : Path) :
    (∃ outcomes, flatten units directory = .ok outcomes ∧
      List.Forall₂ (fun u outcome =>
        orError (flattenUnit (sourcesOf units) directory u.template) = .ok outcome ∧
          Flattened (sourcesOf units) u.template outcome) (latest units) outcomes) ∨
      ∃ s ∈ sourcesOf units, ∃ r, s.reading = .error r ∧ r.message? = none ∧
        flatten units directory = .error (.fault r) := by
  have hunit := flattenUnit_flattened hacyclic directory
  have hall := mapM_spec (fun u : Compile.CompiledUnit =>
    orError (flattenUnit (sourcesOf units) directory u.template)) (latest units)
  split at hall
  · next outcomes houtcomes =>
    refine .inl ⟨outcomes, houtcomes, hall.imp fun u outcome h => ⟨h, ?_⟩⟩
    have := hunit u.template
    rwa [h] at this
  · next f hf =>
    obtain ⟨u, hu, h⟩ := hall
    have := hunit u.template
    rw [h] at this
    obtain ⟨r, rfl, hmessage, c, s, -, hs, hr⟩ := this
    exact .inr ⟨s, (mem_of_sourceOf hs).1, r, hr, hmessage, hf⟩

/-- Templates that do not need themselves are all flattened, unless there is a unit that the reader
can neither read nor refuse. -/
theorem flatten_outcomes (units : List Compile.CompiledUnit) (directory : Path)
    (hacyclic : ∀ t, ¬ TransGen (Needs (sourcesOf units)) t t) :
    (∃ outcomes, flatten units directory = .ok outcomes ∧ Outcomes units directory outcomes) ∨
      ∃ s ∈ sourcesOf units, ∃ r, s.reading = .error r ∧ r.message? = none ∧
        flatten units directory = .error (.fault r) := by
  obtain ⟨outcomes, hflatten, heach⟩ | hfault := flatten_each hacyclic directory
  · obtain ⟨hnodup, hcompiled⟩ := latest_templates units
    exact .inl ⟨outcomes, hflatten, hnodup, hcompiled, heach.imp fun _ _ h => h.2,
      strict_of_outcomes (heach.imp fun _ _ h => h.1)⟩
  · exact .inr hfault

/-! ### Two directives that extend a template -/

/-- A directive of `a` stands for `b`. -/
def StandsFor (sources : List Source) (a b : Path) : Prop :=
  ∃ s r, sourceOf sources a = some s ∧ s.reading = .ok r ∧
    ∃ segment ∈ r.segments, ∃ d, segment.directive = some d ∧ d.target = b

theorem StandsFor.of_needs {a b : Path} (h : Needs sources a b) : StandsFor sources a b := by
  obtain ⟨s, r, hs, hr, hb⟩ := h
  refine ⟨s, r, hs, hr, ?_⟩
  have hextended : ∀ b ∈ r.segments.filterMap Segment.extended?, ∃ segment ∈ r.segments,
      ∃ d, segment.directive = some d ∧ d.target = b := by
    intro b hb
    obtain ⟨segment, hsegment, hd⟩ := List.mem_filterMap.1 hb
    unfold Segment.extended? at hd
    split at hd
    · next target h => exact ⟨segment, hsegment, _, h, by simpa using hd⟩
    · cases hd
  rcases List.mem_append.1 hb with hb | hb
  · obtain ⟨segment, hsegment, hd⟩ := List.mem_filterMap.1 hb
    unfold Segment.included? at hd
    split at hd
    · next target h => exact ⟨segment, hsegment, _, h, by simpa using hd⟩
    · cases hd
  · rw [Option.mem_toList, Reading.parent?] at hb
    exact hextended b (List.mem_of_getLast? hb)

/-- What stands for no other template in circles is not needed in circles. -/
theorem acyclic_of_standsFor (h : ∀ t, ¬ TransGen (StandsFor sources) t t) (t : Path) :
    ¬ TransGen (Needs sources) t t := fun ht =>
  h t (TransGen.mono (fun _ _ hab => StandsFor.of_needs hab) t t ht)

/-- The targets of the directives of a unit. -/
def Source.targets (s : Source) : Option (List Path) :=
  match s.reading with
  | .ok r => some (r.segments.filterMap fun segment => segment.directive.map (·.target))
  | .error _ => none

theorem reading_ne_error {s : Source} {ts : List Path} (h : s.targets = some ts) (f : ReadFault) :
    s.reading ≠ .error f := by
  intro hf
  simp [Source.targets, hf] at h

theorem mem_targets {a b : Path} (h : StandsFor sources a b) :
    ∃ s ∈ sources, s.template = a ∧ ∃ ts, s.targets = some ts ∧ b ∈ ts := by
  obtain ⟨s, r, hs, hr, segment, hsegment, d, hd, rfl⟩ := h
  obtain ⟨hmem, htemplate⟩ := mem_of_sourceOf hs
  refine ⟨s, hmem, htemplate, r.segments.filterMap fun segment => segment.directive.map (·.target), ?_, ?_⟩
  · simp only [Source.targets, hr]
  · exact List.mem_filterMap.2 ⟨segment, hsegment, by simp [hd]⟩

theorem standsFor_of_targets {a b : Path} {s : Source} {ts : List Path}
    (hs : sourceOf sources a = some s) (hts : s.targets = some ts) (hb : b ∈ ts) :
    StandsFor sources a b := by
  unfold Source.targets at hts
  split at hts
  · next r hr =>
    rw [← Option.some.inj hts] at hb
    obtain ⟨segment, hsegment, htarget⟩ := List.mem_filterMap.1 hb
    obtain ⟨d, hd, rfl⟩ := Option.map_eq_some_iff.1 htarget
    exact ⟨s, r, hs, hr, segment, hsegment, d, hd, rfl⟩
  · cases hts

/-- No template stands for itself, directly or through others, if those that it stands for are of
lower rank. -/
theorem acyclic_of_rank (rank : Path → Nat)
    (h : ∀ s ∈ sources, ∀ b ∈ s.targets.getD [], rank b < rank s.template) (t : Path) :
    ¬ TransGen (StandsFor sources) t t := by
  have hlower (a b : Path) (hab : StandsFor sources a b) : rank b < rank a := by
    obtain ⟨s, hs, rfl, ts, hts, hb⟩ := mem_targets hab
    exact h s hs b (by simpa [hts] using hb)
  have hall (b : Path) (hb : TransGen (StandsFor sources) t b) : rank b < rank t := by
    induction hb with
    | single hab => exact hlower _ _ hab
    | tail _ hab ih => exact Nat.lt_trans (hlower _ _ hab) ih
  exact fun ht => Nat.lt_irrefl _ (hall t ht)

/-- Only templates of a collection are reached from these, if what they stand for is among them. -/
theorem mem_of_closed {closed : List Path}
    (h : ∀ s ∈ sources, s.template ∈ closed → ∀ b ∈ s.targets.getD [], b ∈ closed)
    (ht : t ∈ closed) (hc : ReflTransGen (StandsFor sources) t c) : c ∈ closed := by
  induction hc with
  | refl => exact ht
  | tail _ hab ih =>
    obtain ⟨s, hs, rfl, ts, hts, hb⟩ := mem_targets hab
    exact h s hs ih _ (by simpa [hts] using hb)

def plainUnit : Compile.CompiledUnit where
  template := ⟨true, ["base"]⟩
  file := ⟨true, ["out", "base.py"]⟩
  source := "def _jt_render() -> str:\n    _jt_out: list[str] = []\n    return \"\".join(_jt_out)\n"
  sourceMap := []
  reads := []
  parent := none
  includes := []

/-- A template may name the module of the directives itself. -/
def twiceExtending : Compile.CompiledUnit where
  template := ⟨true, ["page"]⟩
  file := ⟨true, ["out", "page.py"]⟩
  source := "def _jt_render() -> str:\n    _jt_out: list[str] = []\n    _jt_rt.extends('/gone')\n    " ++
    "_jt_rt.extends('/base')\n    return \"\".join(_jt_out)\n"
  sourceMap := []
  reads := ["_jt_rt"]
  parent := some (⟨true, ["base"]⟩)
  includes := []

/-- A template and one that has two directives to extend others. -/
def twice : List Compile.CompiledUnit := [plainUnit, twiceExtending]

theorem sourcesOf_twice : sourcesOf twice = [.ofUnit plainUnit, .ofUnit twiceExtending] := by
  have hne : plainUnit.template ≠ twiceExtending.template := by decide
  simp [sourcesOf, latest, twice, hne]

theorem sourceOf_twice : sourceOf (sourcesOf twice) twiceExtending.template =
    some (.ofUnit twiceExtending) := by
  have hne : plainUnit.template ≠ twiceExtending.template := by decide
  simp [sourcesOf_twice, sourceOf, Source.ofUnit, hne]

theorem targets_plainUnit : (Source.ofUnit plainUnit).targets = some [] := by
  decide +kernel

theorem targets_twiceExtending :
    (Source.ofUnit twiceExtending).targets = some [⟨true, ["gone"]⟩, plainUnit.template] := by
  decide +kernel

theorem acyclic_twice : ∀ t, ¬ TransGen (StandsFor (sourcesOf twice)) t t := by
  refine acyclic_of_rank (fun p => if p = twiceExtending.template then 1 else 0) ?_
  simp only [sourcesOf_twice, List.forall_mem_cons, targets_plainUnit, targets_twiceExtending]
  decide

theorem standsFor_gone :
    StandsFor (sourcesOf twice) twiceExtending.template ⟨true, ["gone"]⟩ :=
  standsFor_of_targets sourceOf_twice targets_twiceExtending List.mem_cons_self

/-- The first of two directives to extend a template stands for one that was not compiled, and yet
all templates get a unit. -/
theorem flattenStrict_twice : (∀ t, ¬ TransGen (StandsFor (sourcesOf twice)) t t) ∧
    (∃ c, ReflTransGen (StandsFor (sourcesOf twice)) twiceExtending.template c ∧
      Broken (sourcesOf twice) c) ∧
    (flattenStrict twice ⟨true, ["flat"]⟩).toOption.isSome := by
  refine ⟨acyclic_twice, ⟨⟨true, ["gone"]⟩, .single standsFor_gone, fun s hs => ?_⟩, ?_⟩
  · obtain ⟨hmem, htemplate⟩ := mem_of_sourceOf hs
    simp only [sourcesOf_twice, List.mem_cons, List.not_mem_nil, or_false] at hmem
    obtain rfl | rfl := hmem <;> exact absurd htemplate (by decide)
  · decide +kernel

theorem flatten_twice : (∀ t, ¬ TransGen (Needs (sourcesOf twice)) t t) ∧
    ∃ outcomes, flatten twice ⟨true, ["flat"]⟩ = .ok outcomes ∧
      Outcomes twice ⟨true, ["flat"]⟩ outcomes := by
  have hacyclic := acyclic_of_standsFor acyclic_twice
  refine ⟨hacyclic, (flatten_outcomes twice ⟨true, ["flat"]⟩ hacyclic).resolve_right ?_⟩
  rintro ⟨s, hs, r, hr, -⟩
  rw [sourcesOf_twice, List.mem_cons, List.mem_singleton] at hs
  obtain rfl | rfl := hs
  · exact reading_ne_error targets_plainUnit r hr
  · exact reading_ne_error targets_twiceExtending r hr

end Stencil.Flatten
