import Stencil.Flatten.Shared
import Stencil.Proofs.Ensures
import Stencil.Proofs.Flatten.Failure

/-!
Composites that are made once for all templates are those that a plain recursion makes. So what a
template is flattened to depends on what it needs and on nothing else: neither on the other
templates nor on the order in which they are flattened.
-/
namespace Stencil.Flatten

open Relation

variable {sources sources' : List Source} {F : Path → Except Failure Composite} {t : Path}
  {units units' : List Compile.CompiledUnit} {directory : Path} {depth : Nat} {α β : Type}

/-! ### The plain recursion -/

/-- The composites of all templates by plain recursion: what a template needs is composed anew for
each directive that stands for it. -/
def IsComposition (sources : List Source) (F : Path → Except Failure Composite) : Prop :=
  ∀ t, F t = composeAmong sources (fun d => (F d).mapError (blame t d)) t

theorem isComposition_composite (hacyclic : ∀ t, ¬ TransGen (Needs sources) t t)
    (hdepth : sources.length < depth) : IsComposition sources (composite sources depth) := by
  refine deep_induction hacyclic (motive := fun depth t =>
    composite sources depth t = composite sources (depth + 1) t) (fun depth t ih => ?_) hdepth
  exact composeAmong_congr rfl fun d hd => by rw [ih d hd]

/-- The composite of a template does not depend on sources of templates that it does not need. -/
theorem composite_eq (hacyclic : ∀ t, ¬ TransGen (Needs sources) t t) (hF : IsComposition sources' F)
    (hdepth : sources.length < depth)
    (hagree : ∀ c, ReflTransGen (Needs sources) t c → sourceOf sources c = sourceOf sources' c) :
    composite sources depth t = F t := by
  revert hagree
  refine deep_induction hacyclic (motive := fun depth t =>
    (∀ c, ReflTransGen (Needs sources) t c → sourceOf sources c = sourceOf sources' c) →
      composite sources depth t = F t) (fun depth t ih hagree => ?_) hdepth t
  rw [hF t]
  exact composeAmong_congr (hagree t .refl) fun d hd => by
    rw [ih d hd fun c hc => hagree c (.head hd hc)]

/-! ### The table -/

/-- What is in the table is what the plain recursion makes. -/
def Compatible (F : Path → Except Failure Composite) (made : Table) : Prop :=
  ∀ t c, made.lookup t = some c → F t = .ok c

theorem compatible_nil (F : Path → Except Failure Composite) : Compatible F [] := by
  intro t c h
  simp at h

theorem Compatible.cons {made : Table} {c : Composite} (h : Compatible F made) (hc : F t = .ok c) :
    Compatible F ((t, c) :: made) := by
  intro t' c' hlookup
  rw [List.lookup_cons] at hlookup
  split at hlookup
  · next heq =>
    cases hlookup
    rwa [eq_of_beq heq]
  · exact h t' c' hlookup

/-- The work gives this result with any table that is compatible, and leaves it compatible. -/
def Computes (F : Path → Except Failure Composite) (x : Shared α) (y : Except Failure α) : Prop :=
  ∀ made, Compatible F made → (x.run made).1 = y ∧ Compatible F (x.run made).2

namespace Computes

variable {x : Shared α} {y : Except Failure α}

theorem pure (a : α) : Computes F (pure a) (.ok a) := fun _ hmade => ⟨rfl, hmade⟩

theorem throw (f : Failure) : Computes F (throw f : Shared α) (.error f) := fun _ hmade => ⟨rfl, hmade⟩

theorem bind {f : α → Shared β} {g : α → Except Failure β} (hx : Computes F x y)
    (hf : ∀ a, y = .ok a → Computes F (f a) (g a)) : Computes F (x >>= f) (y >>= g) := by
  intro made hmade
  obtain ⟨rfl, hmade'⟩ := hx made hmade
  have hrun : (x >>= f).run made =
      ExceptT.bindCont f (x.run made).1 (x.run made).2 := rfl
  rw [hrun]
  cases h : (x.run made).1 with
  | error e => exact ⟨rfl, hmade'⟩
  | ok a => exact hf a h _ hmade'

theorem map (hx : Computes F x y) (f : α → β) : Computes F (f <$> x) (y.map f) := by
  have hf := hx.bind (g := fun a => .ok (f a)) fun a _ => .pure (f a)
  rw [← map_eq_pure_bind] at hf
  cases y <;> exact hf

theorem adapt {e : Failure → Failure} (hx : Computes F x y) :
    Computes F (x.adapt e) (y.mapError e) := by
  intro made hmade
  obtain ⟨rfl, hmade'⟩ := hx made hmade
  exact ⟨rfl, hmade'⟩

theorem mapM {f : β → Shared α} {g : β → Except Failure α} (as : List β)
    (h : ∀ a, Computes F (f a) (g a)) : Computes F (as.mapM f) (as.mapM g) := by
  induction as with
  | nil => exact .pure []
  | cons a as ih =>
    rw [List.mapM_cons, List.mapM_cons]
    exact (h a).bind fun b _ => ih.bind fun bs _ => .pure (b :: bs)

end Computes

/-- Work with a table and the plain recursion, where what is asked for is computed. -/
def Comparison.computing (F : Path → Except Failure Composite) (dependency : Path → Shared Composite)
    (dependency' : Path → Except Failure Composite) : Comparison dependency dependency' where
  rel asked x y P := (∀ d ∈ asked, Computes F (dependency d) (dependency' d)) →
    Computes F x y ∧ ∀ a, y = .ok a → P a
  pure := by
    rintro α P a ha -
    exact ⟨.pure a, fun b hb => Except.ok.inj hb ▸ ha⟩
  bind := by
    intro α β asked asked' x y f g P Q hx hf hall
    obtain ⟨hxy, hP⟩ := hx fun d hd => hall d (List.mem_append_left _ hd)
    have hrest := fun a ha => hf a (hP a ha) fun d hd => hall d (List.mem_append_right _ hd)
    refine ⟨hxy.bind fun a ha => (hrest a ha).1, fun b hb => ?_⟩
    cases y with
    | error e => cases hb
    | ok a => exact (hrest a rfl).2 b hb
  ask d hall := ⟨hall d (by simp), fun _ _ => trivial⟩

theorem composeAmong_computes {dependency : Path → Shared Composite}
    {dependency' : Path → Except Failure Composite}
    (h : ∀ d, Needs sources t d → Computes F (dependency d) (dependency' d)) :
    Computes F (composeAmong sources dependency t) (composeAmong sources dependency' t) := by
  unfold composeAmong
  cases hsource : sourceOf sources t with
  | none => exact .throw _
  | some s =>
    cases hr : s.reading with
    | error f =>
      simp only [hr]
      split
      · exact .throw _
      · exact .throw _
    | ok r =>
      simp only [hr]
      exact ((Comparison.computing F dependency dependency').compose s.context r
        fun d hd => h d ⟨s, r, hsource, hr, hd⟩).1

theorem run_get_bind (f : Table → Shared α) (made : Table) :
    (get >>= f : Shared α).run made = (f made).run made := rfl

theorem kept_computes {make : Shared Composite} (hmake : Computes F make (F t)) :
    Computes F (Shared.kept t make) (F t) := by
  have hnew : Computes F (do let c ← make; modify ((t, c) :: ·); return c) (F t) := by
    have hlast (c : Composite) (hc : F t = .ok c) :
        Computes F (do modify ((t, c) :: ·); return c) (.ok c) := fun made hmade =>
      ⟨rfl, hmade.cons hc⟩
    have := hmake.bind hlast
    rwa [show F t >>= .ok = F t from bind_pure _] at this
  intro made hmade
  rw [Shared.kept, run_get_bind]
  cases hlookup : made.lookup t with
  | some c => exact ⟨(hmade t c hlookup).symm, hmade⟩
  | none => exact hnew made hmade

/-- A composite is the one of the plain recursion, be it from the table or new. -/
theorem composite_computes (hacyclic : ∀ t, ¬ TransGen (Needs sources) t t)
    (hF : IsComposition sources F) (hdepth : sources.length < depth) (t : Path) :
    Computes F (Shared.composite sources depth t) (F t) := by
  refine deep_induction hacyclic (motive := fun depth t =>
    Computes F (Shared.composite sources depth t) (F t)) (fun depth t ih => ?_) hdepth t
  refine kept_computes ?_
  rw [hF t]
  exact composeAmong_computes fun d hd => (ih d hd).adapt

theorem flattenUnit_computes (hacyclic : ∀ t, ¬ TransGen (Needs sources) t t)
    (hF : IsComposition sources F) (directory t : Path) :
    Computes F (Shared.flattenUnit sources directory t) ((F t).map (unitOf directory t)) :=
  (composite_computes hacyclic hF (Nat.lt_succ_self _) t).map (unitOf directory t)

/-! ### Errors -/

/-- A failure that is an error is one of this template. -/
def Failure.IsOf (t : Path) : Failure → Prop
  | .error e => e.template = t
  | .fault _ | .endless => True

/-- What can be asked for fails with `E`, and so does the work that asks for it. -/
def Comparison.failing {E : Failure → Prop} {dependency : Path → Shared Composite}
    (h : ∀ d, Ensures (fun _ => True) (dependency d) (fun _ _ => True) fun f _ => E f) :
    Comparison dependency dependency where
  rel _ x _ P := Ensures (fun _ => True) x (fun a _ => P a) fun f _ => E f
  pure ha := Ensures.pure fun _ _ => ha
  bind hx hf := Ensures.bind hx fun a made ha => hf a ha made trivial
  ask := h

/-- A template that cannot be composed is the one that the error names, whatever it fails for. -/
theorem composite_isOf (sources : List Source) (depth : Nat) (t : Path) :
    Ensures (fun _ => True) (Shared.composite sources depth t) (fun _ _ => True) fun f _ => f.IsOf t := by
  cases depth with
  | zero => exact Ensures.throw fun _ _ => trivial
  | succ depth =>
    have hblamed (d : Path) : Ensures (fun _ => True) ((Shared.composite sources depth d).adapt (blame t d))
        (fun _ _ => True) fun f _ => f.IsOf t := by
      refine Ensures.adapt ((Ensures.trivial _).mono (fun _ => id) (fun _ _ => id) fun f _ _ => ?_)
      cases f with
      | error e => exact rfl
      | fault f => trivial
      | endless => trivial
    have hmade : Ensures (fun _ => True) (composeAmong sources
        (fun d => (Shared.composite sources depth d).adapt (blame t d)) t) (fun _ _ => True) fun f _ => f.IsOf t := by
      unfold composeAmong
      split
      · exact Ensures.throw fun _ _ => rfl
      · split
        · split
          · exact Ensures.throw fun _ _ => rfl
          · exact Ensures.throw fun _ _ => trivial
        · exact (Comparison.failing hblamed).compose _ _
    refine Ensures.bind (Ensures.get (Q := fun _ _ => True) fun _ => id) fun made => ?_
    split
    · exact Ensures.pure fun _ => id
    · exact hmade.bind fun c => Ensures.bind (Ensures.modify (Q := fun _ _ => True) fun _ => id) fun _ =>
        Ensures.pure fun _ => id

/-- An outcome of the flattening of a template is about this template. -/
theorem flattenUnit_isOf (sources : List Source) (directory t : Path) :
    Ensures (fun _ => True) (Shared.flattenUnit sources directory t) (fun u _ => u.template = t)
      fun f _ => f.IsOf t := by
  unfold Shared.flattenUnit
  rw [map_eq_pure_bind]
  exact (composite_isOf sources _ t).bind fun c => Ensures.pure fun _ _ => rfl

/-! ### All templates -/

theorem orError_computes {x : Shared FlattenedUnit} {y : Except Failure FlattenedUnit}
    (hx : Computes F x y) : Computes F (ExceptT.mk (orError <$> x.run)) (orError y) := by
  intro made hmade
  obtain ⟨rfl, hmade'⟩ := hx made hmade
  exact ⟨rfl, hmade'⟩

/-- The table changes nothing, whatever is in it when a template is flattened. -/
theorem shared_flatten (hacyclic : ∀ t, ¬ TransGen (Needs (sourcesOf units)) t t)
    (directory : Path) : Shared.flatten units directory = flatten units directory := by
  have hF := isComposition_composite hacyclic (Nat.lt_succ_self _)
  exact (Computes.mapM (latest units) (fun u => orError_computes
    (flattenUnit_computes hacyclic hF directory u.template)) [] (compatible_nil _)).1

theorem shared_flattenStrict (hacyclic : ∀ t, ¬ TransGen (Needs (sourcesOf units)) t t)
    (directory : Path) : Shared.flattenStrict units directory = flattenStrict units directory := by
  have hF := isComposition_composite hacyclic (Nat.lt_succ_self _)
  exact (Computes.mapM (latest units) (fun u =>
    flattenUnit_computes hacyclic hF directory u.template) [] (compatible_nil _)).1

/-- Composing templates, one by one and all of them, comes to an end. -/
structure Ends (units : List Compile.CompiledUnit) (directory : Path) : Prop where
  composite : ∀ t, composite (sourcesOf units) ((sourcesOf units).length + 1) t ≠ .error .endless
  flatten : Shared.flatten units directory ≠ .error .endless
  strict : Shared.flattenStrict units directory ≠ .error .endless

/-- What is not needed inside itself is not composed inside itself. -/
theorem ends_of_acyclic (hacyclic : ∀ t, ¬ TransGen (Needs (sourcesOf units)) t t) (directory : Path) :
    Ends units directory := by
  have hcomposite (t : Path) :
      Flatten.composite (sourcesOf units) ((sourcesOf units).length + 1) t ≠ .error .endless := by
    intro h
    have := composite_composed hacyclic (Nat.lt_succ_self _) t
    rwa [h] at this
  refine ⟨hcomposite, ?_, ?_⟩
  · rw [shared_flatten hacyclic]
    obtain ⟨outcomes, h, -⟩ | ⟨_, _, _, _, _, h⟩ := flatten_each hacyclic directory <;> simp [h]
  · rw [shared_flattenStrict hacyclic]
    intro h
    replace h : (latest units).mapM (fun u => flattenUnit (sourcesOf units) directory u.template) =
      .error .endless := h
    have hstrict := mapM_spec (fun u : Compile.CompiledUnit =>
      flattenUnit (sourcesOf units) directory u.template) (latest units)
    rw [h] at hstrict
    obtain ⟨u, -, hu⟩ := hstrict
    cases hc : Flatten.composite (sourcesOf units) ((sourcesOf units).length + 1) u.template with
    | ok c => simp [flattenUnit, hc, Except.map] at hu
    | error f =>
      have hf : f = .endless := by simpa [flattenUnit, hc, Except.map] using hu
      exact hcomposite u.template (hf ▸ hc)

/-- The template that an outcome is about. -/
def templateOf : Except FlattenError FlattenedUnit → Path
  | .ok u => u.template
  | .error e => e.template

theorem Flattened.template {outcome : Except FlattenError FlattenedUnit}
    (h : Flattened sources t outcome) : templateOf outcome = t := by
  cases outcome <;> exact h.1

/-- The unit that counts of those that were compiled of a template. -/
def unitFor? (units : List Compile.CompiledUnit) (t : Path) : Option Compile.CompiledUnit :=
  (latest units).find? (·.template == t)

theorem sourceOf_sourcesOf (units : List Compile.CompiledUnit) (t : Path) :
    sourceOf (sourcesOf units) t = (unitFor? units t).map Source.ofUnit := by
  unfold sourceOf sourcesOf unitFor?
  rw [List.find?_map]
  rfl

theorem isSome_unitFor? : (unitFor? units t).isSome ↔ t ∈ units.map (·.template) := by
  rw [← (latest_templates units).2 t, unitFor?, List.find?_isSome]
  simp

/-- Of the outcomes of distinct templates one is that of `t`. -/
theorem filter_templateOf {us : List Compile.CompiledUnit}
    {outcomes : List (Except FlattenError FlattenedUnit)}
    {result : Path → Except Failure FlattenedUnit}
    (h : List.Forall₂ (fun u outcome => orError (result u.template) = .ok outcome ∧
      templateOf outcome = u.template) us outcomes)
    (hnodup : (us.map (·.template)).Nodup) (ht : t ∈ us.map (·.template)) :
    ∃ outcome, orError (result t) = .ok outcome ∧
      outcomes.filter (templateOf · = t) = [outcome] := by
  induction h with
  | nil => simp at ht
  | @cons u outcome us outcomes hu hrest ih =>
    obtain ⟨hresult, htemplate⟩ := hu
    rw [List.map_cons, List.nodup_cons] at hnodup
    rw [List.map_cons, List.mem_cons] at ht
    by_cases hut : u.template = t
    · have htemplates : us.map (·.template) = outcomes.map templateOf := by
        rw [← List.forall₂_eq_eq_eq, List.forall₂_map_left_iff, List.forall₂_map_right_iff]
        exact hrest.imp fun _ _ h => h.2.symm
      have hnone : outcomes.filter (templateOf · = t) = [] := by
        rw [hut, htemplates] at hnodup
        simpa [List.filter_eq_nil_iff] using hnodup.1
      exact ⟨outcome, hut ▸ hresult, by simp [htemplate, hut, hnone]⟩
    · obtain ⟨found, hfound, hfilter⟩ := ih hnodup.2 (ht.resolve_left (Ne.symm hut))
      exact ⟨found, hfound, by simp [htemplate, hut, hfilter]⟩

/-- What flattening some units gives the template `t`, if `c` is its composite: of all outcomes
exactly one is about the template. If errors end the work, it is an error of some template. -/
structure FlattensTo (units : List Compile.CompiledUnit) (directory t : Path)
    (c : Except Failure Composite) (outcomes : List (Except FlattenError FlattenedUnit)) : Prop where
  flatten : Shared.flatten units directory = .ok outcomes
  one : ∃ outcome, orError (c.map (unitOf directory t)) = .ok outcome ∧
    outcomes.filter (templateOf · = t) = [outcome]
  strict : (∃ found, Shared.flattenStrict units directory = .ok found ∧ outcomes = found.map .ok) ∨
    ∃ e, Shared.flattenStrict units directory = .error (.error e) ∧ .error e ∈ outcomes

/-- There is a unit that the reader can neither read nor refuse, and this ends the flattening. -/
def EndsWithFault (units : List Compile.CompiledUnit) (directory : Path) : Prop :=
  ∃ s ∈ sourcesOf units, ∃ f, s.reading = .error f ∧ f.message? = none ∧
    Shared.flatten units directory = .error (.fault f)

theorem gives_composite (hacyclic : ∀ t, ¬ TransGen (Needs (sourcesOf units)) t t)
    (ht : t ∈ units.map (·.template)) (directory : Path) :
    (∃ outcomes, FlattensTo units directory t
      (composite (sourcesOf units) ((sourcesOf units).length + 1) t) outcomes) ∨
      EndsWithFault units directory := by
  have hshared := shared_flatten hacyclic directory
  obtain ⟨outcomes, hflatten, heach⟩ | ⟨s, hs, f, hf, hmessage, hflatten⟩ :=
    flatten_each hacyclic directory
  · obtain ⟨hnodup, hcompiled⟩ := latest_templates units
    refine .inl ⟨outcomes, hshared.trans hflatten,
      filter_templateOf (heach.imp fun u outcome h => ⟨h.1, h.2.template⟩) hnodup ((hcompiled t).2 ht), ?_⟩
    rw [shared_flattenStrict hacyclic directory]
    exact strict_of_outcomes (heach.imp fun _ _ h => h.1)
  · exact .inr ⟨s, hs, f, hf, hmessage, hshared.trans hflatten⟩

theorem FlattensTo.mem {c : Composite} {outcomes : List (Except FlattenError FlattenedUnit)}
    (h : FlattensTo units directory t (.ok c) outcomes) : .ok (unitOf directory t c) ∈ outcomes := by
  obtain ⟨outcome, houtcome, hone⟩ := h.one
  cases houtcome
  have hmem : .ok (unitOf directory t c) ∈ outcomes.filter (templateOf · = t) := by
    rw [hone]
    exact List.mem_singleton_self _
  exact List.mem_of_mem_filter hmem

/-- A template that needs no other is flattened. -/
theorem flattensTo_of_needs {u : Compile.CompiledUnit} (h : (Source.ofUnit u).needs? = some []) (directory : Path) :
    ∃ c outcomes, FlattensTo [u] directory u.template (.ok c) outcomes := by
  have hsources : sourcesOf [u] = [.ofUnit u] := by simp [sourcesOf, latest]
  have hsource : sourceOf (sourcesOf [u]) u.template = some (.ofUnit u) := by
    simp [hsources, sourceOf, Source.ofUnit]
  have hread : ∀ f, (Source.ofUnit u).reading ≠ .error f := fun f hf => by
    simp [Source.needs?, hf, Except.toOption] at h
  have hnone (a b : Path) (hab : Needs (sourcesOf [u]) a b) : False := by
    obtain ⟨s, _, hs, -⟩ := id hab
    obtain ⟨hmem, htemplate⟩ := mem_of_sourceOf hs
    rw [hsources, List.mem_singleton] at hmem
    obtain rfl : a = u.template := by rw [← htemplate, hmem]; rfl
    exact List.not_mem_nil ((needs_iff hsource h).1 hab)
  have hacyclic (a : Path) (ha : TransGen (Needs (sourcesOf [u])) a a) : False := by
    obtain ⟨b, -, hb⟩ := TransGen.tail'_iff.1 ha
    exact hnone b a hb
  have hsound (c : Path) (hc : ReflTransGen (Needs (sourcesOf [u])) u.template c) : ¬ Broken (sourcesOf [u]) c := by
    obtain rfl | ⟨b, hb, -⟩ := ReflTransGen.cases_head hc
    · intro hbroken
      obtain ⟨f, hf⟩ := hbroken _ hsource
      exact hread f hf
    · exact (hnone _ _ hb).elim
  obtain ⟨c, hc⟩ := composite_ok hacyclic (Nat.lt_succ_self _) hsound
  obtain ⟨outcomes, houtcomes⟩ | ⟨s, hs, f, hf, -⟩ := gives_composite hacyclic (by simp) directory (t := u.template)
  · exact ⟨c, outcomes, hc ▸ houtcomes⟩
  · rw [hsources, List.mem_singleton] at hs
    exact (hread f (hs ▸ hf)).elim

/-- A template that includes the plain one. -/
def includingUnit : Compile.CompiledUnit where
  template := ⟨true, ["page"]⟩
  file := ⟨true, ["out", "page.py"]⟩
  source := "def _jt_render() -> str:\n    _jt_out: list[str] = []\n" ++
    "    _jt_out.append(_jt_rt.include('/base'))\n    return \"\".join(_jt_out)\n"
  sourceMap := []
  reads := []
  parent := none
  includes := [plainUnit.template]

/-- A unit that the reader refuses. -/
def emptyUnit : Compile.CompiledUnit := { plainUnit with template := ⟨true, ["other"]⟩, source := "" }

/-- A template behind the one that it includes. -/
def plainFirst : List Compile.CompiledUnit := [plainUnit, includingUnit]

/-- The template in front of the one that it includes, with a unit that neither needs. -/
def plainLast : List Compile.CompiledUnit := [emptyUnit, includingUnit, plainUnit]

theorem sourcesOf_plainFirst : sourcesOf plainFirst = [.ofUnit plainUnit, .ofUnit includingUnit] := by
  have hne : plainUnit.template ≠ includingUnit.template := by decide
  simp [sourcesOf, latest, plainFirst, hne]

theorem sourcesOf_plainLast :
    sourcesOf plainLast = [.ofUnit emptyUnit, .ofUnit includingUnit, .ofUnit plainUnit] := by
  have hne : emptyUnit.template ≠ includingUnit.template := by decide
  have hne' : emptyUnit.template ≠ plainUnit.template := by decide
  have hne'' : includingUnit.template ≠ plainUnit.template := by decide
  simp [sourcesOf, latest, plainLast, hne, hne', hne'']

theorem reading_emptyUnit : (Source.ofUnit emptyUnit).reading = .error .noRender := rfl

theorem targets_emptyUnit : (Source.ofUnit emptyUnit).targets = none := by
  rw [Source.targets, reading_emptyUnit]

theorem targets_includingUnit :
    (Source.ofUnit includingUnit).targets = some [plainUnit.template] := by
  decide +kernel

/-- The template that is included stands for no other. -/
def heightOf (t : Path) : Nat := if t = plainUnit.template then 0 else 1

theorem acyclic_plainFirst : ∀ t, ¬ TransGen (Needs (sourcesOf plainFirst)) t t := by
  refine acyclic_of_standsFor (acyclic_of_rank heightOf ?_)
  simp only [sourcesOf_plainFirst, List.forall_mem_cons, targets_plainUnit, targets_includingUnit]
  decide

theorem acyclic_plainLast : ∀ t, ¬ TransGen (Needs (sourcesOf plainLast)) t t := by
  refine acyclic_of_standsFor (acyclic_of_rank heightOf ?_)
  simp only [sourcesOf_plainLast, List.forall_mem_cons, targets_plainUnit, targets_emptyUnit,
    targets_includingUnit]
  decide

theorem reaches_plainFirst {c : Path}
    (hc : ReflTransGen (Needs (sourcesOf plainFirst)) includingUnit.template c) :
    c = plainUnit.template ∨ c = includingUnit.template := by
  have hclosed : ∀ s ∈ sourcesOf plainFirst, s.template ∈ plainFirst.map (·.template) →
      ∀ b ∈ s.targets.getD [], b ∈ plainFirst.map (·.template) := by
    simp only [sourcesOf_plainFirst, List.forall_mem_cons, targets_plainUnit, targets_includingUnit]
    decide
  simpa [plainFirst] using mem_of_closed hclosed (by decide)
    (ReflTransGen.mono (fun _ _ hab => StandsFor.of_needs hab) _ _ hc)

theorem agree_plainFirst (c : Path)
    (hc : ReflTransGen (Needs (sourcesOf plainFirst)) includingUnit.template c) :
    unitFor? plainFirst c = unitFor? plainLast c := by
  obtain rfl | rfl := reaches_plainFirst hc <;> rfl

theorem sound_plainFirst (c : Path)
    (hc : ReflTransGen (Needs (sourcesOf plainFirst)) includingUnit.template c) :
    ¬ Broken (sourcesOf plainFirst) c := by
  intro hbroken
  obtain rfl | rfl := reaches_plainFirst hc
  · obtain ⟨f, hf⟩ := hbroken (.ofUnit plainUnit) rfl
    exact reading_ne_error targets_plainUnit f hf
  · obtain ⟨f, hf⟩ := hbroken (.ofUnit includingUnit) rfl
    exact reading_ne_error targets_includingUnit f hf

theorem not_ends_plainFirst : ¬ EndsWithFault plainFirst directory := by
  rintro ⟨s, hs, f, hf, -⟩
  rw [sourcesOf_plainFirst, List.mem_cons, List.mem_singleton] at hs
  obtain rfl | rfl := hs
  · exact reading_ne_error targets_plainUnit f hf
  · exact reading_ne_error targets_includingUnit f hf

theorem not_ends_plainLast : ¬ EndsWithFault plainLast directory := by
  rintro ⟨s, hs, f, hf, hmessage, -⟩
  rw [sourcesOf_plainLast, List.mem_cons, List.mem_cons, List.mem_singleton] at hs
  obtain rfl | rfl | rfl := hs
  · rw [reading_emptyUnit] at hf
    cases hf
    cases hmessage
  · exact reading_ne_error targets_includingUnit f hf
  · exact reading_ne_error targets_plainUnit f hf

end Stencil.Flatten
