import Stencil.Diagnosis.Report
import Stencil.Proofs.Dependency.Targets
import Stencil.Proofs.Flatten.Sourced
import Stencil.Proofs.Observed.Section

/-!
What a sighting holds of what was observed for a template, and the lines of an injected module that come from no template:
those above its statements, and the first and the last lines of functions that collect output. Findings on these lines
are dropped, and on no others.
-/
namespace Stencil.Observed
open Code Compile Flatten Diagnosis

variable {s : Sighting} {v : Variable} {c : Composite} {template directory : Path} {reads context : List String}
  {units : List CompiledUnit} {u : FlattenedUnit}

/-! ### Sightings -/

section Sightings

variable {vs : List Variable} {found : List (Path × Observation)} {name type m : String}

/-- The types that were observed for a name, in their order. -/
def typesOf (vs : List Variable) (name : String) : List String := (vs.filter (·.name = name)).map (·.type)

theorem typesOf_concat (vs : List Variable) (v : Variable) (name : String) :
    typesOf (vs ++ [v]) name = if name = v.name then typesOf vs name ++ [v.type] else typesOf vs name := by
  split <;> simp [typesOf, List.filter_append, *, eq_comm]

theorem mem_typesOf : type ∈ typesOf vs name ↔ ∃ v ∈ vs, v.name = name ∧ v.type = type := by
  simp [typesOf, and_assoc]

theorem typesOf_eq_nil_iff : typesOf vs name = [] ↔ name ∉ vs.map (·.name) := by
  simp [typesOf, List.filter_eq_nil_iff]

theorem lookup_graph_eq {α β : Type} [DecidableEq α] (f : α → β) (l : List α) (a : α) :
    (l.map fun a => (a, f a)).lookup a = if a ∈ l then some (f a) else none := by
  split
  · next ha => exact List.lookup_graph f ha
  · next ha =>
    rw [List.lookup_eq_none_iff]
    refine List.forall_mem_map.2 fun b hb => bne_iff_ne.2 ?_
    exact (ne_of_mem_of_not_mem hb ha).symm

/-- Names are met in their order, each with all its types. -/
theorem types_foldl_add (vs : List Variable) :
    (vs.foldl Sighting.add .empty).types = (vs.map (·.name)).eraseDups.map fun name => (name, typesOf vs name) := by
  induction vs using List.reverseRecOn with
  | nil => rfl
  | append_singleton vs v ih =>
    rw [List.foldl_concat, Sighting.add, ih, lookup_graph_eq, List.map_append, List.map_singleton, eraseDups_concat]
    by_cases hknown : v.name ∈ vs.map (·.name)
    · simp only [List.mem_eraseDups, hknown, if_true, Option.isSome_some, List.map_map]
      refine List.map_congr_left fun name _ => ?_
      rw [Function.comp_apply, typesOf_concat]
      split <;> rfl
    · simp only [List.mem_eraseDups, hknown, if_false, Option.isSome_none, Bool.false_eq_true, List.map_append,
        List.map_singleton]
      have hnew : typesOf (vs ++ [v]) v.name = [v.type] := by
        rw [typesOf_concat, if_pos rfl, typesOf_eq_nil_iff.2 hknown, List.nil_append]
      rw [hnew]
      congr 1
      refine List.map_congr_left fun name hname => ?_
      have hne : name ≠ v.name := ne_of_mem_of_not_mem (List.mem_eraseDups.1 hname) hknown
      rw [typesOf_concat, if_neg hne]

theorem modules_foldl_add (vs : List Variable) :
    (vs.foldl Sighting.add .empty).modules = (vs.flatMap (·.modules)).eraseDups := by
  induction vs using List.reverseRecOn with
  | nil => rfl
  | append_singleton vs v ih =>
    rw [List.foldl_concat, Sighting.add, ih, eraseDups_eraseDups_append, List.flatMap_append, List.flatMap_singleton]

/-- The variables that a template was given. -/
def passedTo (found : List (Path × Observation)) (template : Path) : List Variable :=
  found.flatMap fun e => if e.1 = template then e.2.passed else []

theorem mem_passedTo : v ∈ passedTo found template ↔ ∃ e ∈ found, e.1 = template ∧ v ∈ e.2.passed := by
  rw [passedTo, List.mem_flatMap]
  refine exists_congr fun e => and_congr_right fun _ => ?_
  split <;> simp [*]

/-- A sighting is made of the variables that were observed for its template. -/
theorem sightingOf_eq (found : List (Path × Observation)) (template : Path) :
    sightingOf found template = (passedTo found template).foldl Sighting.add .empty := rfl

theorem names_sightingOf (found : List (Path × Observation)) (template : Path) :
    (sightingOf found template).types.map (·.1) = ((passedTo found template).map (·.name)).eraseDups := by
  rw [sightingOf_eq, types_foldl_add, List.map_map]
  exact List.map_id _

theorem lookup_sightingOf (found : List (Path × Observation)) (template : Path) (name : String) :
    ((sightingOf found template).types.lookup name).getD [] = typesOf (passedTo found template) name := by
  rw [sightingOf_eq, types_foldl_add, lookup_graph_eq]
  split
  · rfl
  · next hname => exact (typesOf_eq_nil_iff.2 fun hmem => hname (List.mem_eraseDups.2 hmem)).symm

/-- What was observed for a template holds nothing but the names and types of its variables. -/
theorem exists_of_mem_types {e : String × List String} (he : e ∈ (sightingOf found template).types) :
    (∃ v ∈ passedTo found template, v.name = e.1) ∧
      ∀ t ∈ e.2, ∃ v ∈ passedTo found template, v.name = e.1 ∧ v.type = t := by
  rw [sightingOf_eq, types_foldl_add] at he
  obtain ⟨name, hname, rfl⟩ := List.mem_map.1 he
  exact ⟨List.mem_map.1 (List.mem_eraseDups.1 hname), fun t ht => mem_typesOf.1 ht⟩

theorem mem_modules_sightingOf :
    m ∈ (sightingOf found template).modules ↔ ∃ v ∈ passedTo found template, m ∈ v.modules := by
  rw [sightingOf_eq, modules_foldl_add, List.mem_eraseDups, List.mem_flatMap]

theorem forall_mem_lookup {p : String → Prop} (h : ∀ e ∈ s.types, ∀ t ∈ e.2, p t) (name : String) :
    ∀ t ∈ (s.types.lookup name).getD [], p t := by
  cases hlookup : s.types.lookup name with
  | none => simp
  | some types =>
    obtain ⟨_, _, htypes, -⟩ := List.lookup_eq_some_iff.1 hlookup
    exact h (name, types) (by simp [htypes])

end Sightings

/-! ### Sections -/

/-- A variable whose texts stand in one line. -/
structure Variable.InLine (v : Variable) : Prop where
  name : Unbroken v.name
  type : Unbroken v.type
  modules : ∀ m ∈ v.modules, Unbroken m

structure Sighting.InLine (s : Sighting) : Prop where
  types : ∀ e ∈ s.types, Unbroken e.1 ∧ ∀ t ∈ e.2, Unbroken t
  modules : ∀ m ∈ s.modules, Unbroken m

theorem inLine_sightingOf {found : List (Path × Observation)} (h : ∀ e ∈ found, ∀ v ∈ e.2.passed, v.InLine)
    (template : Path) : (sightingOf found template).InLine := by
  have hpassed : ∀ v ∈ passedTo found template, v.InLine := by
    intro v hv
    obtain ⟨e, he, -, hv⟩ := mem_passedTo.1 hv
    exact h e he v hv
  constructor
  · intro e he
    obtain ⟨⟨v, hv, hname⟩, htypes⟩ := exists_of_mem_types he
    refine ⟨hname ▸ (hpassed v hv).name, fun t ht => ?_⟩
    obtain ⟨v, hv, -, rfl⟩ := htypes t ht
    exact (hpassed v hv).type
  · intro m hm
    obtain ⟨v, hv, hm⟩ := mem_modules_sightingOf.1 hm
    exact (hpassed v hv).modules m hm

theorem unbroken_unionType {types : List String} (h : ∀ t ∈ types, Unbroken t) : Unbroken (unionType types) := by
  unfold unionType
  split
  · decide
  · exact .join (fun t ht => h t (List.mem_eraseDups.1 ht)) (by decide)

theorem unbroken_declarations (hs : s.InLine) (hreads : ∀ v ∈ reads, Unbroken v) :
    ∀ d ∈ declarations reads s, Unbroken d.1 ∧ Unbroken d.2 := by
  have htype (name : String) : Unbroken (unionType ((s.types.lookup name).getD [])) :=
    unbroken_unionType (forall_mem_lookup (fun e he => (hs.types e he).2) name)
  refine List.forall_mem_append.2 ⟨List.forall_mem_map.2 fun name hname => ⟨hreads name hname, htype name⟩,
    List.forall_mem_map.2 fun e he => ⟨(hs.types e (List.mem_filter.1 he).1).1, htype e.1⟩⟩

/-- The lines of the context section of an injected unit. -/
def contextOf (s : Sighting) (reads : List String) : List String :=
  s.imports.map ("import " ++ ·) ++ (declarations reads s).map fun d => declaration d.1 d.2

theorem unbroken_contextOf (hs : s.InLine) (hreads : ∀ v ∈ reads, Unbroken v) :
    ∀ line ∈ contextOf s reads, Unbroken line := by
  refine List.forall_mem_append.2 ⟨List.forall_mem_map.2 fun m hm => ?_, List.forall_mem_map.2 fun d hd => ?_⟩
  · exact (by decide : Unbroken "import ").append (hs.modules m (List.mem_filter.1 hm).1)
  · obtain ⟨hname, htype⟩ := unbroken_declarations hs hreads d hd
    exact unbroken_declaration hname htype

/-! ### Units -/

/-- What the module of a composite is made of. -/
def partsOf (template : Path) (c : Composite) (context : List String) : Parts Chain where
  title := Flatten.titleOf template
  context
  definitions := emitDefinitions c.definitions
  body := c.body

theorem cuttable_partsOf (template : Path) (c : Composite) (names : List String) :
    Cuttable (partsOf template c (names.map (declaration · anyType))) := by
  constructor
  · intro h
    have htitle : "# " ++ (partsOf template c (names.map (declaration · anyType))).title =
        "# " ++ ("Flattened by jinjastan from " ++ template.text ++ ". Do not edit.") := rfl
    have hletter := congrArg (fun s : String => s.toList[2]?) (htitle.symm.trans h)
    rw [String.toList_append, String.toList_append, String.toList_append, List.append_assoc] at hletter
    cases hletter
  · intro h
    obtain ⟨v, -, hv⟩ := List.mem_map.1 h
    have := congrArg (fun s : String => s.toList.getLast?) hv
    simp [declaration, anyType, contextEnd] at this

theorem sourced_partsOf (h : c.Sourced) : ∀ l ∈ (partsOf template c context).statements, Sourced l :=
  Parts.sourced_statements h.emitted h.body

theorem unbroken_lines_partsOf (h : c.Sourced) (htemplate : Unbroken template.text)
    (hcontext : ∀ line ∈ context, Unbroken line) : ∀ line ∈ (partsOf template c context).lines, Unbroken line :=
  Parts.unbroken_lines
    (((by decide : Unbroken "Flattened by jinjastan from ").append htemplate).append (by decide)) hcontext
    fun l hl => (sourced_partsOf h l hl).unbroken

/-- An injected unit is the module of its composite with another context section. -/
theorem injectUnit_unitOf (h : c.Sourced) (htemplate : Unbroken template.text) (target : Path) (s : Sighting) :
    injectUnit target s (unitOf directory template c) = some {
      template
      file := target.child (fileName template)
      source := (partsOf template c (contextOf s c.context)).source
      sourceMap := (partsOf template c (contextOf s c.context)).sourceMap
      declarations := declarations c.context s } := by
  have hcontext : ∀ line ∈ c.context.map (declaration · anyType), Unbroken line :=
    List.forall_mem_map.2 fun v hv => unbroken_declaration (h.context v hv) (by decide)
  have hreplace := replaceContext_source (cuttable_partsOf template c c.context)
    (unbroken_lines_partsOf h htemplate hcontext) (contextOf s c.context)
  have hmoved := sourceMap_moved (partsOf template c (c.context.map (declaration · anyType))) (contextOf s c.context)
  have hunit : injectUnit target s (unitOf directory template c) =
      (replaceContext (partsOf template c (c.context.map (declaration · anyType))).source (contextOf s c.context)).map
        fun r => {
          template
          file := target.child (fileName template)
          source := r.1
          sourceMap := (partsOf template c (c.context.map (declaration · anyType))).sourceMap.filterMap fun e =>
            (r.2.lookup e.1).map fun n => (n, e.2)
          declarations := declarations c.context s } := rfl
  rw [hunit, hreplace, Option.map_some, hmoved]
  rfl

theorem chainAt_eq_lookup (m : List (Nat × Chain)) (n : Nat) : chainAt m n = m.lookup n := by
  induction m with
  | nil => rfl
  | cons e m ih =>
    unfold chainAt at ih ⊢
    rw [List.find?_cons, List.lookup_cons]
    by_cases hn : n = e.1
    · simp [hn]
    · have hne : (n == e.1) = false := by simpa using hn
      have hne' : decide ((e.1 : Int) = n) = false := by simpa using fun h => hn h.symm
      rw [hne, hne']
      exact ih

/-- The lines above the statements of an injected module. -/
def headOf (u : FlattenedUnit) (s : Sighting) : List String :=
  ("# " ++ Flatten.titleOf u.template) :: headerImports ++
    contextStart :: contextOf s u.reads ++ [contextEnd, "", "", "def _jt_render() -> str:"]

/-- All lines of an injected module have an origin but those of `head`, which it starts with, and those that bound
a function. -/
structure UnmappedAt (i : InjectedUnit) (head : List String) : Prop where
  starts : head <+: Text.lines i.source
  keys : ∀ e ∈ i.sourceMap, 1 ≤ e.1 ∧ e.1 ≤ (Text.lines i.source).length
  unmapped : ∀ k line, (Text.lines i.source)[k]? = some line →
    (i.sourceMap.lookup (k + 1) = none ↔ k < head.length ∨ IsBound line)

/-- The unit of a composite that is sound is injected with a map of all its statements. -/
theorem unmappedAt_unitOf (h : c.Sourced) (htemplate : Unbroken template.text) (hs : s.InLine)
    (directory target : Path) :
    ∃ i, injectUnit target s (unitOf directory template c) = some i ∧
      UnmappedAt i (headOf (unitOf directory template c) s) := by
  refine ⟨_, injectUnit_unitOf h htemplate target s, ?_⟩
  have hlines : Text.lines (partsOf template c (contextOf s c.context)).source =
      (partsOf template c (contextOf s c.context)).lines :=
    Parts.lines_source (unbroken_lines_partsOf h htemplate (unbroken_contextOf hs h.context))
  constructor <;> dsimp only <;> rw [hlines]
  · exact List.prefix_append _ _
  · exact fun e he => Parts.mem_sourceMap he
  · exact fun k line hline => Parts.lookup_sourceMap (sourced_partsOf h) hline

/-- A finding on a line of a unit is dropped if and only if the line has no origin. -/
theorem locate_eq_none_iff {injected : List InjectedUnit} {i : InjectedUnit} {f : Finding} {k : Nat}
    (hfile : injectedIn injected f.file = some i) (hline : f.line = k + 1) (table : RenderTable) :
    f.locate injected table = none ↔ i.sourceMap.lookup (k + 1) = none := by
  have hpositive : ¬ f.line < 1 := by omega
  have hnumber : f.line = ((k + 1 : Nat) : Int) := by omega
  simp only [Finding.locate, hfile, if_neg hpositive, Option.map_eq_none_iff]
  rw [hnumber, chainAt_eq_lookup]

/-- A unit that was compiled from a template whose path stands in one line and that has no name which is kept
for generated code. -/
def OfPlain (u : CompiledUnit) : Prop :=
  ∃ dialect library tree directory, compile dialect library tree u.template directory = .ok u ∧
    Unbroken u.template.text ∧ ∀ source, Files.Tree.readText tree u.template = .ok source → Unreserved source

/-- A unit of a plain template has a module, made of the lines that were compiled. -/
theorem OfPlain.exists_module {v : CompiledUnit} (h : OfPlain v) :
    Unbroken v.template.text ∧ ∃ p es, HasModule (fun _ => True) v p es := by
  obtain ⟨_, _, _, _, hcompile, hlines, hnames⟩ := h
  obtain ⟨document, hparse, hdocument⟩ := compile_eq_ok hcompile
  exact ⟨hlines, (Compile.exists_module (worded_of_parseFile hnames hparse) (fun _ _ => trivial)
    (fun _ _ _ _ => trivial) hdocument).2⟩

theorem OfPlain.sourced {v : CompiledUnit} (h : OfPlain v) : (Source.ofUnit v).Sourced := by
  obtain ⟨hlines, p, es, hmodule⟩ := h.exists_module
  exact hmodule.sourced hlines

/-- Only the lines above its statements and the bounds of functions have no origin in an injected module, and
findings are dropped on these lines and on no others. -/
theorem unmapped_iff_scaffold {outcomes : List (Except FlattenError FlattenedUnit)}
    (hunits : ∀ v ∈ units, OfPlain v) (h : Shared.flatten units directory = .ok outcomes) (hu : .ok u ∈ outcomes)
    {found : List (Path × Observation)} (hfound : ∀ e ∈ found, ∀ v ∈ e.2.passed, v.InLine) (target : Path) :
    ∃ i, injectUnit target (sightingOf found u.template) u = some i ∧
      UnmappedAt i (headOf u (sightingOf found u.template)) ∧
      ∀ injected table (f : Finding), injectedIn injected f.file = some i →
        ∀ (k : Nat) line, f.line = k + 1 → (Text.lines i.source)[k]? = some line →
          (f.locate injected table = none ↔
            k < (headOf u (sightingOf found u.template)).length ∨ IsBound line) := by
  obtain ⟨v, hv, c, hc, rfl⟩ := flatten_sourced (fun v hv => (hunits v hv).sourced) h hu
  obtain ⟨_, _, _, _, _, htemplate, _⟩ := hunits v hv
  obtain ⟨i, hi, hunmapped⟩ := unmappedAt_unitOf hc htemplate (inLine_sightingOf hfound v.template) directory target
  refine ⟨i, hi, hunmapped, fun injected table f hfile k line hnumber hline => ?_⟩
  rw [locate_eq_none_iff hfile hnumber]
  exact hunmapped.unmapped k line hline

section Base

open Dependency

/-- What the module of the one line `x` is made of. -/
def basePage : Parts Location := ⟨Compile.titleOf base, [], [], [⟨0, "_jt_out.append('x')", some ⟨base, some 1⟩⟩]⟩

theorem flatten_base : ∃ v u outcomes, compile noExtensions everywhere pageOnBase base root = .ok v ∧
    (∀ w ∈ [v], OfPlain w) ∧ Shared.flatten [v] root = .ok outcomes ∧ .ok u ∈ outcomes ∧ u.template = base := by
  obtain ⟨v, hv, hparts⟩ : ∃ v, compile noExtensions everywhere pageOnBase base root = .ok v ∧
      (v.source, v.sourceMap) = (basePage.source, basePage.sourceMap) := of_toOption_map (by decide +kernel)
  have htemplate : v.template = base := template_of_compile hv
  have hneeds : (Source.ofUnit v).needs? = some [] := needs_ofUnit hparts (by decide +kernel)
  obtain ⟨c, outcomes, hflatten⟩ := flattensTo_of_needs hneeds root
  refine ⟨v, _, outcomes, hv, ?_, hflatten.flatten, hflatten.mem, htemplate⟩
  rw [List.forall_mem_singleton, OfPlain, htemplate]
  exact ⟨_, _, _, _, hv, by decide +kernel, plain_base.names⟩

theorem unmapped_iff_scaffold_base : ∃ v u outcomes, compile noExtensions everywhere pageOnBase base root = .ok v ∧
    Shared.flatten [v] root = .ok outcomes ∧ .ok u ∈ outcomes ∧
    ∃ i, injectUnit root (sightingOf [] u.template) u = some i ∧
      UnmappedAt i (headOf u (sightingOf [] u.template)) := by
  obtain ⟨v, u, outcomes, hv, hplain, hflatten, hu, -⟩ := flatten_base
  obtain ⟨i, hi, hunmapped, -⟩ := unmapped_iff_scaffold hplain hflatten hu (List.forall_mem_nil _) root
  exact ⟨v, u, outcomes, hv, hflatten, hu, i, hi, hunmapped⟩

end Base

end Stencil.Observed
