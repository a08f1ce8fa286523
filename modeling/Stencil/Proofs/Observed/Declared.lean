import Stencil.Proofs.Collect.Recorded
import Stencil.Proofs.Observed.Unmapped

/-!
The context sections of injected modules. Their lines are imports and declarations of variables if all names that
were observed are identifiers, and not otherwise.
-/
namespace Stencil.Observed
open Code Compile Flatten Collect Text

variable {s : Sighting} {v : Variable} {name type line : String} {reads : List String}

/-! ### Lines -/

/-- The import of a module, or a variable with its type. -/
inductive IsContextLine : String → Prop
  | import_ {m : String} (hm : IsModule m) : IsContextLine ("import " ++ m)
  | declaration {name type : String} (hname : IsName name) (htype : IsTypeText type) :
      IsContextLine (name ++ ": " ++ type)

theorem colon_of_isTypeText (htype : IsTypeText type) : ':' ∉ type.toList := fun hmem =>
  absurd (htype _ hmem) (by decide)

theorem colon_of_isModule {m : String} (hm : IsModule m) : ':' ∉ m.toList := by
  intro hmem
  obtain heq | ⟨part, hpart, hc⟩ := hm.mem hmem
  · cases heq
  · exact absurd (continue_of_mem_identifier hpart.1 _ hc) (by decide)

/-- The last colon parts a declaration. -/
theorem name_of_declaration {as bs cs ds : List Char} (hbs : ':' ∉ bs) (hds : ':' ∉ ds)
    (h : as ++ ':' :: bs = cs ++ ':' :: ds) : as = cs := by
  obtain ⟨ms, rfl, hrest⟩ | ⟨ms, rfl, hrest⟩ := List.append_eq_append_iff.1 h
  all_goals
    cases ms with
    | nil => simp
    | cons m ms =>
      obtain ⟨-, rfl⟩ := List.cons.inj hrest
      simp at hbs hds

/-- A declaration can be read as one if and only if it is that of an identifier. -/
theorem isContextLine_declaration (htype : IsTypeText type) :
    IsContextLine (declaration name type) ↔ isIdentifier name.toList := by
  rw [← isName_identifier]
  refine ⟨fun h => ?_, fun h => .declaration h htype⟩
  generalize hline : declaration name type = line at h
  have hcs : (identifier name).toList ++ ':' :: ' ' :: type.toList = line.toList := by
    rw [← hline]
    simp [declaration]
  cases h with
  | import_ hm =>
    have hcolon : ':' ∈ ("import " ++ _).toList := hcs ▸ List.mem_append_right _ List.mem_cons_self
    rw [String.toList_append, List.mem_append] at hcolon
    exact absurd (hcolon.resolve_left (by decide)) (colon_of_isModule hm)
  | @declaration name' type' hname htype' =>
    have hsplit : (identifier name).toList ++ ':' :: ' ' :: type.toList = name'.toList ++ ':' :: ' ' :: type'.toList := by
      rw [hcs]
      simp
    have hnames := name_of_declaration (by simpa using colon_of_isTypeText htype)
      (by simpa using colon_of_isTypeText htype') hsplit
    rwa [String.toList_inj.1 hnames]

/-! ### Sections -/

/-- A sighting whose types and modules were written for a module. -/
structure Sighting.Writable (s : Sighting) : Prop where
  types : ∀ e ∈ s.types, ∀ t ∈ e.2, IsTypeText t
  modules : ∀ m ∈ s.modules, IsModule m

theorem Sighting.Writable.inLine (h : s.Writable) (hnames : ∀ e ∈ s.types, Unbroken e.1) : s.InLine := by
  refine ⟨fun e he => ⟨hnames e he, fun t ht c hc => ?_⟩, fun m hm c hc => ?_⟩
  · obtain hc | hc := h.types e he t ht c hc
    · exact isLineBreak_of_continue hc
    · exact (by decide : Unbroken ".[](),| ") c hc
  · obtain rfl | ⟨part, hpart, hc⟩ := (h.modules m hm).mem hc
    · decide
    · exact isLineBreak_of_continue (continue_of_mem_identifier hpart.1 c hc)

theorem isTypeText_unionType {types : List String} (h : ∀ t ∈ types, IsTypeText t) : IsTypeText (unionType types) := by
  unfold unionType
  split
  · decide
  · exact .join (fun t ht => h t (List.mem_eraseDups.1 ht)) (by decide)

theorem Sighting.Writable.isTypeText (h : s.Writable) (name : String) :
    IsTypeText (unionType ((s.types.lookup name).getD [])) := isTypeText_unionType (forall_mem_lookup h.types name)

/-- All lines of a context section can be read if and only if the names that were observed are identifiers. -/
theorem isContextLine_contextOf (h : s.Writable) (hreads : ∀ v ∈ reads, isIdentifier v.toList) :
    (∀ line ∈ contextOf s reads, IsContextLine line) ↔ ∀ e ∈ s.types, isIdentifier e.1.toList := by
  have himports : ∀ m ∈ s.imports, IsContextLine ("import " ++ m) := fun m hm =>
    .import_ (h.modules m (List.mem_filter.1 hm).1)
  simp only [contextOf, declarations, List.map_append, List.map_map, List.forall_mem_append, List.forall_mem_map,
    Function.comp_apply, isContextLine_declaration (h.isTypeText _)]
  constructor
  · rintro ⟨-, -, hothers⟩ e he
    by_cases hread : reads.contains e.1
    · exact hreads e.1 (by simpa using hread)
    · exact hothers e (List.mem_filter.2 ⟨he, by simpa using hread⟩)
  · exact fun hall => ⟨himports, hreads, fun e he => hall e (List.mem_filter.1 he).1⟩

/-! ### Sightings -/

theorem forall_mem_types_sightingOf {p : String → Prop} (found : List (Path × Observation)) (template : Path) :
    (∀ e ∈ (sightingOf found template).types, p e.1) ↔
      ∀ e ∈ found, e.1 = template → ∀ v ∈ e.2.passed, p v.name := by
  have hkeys : (∀ e ∈ (sightingOf found template).types, p e.1) ↔
      ∀ name ∈ (sightingOf found template).types.map (·.1), p name := List.forall_mem_map.symm
  rw [hkeys, names_sightingOf]
  simp only [List.mem_eraseDups, List.forall_mem_map]
  constructor
  · exact fun h e he htemplate v hv => h v (mem_passedTo.2 ⟨e, he, htemplate, hv⟩)
  · intro h v hv
    obtain ⟨e, he, htemplate, hv⟩ := mem_passedTo.1 hv
    exact h e he htemplate v hv

theorem writable_sightingOf {found : List (Path × Observation)} (h : ∀ e ∈ found, IsRecorded e.2.passed)
    (template : Path) : (sightingOf found template).Writable := by
  have hpassed : ∀ v ∈ passedTo found template, IsTypeText v.type ∧ ∀ m ∈ v.modules, IsModule m := by
    intro v hv
    obtain ⟨e, he, -, hv⟩ := mem_passedTo.1 hv
    obtain ⟨name, type, htype, rfl⟩ := (h e he).variableOf hv
    obtain ⟨htext, hmodules⟩ := type.writable_spelling htype
    exact ⟨htext, hmodules⟩
  constructor
  · intro e he t ht
    obtain ⟨v, hv, -, rfl⟩ := (exists_of_mem_types he).2 t ht
    exact (hpassed v hv).1
  · intro m hm
    obtain ⟨v, hv, hm⟩ := mem_modules_sightingOf.1 hm
    exact (hpassed v hv).2 m hm

/-! ### Injected units -/

/-- What a flattened unit reads has names that are identifiers. -/
theorem isFree_reads {units : List CompiledUnit} {directory : Path} {u : FlattenedUnit}
    {outcomes : List (Except FlattenError FlattenedUnit)} (hunits : ∀ v ∈ units, OfPlain v)
    (h : Shared.flatten units directory = .ok outcomes) (hu : .ok u ∈ outcomes) : ∀ v ∈ u.reads, IsFree v := by
  have hsources : ∀ s ∈ sourcesOf units, ∀ v ∈ s.context, IsFree v := by
    refine List.forall_mem_map.2 fun v hv => ?_
    obtain ⟨-, _, _, hmodule⟩ := (hunits v (mem_of_mem_latest hv)).exists_module
    exact hmodule.reads
  have hkept : Composes (sourcesOf units) (fun _ _ => True) fun _ => IsFree := {
    own := fun _ _ => trivial
    bound := fun _ _ _ _ => trivial
    function := fun _ _ _ => ⟨trivial, trivial⟩
    included := fun _ _ _ _ => trivial
    extended := fun _ _ => trivial
    renamed := fun _ _ _ => ⟨trivial, trivial⟩
    names := fun hsource => hsources _ (mem_of_sourceOf hsource).1
    needed := fun _ hv => hv }
  obtain ⟨_, _, c, hc, rfl⟩ := flatten_has hkept h hu
  exact hc.context

/-- The lines between the markers of an injected module are imports and declarations of variables if and only if
all names are identifiers that were observed for its template. -/
theorem isContextLine_iff {units : List CompiledUnit} {directory : Path} {u : FlattenedUnit}
    {outcomes : List (Except FlattenError FlattenedUnit)} (hunits : ∀ v ∈ units, OfPlain v)
    (h : Shared.flatten units directory = .ok outcomes) (hu : .ok u ∈ outcomes) {found : List (Path × Observation)}
    (hfound : ∀ e ∈ found, IsRecorded e.2.passed) (hnames : ∀ e ∈ found, ∀ v ∈ e.2.passed, Unbroken v.name)
    (target : Path) :
    ∃ i, injectUnit target (sightingOf found u.template) u = some i ∧
      headOf u (sightingOf found u.template) <+: Text.lines i.source ∧
      ((∀ line ∈ contextOf (sightingOf found u.template) u.reads, IsContextLine line) ↔
        ∀ e ∈ found, e.1 = u.template → ∀ v ∈ e.2.passed, isIdentifier v.name.toList) := by
  have hwritable := writable_sightingOf hfound u.template
  have hinLine := hwritable.inLine ((forall_mem_types_sightingOf found u.template).2 fun e he _ => hnames e he)
  have hreads : ∀ v ∈ u.reads, isIdentifier v.toList := fun v hv => (isFree_reads hunits h hu v hv).1
  obtain ⟨v, hv, c, hc, rfl⟩ := flatten_sourced (fun v hv => (hunits v hv).sourced) h hu
  obtain ⟨htemplate, -⟩ := (hunits v hv).exists_module
  obtain ⟨i, hi, hunmapped⟩ := unmappedAt_unitOf hc htemplate hinLine directory target
  refine ⟨i, hi, hunmapped.starts, ?_⟩
  rw [isContextLine_contextOf hwritable hreads]
  exact forall_mem_types_sightingOf (p := fun name => isIdentifier name.toList) found v.template

/-- The type of texts. -/
def textType : Ty := .instance_ "builtins.str" "builtins" []

theorem placed_textType : textType.Placed := by
  have hwords : ∀ part ∈ splitOnChar '.' "builtins.str", isKeyword part = false := by decide +kernel
  exact ⟨⟨"str", by decide⟩, hwords, trivial⟩

/-- A call that gives a text to a template, under a key of a dictionary. -/
def dictionaryCall : Operand :=
  .call .other [.text "base", .dict [(some (.text "user-name"), .text "x", textType)]] [none, none] 1

def userName : Variable := variableOf "user-name" textType

theorem isRecorded_userName : IsRecorded [userName] := by
  refine ⟨"app.py", [[⟨0, none, textType⟩], [⟨1, none, .typedDict⟩]], dictionaryCall, _, _, rfl,
    List.mem_cons_of_mem _ List.mem_cons_self, rfl, ?_, ?_⟩
  · have htypes : ∀ p ∈ [(⟨0, none, textType⟩ : Passed), ⟨1, none, .typedDict⟩], p.type.Placed := by
      simp [placed_textType, Ty.Placed]
    exact htypes
  · intro items hitems i hi
    obtain rfl : items = [(some (.text "user-name"), .text "x", textType)] := by simpa using hitems
    rw [List.mem_singleton.1 hi]
    exact placed_textType

section Base

open Dependency

/-- A key of a dictionary that is no identifier gives the section a line that is no declaration. -/
theorem isContextLine_iff_base : ∃ v u outcomes i, compile noExtensions everywhere pageOnBase base root = .ok v ∧
    Shared.flatten [v] root = .ok outcomes ∧ .ok u ∈ outcomes ∧
    injectUnit root (sightingOf [(base, ⟨"base", root, 1, [userName]⟩)] u.template) u = some i ∧
    ¬ ∀ line ∈ contextOf (sightingOf [(base, ⟨"base", root, 1, [userName]⟩)] u.template) u.reads, IsContextLine line := by
  obtain ⟨v, u, outcomes, hv, hplain, hflatten, hu, htemplate⟩ := flatten_base
  have hfound : ∀ e ∈ [(base, (⟨"base", root, 1, [userName]⟩ : Observation))], IsRecorded e.2.passed :=
    List.forall_mem_singleton.2 isRecorded_userName
  obtain ⟨i, hi, -, hiff⟩ := isContextLine_iff hplain hflatten hu hfound
    (List.forall_mem_singleton.2 (List.forall_mem_singleton.2 (by decide))) root
  refine ⟨v, u, outcomes, i, hv, hflatten, hu, hi, fun hall => ?_⟩
  have hname := hiff.1 hall _ (List.mem_singleton_self _) htemplate.symm userName (List.mem_singleton_self _)
  revert hname
  decide

end Base

end Stencil.Observed
