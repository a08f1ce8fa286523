import Mathlib.Data.List.Dedup
import Stencil.Proofs.Flatten.Names
import Stencil.Proofs.Observed.Declared

/-!
The names that are bound above the statements of an injected module, by the imports and by the declarations of the
variables. Each is bound once if no variable is called as a module is, and if no two variables get the same name.
-/
namespace Stencil.Observed
open Code Compile Flatten Text

variable {s : Sighting} {name type m : String} {v w : String} {names reads lines : List String}

/-! ### Lines -/

/-- The first part of a module's name. -/
def packageOf (m : String) : String := (splitOnChar '.' m).headD ""

/-- The name that an import binds, and what the name then stands for. -/
def importedBy (line : String) : Option (String × String) :=
  match splitOnChar ' ' line with
  | ["import", m] => some (packageOf m, packageOf m)
  | ["from", m, "import", name] => some (name, m ++ "." ++ name)
  | ["from", m, "import", name, "as", other] => some (other, m ++ "." ++ name)
  | _ => none

/-- The variable that is declared. -/
def declaredBy (line : String) : Option String :=
  match splitOnChar ' ' line with
  | word :: _ => if word.toList.getLast? = some ':' then some (String.ofList word.toList.dropLast) else none
  | [] => none

/-- No name stands for two imported things, or for a variable and something else. -/
def BoundOnce (lines : List String) : Prop :=
  ((lines.filterMap importedBy).dedup.map (·.1) ++ lines.filterMap declaredBy).Nodup

instance : Decidable (BoundOnce lines) := inferInstanceAs (Decidable (List.Nodup _))

/-- What the imports of every module bind. -/
def headerBindings : List (String × String) := headerImports.filterMap importedBy

theorem splitOnChar_single {c : Char} (h : c ∉ name.toList) : splitOnChar c name = [name] := by
  have hnone : ∀ d ∈ name.toList, (d == c) = false := by
    rintro d hd
    rw [beq_eq_false_iff_ne]
    rintro rfl
    exact h hd
  rw [splitOnChar, splitAt_of_forall hnone]
  simp

theorem words_append {rest : String} (h : ' ' ∉ name.toList) :
    splitOnChar ' ' (name ++ " " ++ rest) = name :: splitOnChar ' ' rest := by
  have hsplit : splitOnChar ' ' (name ++ " " ++ rest) = splitOnChar ' ' name ++ splitOnChar ' ' rest := by
    simp [splitOnChar, splitAt_append_cons]
  rw [hsplit, splitOnChar_single h, List.singleton_append]

theorem words_import (h : ' ' ∉ m.toList) : splitOnChar ' ' ("import " ++ m) = ["import", m] := by
  have hwords : splitOnChar ' ' ("import" ++ " " ++ m) = "import" :: splitOnChar ' ' m := words_append (by decide)
  rwa [splitOnChar_single h] at hwords

theorem importedBy_import (h : ' ' ∉ m.toList) : importedBy ("import " ++ m) = some (packageOf m, packageOf m) := by
  rw [importedBy, words_import h]
  rfl

theorem declaredBy_import (h : ' ' ∉ m.toList) : declaredBy ("import " ++ m) = none := by
  rw [declaredBy, words_import h]
  exact if_neg (by decide)

theorem words_declaration (h : ' ' ∉ (identifier name).toList) :
    splitOnChar ' ' (declaration name type) = (identifier name ++ ":") :: splitOnChar ' ' type := by
  have hline : declaration name type = identifier name ++ ":" ++ " " ++ type := by
    have hcolon : (": " : String) = ":" ++ " " := rfl
    rw [declaration, hcolon, ← String.append_assoc]
  rw [hline, words_append (by simpa using h)]

theorem importedBy_declaration (h : ' ' ∉ (identifier name).toList) : importedBy (declaration name type) = none := by
  have hword : ∀ word : String, word.toList.getLast? ≠ some ':' → identifier name ++ ":" ≠ word := by
    rintro _ hword rfl
    simp at hword
  have himport := hword "import" (by decide)
  have hfrom := hword "from" (by decide)
  rw [importedBy, words_declaration h]
  split
  · next heq => exact absurd (List.cons.inj heq).1 himport
  · next heq => exact absurd (List.cons.inj heq).1 hfrom
  · next heq => exact absurd (List.cons.inj heq).1 hfrom
  · rfl

theorem declaredBy_declaration (h : ' ' ∉ (identifier name).toList) :
    declaredBy (declaration name type) = some (identifier name) := by
  rw [declaredBy, words_declaration h]
  simp

/-! ### Names -/

/-- Two variables get one name if and only if one of them is a keyword and the other is it with an underscore. -/
theorem identifier_eq_iff : identifier v = identifier w ↔
    v = w ∨ isKeyword v ∧ w = v ++ "_" ∨ isKeyword w ∧ v = w ++ "_" := by
  have hplain (k : String) (hk : isKeyword k) : isKeyword (k ++ "_") = false := by
    have hall : ∀ k ∈ keywords, isKeyword (k ++ "_") = false := by decide +kernel
    exact hall k (by simpa [isKeyword] using hk)
  unfold identifier
  constructor
  · intro h
    split at h <;> split at h
    · exact .inl (by simpa using h)
    · next hv hw => exact .inr (.inl ⟨hv, h.symm⟩)
    · next hv hw => exact .inr (.inr ⟨hw, h⟩)
    · exact .inl h
  · rintro (rfl | ⟨hv, rfl⟩ | ⟨hw, rfl⟩)
    · rfl
    · rw [if_pos hv, if_neg (by simp [hplain v hv])]
    · rw [if_pos hw, if_neg (by simp [hplain w hw])]

/-- The names of variables and of modules that are imported get along with each other. -/
structure Apart (names modules : List String) : Prop where
  /-- No two variables get one name. -/
  distinct : ∀ v ∈ names, isKeyword v → v ++ "_" ∉ names
  /-- No variable is called as an import is. -/
  imports : ∀ v ∈ names, (∀ e ∈ headerBindings, identifier v ≠ e.1) ∧ ∀ m ∈ modules, identifier v ≠ packageOf m
  /-- No module is called as something else that is imported. -/
  packages : ∀ m ∈ modules, ∀ e ∈ headerBindings, packageOf m = e.1 → e.2 = e.1

theorem nodup_identifiers (h : names.Nodup) :
    (names.map identifier).Nodup ↔ ∀ v ∈ names, isKeyword v → v ++ "_" ∉ names := by
  rw [List.nodup_map_iff_inj_on h]
  constructor
  · intro hinj v hv hkeyword hv'
    have heq := hinj v hv (v ++ "_") hv' (identifier_eq_iff.2 (.inr (.inl ⟨hkeyword, rfl⟩)))
    exact absurd (congrArg String.length heq) (by simp)
  · intro hall v hv w hw heq
    obtain rfl | ⟨hkeyword, rfl⟩ | ⟨hkeyword, rfl⟩ := identifier_eq_iff.1 heq
    · rfl
    · exact absurd hw (hall v hv hkeyword)
    · exact absurd hv (hall w hw hkeyword)

theorem nodup_imported (modules : List String) :
    ((headerBindings ++ modules.map fun m => (packageOf m, packageOf m)).dedup.map (·.1)).Nodup ↔
      ∀ m ∈ modules, ∀ e ∈ headerBindings, packageOf m = e.1 → e.2 = e.1 := by
  have hheader : ∀ e ∈ headerBindings, ∀ e' ∈ headerBindings, e.1 = e'.1 → e = e' := by decide +kernel
  rw [List.nodup_map_iff_inj_on (List.nodup_dedup _)]
  simp only [List.mem_dedup, List.forall_mem_append, List.forall_mem_map]
  constructor
  · rintro ⟨-, hmodules⟩ m hm e he heq
    have := congrArg Prod.snd ((hmodules m hm).1 e he heq)
    exact this.symm.trans heq
  · refine fun hall => ⟨fun e he => ⟨hheader e he, fun m hm heq => ?_⟩, fun m hm => ⟨fun e he heq => ?_, fun n hn heq => ?_⟩⟩
    · exact Prod.ext heq ((hall m hm e he heq.symm).trans heq)
    · exact Prod.ext heq (heq.trans (hall m hm e he heq).symm)
    · exact Prod.ext heq heq

/-! ### Sections -/

/-- The variables of a context section. -/
def variablesOf (s : Sighting) (reads : List String) : List String := (declarations reads s).map (·.1)

theorem mem_variablesOf : v ∈ variablesOf s reads ↔ v ∈ reads ∨ ∃ e ∈ s.types, e.1 = v := by
  simp only [variablesOf, declarations, List.map_append, List.map_map, List.mem_append, List.mem_map, List.mem_filter,
    Function.comp_apply, Bool.not_eq_true', List.contains_eq_mem, decide_eq_false_iff_not, exists_eq_right]
  constructor
  · rintro (h | ⟨e, ⟨he, -⟩, rfl⟩)
    · exact .inl h
    · exact .inr ⟨e, he, rfl⟩
  · rintro (h | ⟨e, he, rfl⟩)
    · exact .inl h
    · by_cases hread : e.1 ∈ reads
      · exact .inl hread
      · exact .inr ⟨e, ⟨he, hread⟩, rfl⟩

theorem nodup_variablesOf (hreads : reads.Nodup) (htypes : (s.types.map (·.1)).Nodup) : (variablesOf s reads).Nodup := by
  simp only [variablesOf, declarations, List.map_append, List.map_map, Function.comp_def, List.map_id']
  refine List.nodup_append.2 ⟨hreads, (List.filter_sublist.map _).nodup htypes, fun v hv w hw hvw => ?_⟩
  obtain ⟨e, he, rfl⟩ := List.mem_map.1 hw
  have hread := (List.mem_filter.1 he).2
  simp_all

theorem blank_identifier (h : ' ' ∉ v.toList) : ' ' ∉ (identifier v).toList := by
  unfold identifier
  split
  · simpa using h
  · exact h

/-- The title and the marks of a section bind nothing. -/
theorem filterMap_headOf {α : Type} {f : String → Option α} {u : FlattenedUnit} (htitle : ∀ title, f ("# " ++ title) = none)
    (hmarks : ∀ line ∈ [contextStart, contextEnd, "", "def _jt_render() -> str:"], f line = none) :
    (headOf u s).filterMap f = headerImports.filterMap f ++ (contextOf s u.reads).filterMap f := by
  simp only [List.forall_mem_cons] at hmarks
  obtain ⟨hstart, hend, hempty, hdef, -⟩ := hmarks
  simp [headOf, List.filterMap_append, htitle, hstart, hend, hempty, hdef]

theorem words_title (title : String) : splitOnChar ' ' ("# " ++ title) = "#" :: splitOnChar ' ' title :=
  (words_append (by decide) : splitOnChar ' ' ("#" ++ " " ++ title) = _)

section Head

variable {u : FlattenedUnit} (hnames : ∀ v ∈ variablesOf s u.reads, ' ' ∉ v.toList)
  (hmodules : ∀ m ∈ s.imports, ' ' ∉ m.toList)
include hnames hmodules

theorem imported_headOf : (headOf u s).filterMap importedBy =
    headerBindings ++ s.imports.map fun m => (packageOf m, packageOf m) := by
  have himports : (s.imports.map ("import " ++ ·)).filterMap importedBy =
      s.imports.map fun m => (packageOf m, packageOf m) := by
    rw [List.filterMap_map]
    exact List.filterMap_eq_map_iff_forall_eq_some.2 fun m hm => importedBy_import (hmodules m hm)
  have hdeclarations : ((declarations u.reads s).map fun d => declaration d.1 d.2).filterMap importedBy = [] := by
    rw [List.filterMap_map, List.filterMap_eq_nil_iff]
    exact fun d hd => importedBy_declaration (blank_identifier (hnames d.1 (List.mem_map_of_mem hd)))
  have htitle (title : String) : importedBy ("# " ++ title) = none := by
    rw [importedBy, words_title]
    rfl
  rw [filterMap_headOf htitle (by decide +kernel), contextOf, List.filterMap_append, himports, hdeclarations, List.append_nil,
    headerBindings]

theorem declared_headOf : (headOf u s).filterMap declaredBy = (variablesOf s u.reads).map identifier := by
  have himports : (s.imports.map ("import " ++ ·)).filterMap declaredBy = [] := by
    rw [List.filterMap_map, List.filterMap_eq_nil_iff]
    exact fun m hm => declaredBy_import (hmodules m hm)
  have hdeclarations : ((declarations u.reads s).map fun d => declaration d.1 d.2).filterMap declaredBy =
      (declarations u.reads s).map fun d => identifier d.1 := by
    rw [List.filterMap_map]
    exact List.filterMap_eq_map_iff_forall_eq_some.2 fun d hd =>
      declaredBy_declaration (blank_identifier (hnames d.1 (List.mem_map_of_mem hd)))
  have htitle (title : String) : declaredBy ("# " ++ title) = none := by
    rw [declaredBy, words_title]
    exact if_neg (by decide)
  have hheader : headerImports.filterMap declaredBy = [] := by decide +kernel
  rw [filterMap_headOf htitle (by decide +kernel), contextOf, List.filterMap_append, himports, hdeclarations, hheader, variablesOf,
    List.map_map]
  rfl

/-- The lines above the statements bind each name once if and only if the names of the section get along. -/
theorem boundOnce_headOf (hreads : u.reads.Nodup) (htypes : (s.types.map (·.1)).Nodup) :
    BoundOnce (headOf u s) ↔ Apart (variablesOf s u.reads) s.imports := by
  rw [BoundOnce, imported_headOf hnames hmodules, declared_headOf hnames hmodules, List.nodup_append, nodup_imported,
    nodup_identifiers (nodup_variablesOf hreads htypes)]
  simp only [List.forall_mem_map, List.mem_dedup, List.forall_mem_append]
  constructor
  · rintro ⟨hpackages, hdistinct, hheader, himports⟩
    exact ⟨hdistinct, fun v hv => ⟨fun e he => (hheader e he v hv).symm, fun m hm => (himports m hm v hv).symm⟩, hpackages⟩
  · rintro ⟨hdistinct, himports, hpackages⟩
    exact ⟨hpackages, hdistinct, fun e he v hv => ((himports v hv).1 e he).symm, fun m hm v hv => ((himports v hv).2 m hm).symm⟩

end Head

/-! ### Sightings -/

variable {found : List (Path × Observation)} {template : Path}

/-- The modules that the types of variables are from, without the one that every module imports. -/
def modulesOf (vs : List Variable) : List String :=
  (vs.flatMap (·.modules)).filter fun m => m != "" && m != "typing"

theorem mem_types_sightingOf : (∃ e ∈ (sightingOf found template).types, e.1 = v) ↔
    v ∈ (passedTo found template).map (·.name) := by
  rw [← List.mem_map, names_sightingOf, List.mem_eraseDups]

theorem mem_imports_sightingOf : m ∈ (sightingOf found template).imports ↔ m ∈ modulesOf (passedTo found template) := by
  rw [Sighting.imports, modulesOf, List.mem_filter, List.mem_filter, mem_modules_sightingOf, List.mem_flatMap]

theorem nodup_types_sightingOf : ((sightingOf found template).types.map (·.1)).Nodup := by
  rw [names_sightingOf]
  exact nodup_eraseDups _

theorem Apart.congr {names' modules modules' : List String} (hnames : ∀ v, v ∈ names ↔ v ∈ names')
    (hmodules : ∀ m, m ∈ modules ↔ m ∈ modules') : Apart names modules ↔ Apart names' modules' := by
  have hpart {names names' modules modules' : List String} (hnames : ∀ v, v ∈ names ↔ v ∈ names')
      (hmodules : ∀ m, m ∈ modules ↔ m ∈ modules') (h : Apart names modules) : Apart names' modules' := by
    constructor
    · simpa only [hnames] using h.distinct
    · simpa only [hnames, hmodules] using h.imports
    · simpa only [hmodules] using h.packages
  exact ⟨hpart hnames hmodules, hpart (fun v => (hnames v).symm) fun m => (hmodules m).symm⟩

/-! ### Injected units -/

/-- A variable whose texts stand in one line, and whose name and modules are words. -/
structure Variable.Worded (x : Variable) : Prop extends x.InLine where
  nameWord : ' ' ∉ x.name.toList
  moduleWords : ∀ m ∈ x.modules, ' ' ∉ m.toList

/-- The lines above the statements of an injected module bind each name once if and only if the variables that
the template reads or was given and the modules that their types are from get along with each other. -/
theorem boundOnce_iff {units : List CompiledUnit} {directory : Path} {u : FlattenedUnit}
    {outcomes : List (Except FlattenError FlattenedUnit)} (hunits : ∀ v ∈ units, OfPlain v)
    (h : Shared.flatten units directory = .ok outcomes) (hu : .ok u ∈ outcomes)
    (hfound : ∀ e ∈ found, ∀ x ∈ e.2.passed, x.Worded) (target : Path) :
    ∃ i, injectUnit target (sightingOf found u.template) u = some i ∧
      headOf u (sightingOf found u.template) <+: Text.lines i.source ∧
      (BoundOnce (headOf u (sightingOf found u.template)) ↔
        Apart (u.reads ++ (passedTo found u.template).map (·.name)) (modulesOf (passedTo found u.template))) := by
  have hreads : u.reads.Nodup := by
    refine (flatten_gathers (fun v hv => ?_) h hu).nodup
    obtain ⟨_, _, _, _, hcompile, -⟩ := hunits v hv
    exact nodup_reads hcompile
  have hpassed : ∀ x ∈ passedTo found u.template, x.Worded := by
    intro x hx
    obtain ⟨e, he, -, hx⟩ := mem_passedTo.1 hx
    exact hfound e he x hx
  have hvariables (v : String) : v ∈ variablesOf (sightingOf found u.template) u.reads ↔
      v ∈ u.reads ++ (passedTo found u.template).map (·.name) := by
    rw [mem_variablesOf, mem_types_sightingOf, List.mem_append]
  have hnames : ∀ v ∈ variablesOf (sightingOf found u.template) u.reads, ' ' ∉ v.toList := by
    intro v hv
    obtain hv | hv := List.mem_append.1 ((hvariables v).1 hv)
    · exact fun hblank => absurd (continue_of_mem_identifier (isFree_reads hunits h hu v hv).1 _ hblank) (by decide)
    · obtain ⟨x, hx, rfl⟩ := List.mem_map.1 hv
      exact (hpassed x hx).nameWord
  have hmodules : ∀ m ∈ (sightingOf found u.template).imports, ' ' ∉ m.toList := by
    intro m hm
    obtain ⟨x, hx, hm⟩ := List.mem_flatMap.1 (List.mem_filter.1 (mem_imports_sightingOf.1 hm)).1
    exact (hpassed x hx).moduleWords m hm
  have hsighting := inLine_sightingOf (fun e he x hx => (hfound e he x hx).toInLine) u.template
  have hhead := boundOnce_headOf hnames hmodules hreads nodup_types_sightingOf
  -- the lines above the statements are those of the section, whatever the template is composed of
  obtain ⟨v, hv, c, hc, rfl⟩ := flatten_sourced (fun v hv => (hunits v hv).sourced) h hu
  obtain ⟨htemplate, -⟩ := (hunits v hv).exists_module
  obtain ⟨i, hi, hunmapped⟩ := unmappedAt_unitOf hc htemplate hsighting directory target
  exact ⟨i, hi, hunmapped.starts, hhead.trans (Apart.congr hvariables fun m => mem_imports_sightingOf)⟩

section Base

open Dependency

/-- A variable that is called as the module of its type. -/
def userOfUser : Variable := ⟨"user", "user.User", ["user"]⟩

/-- A variable that is called as the module of its type is bound twice. -/
theorem boundOnce_iff_base : ∃ v u outcomes i, compile noExtensions everywhere pageOnBase base root = .ok v ∧
    Shared.flatten [v] root = .ok outcomes ∧ .ok u ∈ outcomes ∧
    injectUnit root (sightingOf [(base, ⟨"base", root, 1, [userOfUser]⟩)] u.template) u = some i ∧
    ¬ BoundOnce (headOf u (sightingOf [(base, ⟨"base", root, 1, [userOfUser]⟩)] u.template)) := by
  obtain ⟨v, u, outcomes, hv, hplain, hflatten, hu, htemplate⟩ := flatten_base
  have hfound : ∀ e ∈ [(base, (⟨"base", root, 1, [userOfUser]⟩ : Observation))], ∀ x ∈ e.2.passed, x.Worded :=
    List.forall_mem_singleton.2 (List.forall_mem_singleton.2 ⟨⟨by decide, by decide, by decide⟩, by decide, by decide⟩)
  obtain ⟨i, hi, -, hiff⟩ := boundOnce_iff hplain hflatten hu hfound root
  refine ⟨v, u, outcomes, i, hv, hflatten, hu, hi, fun honce => ?_⟩
  obtain ⟨-, himports, -⟩ := hiff.1 honce
  rw [htemplate] at himports
  refine (himports "user" (List.mem_append_right _ (by decide))).2 "user" (by decide) (by decide)

end Base

end Stencil.Observed
