import Mathlib.Data.List.Flatten
import Stencil.Proofs.Collect.Spelled
import Stencil.Proofs.Observed.Bound

/-!
The modules that the declarations of an injected module need. Where the types of variables are spelled, each name in
them is from a module that is imported above them.
-/
namespace Stencil.Observed
open Code Collect Compile Flatten Text

variable {s : Sighting} {v : Variable} {vs : List Variable} {name type m n : String} {lines kept context types : List String}
  {template directory : Path} {c : Composite} {found : List (Path × Observation)}

/-! ### Flattened units -/

/-- The rows of a flattened unit. -/
theorem lines_unitOf (directory template : Path) (c : Composite) : ∃ behind, contextEnd ∈ behind ∧
    Text.lines (unitOf directory template c).source =
      Text.lines ("# " ++ Flatten.titleOf template ++ "\n") ++ headerImports ++ contextStart :: behind := by
  have hfixed : ∀ l ∈ headerImports ++ [contextStart], Unbroken l := by decide
  have hlines : (partsOf template c (c.context.map (declaration · anyType))).lines =
      ("# " ++ Flatten.titleOf template) :: (headerImports ++ [contextStart]) ++
        (c.context.map (declaration · anyType) ++ contextEnd :: "" :: "" :: ("def " ++ renderFunction ++ "() -> str:") ::
          (partsOf template c (c.context.map (declaration · anyType))).statements.map CodeLine.text) := by
    simp [Parts.lines, Parts.head, partsOf]
  have hsource : (unitOf directory template c).source =
      (partsOf template c (c.context.map (declaration · anyType))).source := rfl
  have hhead : (headerImports ++ [contextStart]).flatMap (fun l => Text.lines (l ++ "\n")) =
      headerImports ++ [contextStart] := by
    rw [List.flatMap_congr fun l hl => lines_row (hfixed l hl), List.flatMap_singleton']
  refine ⟨(c.context.map (declaration · anyType) ++ contextEnd :: "" :: "" :: ("def " ++ renderFunction ++ "() -> str:") ::
    (partsOf template c (c.context.map (declaration · anyType))).statements.map CodeLine.text).flatMap
      fun l => Text.lines (l ++ "\n"), ?_, ?_⟩
  · exact List.mem_flatMap.2 ⟨contextEnd, by simp, by simp [lines_row (by decide : Unbroken contextEnd)]⟩
  · rw [hsource, Parts.source, Parts.lines_flatMap (by simp [hlines]), hlines, List.flatMap_append, List.flatMap_cons, hhead]
    simp

/-- A flattened unit has a context section, whatever its template is called. Below the title of one line, the header
is above the section. -/
theorem exists_isCut_unitOf (directory template : Path) (c : Composite) :
    ∃ s, IsCut (Text.lines (unitOf directory template c).source) s ∧
      (Unbroken template.text → s.above = ("# " ++ Flatten.titleOf template) :: headerImports ++ [contextStart]) := by
  obtain ⟨behind, hend, hlines⟩ := lines_unitOf directory template c
  have hmarked : [contextStart, contextEnd].Sublist (Text.lines (unitOf directory template c).source) := by
    rw [hlines]
    exact (List.cons_sublist_cons.2 (List.singleton_sublist.2 hend)).trans (List.sublist_append_right _ _)
  obtain ⟨s, hs⟩ := exists_isCut hmarked
  refine ⟨s, hs, fun htemplate => ?_⟩
  have htitle : Unbroken ("# " ++ Flatten.titleOf template) := by
    have hwords : Unbroken "Flattened by jinjastan from " ∧ Unbroken ". Do not edit." ∧ Unbroken "# " := by decide
    exact hwords.2.2.append ((hwords.1.append htemplate).append hwords.2.1)
  rw [hlines, lines_row htitle] at hs
  refine hs.above_eq fun hmem => ?_
  obtain hmem | hmem := List.mem_append.1 hmem
  · exact (cuttable_partsOf template c []).title (List.mem_singleton.1 hmem).symm
  · exact absurd hmem (by decide)

/-! ### Observed variables -/

/-- A variable with the spelling of a type whose classes stand in the modules that they are named with. -/
def Variable.Spelled (v : Variable) : Prop := ∃ name type, Ty.Located type ∧ v = variableOf name type

/-- A module that what stands in a context section may use. Each module imports the library of types. -/
def Imports (context : List String) (m : String) : Prop := m = "typing" ∨ "import " ++ m ∈ context

theorem mem_lookup_sightingOf (h : type ∈ ((sightingOf found template).types.lookup name).getD []) :
    ∃ v ∈ passedTo found template, v.name = name ∧ v.type = type := by
  rw [lookup_sightingOf] at h
  exact mem_typesOf.1 h

theorem dottedNames_unionType (types : List String) :
    ∀ n ∈ dottedNames (unionType types), n = anyType ∨ ∃ t ∈ types, n ∈ dottedNames t := by
  intro n hn
  have hany : dottedNames anyType = [anyType] := by decide
  unfold unionType at hn
  split at hn
  · exact .inl (by simpa [hany] using hn)
  · obtain ⟨t, ht, hn⟩ := dottedNames_intercalate (by decide) _ n hn
    exact .inr ⟨t, List.mem_eraseDups.1 ht, hn⟩

/-- The modules of a spelled variable are imported. -/
theorem imports_of_passed (hv : v ∈ passedTo found template) (hspelled : v.Spelled) (reads : List String) :
    ∀ m ∈ v.modules, Imports (contextOf (sightingOf found template) reads) m := by
  obtain ⟨name, t, ht, rfl⟩ := hspelled
  intro m hm
  have hname : m ≠ "" := (t.closed_spelling ht).modules m hm
  by_cases htyping : m = "typing"
  · exact .inl htyping
  · have hmodule : m ∈ (sightingOf found template).imports := by
      rw [mem_imports_sightingOf, modulesOf, List.mem_filter]
      exact ⟨List.mem_flatMap.2 ⟨_, hv, hm⟩, by simp [hname, htyping]⟩
    exact .inr (List.mem_append_left _ (List.mem_map.2 ⟨m, hmodule, rfl⟩))

/-- The names in what is declared of a variable are from modules that are imported. -/
theorem names_declared {reads : List String} {d : String × String}
    (hd : d ∈ declarations reads (sightingOf found template))
    (h : ∀ v ∈ passedTo found template, v.name = d.1 → v.Spelled) :
    ∀ n ∈ dottedNames d.2, n = "None" ∨ ∃ m, Imports (contextOf (sightingOf found template) reads) m ∧ IsFrom m n := by
  intro n hn
  have htype : d.2 = unionType (((sightingOf found template).types.lookup d.1).getD []) := by
    obtain hd | hd := List.mem_append.1 hd
    · obtain ⟨name, -, rfl⟩ := List.mem_map.1 hd
      rfl
    · obtain ⟨e, -, rfl⟩ := List.mem_map.1 hd
      rfl
  rw [htype] at hn
  obtain rfl | ⟨type, htype, hn⟩ := dottedNames_unionType _ n hn
  · exact .inr ⟨"typing", .inl rfl, "Any", rfl⟩
  · obtain ⟨v, hv, hname, rfl⟩ := mem_lookup_sightingOf htype
    have hspelled := h v hv hname
    have himports := imports_of_passed hv hspelled reads
    obtain ⟨_, t, ht, rfl⟩ := hspelled
    exact ((t.closed_spelling ht).names n hn).imp_right fun ⟨m, hm, hfrom⟩ => ⟨m, himports m hm, hfrom⟩

theorem injectUnit_eq {u : FlattenedUnit} {s : Sections} (h : IsCut (Text.lines u.source) s) (target : Path)
    (sighting : Sighting) : ∃ i, injectUnit target sighting u = some i ∧
      i.source = (s.withContext (contextOf sighting u.reads)).source ∧ i.declarations = declarations u.reads sighting :=
  ⟨_, congrArg (Option.map _) (replaceContext_eq h (contextOf sighting u.reads)), rfl, rfl⟩

/-- The spelling of a type has its brackets closed, its modules in order and each name from one of these modules; a
union with something that takes everything is written as this. Where such spellings are observed of variables, their
modules are imported in the injected section, or above it, and each name in a declaration is from an imported module. -/
theorem spelled_imported :
    (∀ t : Ty, t.Located → t.spelling.Closed ∧ t.spelling.modules.Pairwise (· < ·)) ∧
    (∀ items : List Ty, (∃ t ∈ items, t.spelling.text = anyType) → (Ty.union items).spelling.text = anyType) ∧
    ∀ (units : List CompiledUnit) directory outcomes u, Shared.flatten units directory = .ok outcomes → .ok u ∈ outcomes →
      ∀ found target, ∃ s i context, IsCut (Text.lines u.source) s ∧
        injectUnit target (sightingOf found u.template) u = some i ∧ i.source = (s.withContext context).source ∧
        (Unbroken u.template.text → "import typing" ∈ s.above) ∧
        (∀ v ∈ passedTo found u.template, v.Spelled → ∀ m ∈ v.modules, Imports context m) ∧
        ∀ d ∈ i.declarations, (∀ v ∈ passedTo found u.template, v.name = d.1 → v.Spelled) →
          ∀ n ∈ dottedNames d.2, n = "None" ∨ ∃ m, Imports context m ∧ IsFrom m n := by
  refine ⟨fun t ht => ⟨t.closed_spelling ht, t.sorted_spelling⟩, fun items ⟨t, ht, htext⟩ => ?_, ?_⟩
  · exact Spelling.text_either ⟨t.write, mem_writeAll.2 ⟨t, ht, rfl⟩, htext⟩
  · intro units directory outcomes u hflatten hu found target
    have htrivial : Composes (sourcesOf units) (fun _ _ => True) fun _ _ => True := by constructor <;> simp
    obtain ⟨v, -, c, -, rfl⟩ := flatten_has htrivial hflatten hu
    obtain ⟨s, hs, habove⟩ := exists_isCut_unitOf directory v.template c
    obtain ⟨i, hi, hsource, hdeclarations⟩ := injectUnit_eq hs target (sightingOf found v.template)
    refine ⟨s, i, _, hs, hi, hsource, fun htemplate => ?_, fun v hv hspelled => imports_of_passed hv hspelled _, ?_⟩
    · rw [habove htemplate]
      simp [headerImports]
    · intro d hd
      exact names_declared (hdeclarations ▸ hd)

section Base

open Dependency

/-- A list of users of which some are missing. -/
def usersType : Ty := .instance_ "builtins.list" "builtins" [.union [.instance_ "app.User" "app" [], .none]]

theorem located_usersType : usersType.Located := ⟨⟨"list", rfl⟩, ⟨⟨⟨"User", rfl⟩, trivial⟩, trivial, trivial⟩, trivial⟩

/-- What a page is given is declared below the imports of the two modules that its type is from. -/
theorem spelled_imported_base : usersType.spelling.text = "builtins.list[app.User | None]" ∧
    usersType.spelling.Closed ∧ (Ty.union [usersType, .other]).spelling.text = anyType ∧
    ∃ v u outcomes i, ∃ context : List String, compile noExtensions everywhere pageOnBase base root = .ok v ∧
      Shared.flatten [v] root = .ok outcomes ∧ .ok u ∈ outcomes ∧
      injectUnit root (sightingOf [(base, ⟨"base", root, 1, [variableOf "users" usersType]⟩)] u.template) u = some i ∧
      "import app" ∈ context ∧ "import builtins" ∈ context := by
  obtain ⟨hclosed, hunion, hinjected⟩ := spelled_imported
  obtain ⟨v, u, outcomes, hv, hplain, hflatten, hu, htemplate⟩ := flatten_base
  obtain ⟨s, i, context, -, hi, -, -, himports, -⟩ :=
    hinjected [v] root outcomes u hflatten hu [(base, ⟨"base", root, 1, [variableOf "users" usersType]⟩)] root
  have htext : usersType.spelling.text = "builtins.list[app.User | None]" := by decide +kernel
  have hwritten : "app" ∈ usersType.write.modules ∧ "builtins" ∈ usersType.write.modules := by decide +kernel
  have hmodules := himports (variableOf "users" usersType) (by simp [passedTo, htemplate])
    ⟨"users", usersType, located_usersType, rfl⟩
  have happ := hmodules "app" (usersType.mem_modules_spelling.2 hwritten.1)
  have hbuiltins := hmodules "builtins" (usersType.mem_modules_spelling.2 hwritten.2)
  exact ⟨htext, (hclosed usersType located_usersType).1, hunion [usersType, .other] ⟨.other, by simp, rfl⟩, v, u, outcomes,
    i, context, hv, hflatten, hu, hi, happ.resolve_left (by decide), hbuiltins.resolve_left (by decide)⟩

end Base

end Stencil.Observed
