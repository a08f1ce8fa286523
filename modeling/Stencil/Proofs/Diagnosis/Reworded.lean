import Mathlib.Tactic.Common
import Stencil.Diagnosis.Wording

/-!
Messages about names that generated code has for what templates name. The name of a block is what is left when the
suffixes of its parents' functions are taken off, and the name of a filter or test what is left of an attribute without
the underscore of a reserved name; so a message about a generated name speaks of the template's own.
-/
namespace Stencil.Diagnosis
open Code Text

variable {name start stop : String} {word rest : List Char} {level bound : Nat}

/-! ### Words in a message -/

theorem after?_append (start : String) (rest : List Char) : after? start (start.toList ++ rest) = some rest := by
  rw [after?, if_pos (List.isPrefixOf_iff_prefix.2 (List.prefix_append ..)), ← String.length_toList, List.drop_left]

/-- A text does not begin with another one if it begins with something that neither goes on nor ends there. -/
theorem after?_eq_none {other : List Char} (h : ¬ start.toList <+: other) (h' : ¬ other <+: start.toList) :
    after? start (other ++ rest) = none := by
  refine if_neg fun hprefix => ?_
  obtain hle | hle := List.prefix_or_prefix_of_prefix (List.isPrefixOf_iff_prefix.1 hprefix) (List.prefix_append other rest)
  · exact h hle
  · exact h' hle

/-- The quotation mark behind a word ends it. -/
theorem wordBetween?_append (hword : ∀ c ∈ word, isWord c) (hne : word ≠ []) (hstop : stop.toList.head? = some '"') :
    wordBetween? start stop (start.toList ++ (word ++ (stop.toList ++ rest))) = some (word, rest) := by
  obtain ⟨tail, htail⟩ := List.head?_eq_some_iff.1 hstop
  have hquote : isWord '"' = false := by decide
  have htake : (word ++ (stop.toList ++ rest)).takeWhile isWord = word := by
    rw [List.takeWhile_append_of_pos hword, htail, List.cons_append, List.takeWhile_cons_of_neg (by simp [hquote]),
      List.append_nil]
  have hdrop : (word ++ (stop.toList ++ rest)).dropWhile isWord = stop.toList ++ rest := by
    rw [List.dropWhile_append_of_pos hword, htail, List.cons_append, List.dropWhile_cons_of_neg (by simp [hquote])]
  have hempty : word.isEmpty = false := by simpa using hne
  simp only [wordBetween?, after?_append, Option.bind_some, htake, hdrop, hempty, Bool.false_eq_true, if_false,
    Option.map_some]

/-! ### Functions of blocks -/

/-- What a checker says of a name that nothing defines. -/
def undefined (name : String) : String := "Name \"" ++ name ++ "\" is not defined"

theorem length_superSuffixes (level : Nat) : (superSuffixes level).toList.length = 7 * level := by
  induction level with
  | zero => rfl
  | succ level ih =>
    have hone : superSuffix.toList.length = 7 := by decide
    rw [superSuffixes, String.toList_append, List.length_append, ih, hone, Nat.mul_succ]

/-- As many suffixes are taken off as there are. -/
theorem withoutSuper_superSuffixes (hne : word ≠ []) (hlast : ¬ superSuffix.toList <:+ word) (h : level ≤ bound) :
    withoutSuper bound (word ++ (superSuffixes level).toList) = word := by
  induction level generalizing bound with
  | zero =>
    have hempty : word ++ (superSuffixes 0).toList = word := List.append_nil word
    rw [hempty]
    cases bound with
    | zero => rfl
    | succ bound =>
      rw [withoutSuper, if_neg]
      simp [hlast]
  | succ level ih =>
    obtain ⟨bound, rfl⟩ : ∃ n, bound = n + 1 := ⟨bound - 1, by omega⟩
    have hsplit : word ++ (superSuffixes (level + 1)).toList =
        word ++ (superSuffixes level).toList ++ superSuffix.toList := by
      simp [superSuffixes]
    rw [hsplit, withoutSuper, if_pos, List.length_append, Nat.add_sub_cancel, List.take_left]
    · exact ih (by omega)
    · have hlength := List.length_pos_iff.2 hne
      have hsuffix : superSuffix.toList.isSuffixOf (word ++ (superSuffixes level).toList ++ superSuffix.toList) :=
        List.isSuffixOf_iff_suffix.2 (List.suffix_append ..)
      refine Bool.and_eq_true_iff.2 ⟨hsuffix, decide_eq_true ?_⟩
      rw [List.length_append, List.length_append]
      omega

theorem missingBlock?_undefined (hword : ∀ c ∈ word, isWord c) (hne : word ≠ []) :
    missingBlock? (undefined (blockStem ++ String.ofList word)).toList =
      let bare := withoutSuper word.length word
      some (if bare = word then s!"Block \"{String.ofList word}\" is not defined"
        else s!"Block \"{String.ofList bare}\" has no parent block to call with super()") := by
  have hsplit : (undefined (blockStem ++ String.ofList word)).toList =
      ("Name \"" ++ blockStem).toList ++ (word ++ ("\" is not defined".toList ++ [])) := by
    simp only [undefined, String.toList_append, String.toList_ofList, List.append_assoc, List.append_nil]
  rw [missingBlock?, hsplit, wordBetween?_append hword hne rfl]
  by_cases hbare : withoutSuper word.length word = word <;> simp [hbare]

/-- The name of a block that nothing defines, on any level of its parents. -/
theorem missingBlock?_blockFunction (hword : ∀ c ∈ name.toList, isWord c) (hne : name ≠ "")
    (hlast : ¬ superSuffix.toList <:+ name.toList) (level : Nat) :
    missingBlock? (undefined (blockFunction name level)).toList =
      some (if level = 0 then s!"Block \"{name}\" is not defined"
        else s!"Block \"{name}\" has no parent block to call with super()") := by
  have hsuffixes : ∀ c ∈ (superSuffixes level).toList, isWord c := by
    induction level with
    | zero => simp [superSuffixes]
    | succ level ih =>
      rw [superSuffixes, String.toList_append, List.forall_mem_append]
      exact ⟨ih, List.all_eq_true.1 (by decide)⟩
  have hnil : name.toList ≠ [] := by simpa using hne
  have hwords : ∀ c ∈ name.toList ++ (superSuffixes level).toList, isWord c :=
    List.forall_mem_append.2 ⟨hword, hsuffixes⟩
  have hbound : level ≤ (name.toList ++ (superSuffixes level).toList).length := by
    rw [List.length_append, length_superSuffixes]
    omega
  have hfunction : blockFunction name level = blockStem ++ String.ofList (name.toList ++ (superSuffixes level).toList) := by
    simp [blockFunction, String.append_assoc]
  rw [hfunction, missingBlock?_undefined hwords (by simp [hnil]), withoutSuper_superSuffixes hnil hlast hbound]
  have hbare : name.toList = name.toList ++ (superSuffixes level).toList ↔ level = 0 := by
    rw [List.self_eq_append_right, ← List.length_eq_zero_iff, length_superSuffixes]
    omega
  simp only [hbare, String.ofList_toList]
  split
  · next hlevel => simp [hlevel, superSuffixes]
  · rfl

/-! ### Filters and tests -/

/-- The modules for filters and for tests, each with what it is for. -/
def functionModules : List (String × String) := [("filters", "filter"), ("tests", "test")]

/-- What a checker says of a module that does not have an attribute, up to the attribute. -/
def withoutAttribute (space : String) : String := s!"Module \"jinjastan_runtime.{space}\" has no attribute \""

/-- What a checker says of an attribute that such a module does not have. -/
def lacking (space attr : String) : String := withoutAttribute space ++ attr ++ "\""

theorem missingFunction?_eq (cs : List Char) : missingFunction? cs = functionModules.findSome? fun e =>
    (wordBetween? (withoutAttribute e.1) "\"" cs).map fun found =>
      s!"Unknown {e.2} \"{String.ofList (spokenName found.1)}\"" := rfl

theorem toList_lacking (space attr : String) :
    (lacking space attr).toList = (withoutAttribute space).toList ++ (attr.toList ++ ("\"".toList ++ [])) := by
  simp only [lacking, String.toList_append, List.append_assoc, List.append_nil]

/-- A filter or test is called what it was called before it got its attribute, unless this is a reserved name with an
underscore already. -/
theorem spokenName_runtimeAttribute
    (hname : ∀ bare, name = bare ++ "_" → isReserved bare = false ∧ bare ∉ moduleNames) :
    spokenName (runtimeAttribute name).toList = name.toList := by
  unfold runtimeAttribute
  split
  · next hreserved => simp [spokenName, hreserved]
  · unfold spokenName
    split
    · next hlast =>
      obtain ⟨cs, hcs⟩ := List.getLast?_eq_some_iff.1 hlast
      obtain ⟨hreserved, hmodule⟩ := hname (String.ofList cs) (String.toList_inj.1 (by simp [hcs]))
      simp [hcs, hreserved, hmodule]
    · rfl

theorem isWord_runtimeAttribute (hword : ∀ c ∈ name.toList, isWord c) : ∀ c ∈ (runtimeAttribute name).toList, isWord c := by
  unfold runtimeAttribute
  split
  · rw [String.toList_append, List.forall_mem_append]
    exact ⟨hword, List.all_eq_true.1 (by decide)⟩
  · exact hword

theorem wordBetween?_lacking (space : String) (hword : ∀ c ∈ name.toList, isWord c) (hne : name ≠ "") :
    wordBetween? (withoutAttribute space) "\"" (lacking space name).toList = some (name.toList, []) := by
  have hnil : name.toList ≠ [] := by simpa using hne
  rw [toList_lacking, wordBetween?_append hword hnil rfl]

theorem missingBlock?_lacking {space kind : String} (hspace : (space, kind) ∈ functionModules) :
    missingBlock? (lacking space name).toList = none := by
  have hstart : after? ("Name \"" ++ blockStem) (lacking space name).toList = none := by
    rw [toList_lacking]
    simp only [functionModules, List.mem_cons, Prod.mk.injEq, List.not_mem_nil, or_false] at hspace
    obtain ⟨rfl, -⟩ | ⟨rfl, -⟩ := hspace <;> exact after?_eq_none (by decide) (by decide)
  simp [missingBlock?, wordBetween?, hstart]

theorem missingFunction?_lacking {space kind : String} (hspace : (space, kind) ∈ functionModules)
    (hword : ∀ c ∈ name.toList, isWord c) (hne : name ≠ "") :
    missingFunction? (lacking space name).toList = some s!"Unknown {kind} \"{String.ofList (spokenName name.toList)}\"" := by
  have hfound := wordBetween?_lacking space hword hne
  rw [missingFunction?_eq, functionModules, List.findSome?_cons]
  simp only [functionModules, List.mem_cons, Prod.mk.injEq, List.not_mem_nil, or_false] at hspace
  obtain ⟨rfl, rfl⟩ | ⟨rfl, rfl⟩ := hspace
  · simp only [hfound, Option.map_some]
  · have hother : wordBetween? (withoutAttribute "filters") "\"" (lacking "tests" name).toList = none := by
      rw [toList_lacking, wordBetween?, after?_eq_none (by decide) (by decide), Option.bind_none]
    simp only [hother, Option.map_none, List.findSome?_cons, hfound, Option.map_some]

/-! ### Messages -/

/-- A message about a name that stands for something of a template speaks of this. The function of a block is named after
the block and its level, unless the block's name ends like such a level; an attribute after the filter or test, unless
that is a reserved name with an underscore. No name of a template is empty. -/
theorem reworded_generated (hword : ∀ c ∈ name.toList, isWord c) (hne : name ≠ "") :
    (¬ superSuffix.toList <:+ name.toList → ∀ level, reworded (undefined (blockFunction name level)) =
      if level = 0 then s!"Block \"{name}\" is not defined"
      else s!"Block \"{name}\" has no parent block to call with super()") ∧
    ((∀ bare, name = bare ++ "_" → isReserved bare = false ∧ bare ∉ moduleNames) →
      ∀ space kind, (space, kind) ∈ functionModules →
        reworded (lacking space (runtimeAttribute name)) = s!"Unknown {kind} \"{name}\"") := by
  refine ⟨fun hlast level => ?_, fun hname space kind hspace => ?_⟩
  · simp only [reworded, missingBlock?_blockFunction hword hne hlast level]
  · have hattribute : runtimeAttribute name ≠ "" := by
      unfold runtimeAttribute
      split <;> simp [hne]
    simp only [reworded, missingBlock?_lacking hspace,
      missingFunction?_lacking hspace (isWord_runtimeAttribute hword) hattribute, spokenName_runtimeAttribute hname,
      String.ofList_toList]

/-- A name with an underscore of its own, two levels up and as a filter. -/
theorem reworded_generated_shape :
    blockFunction "shape_" 2 = "_jt_block_shape___super__super" ∧
      reworded (undefined (blockFunction "shape_" 2)) = "Block \"shape_\" has no parent block to call with super()" ∧
      reworded (lacking "filters" (runtimeAttribute "shape_")) = "Unknown filter \"shape_\"" := by
  have hword : ∀ c ∈ "shape_".toList, isWord c := List.all_eq_true.1 (by decide)
  obtain ⟨hblock, hfunction⟩ := reworded_generated hword (by decide)
  refine ⟨by decide, hblock (by decide) 2, hfunction (fun bare hbare => ?_) "filters" "filter" (by decide)⟩
  have hsplit : "shape" ++ "_" = bare ++ "_" := Eq.trans (by decide) hbare
  obtain rfl := (String.append_left_inj _).1 hsplit
  decide

end Stencil.Diagnosis
