import Mathlib.Data.String.Basic
import Stencil.Collect.Spelling
import Stencil.Proofs.Code.Grouping
import Stencil.Proofs.Lists
import Stencil.Proofs.Template.Worded
import Stencil.Proofs.Text.Identifier

/-!
The spellings of types. Each is made of a few words and of the names of classes; its brackets are closed, and each
name in it is from one of its modules.
-/
namespace Stencil.Collect
open Code Text Template

variable {q : String → String → Prop} {P : Spelling → Prop} {s t g m n : String} {c : Char}
  {opened cs ds gap : List Char} {a : Spelling} {args alternatives : List Spelling} {modules : List String}

/-! ### Words and classes -/

mutual

/-- All classes have a property, together with the modules that are named with them. -/
def Ty.Each (q : String → String → Prop) : Ty → Prop
  | .instance_ fullname module args => q fullname module ∧ AllEach q args
  | .literal t | .typeOf t | .callable t => t.Each q
  | .union items | .tuple items => AllEach q items
  | .none | .typedDict | .other => True
termination_by structural t => t

def AllEach (q : String → String → Prop) : List Ty → Prop
  | [] => True
  | t :: ts => t.Each q ∧ AllEach q ts
termination_by structural ts => ts

end

namespace Spelling

/-- What is written of types without a class. -/
def fixed : List Spelling :=
  [any, ⟨"None", []⟩, ⟨"...", []⟩, ⟨"builtins.tuple[()]", ["builtins"]⟩,
    ⟨"builtins.dict[builtins.str, " ++ anyType ++ "]", ["builtins", "typing"]⟩, ⟨"builtins.tuple", ["builtins"]⟩,
    ⟨"builtins.type", ["builtins"]⟩, ⟨"typing.Callable", ["typing"]⟩]

/-- A property of the words and of the names of classes that is kept where they are put together. -/
structure Kept (q : String → String → Prop) (P : Spelling → Prop) : Prop where
  fixed : ∀ a ∈ fixed, P a
  name : ∀ {fullname module}, q fullname module → importable fullname → P ⟨fullname, [module]⟩
  applied : ∀ {name modules args}, P ⟨name, modules⟩ → (∀ a ∈ args, P a) → P (applied name args modules)
  either : ∀ {alternatives}, (∀ a ∈ alternatives, P a) → P (either alternatives)

end Spelling

open Spelling

mutual

theorem Ty.each_write (hP : Kept q P) (t : Ty) (h : t.Each q) : P t.write := by
  cases t with
  | none => exact hP.fixed ⟨"None", []⟩ (by simp [fixed])
  | literal t => exact t.each_write hP h
  | instance_ fullname module args =>
    have hargs := each_writeAll hP args h.2
    change P (if !importable fullname then any else match writeAll args with
      | [] => ⟨fullname, [module]⟩
      | a :: as => applied fullname (a :: as) [module])
    split
    · exact hP.fixed _ (by simp [fixed])
    · next himport =>
      have hname := hP.name h.1 (by simpa using himport)
      split
      · exact hname
      · next heq => exact hP.applied hname (heq ▸ hargs)
  | union items => exact hP.either (each_writeAll hP items h)
  | tuple items =>
    have hitems := each_writeAll hP items h
    change P (match writeAll items with
      | [] => ⟨"builtins.tuple[()]", ["builtins"]⟩
      | a :: as => applied "builtins.tuple" (a :: as) ["builtins"])
    split
    · exact hP.fixed _ (by simp [fixed])
    · next heq => exact hP.applied (hP.fixed _ (by simp [fixed])) (heq ▸ hitems)
  | typedDict =>
    exact hP.fixed ⟨"builtins.dict[builtins.str, " ++ anyType ++ "]", ["builtins", "typing"]⟩ (by simp [fixed])
  | typeOf t =>
    have hitem : ∀ a ∈ [t.write], P a := List.forall_mem_singleton.2 (t.each_write hP h)
    exact hP.applied (hP.fixed _ (by simp [fixed])) hitem
  | callable t =>
    have hitems : ∀ a ∈ [⟨"...", []⟩, t.write], P a :=
      List.forall_mem_cons.2 ⟨hP.fixed _ (by simp [fixed]), List.forall_mem_singleton.2 (t.each_write hP h)⟩
    exact hP.applied (hP.fixed _ (by simp [fixed])) hitems
  | other => exact hP.fixed any (by simp [fixed])
termination_by structural t

theorem each_writeAll (hP : Kept q P) (ts : List Ty) (h : AllEach q ts) : ∀ a ∈ writeAll ts, P a := by
  cases ts with
  | nil => simp [writeAll]
  | cons t ts => exact List.forall_mem_cons.2 ⟨t.each_write hP h.1, each_writeAll hP ts h.2⟩
termination_by structural ts

end

/-! ### Brackets -/

/-- The brackets that are to be closed behind a character. There is no result where another one is closed. -/
def nest (opened : List Char) (c : Char) : Option (List Char) :=
  match Grouping.closing? c with
  | some d => some (d :: opened)
  | none => if Grouping.isClosing c then (if opened.head? = some c then some opened.tail else none) else some opened

/-- Every bracket is closed by its own kind. -/
def Balanced (s : String) : Prop := s.toList.foldlM nest [] = some []

instance : Decidable (Balanced s) := inferInstanceAs (Decidable (_ = _))

/-- A text behind which the same brackets are open as before it. -/
def Level (cs : List Char) : Prop := ∀ opened, cs.foldlM nest opened = some opened

theorem Level.append (hcs : Level cs) (hds : Level ds) : Level (cs ++ ds) := fun opened => by
  rw [List.foldlM_append, hcs opened]
  exact hds opened

theorem Level.enclosed (hcs : Level cs) : Level ('[' :: cs ++ [']']) := fun opened => by
  have hopen : nest opened '[' = some (']' :: opened) := rfl
  have hinner : cs.foldlM nest (']' :: opened) = some (']' :: opened) := hcs _
  have hclose : nest (']' :: opened) ']' = some opened := by simp [nest, Grouping.closing?, Grouping.isClosing]
  simp [hopen, hinner, hclose]

/-- What is open around a text makes no difference to it. -/
theorem level_of_balanced (h : Balanced s) : Level s.toList := by
  have hnest {opened opened' : List Char} {c : Char} (around : List Char) (h : nest opened c = some opened') :
      nest (opened ++ around) c = some (opened' ++ around) := by
    unfold nest at h ⊢
    split at h
    · cases h
      rfl
    · split at h
      · next hclosing =>
        rw [if_pos hclosing]
        split at h
        · next hhead =>
          cases h
          obtain ⟨tail, rfl⟩ := List.head?_eq_some_iff.1 hhead
          simp
        · cases h
      · next hclosing =>
        cases h
        rw [if_neg hclosing]
  have hall (cs opened opened' around : List Char) (h : cs.foldlM nest opened = some opened') :
      cs.foldlM nest (opened ++ around) = some (opened' ++ around) := by
    induction cs generalizing opened with
    | nil =>
      cases h
      rfl
    | cons c cs ih =>
      obtain ⟨between, hfirst, hrest⟩ := Option.bind_eq_some_iff.1 h
      exact Option.bind_eq_some_iff.2 ⟨_, hnest around hfirst, ih between hrest⟩
  exact fun opened => hall s.toList [] [] opened h

theorem Level.balanced (h : Level s.toList) : Balanced s := h []

theorem level_of_forall (h : ∀ c ∈ cs, Grouping.closing? c = none ∧ Grouping.isClosing c = false) : Level cs := by
  intro opened
  induction cs with
  | nil => rfl
  | cons c cs ih =>
    obtain ⟨⟨hopening, hclosing⟩, hcs⟩ := List.forall_mem_cons.1 h
    have hnest : nest opened c = some opened := by simp [nest, hopening, hclosing]
    rw [List.foldlM_cons, hnest]
    exact ih hcs

theorem flat_of_continue (h : isIdentifierContinue c) : Grouping.closing? c = none ∧ Grouping.isClosing c = false := by
  constructor
  · unfold Grouping.closing?
    split <;> first | rfl | exact absurd h (by decide)
  · simp only [Grouping.isClosing, Bool.or_eq_false_iff, beq_eq_false_iff_ne]
    refine ⟨⟨?_, ?_⟩, ?_⟩ <;> rintro rfl <;> exact absurd h (by decide)

theorem Level.intercalate {texts : List String} (hg : Level g.toList) (h : ∀ t ∈ texts, Level t.toList) :
    Level (g.intercalate texts).toList := by
  induction texts with
  | nil => exact fun _ => rfl
  | cons t texts ih =>
    obtain ⟨ht, htexts⟩ := List.forall_mem_cons.1 h
    cases texts with
    | nil => simpa using ht
    | cons t' texts =>
      rw [String.intercalate_cons_cons, String.toList_append, String.toList_append]
      exact (ht.append hg).append (ih htexts)

/-! ### Names -/

def isNameChar (c : Char) : Bool := isIdentifierContinue c || c == '.'

/-- The names in a type, each with the points between its parts. -/
def dottedNames (s : String) : List String :=
  ((splitAt (fun c => !isNameChar c) s.toList).filter (·.any isIdentifierContinue)).map String.ofList

example : dottedNames "typing.Callable[..., app.User | None]" = ["typing.Callable", "app.User", "None"] := by decide

/-- Characters that stand between names. -/
def IsGap (s : String) : Prop := s.toList ≠ [] ∧ ∀ c ∈ s.toList, isNameChar c = false

instance : Decidable (IsGap s) :=
  decidable_of_iff (!s.toList.isEmpty && s.toList.all fun c => !isNameChar c) (by simp [IsGap])

/-- What stands on the two sides of a gap makes no name together. -/
theorem dottedNames_append (hg : IsGap g) : dottedNames (s ++ g ++ t) = dottedNames s ++ dottedNames t := by
  have hmarks (gap cs : List Char) (hgap : ∀ c ∈ gap, isNameChar c = false) :
      (splitAt (fun c => !isNameChar c) (gap ++ cs)).filter (·.any isIdentifierContinue) =
        (splitAt (fun c => !isNameChar c) cs).filter (·.any isIdentifierContinue) := by
    induction gap with
    | nil => rfl
    | cons c gap ih =>
      obtain ⟨hc, hgap⟩ := List.forall_mem_cons.1 hgap
      have hcut := splitAt_append_cons (q := fun c => !isNameChar c) (c := c) (by simp [hc]) [] (gap ++ cs)
      rw [List.nil_append] at hcut
      rw [List.cons_append, hcut, List.filter_append, ih hgap]
      rfl
  obtain ⟨c, gap, hgap⟩ := List.exists_cons_of_ne_nil hg.1
  have hnone := hg.2
  rw [hgap, List.forall_mem_cons] at hnone
  simp only [dottedNames, String.toList_append, hgap]
  rw [List.append_assoc, List.cons_append, splitAt_append_cons (by simp [hnone.1]), List.filter_append,
    hmarks gap _ hnone.2, List.map_append]

theorem dottedNames_intercalate (hg : IsGap g) (texts : List String) :
    ∀ n ∈ dottedNames (g.intercalate texts), ∃ t ∈ texts, n ∈ dottedNames t := by
  intro n hn
  induction texts with
  | nil => simp [dottedNames, splitAt] at hn
  | cons t texts ih =>
    cases texts with
    | nil => exact ⟨t, by simp, by simpa using hn⟩
    | cons t' texts =>
      rw [String.intercalate_cons_cons, dottedNames_append hg, List.mem_append] at hn
      obtain hn | hn := hn
      · exact ⟨t, by simp, hn⟩
      · obtain ⟨t, ht, hn⟩ := ih hn
        exact ⟨t, List.mem_cons_of_mem _ ht, hn⟩

/-- The name of a class is one name. -/
theorem eq_of_mem_dottedNames (h : Dotted (isIdentifier ·.toList) s) (hn : n ∈ dottedNames s) : n = s := by
  have hchars : ∀ c ∈ s.toList, isNameChar c := by
    intro c hc
    obtain rfl | ⟨part, hpart, hc⟩ := h.mem hc
    · rfl
    · simp [isNameChar, continue_of_mem_identifier hpart c hc]
  rw [dottedNames, splitAt_of_forall (fun c hc => by simp [hchars c hc])] at hn
  obtain ⟨piece, hpiece, rfl⟩ := List.mem_map.1 hn
  obtain rfl := List.mem_singleton.1 (List.mem_filter.1 hpiece).1
  exact String.ofList_toList

/-! ### Spellings -/

/-- A name of something that a module holds. -/
def IsFrom (m n : String) : Prop := ∃ rest, n = m ++ "." ++ rest

instance : Decidable (IsFrom m n) :=
  decidable_of_iff ((m ++ ".").toList <+: n.toList) <| by
    constructor
    · rintro ⟨rest, hrest⟩
      exact ⟨String.ofList rest, String.toList_injective (by simp [← hrest])⟩
    · rintro ⟨rest, rfl⟩
      exact ⟨rest.toList, by simp⟩

/-- Each class is named with the module that it stands in. -/
def Ty.Located (t : Ty) : Prop := t.Each fun fullname module => IsFrom module fullname

namespace Spelling

/-- A spelling whose brackets are closed. Its names are from its modules, and each module has a name. -/
structure Closed (a : Spelling) : Prop where
  brackets : Balanced a.text
  names : ∀ n ∈ dottedNames a.text, n = "None" ∨ ∃ m ∈ a.modules, IsFrom m n
  modules : ∀ m ∈ a.modules, m ≠ ""

theorem closed_name {fullname module : String} (hmodule : IsFrom module fullname) (himport : importable fullname) :
    Closed ⟨fullname, [module]⟩ := by
  have hdotted : Dotted (isIdentifier ·.toList) fullname := fun part hpart => List.all_eq_true.1 himport part hpart
  refine ⟨Level.balanced (level_of_forall fun c hc => ?_), fun n hn => ?_, fun m hm => ?_⟩
  · obtain rfl | ⟨part, hpart, hc⟩ := hdotted.mem hc
    · decide
    · exact flat_of_continue (continue_of_mem_identifier hpart c hc)
  · obtain rfl := eq_of_mem_dottedNames hdotted hn
    exact .inr ⟨module, by simp, hmodule⟩
  · obtain rfl := List.mem_singleton.1 hm
    obtain ⟨rest, rfl⟩ := hmodule
    rintro rfl
    exact absurd ((Dotted.append_iff.1 hdotted).1 "" (by decide)) (by decide)

theorem Closed.applied {name : String} {modules : List String} {args : List Spelling} (hname : Closed ⟨name, modules⟩)
    (hargs : ∀ a ∈ args, a.Closed) : (applied name args modules).Closed := by
  refine ⟨Level.balanced ?_, fun n hn => ?_, ?_⟩
  · have hjoined : Level (", ".intercalate (args.map (·.text))).toList :=
      Level.intercalate (level_of_balanced (by decide)) (List.forall_mem_map.2 fun a ha => level_of_balanced (hargs a ha).brackets)
    have htext : (Spelling.applied name args modules).text.toList =
        name.toList ++ ('[' :: (", ".intercalate (args.map (·.text))).toList ++ [']']) := by
      simp [Spelling.applied]
    rw [htext]
    exact (level_of_balanced hname.brackets).append hjoined.enclosed
  · have htext : (Spelling.applied name args modules).text =
        name ++ "[" ++ (", ".intercalate (args.map (·.text)) ++ "]" ++ "") := by
      simp [Spelling.applied, String.append_assoc]
    rw [htext, dottedNames_append (by decide), dottedNames_append (by decide)] at hn
    obtain hn | hn | hn := by simpa only [List.mem_append] using hn
    · exact (hname.names n hn).imp_right fun ⟨m, hm, hfrom⟩ => ⟨m, List.mem_append_left _ hm, hfrom⟩
    · obtain ⟨t, ht, hn⟩ := dottedNames_intercalate (by decide) _ n hn
      obtain ⟨a, ha, rfl⟩ := List.mem_map.1 ht
      exact ((hargs a ha).names n hn).imp_right fun ⟨m, hm, hfrom⟩ =>
        ⟨m, List.mem_append_right _ (List.mem_flatMap.2 ⟨a, ha, hm⟩), hfrom⟩
    · simp [dottedNames, splitAt] at hn
  · exact List.forall_mem_append.2 ⟨hname.modules, List.forall_mem_flatMap.2 fun a ha => (hargs a ha).modules⟩

theorem Closed.either (h : ∀ a ∈ alternatives, a.Closed) : (either alternatives).Closed := by
  have htexts : ∀ t ∈ (alternatives.map (·.text)).eraseDups, ∃ a ∈ alternatives, a.text = t := fun t ht =>
    List.mem_map.1 (List.mem_eraseDups.1 ht)
  have hnames {a : Spelling} {n : String} (ha : a ∈ alternatives) (hn : n ∈ dottedNames a.text) :
      n = "None" ∨ ∃ m ∈ (Spelling.either alternatives).modules, IsFrom m n :=
    ((h a ha).names n hn).imp_right fun ⟨m, hm, hfrom⟩ => ⟨m, List.mem_flatMap.2 ⟨a, ha, hm⟩, hfrom⟩
  refine ⟨?_, fun n hn => ?_, List.forall_mem_flatMap.2 fun a ha => (h a ha).modules⟩
  · unfold Spelling.either
    dsimp only
    split
    · decide
    · refine Level.balanced (Level.intercalate (level_of_balanced (by decide)) fun t ht => ?_)
      obtain ⟨a, ha, rfl⟩ := htexts t ht
      exact level_of_balanced (h a ha).brackets
  · unfold Spelling.either at hn
    dsimp only at hn
    split at hn
    · next hany =>
      obtain ⟨a, ha, htext⟩ := htexts anyType (by simpa using hany)
      exact hnames ha (htext ▸ hn)
    · obtain ⟨t, ht, hn⟩ := dottedNames_intercalate (by decide) _ n hn
      obtain ⟨a, ha, rfl⟩ := htexts t ht
      exact hnames ha hn

theorem kept_closed : Kept (fun fullname module => IsFrom module fullname) Closed where
  fixed := by
    have hbrackets : ∀ a ∈ fixed, Balanced a.text := by decide
    have hnames : ∀ a ∈ fixed, ∀ n ∈ dottedNames a.text, n = "None" ∨ ∃ m ∈ a.modules, IsFrom m n := by decide
    have hmodules : ∀ a ∈ fixed, ∀ m ∈ a.modules, m ≠ "" := by decide
    exact fun a ha => ⟨hbrackets a ha, hnames a ha, hmodules a ha⟩
  name := closed_name
  applied := Closed.applied
  either := Closed.either

/-- One alternative that takes everything stands for all. -/
theorem text_either (h : ∃ a ∈ alternatives, a.text = anyType) : (either alternatives).text = anyType := by
  have hany : ((alternatives.map (·.text)).eraseDups).contains anyType := by
    obtain ⟨a, ha, htext⟩ := h
    exact List.contains_iff_mem.2 (List.mem_eraseDups.2 (List.mem_map.2 ⟨a, ha, htext⟩))
  unfold either
  dsimp only
  rw [if_pos hany]

end Spelling

theorem mem_writeAll {ts : List Ty} {a : Spelling} : a ∈ writeAll ts ↔ ∃ t ∈ ts, t.write = a := by
  induction ts with
  | nil => simp [writeAll]
  | cons t ts ih => simp [writeAll, ih, eq_comm]

/-- The modules of a spelling are in order, and none of them is listed twice. -/
theorem Ty.sorted_spelling (t : Ty) : t.spelling.modules.Pairwise (· < ·) := by
  have hordered : t.spelling.modules.Pairwise fun x y => (compare x y).isLE :=
    List.pairwise_mergeSort (fun _ _ _ => Std.TransCmp.isLE_trans)
      (fun x y => by simpa [Std.LawfulBCmp.isLE_iff_le] using le_total x y) _
  have hnodup : t.spelling.modules.Nodup := (List.mergeSort_perm _ _).nodup_iff.2 (nodup_eraseDups _)
  exact (hordered.and hnodup).imp fun ⟨hle, hne⟩ => lt_of_le_of_ne (Std.LawfulBCmp.isLE_iff_le.1 hle) hne

theorem Ty.mem_modules_spelling (t : Ty) : m ∈ t.spelling.modules ↔ m ∈ t.write.modules :=
  (List.mergeSort_perm _ _).mem_iff.trans List.mem_eraseDups

theorem Ty.closed_spelling (t : Ty) (h : t.Located) : t.spelling.Closed := by
  obtain ⟨hbrackets, hnames, hmodules⟩ := t.each_write kept_closed h
  refine ⟨hbrackets, fun n hn => ?_, fun m hm => hmodules m (t.mem_modules_spelling.1 hm)⟩
  exact (hnames n hn).imp_right fun ⟨m, hm, hfrom⟩ => ⟨m, t.mem_modules_spelling.2 hm, hfrom⟩

end Stencil.Collect
