import Stencil.Collect.CallSite
import Stencil.Proofs.Code.Origin
import Stencil.Proofs.Collect.Spelled

/-!
What recorded calls say of variables. The spellings of their types are made of names and of the marks between
them, and the modules can be imported.
-/
namespace Stencil.Collect
open Code Text Template Observed

variable {s m : String} {t : Ty} {c : Char}

/-! ### Names -/

/-- A name that code can give a variable. -/
def IsName (s : String) : Prop := isIdentifier s.toList ∧ isKeyword s = false

instance : Decidable (IsName s) := inferInstanceAs (Decidable (_ ∧ _))

/-- A keyword becomes a name, and all else stays as it is. -/
theorem isName_identifier : IsName (identifier s) ↔ isIdentifier s.toList := by
  have hkeywords : ∀ k ∈ keywords, isIdentifier k.toList ∧ IsName (k ++ "_") := by decide +kernel
  unfold identifier
  split
  · next hs =>
    obtain ⟨hidentifier, hname⟩ := hkeywords s (by simpa [isKeyword] using hs)
    exact iff_of_true hname hidentifier
  · next hs => exact and_iff_left (by simpa using hs)

/-- A name that can be imported. -/
def IsModule (m : String) : Prop := Dotted IsName m

instance : Decidable (IsModule m) := inferInstanceAs (Decidable (∀ t ∈ splitOnChar '.' m, IsName t))

/-- What is above a module can be imported as the module can. -/
theorem isModule_of_append {rest : String} (h : IsModule (m ++ "." ++ rest)) : IsModule m :=
  (Dotted.append_iff.1 h).1

/-! ### Types -/

/-- The characters of types: those of names and the marks that stand between names. -/
def IsTypeChar (c : Char) : Prop := isIdentifierContinue c ∨ c ∈ ".[](),| ".toList

instance : Decidable (IsTypeChar c) := inferInstanceAs (Decidable (_ ∨ _))

/-- A text of names and marks. -/
def IsTypeText (s : String) : Prop := ∀ c ∈ s.toList, IsTypeChar c

instance : Decidable (IsTypeText s) := List.decidableBAll _ _

theorem IsTypeText.append {s' : String} (hs : IsTypeText s) (hs' : IsTypeText s') : IsTypeText (s ++ s') := by
  unfold IsTypeText
  rw [String.toList_append]
  exact List.forall_mem_append.2 ⟨hs, hs'⟩

theorem IsTypeText.join {items : List String} (h : ∀ t ∈ items, IsTypeText t) (hs : IsTypeText s) :
    IsTypeText (s.intercalate items) := forall_mem_intercalate h hs

mutual

/-- Each class stands in the module that is named with it, and there is no keyword in its name. -/
def Ty.Placed : Ty → Prop
  | .instance_ fullname module args =>
    (∃ rest, fullname = module ++ "." ++ rest) ∧ Dotted (isKeyword · = false) fullname ∧ AllPlaced args
  | .literal t | .typeOf t | .callable t => t.Placed
  | .union items | .tuple items => AllPlaced items
  | .none | .typedDict | .other => True
termination_by structural t => t

def AllPlaced : List Ty → Prop
  | [] => True
  | t :: ts => t.Placed ∧ AllPlaced ts
termination_by structural ts => ts

end

/-- A spelling that can be written into a module. -/
structure Spelling.Writable (a : Spelling) : Prop where
  text : IsTypeText a.text
  modules : ∀ m ∈ a.modules, IsModule m

namespace Spelling

theorem writable_any : any.Writable := ⟨by decide, List.forall_mem_singleton.2 (by decide)⟩

theorem isTypeText_of_importable (h : importable s) : IsTypeText s := by
  have hdotted : Dotted (isIdentifier ·.toList) s := fun part hpart => List.all_eq_true.1 h part hpart
  intro c hc
  obtain rfl | ⟨part, hpart, hc⟩ := hdotted.mem hc
  · decide
  · exact .inl (continue_of_mem_identifier hpart c hc)

theorem Writable.applied {args : List Spelling} {modules : List String} (hs : IsTypeText s)
    (hargs : ∀ a ∈ args, a.Writable) (hmodules : ∀ m ∈ modules, IsModule m) : (applied s args modules).Writable := by
  have htexts : ∀ t ∈ args.map (·.text), IsTypeText t := List.forall_mem_map.2 fun a ha => (hargs a ha).text
  refine ⟨?_, List.forall_mem_append.2 ⟨hmodules, List.forall_mem_flatMap.2 fun a ha => (hargs a ha).modules⟩⟩
  exact ((hs.append (by decide)).append (.join htexts (by decide))).append (by decide)

theorem Writable.either {alternatives : List Spelling} (h : ∀ a ∈ alternatives, a.Writable) :
    (either alternatives).Writable := by
  refine ⟨?_, List.forall_mem_flatMap.2 fun a ha => (h a ha).modules⟩
  unfold Spelling.either
  dsimp only
  split
  · exact writable_any.text
  · refine .join (fun t ht => ?_) (by decide)
    obtain ⟨a, ha, rfl⟩ := List.mem_map.1 (List.mem_eraseDups.1 ht)
    exact (h a ha).text

end Spelling

open Spelling

theorem writable_instance {fullname module : String} (hmodule : IsFrom module fullname)
    (hkeyword : Dotted (isKeyword · = false) fullname) (himport : importable fullname) :
    Writable ⟨fullname, [module]⟩ := by
  have hidentifier : Dotted (isIdentifier ·.toList) fullname := fun part hpart => List.all_eq_true.1 himport part hpart
  obtain ⟨rest, rfl⟩ := hmodule
  exact ⟨isTypeText_of_importable himport, List.forall_mem_singleton.2
    (isModule_of_append fun part hpart => ⟨hidentifier part hpart, hkeyword part hpart⟩)⟩

theorem kept_writable :
    Kept (fun fullname module => IsFrom module fullname ∧ Dotted (isKeyword · = false) fullname) Writable where
  fixed := by
    have htexts : ∀ a ∈ fixed, IsTypeText a.text := by decide
    have hmodules : ∀ a ∈ fixed, ∀ m ∈ a.modules, IsModule m := by decide
    exact fun a ha => ⟨htexts a ha, hmodules a ha⟩
  name h := writable_instance h.1 h.2
  applied hname hargs := .applied hname.text hargs hname.modules
  either := .either

mutual

theorem Ty.Placed.each (t : Ty) (h : t.Placed) :
    t.Each fun fullname module => IsFrom module fullname ∧ Dotted (isKeyword · = false) fullname := by
  cases t with
  | instance_ fullname module args => exact ⟨⟨h.1, h.2.1⟩, AllPlaced.each args h.2.2⟩
  | literal t | typeOf t | callable t => exact Ty.Placed.each t h
  | union items | tuple items => exact AllPlaced.each items h
  | none | typedDict | other => trivial
termination_by structural t

theorem AllPlaced.each (ts : List Ty) (h : AllPlaced ts) :
    AllEach (fun fullname module => IsFrom module fullname ∧ Dotted (isKeyword · = false) fullname) ts := by
  cases ts with
  | nil => trivial
  | cons t ts => exact ⟨Ty.Placed.each t h.1, AllPlaced.each ts h.2⟩
termination_by structural ts

end

theorem Ty.writable_spelling (t : Ty) (h : t.Placed) : t.spelling.Writable := by
  obtain ⟨htext, hmodules⟩ := t.each_write kept_writable (Ty.Placed.each t h)
  exact ⟨htext, fun m hm => hmodules m (t.mem_modules_spelling.1 hm)⟩

/-! ### Calls -/

/-- The types of the values of dictionaries that a call is given are placed. -/
def Operand.Placed : Operand → Prop
  | .call _ args _ _ => ∀ items, .dict items ∈ args → ∀ i ∈ items, i.2.2.Placed
  | _ => True

/-- What the record of a call says that the template is given. -/
def IsRecorded (vs : List Variable) : Prop :=
  ∃ file parameters call records r, recordsOf file parameters call = .ok records ∧ r ∈ records ∧ r.passed = some vs ∧
    (∀ p ∈ parameters.flatten, p.type.Placed) ∧ call.Placed

theorem variableOf_of_mem {args : List Operand} {template : NamedTemplate} {p : Passed} {v : Variable}
    (hp : p.type.Placed) (hargs : ∀ items, .dict items ∈ args → ∀ i ∈ items, i.2.2.Placed)
    (hv : v ∈ variablesOf args template p) : ∃ name type, type.Placed ∧ v = variableOf name type := by
  unfold variablesOf at hv
  split at hv
  · cases hv
  · split at hv
    · exact ⟨_, _, hp, List.mem_singleton.1 hv⟩
    · next items _ hitems =>
      obtain ⟨i, hi, hv⟩ := List.mem_filterMap.1 hv
      have htype := hargs items (List.mem_of_getElem? hitems) i hi
      split at hv
      · cases hv
        exact ⟨_, _, htype, rfl⟩
      · cases hv
    · cases hv

/-- What is recorded of a variable is made of its name and its type. -/
theorem IsRecorded.variableOf {vs : List Variable} (h : IsRecorded vs) {v : Variable} (hv : v ∈ vs) :
    ∃ name type, type.Placed ∧ v = variableOf name type := by
  obtain ⟨file, parameters, call, records, r, hrecords, hr, hpassed, hparameters, hcall⟩ := h
  unfold recordsOf at hrecords
  split at hrecords
  · next callee args names line =>
    split at hrecords
    · cases hrecords
      cases hr
    · next template _ =>
      split at hrecords
      · cases hrecords
      · cases hrecords
        simp only [List.mem_cons, List.not_mem_nil, or_false] at hr
        obtain rfl | rfl := hr
        · cases hpassed
        · cases hpassed
          obtain ⟨p, hp, hv⟩ := List.mem_flatMap.1 hv
          exact variableOf_of_mem (hparameters p hp) hcall hv
  · cases hrecords
    cases hr

end Stencil.Collect
