import Stencil.Compile.Unit
import Stencil.Proofs.Template.Renamed

/-!
Generated code whose names are open. What is drawn alike for all namings is one draft, in which every place of a
name is filled with the identifier of what the name becomes.
-/
namespace Stencil.Compile
open Template Code

/-- Names that mean something by themselves. -/
def keptNames : List String := implicitNames ++ runtimeGlobals

/-- Holds of namings that leave to names what they mean by themselves. -/
structure Apt (ν : Naming) : Prop where
  kept : ∀ name, name ∈ keptNames ∨ ν name ∈ keptNames → ν name = name
  keyword : ∀ name, isKeyword (ν name) → isKeyword name

/-- A stretch of code: as it is, or the identifier of a name. -/
inductive Span
  | text (s : String)
  | name (id : String)

def Span.fill (ν : Naming) : Span → String
  | text s => s
  | name id => identifier (ν id)

/-- Code whose names are open. -/
abbrev Draft := List Span

def Draft.fill (ν : Naming) (d : Draft) : String := String.join (d.map (Span.fill ν))

/-- A line of such code. -/
structure LineDraft where
  indent : Int
  code : Draft
  origin : Option Location

def LineDraft.fill (ν : Naming) (l : LineDraft) : CodeLine Location := ⟨l.indent, l.code.fill ν, l.origin⟩

variable {α β ι κ ε : Type} {ν : Naming} {F : Naming → ι → α} {G : Naming → κ → β} {name : String}

theorem Apt.eq_iff (h : Apt ν) {kept : String} (hkept : kept ∈ keptNames) : ν name = kept ↔ name = kept := by
  constructor
  · rintro rfl
    exact (h.kept name (.inr hkept)).symm
  · rintro rfl
    exact h.kept name (.inl hkept)

theorem Apt.contains_map (h : Apt ν) {kept : String} (hkept : kept ∈ keptNames) (names : List String) :
    (names.map ν).contains kept = names.contains kept := by
  rw [Bool.eq_iff_iff]
  simp [h.eq_iff hkept]

theorem Apt.isKeyword_key (h : Apt ν) (name : String) : isKeyword (ν.key name) = isKeyword name := by
  unfold Naming.key
  split
  · rfl
  · next hname => rw [Bool.eq_false_iff.2 hname, Bool.eq_false_iff.2 fun hkey => hname (h.keyword name hkey)]

/-- Every naming that is apt fills the same draft. -/
def Drawn (F : Naming → ι → α) (a : Naming → α) : Prop := ∃ d, ∀ ν, Apt ν → a ν = F ν d

/-- What no name has a part in. -/
def same (_ : Naming) (a : α) : α := a

/-- Drafts one after the other. -/
def each (F : Naming → ι → α) (ν : Naming) (ds : List ι) : List α := ds.map (F ν)

/-- A draft, if there is one. -/
def perhaps (F : Naming → ι → α) (ν : Naming) (d : Option ι) : Option α := d.map (F ν)

namespace Drawn

theorem filled (d : ι) : Drawn F fun ν => F ν d := ⟨d, fun _ _ => rfl⟩

theorem same (a : α) : Drawn same fun _ => a := filled a

theorem congr {a b : Naming → α} (h : ∀ ν, Apt ν → a ν = b ν) (hb : Drawn F b) : Drawn F a := by
  obtain ⟨d, hd⟩ := hb
  exact ⟨d, fun ν hν => (h ν hν).trans (hd ν hν)⟩

/-- What is made of something drawn is drawn if it is so for each draft. -/
theorem into {a : Naming → α} {f : Naming → α → β} (ha : Drawn F a) (h : ∀ d, Drawn G fun ν => f ν (F ν d)) :
    Drawn G fun ν => f ν (a ν) := by
  obtain ⟨d, hd⟩ := ha
  exact (h d).congr fun ν hν => by rw [hd ν hν]

theorem ite {c : Naming → Bool} {a b : Naming → α} (v : Bool) (hc : ∀ ν, Apt ν → c ν = v) (ha : Drawn F a)
    (hb : Drawn F b) : Drawn F fun ν => if c ν then a ν else b ν := by
  cases v with
  | true => exact congr (fun ν hν => if_pos (hc ν hν)) ha
  | false => exact congr (fun ν hν => if_neg (Bool.eq_false_iff.1 (hc ν hν))) hb

/-! ### Lists -/

theorem nil : Drawn (each F) fun _ => [] := ⟨[], fun _ _ => rfl⟩

theorem cons {a : Naming → α} {as : Naming → List α} (ha : Drawn F a) (has : Drawn (each F) as) :
    Drawn (each F) fun ν => a ν :: as ν := by
  obtain ⟨d, hd⟩ := ha
  obtain ⟨ds, hds⟩ := has
  exact ⟨d :: ds, fun ν hν => List.cons_eq_cons.2 ⟨hd ν hν, hds ν hν⟩⟩

theorem append {as bs : Naming → List α} (ha : Drawn (each F) as) (hb : Drawn (each F) bs) :
    Drawn (each F) fun ν => as ν ++ bs ν := by
  obtain ⟨ds, hds⟩ := ha
  obtain ⟨es, hes⟩ := hb
  refine ⟨ds ++ es, fun ν hν => ?_⟩
  simp only [hds ν hν, hes ν hν, each, List.map_append]

theorem map {ds : List κ} {f : Naming → κ → α} (h : ∀ d ∈ ds, Drawn F fun ν => f ν d) :
    Drawn (each F) fun ν => ds.map (f ν) := by
  induction ds with
  | nil => exact nil
  | cons d ds ih =>
    obtain ⟨hd, hds⟩ := List.forall_mem_cons.1 h
    exact (cons hd (ih hds)).congr fun _ _ => List.map_cons

/-! ### Texts -/

theorem text (s : String) : Drawn Draft.fill fun _ => s := ⟨[.text s], fun _ _ => by simp [Draft.fill, Span.fill]⟩

theorem texts (items : List String) : Drawn (each Draft.fill) fun _ => items :=
  (map fun s (_ : s ∈ items) => text s).congr fun _ _ => (List.map_id items).symm

theorem identifier (name : String) : Drawn Draft.fill fun ν => identifier (ν name) :=
  ⟨[.name name], fun _ _ => by simp [Draft.fill, Span.fill]⟩

theorem concat {s t : Naming → String} (hs : Drawn Draft.fill s) (ht : Drawn Draft.fill t) :
    Drawn Draft.fill fun ν => s ν ++ t ν := by
  obtain ⟨d, hd⟩ := hs
  obtain ⟨e, he⟩ := ht
  refine ⟨d ++ e, fun ν hν => ?_⟩
  simp only [hd ν hν, he ν hν, Draft.fill, List.map_append, String.join_append]

/-- Text in front of other text. -/
theorem before (s : String) {t : Naming → String} (ht : Drawn Draft.fill t) : Drawn Draft.fill fun ν => s ++ t ν :=
  (text s).concat ht

theorem behind {s : Naming → String} (hs : Drawn Draft.fill s) (t : String) : Drawn Draft.fill fun ν => s ν ++ t :=
  hs.concat (text t)

theorem intercalate (s : String) {items : Naming → List String} (h : Drawn (each Draft.fill) items) :
    Drawn Draft.fill fun ν => s.intercalate (items ν) := by
  refine h.into fun ds => ?_
  induction ds with
  | nil => exact (text "").congr fun _ _ => String.intercalate_nil
  | cons d ds ih =>
    cases ds with
    | nil => exact (filled d).congr fun _ _ => String.intercalate_singleton
    | cons e ds => exact (((filled d).behind s).concat ih).congr fun _ _ => String.intercalate_cons_cons

theorem commaSeparated {items : Naming → List String} (h : Drawn (each Draft.fill) items) :
    Drawn Draft.fill fun ν => commaSeparated (items ν) := intercalate ", " h

theorem getD {s : Naming → Option String} (h : Drawn (perhaps Draft.fill) s) (t : String) :
    Drawn Draft.fill fun ν => (s ν).getD t := by
  refine h.into (f := fun _ o => o.getD t) fun d => ?_
  cases d with
  | none => exact text t
  | some d => exact filled d

end Drawn

/-! ### Outcomes -/

/-- What is drawn unless it fails. -/
def outcome (F : Naming → ι → α) (ν : Naming) (d : Except ε ι) : Except ε α := d.map (F ν)

/-- Whether this fails and how depends on no name, and what it gives is drawn. -/
abbrev Alike (F : Naming → ι → α) (x : Naming → Except ε α) : Prop := Drawn (outcome F) x

namespace Alike

theorem ok {a : Naming → α} (h : Drawn F a) : Alike F fun ν => (.ok (a ν) : Except ε α) := by
  obtain ⟨d, hd⟩ := h
  exact ⟨.ok d, fun ν hν => congrArg Except.ok (hd ν hν)⟩

theorem error (e : ε) : Alike F fun _ => (.error e : Except ε α) := ⟨.error e, fun _ _ => rfl⟩

theorem bind {x : Naming → Except ε α} {f : Naming → α → Except ε β} (hx : Alike F x)
    (hf : ∀ d, Alike G fun ν => f ν (F ν d)) : Alike G fun ν => x ν >>= f ν := by
  refine Drawn.into (f := fun ν y => y >>= f ν) hx fun d => ?_
  cases d with
  | error e => exact error e
  | ok d => exact hf d

end Alike

end Stencil.Compile
