import Stencil.Proofs.Code.Rows
import Stencil.Proofs.Flatten.Lined

/-! Lines of code one below the other. Their tokens are a sheet of the page that they make. -/
namespace Stencil.Flatten
open Code Token Text

variable {g : Page} {r o : Nat} {e : Entry} {es : List Entry} {t : Token} {ts us : List Token}

/-- A line of code on a page. -/
structure Entry where
  /-- How deep the line is nested. -/
  depth : Nat
  /-- The blanks in front of it that are no indentation. -/
  shift : Nat
  kind : LineKind
  parts : List Atom

namespace Entry

def row (e : Entry) : Row := .code (4 * e.depth + e.shift) e.parts

/-- Only what is left of an assignment without a target is shifted. -/
structure Valid (e : Entry) : Prop where
  lined : Lined e.kind e.parts
  shift : e.shift = 0 ∨ e.shift = 1 ∧ e.parts.head? = some (.symbol "=")

end Entry

/-- Below a header stands a line that is one step deeper, below other lines none that is deeper. -/
def Nested : List Entry → Prop
  | [] => True
  | e :: es =>
    (if e.kind = .header then ∃ f ∈ es.head?, f.depth = e.depth + 1
      else ∀ f ∈ es.head?, f.depth ≤ e.depth) ∧ Nested es

/-- The rows of a page from `r` on are these lines. -/
structure Describes (g : Page) (r : Nat) (es : List Entry) : Prop where
  marks : ∀ k, g.marks (r + k) = es[k]?.bind (·.kind.mark?)
  indentOf : ∀ k, g.indentOf (r + k) = (es[k]?.map (4 * ·.depth)).getD 0
  isHeader : ∀ k, g.isHeader (r + k) ↔ ∃ e, es[k]? = some e ∧ e.kind = .header

/-- How far the line below is indented. -/
theorem Describes.below (h : Describes g r (e :: es)) (hnested : Nested (e :: es)) :
    if g.isHeader r then g.indentOf (r + 1) = g.indentOf r + 4
      else g.indentOf (r + 1) ≤ g.indentOf r := by
  have hindent : g.indentOf r = 4 * e.depth := by simpa using h.indentOf 0
  have hnext := h.indentOf 1
  have hheader : g.isHeader r ↔ e.kind = .header := by simpa using h.isHeader 0
  have hbelow := hnested.1
  simp only [hheader]
  split at hbelow
  · next hk =>
    obtain ⟨f, hf, hdepth⟩ := hbelow
    rw [List.head?_eq_getElem?] at hf
    rw [if_pos hk, hindent, hnext]
    simp [Option.mem_def.1 hf, hdepth]
    omega
  · next hk =>
    rw [if_neg hk, hindent, hnext]
    cases hes : es[0]? with
    | none => simp [hes]
    | some f =>
      have := hbelow f (by rw [List.head?_eq_getElem?, hes]; rfl)
      simp [hes]
      omega

theorem Describes.tail (h : Describes g r (e :: es)) : Describes g (r + 1) es where
  marks k := by simpa [Nat.add_assoc, Nat.add_comm 1] using h.marks (k + 1)
  indentOf k := by simpa [Nat.add_assoc, Nat.add_comm 1] using h.indentOf (k + 1)
  isHeader k := by simpa [Nat.add_assoc, Nat.add_comm 1] using h.isHeader (k + 1)

/-- The end of the text behind the last line. -/
theorem sheet_stop (h : Describes g r []) (hplace : InPlace g.source [⟨.stop, "", o, o, r, r, some 0, []⟩]) :
    Sheet g [⟨.stop, "", o, o, r, r, some 0, []⟩] := by
  have hindent : g.indentOf r = 0 := by simpa using h.indentOf 0
  have hheader : ¬ g.isHeader r := by simpa using h.isHeader 0
  have hmark : g.marks r = none := by simpa using h.marks 0
  have hopens : Opens g ⟨.stop, "", o, o, r, r, some 0, []⟩ [] := by
    have hplaced := hplace.placed _ (List.mem_singleton_self _)
    have hnames (x : String) (hx : x ∈ directiveNames) : slice g.source o o ≠ x :=
      slice_of_text_ne hplaced (.inr ⟨rfl, rfl⟩) (show "" ≠ "_jt_rt" by decide) hx
    refine ⟨(by decide : leads.contains "" = false), fun _ u hu => ?_⟩
    obtain rfl := List.mem_singleton.1 hu
    exact ⟨hnames _ (by simp [directiveNames]), hnames _ (by simp [directiveNames])⟩
  intro t us hsuffix
  rcases List.suffix_cons_iff.1 hsuffix with heq | hnil
  · obtain ⟨rfl, rfl⟩ := List.cons.inj heq
    exact {
      level := fun _ => rfl
      last := fun _ => rfl
      quiet := rfl
      flat := rfl
      row := by simp
      next := by simp
      start := by simp [hindent]
      headed := fun _ => iff_of_false hheader (show "" ∉ headers by decide)
      deeper := by simp
      colon := by simp
      otherwise := by simp
      shaped := fun _ => (by decide : weightOf "" = 0 ∧ "" ≠ "." ∧ "" ≠ ":")
      called := by simp [headers]
      equals := by simp
      lead := fun _ => hopens
      fresh := by simp
      goesOn := by simp
      single := by simp
      mark := by simp [hmark] }
  · simp at hnil

/-- The tokens of lines are a sheet. -/
theorem sheet_of_entries (hrows : OfRows r o [] (es.map Entry.row) ts) (hvalid : ∀ e ∈ es, e.Valid)
    (hnested : Nested es) (h : Describes g r es) (hplace : InPlace g.source ts) :
    Sheet g ts ∧ owed ts = 0 ∧ ∃ v ∈ ts.head?, v.indent.isSome ∧ v.row = r := by
  induction es generalizing r o ts with
  | nil =>
    cases hrows with
    | stop => exact ⟨sheet_stop h hplace, rfl, _, rfl, rfl, rfl⟩
  | cons e es ih =>
    cases hrows with
    | @code _ _ _ _ _ _ us ts hrow hrows =>
      obtain ⟨he, hes⟩ := List.forall_mem_cons.1 hvalid
      obtain ⟨hsheet, howed, hhead⟩ := ih hrows hes hnested.2 h.tail hplace.of_append
      have hstrip : Strip g r us := by
        refine he.lined.strip hrow ?_ ?_ ?_ fun t ht => hplace.placed t (by simp [ht])
        · have hindent : g.indentOf r = 4 * e.depth := by simpa using h.indentOf 0
          refine ⟨by omega, fun hne => ?_⟩
          have hshift := he.shift.resolve_right fun hs => hne hs.2
          omega
        · simpa using h.isHeader 0
        · simpa using h.marks 0
      have hbelow : Below g r ts := ⟨hsheet, howed, hhead, h.below hnested⟩
      refine ⟨hstrip.sheet hbelow hplace, ?_, ?_⟩
      · rw [hbelow.owed_append, hstrip.balanced]
      · obtain ⟨t, ht, i, hi, -⟩ := hstrip.head
        exact ⟨t, List.mem_head?_append_of_mem_head? ht, Option.isSome_of_mem hi,
          (hstrip.tokens t (List.mem_of_mem_head? ht)).2.2.1⟩

end Stencil.Flatten
