import Stencil.Proofs.Data.Spelled

/-!
Documents over several lines spell their data with every table sorted by its keys, so they are read
back as that.
-/
namespace Stencil.Data

namespace Value
open Json

mutual

/-- Holds of data that a document can hold as it is. -/
def Plain (wide : Wide) : Value → Prop
  | .float _ => False
  | .moment _ => False
  | .int n => wide = .keep ∨ intFits n
  | .list items => PlainItems wide items
  | .table entries => (entries.map (·.1)).Nodup ∧ PlainEntries wide entries
  | _ => True

def PlainItems (wide : Wide) : List Value → Prop
  | [] => True
  | v :: vs => Plain wide v ∧ PlainItems wide vs

def PlainEntries (wide : Wide) : List (String × Value) → Prop
  | [] => True
  | e :: es => Plain wide e.2 ∧ PlainEntries wide es

end

mutual

/-- The data with the entries of every table in the order of their keys. -/
def sorted : Value → Value
  | .list items => .list (sortedItems items)
  | .table entries => .table ((sortedEntries entries).mergeSort fun a b => a.1 ≤ b.1)
  | v => v

def sortedItems : List Value → List Value
  | [] => []
  | v :: vs => sorted v :: sortedItems vs

def sortedEntries : List (String × Value) → List (String × Value)
  | [] => []
  | e :: es => (e.1, sorted e.2) :: sortedEntries es

end

theorem sortedItems_eq (vs : List Value) : sortedItems vs = vs.map sorted := by
  induction vs with
  | nil => rfl
  | cons v vs ih => rw [sortedItems, ih, List.map_cons]

theorem sortedEntries_eq (es : List (String × Value)) : sortedEntries es = es.map fun e => (e.1, sorted e.2) := by
  induction es with
  | nil => rfl
  | cons e es ih => rw [sortedEntries, ih, List.map_cons]

end Value

namespace Json
open Value

variable {wide : Wide} {v : Value} {vs : List Value} {es : List (String × Value)} {ws ws' : List Char}
  {level : Nat}

theorem blanks_margin (level : Nat) : Blanks (margin level).toList := by
  simp [Blanks, margin, isSpace]

theorem prettyItems_eq (level : Nat) (vs : List Value) : prettyItems level vs = vs.map (pretty (level + 1)) := by
  induction vs with
  | nil => rfl
  | cons v vs ih => rw [prettyItems, ih, List.map_cons]

theorem prettyEntries_eq (level : Nat) (es : List (String × Value)) :
    prettyEntries level es = es.map fun e => (e.1, stringText e.1 ++ ": " ++ pretty (level + 1) e.2) := by
  induction es with
  | nil => rfl
  | cons e es ih => rw [prettyEntries, ih, List.map_cons]

/-- Pieces on lines of their own between brackets. -/
theorem toList_bracketed {left right : String} {pieces : List String} (h : pieces ≠ []) :
    (bracketed left right level pieces).toList =
      left.toList ++ ([','].intercalate (pieces.map fun p => (margin (level + 1)).toList ++ p.toList) ++
        ((margin level).toList ++ right.toList)) := by
  rw [bracketed, if_neg (by simpa using h)]
  simp [String.toList_intercalate, Function.comp_def]

section Brackets
variable (sort : Value → Value) (spell : Value → List Char)

theorem spellsItems_intercalate (hws : Blanks ws) (hws' : Blanks ws') (hne : vs ≠ [])
    (h : ∀ v ∈ vs, Spells wide (sort v) (spell v)) :
    ∃ cs, [','].intercalate (vs.map fun v => ws ++ spell v) ++ (ws' ++ [']']) = ws ++ cs ∧
      SpellsItems wide (vs.map sort) cs := by
  induction vs with
  | nil => exact absurd rfl hne
  | cons v vs ih =>
    have hv := h v (by simp)
    cases vs with
    | nil => exact ⟨_, by simp, .last hv hws'⟩
    | cons v' vs =>
      obtain ⟨cs, heq, hcs⟩ := ih (by simp) fun w hw => h w (by simp [hw])
      refine ⟨spell v ++ ([] ++ ',' :: (ws ++ cs)), ?_, .more hv blanks_nil hws hcs⟩
      rw [← heq, List.map_cons, List.map_cons, List.intercalate_cons_cons]
      simp

/-- Entries with blanks `gap` behind their colons. -/
theorem spellsEntries_intercalate {gap : List Char} (hgap : Blanks gap) (hws : Blanks ws) (hws' : Blanks ws')
    (hne : es ≠ []) (h : ∀ e ∈ es, Spells wide (sort e.2) (spell e.2)) :
    ∃ cs, [','].intercalate (es.map fun e => ws ++ ((stringText e.1).toList ++ ':' :: gap ++ spell e.2)) ++
        (ws' ++ ['}']) = ws ++ cs ∧ SpellsEntries wide (es.map fun e => (e.1, sort e.2)) cs := by
  have hkey (k : String) : SpellsKey k ((stringText k).toList ++ ([] ++ ':' :: gap)) := .mk blanks_nil hgap
  induction es with
  | nil => exact absurd rfl hne
  | cons e es ih =>
    have he := h e (by simp)
    cases es with
    | nil => exact ⟨_, by simp, .last (hkey e.1) he hws'⟩
    | cons e' es =>
      obtain ⟨cs, heq, hcs⟩ := ih (by simp) fun x hx => h x (by simp [hx])
      refine ⟨_, ?_, .more (hkey e.1) he blanks_nil hws hcs⟩
      rw [← heq, List.map_cons, List.map_cons, List.intercalate_cons_cons]
      simp

end Brackets

theorem spells_list (h : ∀ v ∈ vs, Spells wide v.sorted (pretty (level + 1) v).toList) :
    Spells wide (Value.list vs).sorted (pretty level (.list vs)).toList := by
  rw [sorted, sortedItems_eq, pretty, prettyItems_eq]
  by_cases hne : vs = []
  · subst hne
    have htext : Spells wide (.list []) ['[', ']'] := .nil blanks_nil
    simpa [bracketed] using htext
  · obtain ⟨cs, heq, hcs⟩ :=
      spellsItems_intercalate sorted (fun v => (pretty (level + 1) v).toList) (blanks_margin (level + 1))
        (blanks_margin level) hne h
    rw [toList_bracketed (by simpa using hne), List.map_map]
    have htext := Spells.list (blanks_margin (level + 1)) hcs
    rw [← heq] at htext
    exact htext

theorem spells_table (hkeys : (es.map (·.1)).Nodup)
    (h : ∀ e ∈ es, Spells wide e.2.sorted (pretty (level + 1) e.2).toList) :
    Spells wide (Value.table es).sorted (pretty level (.table es)).toList := by
  -- both the entries and their texts are in the order of the keys
  obtain ⟨fs, hfs⟩ : ∃ fs, fs = es.mergeSort fun a b => a.1 ≤ b.1 := ⟨_, rfl⟩
  have hperm : fs.Perm es := hfs ▸ List.mergeSort_perm _ _
  have hsorted : (sortedEntries es).mergeSort (fun a b => a.1 ≤ b.1) = fs.map fun e => (e.1, sorted e.2) := by
    rw [sortedEntries_eq, hfs, List.map_mergeSort]
    exact fun _ _ _ _ => rfl
  have hpretty : (prettyEntries level es).mergeSort (fun a b => a.1 ≤ b.1) =
      fs.map fun e => (e.1, stringText e.1 ++ ": " ++ pretty (level + 1) e.2) := by
    rw [prettyEntries_eq, hfs, List.map_mergeSort]
    exact fun _ _ _ _ => rfl
  have hkeys' : ((fs.map fun e => (e.1, sorted e.2)).map (·.1)).Nodup := by
    rw [List.map_map]
    exact (hperm.map _).nodup_iff.2 hkeys
  rw [sorted, hsorted, pretty, hpretty, List.map_map]
  by_cases hne : fs = []
  · subst hne
    have htext : Spells wide (.table []) ['{', '}'] := .empty blanks_nil
    simpa [bracketed] using htext
  · have hspell : ∀ e ∈ fs, Spells wide e.2.sorted (pretty (level + 1) e.2).toList := fun e he =>
      h e (hperm.mem_iff.1 he)
    have hgap : Blanks [' '] := by simp [Blanks, isSpace]
    obtain ⟨cs, heq, hcs⟩ :=
      spellsEntries_intercalate sorted (fun v => (pretty (level + 1) v).toList) hgap (blanks_margin (level + 1))
        (blanks_margin level) hne hspell
    rw [toList_bracketed (by simpa using hne), List.map_map]
    have htext := Spells.table hkeys' (blanks_margin (level + 1)) hcs
    rw [← heq] at htext
    have hcolon : (": " : String).toList = [':', ' '] := rfl
    simp only [Function.comp_def, String.toList_append, hcolon]
    exact htext

theorem toList_ofNat (n : Nat) : (toString (Int.ofNat n)).toList = Nat.toDigits 10 n := Nat.toList_repr

theorem toList_negSucc (n : Nat) : (toString (Int.negSucc n)).toList = '-' :: Nat.toDigits 10 (n + 1) := by
  change ("-" ++ (n + 1).repr).toList = _
  rw [String.toList_append, Nat.toList_repr]
  rfl

theorem spells_int {n : Int} (h : wide = .keep ∨ intFits n) : Spells wide (.int n) (toString n).toList := by
  cases n with
  | ofNat n =>
    rw [toList_ofNat]
    exact .natural n h
  | negSucc n =>
    rw [toList_negSucc]
    exact .negative (n + 1) h

mutual

/-- What is written over several lines spells the data, with its tables sorted. -/
theorem spells_pretty (level : Nat) (v : Value) (h : v.Plain wide) :
    Spells wide v.sorted (pretty level v).toList :=
  match v with
  | .null => by simpa [sorted, pretty] using Spells.null
  | .bool true => by simpa [sorted, pretty] using Spells.yes
  | .bool false => by simpa [sorted, pretty] using Spells.no
  | .int _ => spells_int h
  | .float _ => h.elim
  | .str s => .str s
  | .moment _ => h.elim
  | .list vs => spells_list (spells_prettyItems (level + 1) vs h)
  | .table es => spells_table h.1 (spells_prettyEntries (level + 1) es h.2)

theorem spells_prettyItems (level : Nat) (vs : List Value) (h : PlainItems wide vs) :
    ∀ v ∈ vs, Spells wide v.sorted (pretty level v).toList :=
  match vs with
  | [] => by simp
  | v :: vs => by
    have hv := spells_pretty level v h.1
    have hvs := spells_prettyItems level vs h.2
    exact List.forall_mem_cons.2 ⟨hv, hvs⟩

theorem spells_prettyEntries (level : Nat) (es : List (String × Value)) (h : PlainEntries wide es) :
    ∀ e ∈ es, Spells wide e.2.sorted (pretty level e.2).toList :=
  match es with
  | [] => by simp
  | (_, v) :: es => by
    have hv := spells_pretty level v h.1
    have hes := spells_prettyEntries level es h.2
    exact List.forall_mem_cons.2 ⟨hv, hes⟩

end

/-- A document over several lines, with blanks behind it, is parsed as its data in order. -/
theorem parse?_pretty (h : v.Plain wide) (hdepth : v.sorted.depth ≤ maxDepth) (s : String)
    (hs : Blanks s.toList) : parse? wide (pretty 0 v ++ s) = some v.sorted :=
  parse?_spelled (spells_pretty 0 v h) hdepth blanks_nil hs (by simp)

end Json

end Stencil.Data
