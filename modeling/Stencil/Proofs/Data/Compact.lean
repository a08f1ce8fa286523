import Stencil.Proofs.Code.Origin
import Stencil.Proofs.Data.Pretty

/-!
Documents on one line. They spell their data, so they are read back as that, and they hold no control
characters, so nothing in them ends the line.
-/
namespace Stencil.Data.Json
open Value

variable {wide : Wide} {v : Value} {vs : List Value} {es : List (String × Value)} {c : Char}

theorem compactItems_eq (vs : List Value) : compactItems vs = vs.map compact := by
  induction vs with
  | nil => rfl
  | cons v vs ih => rw [compactItems, ih, List.map_cons]

theorem compactEntries_eq (es : List (String × Value)) :
    compactEntries es = es.map fun e => stringText e.1 ++ ":" ++ compact e.2 := by
  induction es with
  | nil => rfl
  | cons e es ih => rw [compactEntries, ih, List.map_cons]

theorem toList_compact_list (vs : List Value) :
    (compact (.list vs)).toList = '[' :: ([','].intercalate (vs.map fun v => (compact v).toList) ++ [']']) := by
  simp [compact, compactItems_eq, String.toList_intercalate, Function.comp_def]

theorem toList_compact_table (es : List (String × Value)) :
    (compact (.table es)).toList =
      '{' :: ([','].intercalate (es.map fun e => (stringText e.1).toList ++ ':' :: (compact e.2).toList) ++ ['}']) := by
  simp [compact, compactEntries_eq, String.toList_intercalate, Function.comp_def]

/-! ### Reading -/

theorem spells_compact_list (h : ∀ v ∈ vs, Spells wide v (compact v).toList) :
    Spells wide (.list vs) (compact (.list vs)).toList := by
  rw [toList_compact_list]
  by_cases hne : vs = []
  · subst hne
    exact .nil blanks_nil
  · obtain ⟨cs, heq, hcs⟩ :=
      spellsItems_intercalate id (fun v => (compact v).toList) blanks_nil blanks_nil hne h
    have htext := Spells.list blanks_nil hcs
    rw [← heq, List.map_id] at htext
    exact htext

theorem spells_compact_table (hkeys : (es.map (·.1)).Nodup) (h : ∀ e ∈ es, Spells wide e.2 (compact e.2).toList) :
    Spells wide (.table es) (compact (.table es)).toList := by
  rw [toList_compact_table]
  by_cases hne : es = []
  · subst hne
    exact .empty blanks_nil
  · obtain ⟨cs, heq, hcs⟩ :=
      spellsEntries_intercalate id (fun v => (compact v).toList) blanks_nil blanks_nil blanks_nil hne h
    have hsame : es.map (fun e => (e.1, id e.2)) = es := List.map_id es
    rw [hsame] at hcs
    have htext := Spells.table hkeys blanks_nil hcs
    rw [← heq] at htext
    simpa using htext

mutual

/-- What is written on one line spells the data. -/
theorem spells_compact (v : Value) (h : v.Plain wide) : Spells wide v (compact v).toList :=
  match v with
  | .null => by simpa [compact] using Spells.null
  | .bool true => by simpa [compact] using Spells.yes
  | .bool false => by simpa [compact] using Spells.no
  | .int _ => spells_int h
  | .float _ => h.elim
  | .str s => .str s
  | .moment _ => h.elim
  | .list vs => spells_compact_list (spells_compactItems vs h)
  | .table es => spells_compact_table h.1 (spells_compactEntries es h.2)

theorem spells_compactItems (vs : List Value) (h : PlainItems wide vs) :
    ∀ v ∈ vs, Spells wide v (compact v).toList :=
  match vs with
  | [] => by simp
  | v :: vs => List.forall_mem_cons.2 ⟨spells_compact v h.1, spells_compactItems vs h.2⟩

theorem spells_compactEntries (es : List (String × Value)) (h : PlainEntries wide es) :
    ∀ e ∈ es, Spells wide e.2 (compact e.2).toList :=
  match es with
  | [] => by simp
  | (_, v) :: es => List.forall_mem_cons.2 ⟨spells_compact v h.1, spells_compactEntries es h.2⟩

end

/-- A document on one line, with blanks behind it, is parsed as its data. -/
theorem parse?_compact (h : v.Plain wide) (hdepth : v.depth ≤ maxDepth) (s : String) (hs : Blanks s.toList) :
    parse? wide (compact v ++ s) = some v :=
  parse?_spelled (spells_compact v h) hdepth blanks_nil hs (by simp)

/-! ### Lines -/

/-- Holds of characters that end no line of bytes. -/
def Within (c : Char) : Prop := c ≠ '\n' ∧ c ≠ '\r'

theorem within_escapeChar (c : Char) : ∀ d ∈ escapeChar c, Within d := by
  have hescaped := escaped_escapeChar c
  generalize escapeChar c = cs at hescaped
  cases hescaped with
  | plain _ _ hc =>
    refine List.forall_mem_singleton.2 ⟨?_, ?_⟩
    all_goals
      rintro rfl
      exact hc (by decide)
  | @short d hd =>
    have hletter : Within d := by
      simp only [List.mem_cons, Prod.mk.injEq, List.not_mem_nil, or_false] at hd
      obtain ⟨rfl, -⟩ | ⟨rfl, -⟩ | ⟨rfl, -⟩ | ⟨rfl, -⟩ | ⟨rfl, -⟩ | ⟨rfl, -⟩ | ⟨rfl, -⟩ := hd <;>
        exact ⟨by decide, by decide⟩
    exact List.forall_mem_cons.2 ⟨⟨by decide, by decide⟩, List.forall_mem_singleton.2 hletter⟩
  | control hc =>
    refine List.forall_mem_cons.2 ⟨⟨by decide, by decide⟩, List.forall_mem_cons.2 ⟨⟨by decide, by decide⟩, ?_⟩⟩
    intro d hd
    have hinside := Code.hexDigits_inside (q := '"') rfl 4 c.toNat d hd
    constructor <;>
      · rintro rfl
        exact absurd hinside (by decide)

theorem within_stringText (s : String) : ∀ c ∈ (stringText s).toList, Within c := by
  rw [toList_stringText]
  refine List.forall_mem_cons.2 ⟨⟨by decide, by decide⟩, List.forall_mem_append.2 ⟨?_, List.forall_mem_singleton.2 ⟨by decide, by decide⟩⟩⟩
  exact List.forall_mem_flatMap.2 fun c _ => within_escapeChar c

theorem within_intercalate {items : List String} (h : ∀ s ∈ items, ∀ c ∈ s.toList, Within c) :
    ∀ c ∈ (",".intercalate items).toList, Within c :=
  Code.forall_mem_intercalate h (List.forall_mem_singleton.2 ⟨by decide, by decide⟩)

theorem within_digits (n : Nat) : ∀ c ∈ Nat.toDigits 10 n, Within c := by
  intro c hc
  have hdigit : c.isDigit := Decimal.isDigit_toDigits hc
  constructor <;>
    · rintro rfl
      cases hdigit

theorem within_int (n : Int) : ∀ c ∈ (toString n).toList, Within c := by
  cases n with
  | ofNat n =>
    rw [toList_ofNat]
    exact within_digits n
  | negSucc n =>
    rw [toList_negSucc]
    exact List.forall_mem_cons.2 ⟨⟨by decide, by decide⟩, within_digits (n + 1)⟩

theorem within_append {s t : String} (hs : ∀ c ∈ s.toList, Within c) (ht : ∀ c ∈ t.toList, Within c) :
    ∀ c ∈ (s ++ t).toList, Within c := by
  rw [String.toList_append]
  exact List.forall_mem_append.2 ⟨hs, ht⟩

mutual

/-- What is written on one line stays on it. -/
theorem within_compact (v : Value) (h : v.Plain wide) : ∀ c ∈ (compact v).toList, Within c :=
  match v with
  | .null => by simp [compact, Within]
  | .bool true => by simp [compact, Within]
  | .bool false => by simp [compact, Within]
  | .int n => within_int n
  | .float _ => h.elim
  | .str s => within_stringText s
  | .moment _ => h.elim
  | .list vs => by
    rw [compact, compactItems_eq]
    have hitems := within_intercalate (List.forall_mem_map.2 (within_compactItems vs h))
    exact within_append (within_append (by simp [Within]) hitems) (by simp [Within])
  | .table es => by
    rw [compact, compactEntries_eq]
    have hentries := within_intercalate (List.forall_mem_map.2 (within_compactEntries es h.2))
    exact within_append (within_append (by simp [Within]) hentries) (by simp [Within])

theorem within_compactItems (vs : List Value) (h : PlainItems wide vs) :
    ∀ v ∈ vs, ∀ c ∈ (compact v).toList, Within c :=
  match vs with
  | [] => by simp
  | v :: vs => List.forall_mem_cons.2 ⟨within_compact v h.1, within_compactItems vs h.2⟩

theorem within_compactEntries (es : List (String × Value)) (h : PlainEntries wide es) :
    ∀ e ∈ es, ∀ c ∈ (stringText e.1 ++ ":" ++ compact e.2).toList, Within c :=
  match es with
  | [] => by simp
  | (k, v) :: es => by
    have hcolon : ∀ c ∈ (":" : String).toList, Within c := List.forall_mem_singleton.2 ⟨by decide, by decide⟩
    have hentry := within_append (within_append (within_stringText k) hcolon) (within_compact v h.1)
    exact List.forall_mem_cons.2 ⟨hentry, within_compactEntries es h.2⟩

end

end Stencil.Data.Json
