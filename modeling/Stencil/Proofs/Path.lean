import Mathlib.Data.List.Basic
import Stencil.Path
import Stencil.Proofs.Text.Split

/-!
Paths and the texts for them, and the way from one path to another: what leads from a directory to a
path is taken back by joining it to the directory.
-/
namespace Stencil.Path

variable {p q base : Path} {parts ps qs : List String} {s : String}

/-- Holds of the parts that a text can show. -/
def IsPart (s : String) : Prop := s ≠ "" ∧ s ≠ "." ∧ '/' ∉ s.toList

/-- Holds of paths that have a text of their own. -/
def Proper (p : Path) : Prop := ∀ s ∈ p.parts, IsPart s

theorem isPart_up : IsPart ".." := ⟨by decide, by decide, by decide⟩

/-! ### Texts -/

theorem splitParts_intercalate (h : ∀ s ∈ parts, IsPart s) (hne : parts ≠ []) :
    splitParts ("/".intercalate parts) = parts := by
  have hpieces : ∀ cs ∈ parts.map String.toList, ∀ c ∈ cs, (c == '/') = false := by
    intro cs hcs c hc
    obtain ⟨s, hs, rfl⟩ := List.mem_map.1 hcs
    rw [beq_eq_false_iff_ne]
    rintro rfl
    exact (h s hs).2.2 hc
  have hsplit : Text.splitOnChar '/' ("/".intercalate parts) = parts := by
    have htext : ("/".intercalate parts).toList = ['/'].intercalate (parts.map String.toList) :=
      String.toList_intercalate
    rw [Text.splitOnChar, htext, Text.splitAt_intercalate (by decide) (by simpa using hne) hpieces, List.map_map]
    simp [Function.comp_def]
  rw [splitParts, hsplit, List.filter_eq_self]
  intro s hs
  simpa using ⟨(h s hs).1, (h s hs).2.1⟩

/-- A path that leads on from somewhere is read off its text. -/
theorem ofString_text (h : ∀ s ∈ parts, IsPart s) : ofString (text ⟨false, parts⟩) = ⟨false, parts⟩ := by
  by_cases hne : parts = []
  · subst hne
    decide
  · have htext : text ⟨false, parts⟩ = "/".intercalate parts := by simp [text, hne]
    have hhead : ("/".intercalate parts).toList.head? ≠ some '/' := by
      obtain ⟨s, parts, rfl⟩ := List.exists_cons_of_ne_nil hne
      obtain ⟨c, cs, hcs⟩ : ∃ c cs, s.toList = c :: cs :=
        List.exists_cons_of_ne_nil (by simpa using (h s (by simp)).1)
      have hc : c ≠ '/' := by
        rintro rfl
        exact (h s (by simp)).2.2 (by simp [hcs])
      cases parts with
      | nil => simpa [hcs] using hc
      | cons t parts => simpa [String.intercalate_cons_cons, hcs] using hc
    rw [htext, ofString, splitParts_intercalate h hne]
    simpa using hhead

theorem splitParts_slash (s : String) : splitParts ("/" ++ s) = splitParts s := by
  have hsplit : Text.splitOnChar '/' ("/" ++ s) = "" :: Text.splitOnChar '/' s := by
    simp [Text.splitOnChar, Text.splitAt]
  rw [splitParts, hsplit, List.filter_cons_of_neg (by simp), splitParts]

/-- An absolute path is read off its text. -/
theorem ofString_text_absolute (h : ∀ s ∈ parts, IsPart s) : ofString (text ⟨true, parts⟩) = ⟨true, parts⟩ := by
  have hparts : splitParts ("/".intercalate parts) = parts := by
    by_cases hne : parts = []
    · subst hne
      decide
    · exact splitParts_intercalate h hne
  have htext : text ⟨true, parts⟩ = "/" ++ "/".intercalate parts := if_pos rfl
  rw [htext, ofString, splitParts_slash, hparts]
  simp

/-! ### Leading upwards -/

theorem foldl_collapse (h : ".." ∉ parts) (done : List String) :
    parts.foldl collapse done = parts.reverse ++ done := by
  induction parts generalizing done with
  | nil => simp
  | cons p parts ih =>
    rw [List.mem_cons, not_or] at h
    simp [ih h.2, collapse.eq_def, Ne.symm h.1]

/-- What cannot be taken back is at the far end. -/
theorem collapse_spec {n : Nat} (h : ".." ∉ parts) (p : String) : ∃ rest m,
    collapse (parts ++ List.replicate n "..") p = rest ++ List.replicate m ".." ∧ ".." ∉ rest := by
  obtain rfl | hp := eq_or_ne p ".."
  · cases parts with
    | nil =>
      refine ⟨[], n + 1, ?_, by simp⟩
      cases n <;> simp [collapse.eq_def, List.replicate_succ]
    | cons q parts =>
      rw [List.mem_cons, not_or] at h
      exact ⟨parts, n, by simp [collapse.eq_def, Ne.symm h.1], h.2⟩
  · exact ⟨p :: parts, n, by simp [collapse.eq_def, hp], by simpa using ⟨hp.symm, h⟩⟩

theorem foldl_collapse_spec (ps parts : List String) (n : Nat) (h : ".." ∉ ps) : ∃ rest m,
    parts.foldl collapse (ps ++ List.replicate n "..") = rest ++ List.replicate m ".." ∧ ".." ∉ rest := by
  induction parts generalizing ps n with
  | nil => exact ⟨ps, n, rfl, h⟩
  | cons p parts ih =>
    obtain ⟨rest, m, hstep, hrest⟩ := collapse_spec (n := n) h p
    rw [List.foldl_cons, hstep]
    exact ih rest m hrest

/-- What leads above the root of an absolute path is dropped. -/
theorem normalized_of_foldl {n : Nat} (hfold : parts.foldl collapse [] = ps.reverse ++ List.replicate n "..")
    (h : ".." ∉ ps) : normalized ⟨true, parts⟩ = ⟨true, ps⟩ := by
  have hcollapse : collapseParts parts = List.replicate n ".." ++ ps := by
    rw [collapseParts, hfold, List.reverse_append, List.reverse_replicate, List.reverse_reverse]
  have hdrop : ps.dropWhile (· == "..") = ps := by
    cases ps with
    | nil => rfl
    | cons p ps => exact List.dropWhile_cons_of_neg (by simpa using (List.ne_of_not_mem_cons h).symm)
  rw [normalized, if_pos rfl, hcollapse, List.dropWhile_append_of_pos (by simp +contextual [List.mem_replicate]), hdrop]

/-- Nothing leads upwards in an absolute path without `..` parts; the parts that lead above its root come first. -/
theorem normalized_spec (hp : p.absolute) : ".." ∉ p.normalized.parts ∧
    ∃ n, p.parts.foldl collapse [] = p.normalized.parts.reverse ++ List.replicate n ".." := by
  obtain ⟨absolute, parts⟩ := p
  cases hp
  obtain ⟨rest, n, hfold, hrest⟩ := foldl_collapse_spec [] parts 0 (by simp)
  rw [List.nil_append, List.replicate_zero] at hfold
  have hnormal : normalized ⟨true, parts⟩ = ⟨true, rest.reverse⟩ :=
    normalized_of_foldl (by rw [hfold, List.reverse_reverse]) (by simpa using hrest)
  rw [hnormal]
  exact ⟨by simpa using hrest, n, by rw [hfold, List.reverse_reverse]⟩

theorem normalized_absolute (hp : p.absolute) : p.normalized.absolute = true := by
  rw [normalized, if_pos hp]

theorem up_not_mem_of_absolute (hp : p.absolute) : ".." ∉ p.normalized.parts := (normalized_spec hp).1

theorem up_not_mem_normalized (parts : List String) : ".." ∉ (normalized ⟨true, parts⟩).parts :=
  up_not_mem_of_absolute rfl

theorem mem_collapse {done : List String} {p : String} (h : s ∈ collapse done p) : s ∈ done ∨ s = p := by
  rw [collapse.eq_def] at h
  split at h
  · rename_i hp
    rw [beq_iff_eq] at hp
    split at h
    · simp_all
    · split at h
      · simp_all
      · exact .inl (List.mem_cons_of_mem _ h)
  · obtain rfl | h := List.mem_cons.1 h
    · exact .inr rfl
    · exact .inl h

theorem mem_foldl_collapse {done : List String} (h : s ∈ parts.foldl collapse done) : s ∈ done ∨ s ∈ parts := by
  induction parts generalizing done with
  | nil => exact .inl h
  | cons p parts ih =>
    obtain h | h := ih h
    · obtain h | rfl := mem_collapse h
      · exact .inl h
      · exact .inr List.mem_cons_self
    · exact .inr (List.mem_cons_of_mem p h)

/-- Taking parts back makes no new ones. -/
theorem mem_normalized (h : s ∈ p.normalized.parts) : s ∈ p.parts := by
  have hcollapse : ∀ s ∈ collapseParts p.parts, s ∈ p.parts := by
    intro s hs
    exact (mem_foldl_collapse (List.mem_reverse.1 hs)).resolve_left List.not_mem_nil
  rw [normalized] at h
  split at h
  · exact hcollapse s ((List.dropWhile_sublist _).subset h)
  · exact hcollapse s h

theorem normalized_eq (hp : p.absolute) (h : ".." ∉ p.parts) : p.normalized = p := by
  obtain ⟨absolute, parts⟩ := p
  cases hp
  exact normalized_of_foldl (n := 0) (by simp [foldl_collapse h]) h

/-- What two lists of parts have in common is in front of both. -/
theorem withoutCommon_spec (ps qs : List String) :
    ∃ common, ps = common ++ (withoutCommon ps qs).1 ∧ qs = common ++ (withoutCommon ps qs).2 := by
  induction ps generalizing qs with
  | nil => exact ⟨[], by simp [withoutCommon]⟩
  | cons p ps ih =>
    cases qs with
    | nil => exact ⟨[], by simp [withoutCommon]⟩
    | cons q qs =>
      obtain heq | hne := eq_or_ne p q
      · obtain ⟨common, hps, hqs⟩ := ih qs
        subst heq
        refine ⟨p :: common, ?_, ?_⟩ <;> simpa [withoutCommon]
      · exact ⟨[], by simp [withoutCommon, hne]⟩

/-- The way from a directory to a path, `..` parts taken back in both, goes up to a directory above both
and down from there. -/
theorem relativeTo_normalized (p base : Path) :
    ∃ common up down, p.normalized.parts = common ++ down ∧ base.normalized.parts = common ++ up ∧
      p.relativeTo base = ⟨false, List.replicate up.length ".." ++ down⟩ := by
  obtain ⟨common, hps, hqs⟩ := withoutCommon_spec p.normalized.parts base.normalized.parts
  exact ⟨common, _, _, hps, hqs, by simp [relativeTo]⟩

/-- The way from a directory to a path goes up to a directory above both and down from there. -/
theorem relativeTo_spec (hp : p.absolute) (hbase : base.absolute) (hup : ".." ∉ p.parts)
    (hbaseUp : ".." ∉ base.parts) :
    ∃ common up down, p.parts = common ++ down ∧ base.parts = common ++ up ∧
      p.relativeTo base = ⟨false, List.replicate up.length ".." ++ down⟩ := by
  obtain ⟨common, up, down, hps, hqs, hway⟩ := relativeTo_normalized p base
  rw [normalized_eq hp hup] at hps
  rw [normalized_eq hbase hbaseUp] at hqs
  exact ⟨common, up, down, hps, hqs, hway⟩

/-! ### Paths seen from a directory -/

theorem takeWhile_up {n : Nat} (h : ".." ∉ ps) :
    (List.replicate n ".." ++ ps).takeWhile (· == "..") = List.replicate n ".." := by
  rw [List.takeWhile_append_of_pos (by simp +contextual [List.mem_replicate])]
  cases ps with
  | nil => simp
  | cons p ps => simp [Ne.symm (List.ne_of_not_mem_cons h)]

/-- Paths as seen from a directory are read off their texts. -/
theorem ofString_relativeTo (h : p.Proper) : ofString (p.relativeTo base).text = p.relativeTo base := by
  obtain ⟨common, up, down, hparts, -, hway⟩ := relativeTo_normalized p base
  rw [hway]
  refine ofString_text fun s hs => ?_
  obtain hs | hs := List.mem_append.1 hs
  · rw [List.eq_of_mem_replicate hs]
    exact isPart_up
  · exact h s (mem_normalized (by rw [hparts]; exact List.mem_append_right common hs))

/-- Seen from one directory, paths look alike if and only if they lead to one place. -/
theorem relativeTo_text_eq_iff (hp : p.absolute) (hq : q.absolute) (hpp : p.Proper) (hqp : q.Proper) :
    (p.relativeTo base).text = (q.relativeTo base).text ↔ p.normalized = q.normalized := by
  refine ⟨fun htext => ?_, fun h => by rw [relativeTo, relativeTo, h]⟩
  obtain ⟨common, up, down, hparts, hbase, hway⟩ := relativeTo_normalized p base
  obtain ⟨common', up', down', hparts', hbase', hway'⟩ := relativeTo_normalized q base
  have hshown : List.replicate up.length ".." ++ down = List.replicate up'.length ".." ++ down' := by
    have hread := congrArg ofString htext
    rw [ofString_relativeTo hpp, ofString_relativeTo hqp, hway, hway'] at hread
    exact congrArg parts hread
  have hdown : ".." ∉ down := fun h => up_not_mem_of_absolute hp (by simp [hparts, h])
  have hdown' : ".." ∉ down' := fun h => up_not_mem_of_absolute hq (by simp [hparts', h])
  -- both ways go up equally far, so what is above them is the same
  have hlength : up.length = up'.length := by
    have hups := congrArg (List.takeWhile (· == "..")) hshown
    rw [takeWhile_up hdown, takeWhile_up hdown'] at hups
    simpa using congrArg List.length hups
  have hcommon : common = common' := (List.append_inj' (hbase.symm.trans hbase') hlength).1
  have hsame : down = down' := by rwa [hlength, List.append_cancel_left_eq] at hshown
  calc p.normalized = ⟨p.normalized.absolute, p.normalized.parts⟩ := rfl
    _ = ⟨q.normalized.absolute, q.normalized.parts⟩ := by
      rw [normalized_absolute hp, normalized_absolute hq, hparts, hparts', hcommon, hsame]

/-! ### There and back -/

/-- Going up takes back what was gone down. -/
theorem foldl_collapse_up (h : ".." ∉ ps) (done : List String) :
    (List.replicate ps.length "..").foldl collapse (ps ++ done) = done := by
  induction ps with
  | nil => rfl
  | cons p ps ih =>
    rw [List.mem_cons, not_or] at h
    have hstep : collapse (p :: ps ++ done) ".." = ps ++ done := by simp [collapse.eq_def, Ne.symm h.1]
    rw [List.length_cons, List.replicate_succ, List.foldl_cons, hstep, ih h.2]

/-- The way from a directory to a path, gone from the directory, leads to where the path leads. -/
theorem normalized_join_relativeTo (hp : p.absolute) (hproper : p.Proper) (hbase : base.absolute) :
    (base.join (ofString (p.relativeTo base).text)).normalized = p.normalized := by
  obtain ⟨common, up, down, hparts, hups, hway⟩ := relativeTo_normalized p base
  obtain ⟨hbaseUp, n, hfold⟩ := normalized_spec hbase
  have hnormal : ".." ∉ common ++ down := hparts ▸ up_not_mem_of_absolute hp
  have hup : ".." ∉ up.reverse := fun h => hbaseUp (by rw [hups]; simp [List.mem_reverse.1 h])
  have hdown : ".." ∉ down := fun h => hnormal (List.mem_append_right _ h)
  have hback : (List.replicate up.length "..").foldl collapse (base.parts.foldl collapse []) =
      common.reverse ++ List.replicate n ".." := by
    have hlength : up.length = up.reverse.length := List.length_reverse.symm
    rw [hfold, hups, List.reverse_append, List.append_assoc, hlength, foldl_collapse_up hup]
  have hwalk : (base.parts ++ (List.replicate up.length ".." ++ down)).foldl collapse [] =
      (common ++ down).reverse ++ List.replicate n ".." := by
    rw [List.foldl_append, List.foldl_append, hback, foldl_collapse hdown, List.reverse_append, List.append_assoc]
  calc (base.join (ofString (p.relativeTo base).text)).normalized
      = (base.join ⟨false, List.replicate up.length ".." ++ down⟩).normalized := by
        rw [ofString_relativeTo hproper, hway]
    _ = normalized ⟨true, base.parts ++ (List.replicate up.length ".." ++ down)⟩ := by
        rw [join, if_neg (by simp), hbase]
    _ = ⟨true, common ++ down⟩ := normalized_of_foldl hwalk hnormal
    _ = ⟨p.normalized.absolute, p.normalized.parts⟩ := by rw [normalized_absolute hp, hparts]

/-- Absolute paths in normal form: they can be read off their texts, and nothing in them leads upwards. -/
structure IsNormal (p : Path) : Prop where
  absolute : p.absolute
  proper : p.Proper
  up_not_mem : ".." ∉ p.parts

namespace IsNormal

theorem ofString_text (h : p.IsNormal) : ofString p.text = p := by
  obtain ⟨absolute, parts⟩ := p
  obtain rfl : absolute = true := h.absolute
  exact ofString_text_absolute h.proper

theorem normalized_eq (h : p.IsNormal) : p.normalized = p := Path.normalized_eq h.absolute h.up_not_mem

/-- Joined to the directory it is seen from, a path is itself again. -/
theorem normalized_join (h : p.IsNormal) (hbase : base.absolute) :
    (base.join (ofString (p.relativeTo base).text)).normalized = p :=
  (normalized_join_relativeTo h.absolute h.proper hbase).trans h.normalized_eq

/-- Seen from one directory, different paths look different. -/
theorem relativeTo_text_inj (hp : p.IsNormal) (hq : q.IsNormal) (hbase : base.absolute) :
    (p.relativeTo base).text = (q.relativeTo base).text ↔ p = q := by
  refine ⟨fun h => ?_, fun h => by rw [h]⟩
  rw [← hp.normalized_join hbase, h, hq.normalized_join hbase]

end IsNormal
end Stencil.Path
