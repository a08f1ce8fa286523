import Mathlib.Data.List.Nodup
import Stencil.Proofs.Baseline.RoundTrip
import Stencil.Proofs.Path

/-!
The entries of a baseline do not depend on the order of the diagnostics. A missing identifier and an empty one are
alike to the order of entries, so this takes identifiers that are not empty. The name of a template in an entry leads
from the directory of the baseline back to the template, so no two templates share one.
-/
namespace Stencil.Baseline
open Std Data Diagnosis Files

variable {directory : Path} {d d' : Diagnostic} {ds ds' : List Diagnostic} {l l' : Likeness} {ls ls' : List Likeness}
  {a b e : Entry} {entries : List Entry} {p : Path} {t t' : Tree}

namespace Entry

/-! ### The order of entries -/

/-- One entry stands strictly before another: by template, then by message, then by identifier, none first. -/
inductive Before (a b : Entry) : Prop
  | template (h : a.template < b.template)
  | message (h : a.template = b.template) (h' : a.message < b.message)
  | identifier (h : a.template = b.template) (h' : a.message = b.message) (h'' : a.identifier < b.identifier)

theorem compare_eq : compare = compareLex (compareOn template)
    (compareLex (compareOn message) (compareOn fun e => e.identifier.getD "")) := rfl

instance : TransCmp compare := by
  rw [compare_eq]
  infer_instance

theorem eq_of_getD {i j : Option String} (hi : i ≠ some "") (hj : j ≠ some "") (h : i.getD "" = j.getD "") :
    i = j := by
  cases i <;> cases j <;> simp_all

/-- The text that stands for no identifier is before all others. -/
theorem lt_of_getD {i j : Option String} (h : i.getD "" < j.getD "") : i < j := by
  have hnil : ∀ s : String, ¬ s < "" := fun s h => List.not_lt_nil s.toList h
  cases j with
  | none => exact absurd h (hnil _)
  | some j =>
    cases i with
    | none => trivial
    | some i => exact h

theorem before_of_compare (h : a.compare b = .lt) : a.Before b := by
  rw [compare, Ordering.then_eq_lt, Ordering.then_eq_lt] at h
  obtain h | ⟨h, h' | ⟨h', h''⟩⟩ := h
  · exact .template (compareOfLessAndEq_eq_lt.1 h)
  · exact .message (LawfulEqOrd.eq_of_compare h) (compareOfLessAndEq_eq_lt.1 h')
  · exact .identifier (LawfulEqOrd.eq_of_compare h) (LawfulEqOrd.eq_of_compare h')
      (lt_of_getD (compareOfLessAndEq_eq_lt.1 h''))

end Entry

/-! ### Counting -/

/-- What the entry of a likeness tells of it. -/
theorem eq_of_compare (hl : l.2.1 ≠ some "") (hl' : l'.2.1 ≠ some "") {n n' : Nat}
    (h : (⟨l.1, l.2.1, l.2.2, n⟩ : Entry).compare ⟨l'.1, l'.2.1, l'.2.2, n'⟩ = .eq) : l = l' := by
  rw [Entry.compare, Ordering.then_eq_eq, Ordering.then_eq_eq] at h
  obtain ⟨htemplate, hmessage, hidentifier⟩ := h
  refine Prod.ext (LawfulEqOrd.eq_of_compare hmessage) (Prod.ext ?_ (LawfulEqOrd.eq_of_compare htemplate))
  exact Entry.eq_of_getD hl hl' (LawfulEqOrd.eq_of_compare hidentifier)

theorem eq_of_mem_countAlike (hls : ∀ l ∈ ls, l.2.1 ≠ some "") (ha : a ∈ countAlike ls) (hb : b ∈ countAlike ls)
    (h : a.compare b = .eq) : a = b := by
  obtain ⟨l, hl, rfl⟩ := mem_countAlike.1 ha
  obtain ⟨l', hl', rfl⟩ := mem_countAlike.1 hb
  rw [eq_of_compare (hls l hl) (hls l' hl') h]

theorem sortedBy_countAlike (ls : List Likeness) : SortedBy Entry.compare (countAlike ls) := sortedBy_mergeSort _

theorem countAlike_nodup (ls : List Likeness) : (countAlike ls).Nodup := by
  rw [countAlike, (List.mergeSort_perm _ _).nodup_iff]
  have hdistinct : ls.eraseDups.Nodup := by convert nodup_eraseDups ls
  refine List.Nodup.map (fun l l' h => ?_) hdistinct
  rw [Entry.mk.injEq] at h
  exact Prod.ext h.1 (Prod.ext h.2.1 h.2.2.1)

theorem pairwise_countAlike (hls : ∀ l ∈ ls, l.2.1 ≠ some "") : (countAlike ls).Pairwise Entry.Before := by
  refine ((sortedBy_countAlike ls).and (countAlike_nodup ls)).imp_of_mem fun ha hb ⟨hle, hne⟩ => ?_
  refine Entry.before_of_compare ?_
  cases h : Entry.compare _ _ with
  | lt => rfl
  | eq => exact absurd (eq_of_mem_countAlike hls ha hb h) hne
  | gt => rw [h] at hle; cases hle

theorem countAlike_perm (hperm : ls.Perm ls') (hls : ∀ l ∈ ls, l.2.1 ≠ some "") : countAlike ls = countAlike ls' := by
  have hentries : (countAlike ls).Perm (countAlike ls') := by
    rw [List.perm_ext_iff_of_nodup (countAlike_nodup ls) (countAlike_nodup ls')]
    intro e
    simp only [mem_countAlike, hperm.mem_iff, hperm.count_eq]
  exact eq_of_sortedBy hentries (sortedBy_countAlike ls) (sortedBy_countAlike ls')
    fun a ha b hb => eq_of_mem_countAlike hls ha hb

theorem mem_countAlike_iff :
    e ∈ countAlike ls ↔ 0 < e.count ∧ e.count = ls.count (e.message, e.identifier, e.template) := by
  rw [mem_countAlike]
  constructor
  · rintro ⟨l, hl, rfl⟩
    exact ⟨List.count_pos_iff.2 hl, rfl⟩
  · rintro ⟨hpos, hcount⟩
    exact ⟨_, List.count_pos_iff.1 (hcount ▸ hpos), by rw [← hcount]⟩

/-! ### Diagnostics -/

/-- Holds of the diagnostics that an entry counts. -/
def Entry.standsFor (directory : Path) (e : Entry) (d : Diagnostic) : Bool :=
  d.suppressible && (d.message == e.message && d.identifier == e.identifier &&
    d.template.any fun p => (p.relativeTo directory).text == e.template)

theorem Entry.standsFor_iff (hs : d.suppressible = true) (hp : d.template = some p) :
    e.standsFor directory d = true ↔
      d.message = e.message ∧ d.identifier = e.identifier ∧ (p.relativeTo directory).text = e.template := by
  simp [standsFor, hs, hp, and_assoc]

/-- Two diagnostics can stand behind one entry if they agree in all but the line. -/
theorem exists_standsFor_iff {p' : Path} (hs : d.suppressible = true) (hs' : d'.suppressible = true)
    (hp : d.template = some p) (hp' : d'.template = some p') (hd : d ∈ ds) :
    (∃ e : Entry, (0 < e.count ∧ e.count = ds.countP (e.standsFor directory)) ∧
        e.standsFor directory d ∧ e.standsFor directory d') ↔
      d.message = d'.message ∧ d.identifier = d'.identifier ∧
        (p.relativeTo directory).text = (p'.relativeTo directory).text := by
  simp only [Entry.standsFor_iff hs hp, Entry.standsFor_iff hs' hp']
  constructor
  · rintro ⟨e, -, ⟨hmessage, hidentifier, htext⟩, hmessage', hidentifier', htext'⟩
    exact ⟨hmessage.trans hmessage'.symm, hidentifier.trans hidentifier'.symm, htext.trans htext'.symm⟩
  · rintro ⟨hmessage, hidentifier, htext⟩
    let counted (n : Nat) : Entry := ⟨d.message, d.identifier, (p.relativeTo directory).text, n⟩
    have hd' : (counted 0).standsFor directory d = true := (Entry.standsFor_iff hs hp).2 ⟨rfl, rfl, rfl⟩
    refine ⟨counted (ds.countP ((counted 0).standsFor directory)), ⟨List.countP_pos_iff.2 ⟨d, hd, hd'⟩, rfl⟩,
      ⟨rfl, rfl, rfl⟩, hmessage.symm, hidentifier.symm, htext.symm⟩

/-- What the diagnostic of a template is like. -/
def look (directory : Path) (d : Diagnostic) : Likeness :=
  (d.message, d.identifier, d.template.elim "" fun p => (p.relativeTo directory).text)

theorem isSome_template (h : ∀ d ∈ ds, d.suppressible = true → ∃ p, d.template = some p ∧ p.absolute) :
    ∀ d ∈ ds, d.suppressible = true → d.template.isSome := by
  intro d hd hs
  obtain ⟨p, hp, -⟩ := h d hd hs
  rw [hp]
  rfl

theorem identifier_look (h : ∀ d ∈ ds, d.suppressible = true → d.identifier ≠ some "") :
    ∀ l ∈ (ds.filter (·.suppressible)).map (look directory), l.2.1 ≠ some "" := by
  intro l hl
  obtain ⟨d, hd, rfl⟩ := List.mem_map.1 hl
  exact h d (List.mem_filter.1 hd).1 (List.mem_filter.1 hd).2

theorem entriesOf_eq (h : ∀ d ∈ ds, d.suppressible = true → d.template.isSome) :
    entriesOf directory ds = .ok (countAlike ((ds.filter (·.suppressible)).map (look directory))) := by
  rw [entriesOf, mapM_eq_map (g := look directory) fun d hd => ?_]
  · rfl
  · obtain ⟨p, hp⟩ := Option.isSome_iff_exists.1 (h d (List.mem_filter.1 hd).1 (List.mem_filter.1 hd).2)
    rw [likeness, look, hp]
    rfl

theorem count_look (h : ∀ d ∈ ds, d.suppressible = true → d.template.isSome) (e : Entry) :
    ((ds.filter (·.suppressible)).map (look directory)).count (e.message, e.identifier, e.template) =
      ds.countP (e.standsFor directory) := by
  rw [List.count, List.countP_map, List.countP_filter]
  refine List.countP_congr fun d hd => ?_
  have hlocated := h d hd
  cases hsuppressible : d.suppressible with
  | false => simp [Entry.standsFor, hsuppressible]
  | true =>
    obtain ⟨p, hp⟩ := Option.isSome_iff_exists.1 (hlocated hsuppressible)
    simp [Entry.standsFor, look, hsuppressible, hp, and_assoc]

/-- A baseline that was written holds the text of its entries, whatever the tree was. -/
theorem readBytes_of_dump (h : (dump p entries).run.run t = (.ok (), t')) :
    t'.readBytes p = .ok (Document.mk currentVersion entries).text.toUTF8 := by
  rw [run_dump] at h
  split at h
  · cases h
  · split at h
    · cases h
    · split at h
      · rename_i t₁ hdirs hfits
        rw [Tree.writeText, Tree.write] at h
        cases hw : t₁.writePlace p.parts with
        | error e => rw [hw] at h; cases h
        | ok w =>
          rw [hw] at h
          cases h
          exact Tree.readBytes_set hw
      · cases h

/-- Entries that are the baseline of diagnostics: they stand strictly one before the other, each counts the
diagnostics it stands for, and an entry stands for two of them if and only if these agree in message, identifier and
the place of their template. -/
structure IsBaseline (directory : Path) (ds : List Diagnostic) (entries : List Entry) : Prop where
  sorted : entries.Pairwise Entry.Before
  counted : ∀ e, e ∈ entries ↔ 0 < e.count ∧ e.count = ds.countP (e.standsFor directory)
  grouped : ∀ d ∈ ds, ∀ d' ∈ ds, d.suppressible = true → d'.suppressible = true →
    (∀ p, d.template = some p ∨ d'.template = some p → p.Proper) →
    ((∃ e ∈ entries, e.standsFor directory d ∧ e.standsFor directory d') ↔
      d.message = d'.message ∧ d.identifier = d'.identifier ∧
        d.template.map Path.normalized = d'.template.map Path.normalized)

theorem isBaseline_countAlike (hidentifier : ∀ d ∈ ds, d.suppressible = true → d.identifier ≠ some "")
    (htemplate : ∀ d ∈ ds, d.suppressible = true → ∃ p, d.template = some p ∧ p.absolute) :
    IsBaseline directory ds (countAlike ((ds.filter (·.suppressible)).map (look directory))) := by
  have hmem : ∀ e, e ∈ countAlike ((ds.filter (·.suppressible)).map (look directory)) ↔
      0 < e.count ∧ e.count = ds.countP (e.standsFor directory) := fun e => by
    rw [mem_countAlike_iff, count_look (isSome_template htemplate)]
  refine ⟨pairwise_countAlike (identifier_look hidentifier), hmem, fun d hd d' hd' hs hs' hproper => ?_⟩
  obtain ⟨p, hp, hpa⟩ := htemplate d hd hs
  obtain ⟨p', hp', hpa'⟩ := htemplate d' hd' hs'
  simp only [hmem]
  rw [exists_standsFor_iff hs hs' hp hp' hd,
    Path.relativeTo_text_eq_iff hpa hpa' (hproper p (.inl hp)) (hproper p' (.inr hp')), hp, hp', Option.map_some,
    Option.map_some, Option.some.injEq]

/-- The baseline of diagnostics is the same in whatever order they come, and so are the bytes of a file that it is
written to. -/
theorem entriesOf_canonical (directory : Path) (hperm : ds.Perm ds')
    (hidentifier : ∀ d ∈ ds, d.suppressible = true → d.identifier ≠ some "")
    (htemplate : ∀ d ∈ ds, d.suppressible = true → ∃ p, d.template = some p ∧ p.absolute) :
    ∃ entries, entriesOf directory ds = .ok entries ∧ entriesOf directory ds' = .ok entries ∧
      IsBaseline directory ds entries ∧
      ∀ p t t', (dump p entries).run.run t = (.ok (), t') →
        t'.readBytes p = .ok (Document.mk currentVersion entries).text.toUTF8 := by
  have hlocated := isSome_template htemplate
  refine ⟨_, entriesOf_eq hlocated, ?_, isBaseline_countAlike hidentifier htemplate, fun p t t' => readBytes_of_dump⟩
  rw [entriesOf_eq fun d hd => hlocated d (hperm.mem_iff.2 hd)]
  exact congrArg Except.ok (countAlike_perm ((hperm.filter _).map _) (identifier_look hidentifier)).symm

/-- One of three diagnostics of a page has an identifier. Wherever it stands among them, the other two are one entry. -/
theorem entriesOf_canonical_page :
    let coded : Diagnostic := { pageDiagnostic with identifier := some "attr-defined" }
    ∃ entries, entriesOf ⟨true, ["ci"]⟩ [pageDiagnostic, coded, pageDiagnostic] = .ok entries ∧
      entriesOf ⟨true, ["ci"]⟩ [coded, pageDiagnostic, pageDiagnostic] = .ok entries ∧
      ⟨"Unknown name", none, "../page.html", 2⟩ ∈ entries := by
  intro coded
  have hboth : ∀ d ∈ [pageDiagnostic, coded, pageDiagnostic], d.identifier ≠ some "" ∧
      d.template = some ⟨true, ["page.html"]⟩ := by
    simp [coded, pageDiagnostic, Diagnostic.template]
  obtain ⟨entries, hentries, hentries', hbaseline, -⟩ := entriesOf_canonical ⟨true, ["ci"]⟩
    (List.Perm.swap coded pageDiagnostic [pageDiagnostic]) (fun d hd _ => (hboth d hd).1)
    (fun d hd _ => ⟨_, (hboth d hd).2, rfl⟩)
  refine ⟨entries, hentries, hentries', (hbaseline.counted _).2 ⟨by decide, ?_⟩⟩
  decide +kernel

/-! ### Names of templates -/

/-- Holds of the diagnostics of a template that an entry with its name counts. -/
def Entry.counts (p : Path) (e : Entry) (d : Diagnostic) : Bool :=
  d.suppressible && (d.message == e.message && d.identifier == e.identifier && d.template == some p)

theorem Entry.counts_iff :
    e.counts p d = true ↔
      d.suppressible = true ∧ d.message = e.message ∧ d.identifier = e.identifier ∧ d.template = some p := by
  simp [counts, and_assoc]

/-- An entry with the name of a template stands for diagnostics of this template alone. -/
theorem standsFor_eq_counts (hdir : directory.absolute) (hp : p.IsNormal)
    (hname : e.template = (p.relativeTo directory).text)
    (hd : d.suppressible = true → ∃ q, d.template = some q ∧ q.IsNormal) :
    e.standsFor directory d = e.counts p d := by
  cases hs : d.suppressible with
  | false => simp [Entry.standsFor, Entry.counts, hs]
  | true =>
    obtain ⟨q, hq, hnormal⟩ := hd hs
    have hplace : (q.relativeTo directory).text = (p.relativeTo directory).text ↔ q = p :=
      hnormal.relativeTo_text_inj hp hdir
    rw [Bool.eq_iff_iff, Entry.standsFor_iff hs hq, Entry.counts_iff, hname, hplace, hq, Option.some.injEq]
    exact (and_iff_right hs).symm

/-- Joined to the directory it is seen from, a path is itself again. So paths are told apart by how they are seen from
a directory, and an entry of a baseline counts the diagnostics of the one template that has its name. -/
theorem relativeTo_inverts (directory : Path) (hdir : directory.absolute) :
    (∀ p : Path, p.IsNormal → Path.ofString p.text = p ∧
      (Path.ofString (p.relativeTo directory).text).absolute = false ∧
      (directory.join (Path.ofString (p.relativeTo directory).text)).normalized = p) ∧
    (∀ p q : Path, p.IsNormal → q.IsNormal → ((p.relativeTo directory).text = (q.relativeTo directory).text ↔ p = q)) ∧
    ∀ ds : List Diagnostic, (∀ d ∈ ds, d.suppressible = true → ∃ p, d.template = some p ∧ p.IsNormal) →
      ∃ entries, entriesOf directory ds = .ok entries ∧ ∀ e, e ∈ entries ↔ 0 < e.count ∧
        ∃ p : Path, p.IsNormal ∧ e.template = (p.relativeTo directory).text ∧ e.count = ds.countP (e.counts p) := by
  refine ⟨fun p hp => ⟨hp.ofString_text, ?_, hp.normalized_join hdir⟩,
    fun p q hp hq => hp.relativeTo_text_inj hq hdir, fun ds hds => ?_⟩
  · rw [Path.ofString_relativeTo hp.proper]
    rfl
  have hlocated : ∀ d ∈ ds, d.suppressible = true → d.template.isSome := fun d hd hs => by
    obtain ⟨p, hp, -⟩ := hds d hd hs
    simp [hp]
  have hcount : ∀ (e : Entry) (p : Path), p.IsNormal → e.template = (p.relativeTo directory).text →
      ds.countP (e.standsFor directory) = ds.countP (e.counts p) := fun e p hp hname =>
    List.countP_congr fun d hd => by rw [standsFor_eq_counts hdir hp hname (hds d hd)]
  refine ⟨_, entriesOf_eq hlocated, fun e => ?_⟩
  rw [mem_countAlike_iff, count_look hlocated]
  refine and_congr_right fun hpos => ⟨fun he => ?_, ?_⟩
  · obtain ⟨d, hd, hstands⟩ := List.countP_pos_iff.1 (he ▸ hpos)
    have hs : d.suppressible = true := Bool.and_elim_left hstands
    obtain ⟨p, hp, hnormal⟩ := hds d hd hs
    have hname := ((Entry.standsFor_iff hs hp).1 hstands).2.2.symm
    exact ⟨p, hnormal, hname, he.trans (hcount e p hnormal hname)⟩
  · rintro ⟨p, hp, hname, he⟩
    exact he.trans (hcount e p hp hname).symm

/-- Two pages of one name, one of them in the directory of the baseline, have an entry each. -/
theorem relativeTo_inverts_pages :
    let inside : Diagnostic := { pageDiagnostic with chain := some (.single ⟨⟨true, ["ci", "page.html"]⟩, some 1⟩) }
    ((⟨true, ["ci"]⟩ : Path).join (Path.ofString "../page.html")).normalized = ⟨true, ["page.html"]⟩ ∧
      ((⟨true, ["ci"]⟩ : Path).join (Path.ofString "page.html")).normalized = ⟨true, ["ci", "page.html"]⟩ ∧
      ∃ entries, entriesOf ⟨true, ["ci"]⟩ [pageDiagnostic, inside, pageDiagnostic] = .ok entries ∧
        ⟨"Unknown name", none, "../page.html", 2⟩ ∈ entries ∧ ⟨"Unknown name", none, "page.html", 1⟩ ∈ entries := by
  intro inside
  have hpage : (⟨true, ["page.html"]⟩ : Path).IsNormal :=
    ⟨rfl, by simp [Path.Proper, Path.IsPart], by decide⟩
  have hinside : (⟨true, ["ci", "page.html"]⟩ : Path).IsNormal :=
    ⟨rfl, by simp [Path.Proper, Path.IsPart], by decide⟩
  have hname : (Path.relativeTo ⟨true, ["page.html"]⟩ ⟨true, ["ci"]⟩).text = "../page.html" := by decide
  have hname' : (Path.relativeTo ⟨true, ["ci", "page.html"]⟩ ⟨true, ["ci"]⟩).text = "page.html" := by decide
  obtain ⟨hinverts, -, hentries⟩ := relativeTo_inverts ⟨true, ["ci"]⟩ rfl
  obtain ⟨entries, heq, hmem⟩ := hentries [pageDiagnostic, inside, pageDiagnostic] (by
    simp only [List.mem_cons, List.not_mem_nil, or_false]
    rintro d (rfl | rfl | rfl) -
    · exact ⟨_, rfl, hpage⟩
    · exact ⟨_, rfl, hinside⟩
    · exact ⟨_, rfl, hpage⟩)
  refine ⟨hname ▸ (hinverts _ hpage).2.2, hname' ▸ (hinverts _ hinside).2.2, entries, heq, ?_, ?_⟩
  · exact (hmem _).2 ⟨by decide, _, hpage, hname.symm, by decide⟩
  · exact (hmem _).2 ⟨by decide, _, hinside, hname'.symm, by decide⟩

end Stencil.Baseline
