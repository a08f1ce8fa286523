import Stencil.Baseline.File
import Stencil.Proofs.Data.Pretty
import Stencil.Proofs.Lists
import Stencil.Proofs.Files.Resolve

/-!
Baselines that were written. What is read back is what was written, and it accepts the diagnostics
that are like one it was made of, wherever their templates lie.
-/
namespace Stencil.Baseline
open Data

variable {e : Entry} {d : Document}

namespace Entry

/-- Holds of entries that stand for something and whose count can be written. -/
def Sound (e : Entry) : Prop := 1 ≤ e.count ∧ Json.intFits e.count

theorem sorted_identifier (identifier : Option String) :
    (identifier.elim Value.null Value.str).sorted = identifier.elim .null .str := by
  cases identifier <;> rfl

/-- The data of an entry in the order of its keys. -/
theorem sorted_toValue (e : Entry) : e.toValue.sorted = .table [
    ("count", .int e.count), ("identifier", e.identifier.elim .null .str), ("message", .str e.message),
    ("template_path", .str e.template)] := by
  simp [toValue, Value.sorted, Value.sortedEntries, sorted_identifier, List.mergeSort]

theorem plain_toValue (h : e.Sound) : e.toValue.Plain .toFloat := by
  have hidentifier : (e.identifier.elim Value.null Value.str).Plain .toFloat := by
    cases e.identifier <;> exact trivial
  exact ⟨by simp, trivial, hidentifier, trivial, .inr h.2, trivial⟩

theorem asNullable_identifier (identifier : Option String) :
    Value.asNullable Value.asString (identifier.elim .null .str) = .ok identifier := by
  cases identifier <;> rfl

theorem check_sorted (h : e.Sound) : check e.toValue.sorted = .ok e := by
  have hcount : Value.asIntAtLeast 1 (.int e.count) = .ok (e.count : Int) := by
    have hif : Value.asIntAtLeast 1 (.int e.count) =
        if (1 : Int) ≤ e.count then .ok (e.count : Int) else .fail .greaterThanEqual := rfl
    rw [hif, if_pos (by exact_mod_cast h.1)]
  rw [sorted_toValue, check]
  simp [Fields.required, Fields.optional, Fields.closed, fields, List.lookup_cons, hcount, asNullable_identifier,
    Value.asString, Checked.both, Checked.under, Except.mapError]

end Entry

namespace Document

/-- Holds of documents that can be written. -/
def Sound (d : Document) : Prop := Json.intFits d.version ∧ ∀ e ∈ d.entries, e.Sound

/-- The data of a document in the order of its keys. -/
theorem sorted_toValue (d : Document) : d.toValue.sorted = .table [
    ("errors", .list (d.entries.map fun e => e.toValue.sorted)), ("schema_version", .int d.version)] := by
  simp [toValue, Value.sorted, Value.sortedEntries, Value.sortedItems_eq, List.mergeSort]

theorem plain_toValue (h : d.Sound) : d.toValue.Plain .toFloat := by
  have hentries : ∀ es : List Entry, (∀ e ∈ es, e.Sound) → Value.PlainItems .toFloat (es.map Entry.toValue) := by
    intro es hes
    induction es with
    | nil => exact trivial
    | cons e es ih =>
      obtain ⟨he, hes⟩ := List.forall_mem_cons.1 hes
      exact ⟨Entry.plain_toValue he, ih hes⟩
  exact ⟨by simp, .inr h.1, hentries d.entries h.2, trivial⟩

theorem depth_sorted (d : Document) : d.toValue.sorted.depth ≤ Json.maxDepth := by
  have hentry : ∀ e : Entry, e.toValue.sorted.depth ≤ 2 := by
    intro e
    rw [Entry.sorted_toValue]
    cases e.identifier <;> simp [Value.depth, Value.depthOfEntries]
  have hentries : ∀ es : List Entry, Value.depthOfItems (es.map fun e => e.toValue.sorted) ≤ 2 := by
    intro es
    induction es with
    | nil => simp [Value.depthOfItems]
    | cons e es ih => simpa [Value.depthOfItems] using ⟨hentry e, ih⟩
  have := hentries d.entries
  rw [sorted_toValue]
  simp only [Value.depth, Value.depthOfEntries, Json.maxDepth]
  omega

theorem check_sorted (h : d.Sound) : check d.toValue.sorted = .ok d := by
  have hentries : Checked.items Entry.check 0 (d.entries.map fun e => e.toValue.sorted) = .ok d.entries :=
    Checked.items_map (fun e he => Entry.check_sorted (h.2 e he)) 0
  rw [sorted_toValue, check]
  simp [Fields.optional, Fields.closed, fields, List.lookup_cons, hentries, Value.asInt, Value.asList,
    Checked.both, Checked.under, Except.mapError]

/-- The text of a document holds the document. -/
theorem decode?_text (h : d.Sound) : Json.decode? d.text.toUTF8 = some d.toValue.sorted := by
  have hutf8 : String.fromUTF8? d.text.toUTF8 = some d.text := dif_pos d.text.isValidUTF8
  rw [Json.decode?, hutf8]
  exact Json.parse?_pretty (plain_toValue h) (depth_sorted d) "\n" (by simp [Json.Blanks, Json.isSpace])

end Document

end Stencil.Baseline

namespace Stencil.Files.Tree

/-- A directory at the place that its path names, with no link on the way. -/
structure IsRealDir (t : Tree) (p : Path) : Prop where
  absolute : p.absolute
  followed : t.follow p.parts = .ok p.parts
  dir : t.entry? p.parts = some .dir

/-- A path that is what it resolves to. -/
structure IsResolved (t : Tree) (p : Path) : Prop where
  absolute : p.absolute
  proper : p.Proper
  resolved : t.resolve false p.parts = .ok p.parts

variable {t : Tree} {p : Path} {w : Place} {b : ByteArray}

theorem IsRealDir.isRoute (h : t.IsRealDir p) : t.IsRoute p.parts := walk_route .nil h.followed h.dir

/-- What is put where a path leads is read through the path. -/
theorem readBytes_set (hw : t.writePlace p.parts = .ok w) : (t.set w (.file b)).readBytes p = .ok b := by
  have hread : (t.set w (.file b)).read p.parts = .ok b := by
    rw [Tree.read, follow_set hw]
    dsimp only
    rw [entry?_set_self (free_of_walkNew hw).1]
  rw [readBytes, hread]

end Stencil.Files.Tree

namespace Stencil.Diagnosis

/-- What a baseline knows a diagnostic by. -/
def Diagnostic.signature? (d : Diagnostic) : Option Baseline.Signature :=
  d.template.map fun p => ⟨d.message, d.identifier, p⟩

end Stencil.Diagnosis

namespace Stencil.Baseline
open Data Diagnosis Files

variable {t t' : Tree} {p q directory : Path} {d x : Diagnostic} {ds : List Diagnostic} {ls : List Likeness}
  {e : Entry} {entries : List Entry} {w : Place} {b : ByteArray}

/-! ### Entries -/

theorem mem_countAlike : e ∈ countAlike ls ↔ ∃ l ∈ ls, e = ⟨l.1, l.2.1, l.2.2, ls.count l⟩ := by
  rw [countAlike, (List.mergeSort_perm _ _).mem_iff, List.mem_map]
  simp only [List.mem_eraseDups, eq_comm]

/-- What is counted can be written. -/
theorem sound_of_mem_countAlike (hlength : ls.length < 2 ^ 64) (he : e ∈ countAlike ls) : e.Sound := by
  obtain ⟨l, hl, rfl⟩ := mem_countAlike.1 he
  refine ⟨List.count_pos_iff.2 hl, ?_⟩
  have hcount : ls.count l ≤ ls.length := List.count_le_length
  have hpow : Decimal.powerOfTwo 64 = 2 ^ 64 := rfl
  simp only [Json.intFits, hpow, Bool.and_eq_true, decide_eq_true_eq]
  omega

/-! ### Signatures -/

/-- The way to a template leads back to it. -/
theorem resolve_relativeTo (hdir : t.IsRealDir directory) (hq : t.IsResolved q) (hw : t.Free w) :
    (t.set w (.file b)).resolve false (directory.join (Path.ofString (q.relativeTo directory).text)).parts =
      .ok q.parts := by
  have hroute := hdir.isRoute
  obtain ⟨common, up, down, hparts, hbase, hway⟩ :=
    Path.relativeTo_spec hq.absolute hdir.absolute (Tree.up_not_mem_of_resolve hq.resolved)
      hroute.up_not_mem
  have hproper : ∀ s ∈ List.replicate up.length ".." ++ down, Path.IsPart s := by
    intro s hs
    obtain hs | hs := List.mem_append.1 hs
    · rw [List.eq_of_mem_replicate hs]
      exact Path.isPart_up
    · exact hq.proper s (by simp [hparts, hs])
  rw [hway, Path.ofString_text hproper, Path.join, if_neg (by simp)]
  have hresolved := hq.resolved
  rw [hparts] at hresolved ⊢
  rw [hbase] at hroute ⊢
  exact Tree.resolve_way hroute hw hresolved

theorem signature_eq (hdir : t.IsRealDir directory) (hw : t.Free w) {l : Likeness}
    (hq : t.IsResolved q) (htemplate : d.template = some q) (hl : likeness directory d = .ok l) (n : Nat) :
    Accepted.signature (t.set w (.file b)) directory ⟨l.1, l.2.1, l.2.2, n⟩ = .ok ⟨d.message, d.identifier, q⟩ := by
  rw [likeness, htemplate] at hl
  cases hl
  rw [Accepted.signature, resolve_relativeTo hdir hq hw, ← hq.absolute]

/-! ### Files -/

/-- What becomes of the tree when a baseline is written. -/
theorem run_dump (p : Path) (entries : List Entry) (t : Tree) :
    (dump p entries).run.run t = match checkSuffix p with
      | .error e => (.error (.invalid e), t)
      | .ok () => match t.makeDirs p.parent.parts with
        | .error e => (.error (.trouble e), t)
        | .ok t =>
          if entries.all fun e => Json.intFits e.count then
            match t.writeText p (Document.mk currentVersion entries).text with
            | .error f => (.error (.trouble f.trouble), t)
            | .ok t => (.ok (), t)
          else (.error .wideCount, t) := by
  unfold dump
  cases checkSuffix p with
  | error e => rfl
  | ok =>
    change (match t.makeDirs p.parent.parts with
      | .error e => _
      | .ok t => _ : ExceptT Unwritten (StateM Tree) Unit).run.run t = _
    cases t.makeDirs p.parent.parts with
    | error e => rfl
    | ok t =>
      dsimp only
      split
      · cases hwrite : t.writeText p (Document.mk currentVersion entries).text <;> rfl
      · rfl

/-- A baseline is written where its path leads, or nothing is. -/
theorem dump_eq (hsuffix : p.suffix = suffix) (hdir : t.IsRealDir p.parent)
    (hsound : ∀ e ∈ entries, e.Sound) :
    (dump p entries).run.run t = match t.writePlace p.parts with
      | .ok w => (.ok (), t.set w (.file (Document.mk currentVersion entries).text.toUTF8))
      | .error e => (.error (.trouble e), t) := by
  have hfits : entries.all (fun e => Json.intFits e.count) = true :=
    List.all_eq_true.2 fun e he => (hsound e he).2
  have hcheck : checkSuffix p = .ok () := if_pos hsuffix
  rw [run_dump, hcheck, Tree.makeDirs_of_route hdir.isRoute]
  dsimp only
  rw [if_pos hfits, Tree.writeText, Tree.write]
  cases t.writePlace p.parts <;> rfl

theorem load_set (hsuffix : p.suffix = suffix) (hw : t.writePlace p.parts = .ok w)
    (hsound : ∀ e ∈ entries, e.Sound) :
    load (t.set w (.file (Document.mk currentVersion entries).text.toUTF8)) p = .ok ⟨currentVersion, entries⟩ := by
  obtain ⟨d, hd⟩ : ∃ d, d = Document.mk currentVersion entries := ⟨_, rfl⟩
  have hd' : d.Sound := hd ▸ ⟨(by decide : Json.intFits currentVersion), hsound⟩
  have hbytes : (t.set w (.file d.text.toUTF8)).readBytes p = .ok d.text.toUTF8 := Tree.readBytes_set hw
  have hcheck : checkSuffix p = .ok () := if_pos hsuffix
  simp only [← hd, load, hcheck, hbytes, Except.mapError, Document.decode?_text hd', Document.check_sorted hd', bind, Except.bind]

/-! ### What a file accepts -/

/-- The signatures of the entries are those of the diagnostics that were counted. -/
theorem mapM_signature (hdir : t.IsRealDir directory) (hw : t.Free w)
    (hresolved : ∀ d ∈ ds, ∃ q, d.template = some q ∧ t.IsResolved q)
    (hls : List.Forall₂ (fun d l => likeness directory d = .ok l) ds ls) :
    ∃ ss, (countAlike ls).mapM (Accepted.signature (t.set w (.file b)) directory) = .ok ss ∧
      ∀ s, s ∈ ss ↔ ∃ d ∈ ds, d.signature? = some s := by
  have hentry : ∀ d ∈ ds, ∀ l, likeness directory d = .ok l → ∃ s, d.signature? = some s ∧ ∀ n,
      Accepted.signature (t.set w (.file b)) directory ⟨l.1, l.2.1, l.2.2, n⟩ = .ok s := by
    intro d hd l hl
    obtain ⟨q, htemplate, hq⟩ := hresolved d hd
    exact ⟨_, by rw [Diagnostic.signature?, htemplate, Option.map_some], signature_eq hdir hw hq htemplate hl⟩
  obtain ⟨ss, hss, heach⟩ : ∃ ss, (countAlike ls).mapM (Accepted.signature (t.set w (.file b)) directory) = .ok ss ∧
      List.Forall₂ (fun e s => Accepted.signature (t.set w (.file b)) directory e = .ok s) (countAlike ls) ss := by
    refine exists_mapM fun e he => ?_
    obtain ⟨l, hl, rfl⟩ := mem_countAlike.1 he
    obtain ⟨d, hd, hdl⟩ := (mem_iff_of_each hls).1 hl
    obtain ⟨s, -, hs⟩ := hentry d hd l hdl
    exact ⟨s, hs _⟩
  refine ⟨ss, hss, fun s => (mem_iff_of_each heach).trans ⟨?_, ?_⟩⟩
  · rintro ⟨e, he, hs⟩
    obtain ⟨l, hl, rfl⟩ := mem_countAlike.1 he
    obtain ⟨d, hd, hdl⟩ := (mem_iff_of_each hls).1 hl
    obtain ⟨s', hsig, hs'⟩ := hentry d hd l hdl
    rw [hs', Except.ok.injEq] at hs
    exact ⟨d, hd, hs ▸ hsig⟩
  · rintro ⟨d, hd, hsig⟩
    obtain ⟨l, hdl⟩ : ∃ l, likeness directory d = .ok l := by
      obtain ⟨q, htemplate, -⟩ := hresolved d hd
      exact ⟨_, by rw [likeness, htemplate]⟩
    obtain ⟨s', hsig', hs'⟩ := hentry d hd l hdl
    rw [hsig, Option.some.injEq] at hsig'
    exact ⟨_, mem_countAlike.2 ⟨l, (mem_iff_of_each hls).2 ⟨d, hd, hdl⟩, rfl⟩, hsig' ▸ hs' _⟩

/-- Diagnostics pass unless they can be suppressed and are like one that could be. -/
theorem filter_of_signatures {a : Accepted}
    (ha : ∀ s, s ∈ a.signatures ↔ ∃ d ∈ ds.filter (·.suppressible), d.signature? = some s) (xs : List Diagnostic) :
    a.filter xs = xs.filter fun x => !x.suppressible || x.template.isNone ||
      !ds.any fun d => d.suppressible && d.signature? == x.signature? := by
  refine List.filter_congr fun x _ => ?_
  cases htemplate : x.template with
  | none => simp [Accepted.covers, htemplate]
  | some q =>
    have hsig : x.signature? = some ⟨x.message, x.identifier, q⟩ := by
      rw [Diagnostic.signature?, htemplate, Option.map_some]
    have hcontains : a.signatures.contains ⟨x.message, x.identifier, q⟩ =
        ds.any fun d => d.suppressible && d.signature? == x.signature? := by
      rw [Bool.eq_iff_iff, List.contains_iff_mem, ha, List.any_eq_true]
      simp [hsig, and_assoc]
    rw [Accepted.covers, htemplate, Option.any_some, hcontains]
    simp

/-- A baseline that is written to a real directory holds its entries when it is read back, and lets
pass, in order, what cannot be suppressed, has no template, or differs in message, identifier or template
from all that it was made of. If the file cannot be put where its path leads, nothing is changed. -/
theorem load_dump (t : Tree) (p : Path) (ds : List Diagnostic) (hsuffix : p.suffix = suffix)
    (hdir : t.IsRealDir p.parent)
    (hresolved : ∀ d ∈ ds, d.suppressible = true → ∃ q, d.template = some q ∧ t.IsResolved q)
    (hlength : ds.length < 2 ^ 64) :
    ∃ entries, entriesOf p.parent ds = .ok entries ∧
      (∀ e, t.writePlace p.parts = .error e → (dump p entries).run.run t = (.error (.trouble e), t)) ∧
      ∀ w, t.writePlace p.parts = .ok w → ∃ t', (dump p entries).run.run t = (.ok (), t') ∧
        load t' p = .ok ⟨currentVersion, entries⟩ ∧
        ∃ a, Accepted.ofFile t' p = .ok a ∧ ∀ xs, a.filter xs = xs.filter fun x =>
          !x.suppressible || x.template.isNone ||
            !ds.any fun d => d.suppressible && d.signature? == x.signature? := by
  have hresolved' : ∀ d ∈ ds.filter (·.suppressible), ∃ q, d.template = some q ∧ t.IsResolved q := fun d hd =>
    hresolved d (List.mem_filter.1 hd).1 (List.mem_filter.1 hd).2
  obtain ⟨ls, hls, heach⟩ : ∃ ls, (ds.filter (·.suppressible)).mapM (likeness p.parent) = .ok ls ∧
      List.Forall₂ (fun d l => likeness p.parent d = .ok l) (ds.filter (·.suppressible)) ls := by
    refine exists_mapM fun d hd => ?_
    obtain ⟨q, htemplate, -⟩ := hresolved' d hd
    exact ⟨_, by rw [likeness, htemplate]⟩
  have hshort : ls.length < 2 ^ 64 := by
    have := List.length_filter_le (·.suppressible) ds
    rw [← heach.length_eq]
    omega
  have hsound : ∀ e ∈ countAlike ls, e.Sound := fun e he => sound_of_mem_countAlike hshort he
  refine ⟨countAlike ls, by rw [entriesOf, hls]; rfl, fun e he => ?_, fun w hw => ?_⟩
  · rw [dump_eq hsuffix hdir hsound, he]
  · obtain ⟨ss, hss, hmem⟩ := mapM_signature hdir (Tree.free_of_walkNew hw) hresolved' heach
    have hload := load_set hsuffix hw hsound
    refine ⟨_, by rw [dump_eq hsuffix hdir hsound, hw], hload, ⟨ss.eraseDups⟩, ?_, ?_⟩
    · rw [Accepted.ofFile, hload]
      change Except.bind ((countAlike ls).mapM (Accepted.signature _ p.parent)) _ = _
      rw [hss]
      rfl
    · exact filter_of_signatures fun s => List.mem_eraseDups.trans (hmem s)

/-- A directory beside the templates, and a diagnostic of one of these. -/
def besideTemplates : Tree := ⟨[(["ci"], .dir)]⟩

def pageDiagnostic : Diagnostic :=
  { message := "Unknown name", identifier := none, tip := none, file := none, line := none,
    chain := some (.single ⟨⟨true, ["page.html"]⟩, some 1⟩), renderPoints := [], suppressible := true }

/-- A baseline beside the templates accepts the diagnostic it was made of. -/
theorem load_dump_besideTemplates : ∃ entries t' a,
    entriesOf ⟨true, ["ci"]⟩ [pageDiagnostic] = .ok entries ∧
      (dump ⟨true, ["ci", "b.json"]⟩ entries).run.run besideTemplates = (.ok (), t') ∧
      Accepted.ofFile t' ⟨true, ["ci", "b.json"]⟩ = .ok a ∧ a.filter [pageDiagnostic] = [] := by
  have hresolved : besideTemplates.IsResolved ⟨true, ["page.html"]⟩ := by
    refine ⟨rfl, ?_, ?_⟩
    · simp [Path.Proper, Path.IsPart]
    · rfl
  obtain ⟨entries, hentries, -, hwritten⟩ := load_dump besideTemplates ⟨true, ["ci", "b.json"]⟩ [pageDiagnostic]
    (by decide +kernel) ⟨rfl, rfl, rfl⟩ (by simpa using fun _ => ⟨_, rfl, hresolved⟩) (by simp)
  obtain ⟨t', hdump, -, a, ha, hfilter⟩ := hwritten ["ci", "b.json"] rfl
  refine ⟨entries, t', a, hentries, hdump, ha, ?_⟩
  rw [hfilter]
  simp [pageDiagnostic, Diagnostic.template, Diagnostic.signature?]

/-- Nothing can be read back where a directory has the name of the file. -/
theorem not_load_dump_directory :
    let t : Tree := ⟨[(["b.json"], .dir)]⟩
    let p : Path := ⟨true, ["b.json"]⟩
    p.suffix = suffix ∧ t.IsRealDir p.parent ∧ entriesOf p.parent [] = .ok [] ∧
      ∀ d, load ((dump p []).run.run t).2 p ≠ .ok d := by
  have hsuffix : (⟨true, ["b.json"]⟩ : Path).suffix = suffix := by decide +kernel
  have hdir : (⟨[(["b.json"], .dir)]⟩ : Tree).IsRealDir ⟨true, []⟩ := ⟨rfl, rfl, rfl⟩
  have hnone : countAlike [] = [] := by simp [countAlike]
  refine ⟨hsuffix, hdir, congrArg Except.ok hnone, fun d => ?_⟩
  have hplace : (⟨[(["b.json"], .dir)]⟩ : Tree).writePlace ["b.json"] = .error .isDirectory := rfl
  rw [dump_eq hsuffix hdir (by simp), hplace, load, checkSuffix, if_pos hsuffix]
  exact nofun

end Stencil.Baseline
