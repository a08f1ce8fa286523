import Mathlib.Data.List.Infix
import Mathlib.Tactic.Common
import Stencil.Checker.Mypy
import Stencil.Proofs.Lists

/-!
What runs of mypy mean: how they are told to have failed, after which nothing else is read of them, and what their
messages find. A message that is no note is a finding, and the notes behind it that are about its line are its tip.
-/
namespace Stencil.Checker
open Diagnosis

/-! ### Failure -/

section Failure

variable {o : Outcome}

/-- A run has no errors of its own if and only if the program ended with a status below two. That takes in
the negative ones of programs that a signal ended. -/
theorem Outcome.read_errors_eq_nil_iff (o : Outcome) :
    o.read.2 = [] ↔ ∃ output errors status, o = .ended output errors status ∧ status < 2 := by
  cases o with
  | notStarted why => simp [read]
  | ended output errors status =>
    rw [read]
    dsimp only
    split
    · next h => exact iff_of_true rfl ⟨output, errors, status, rfl, h⟩
    · next h =>
      refine iff_of_false ?_ ?_
      · split
        · simp
        · next hsaid => exact hsaid
      · rintro ⟨_, _, _, heq, hstatus⟩
        cases heq
        exact h hstatus

namespace Mypy

variable (m : Mypy) (t : Files.Tree)

theorem collection_of_errors (h : o.read.2 ≠ []) : m.collection t o = .ok (⟨[], [], o.read.2⟩, []) := by
  have hfailed : (!o.read.2.isEmpty) = true := by simpa using h
  simp only [collection, hfailed, if_true]
  rfl

theorem analysis_of_errors (h : o.read.2 ≠ []) : m.analysis t o = .ok ⟨[], o.read.2⟩ := by
  have hfailed : (!o.read.2.isEmpty) = true := by simpa using h
  simp only [analysis, hfailed, if_true]
  rfl

end Mypy

end Failure

/-! ### Tips -/

/-- Remarks as one tip, each on a line of its own. -/
def tipOf : List String → Option String
  | [] => none
  | r :: rs => some ("\n".intercalate (r :: rs))

theorem tipOf_eq_none {rs : List String} : tipOf rs = none ↔ rs = [] := by
  cases rs <;> simp [tipOf]

theorem tipOf_toList (tip : Option String) : tipOf tip.toList = tip := by
  cases tip <;> simp [tipOf]

/-- Remarks can be added to a tip later. -/
theorem tipOf_append (rs ss : List String) : tipOf ((tipOf rs).toList ++ ss) = tipOf (rs ++ ss) := by
  cases rs with
  | nil => rfl
  | cons r rs =>
    refine congrArg some ?_
    change "\n".intercalate ("\n".intercalate (r :: rs) :: ss) = "\n".intercalate (r :: rs ++ ss)
    by_cases hss : ss = []
    · simp [hss]
    · rw [String.intercalate_cons_of_ne_nil hss, String.intercalate_append_of_ne_nil (by simp) hss]

/-- A finding with remarks added to its tip. -/
def remark (f : Finding) (rs : List String) : Finding := { f with tip := tipOf (f.tip.toList ++ rs) }

@[simp] theorem remark_nil (f : Finding) : remark f [] = f := by
  rw [remark, List.append_nil, tipOf_toList]

@[simp] theorem remark_remark (f : Finding) (rs ss : List String) : remark (remark f rs) ss = remark f (rs ++ ss) := by
  simp only [remark, tipOf_append, List.append_assoc]

/-! ### Notes -/

variable {e n : Path × Message} {ms before after : List (Path × Message)} {done : List Finding} {f : Finding}

/-- The texts of the notes about a line that come before the next message of another kind. -/
def notesAbout (file : Path) (line : Int) (rest : List (Path × Message)) : List String :=
  ((rest.takeWhile (·.2.isNote)).filter fun e => e.1 = file ∧ e.2.line = line).map (·.2.text)

theorem notesAbout_of_note (hnote : e.2.isNote) (file : Path) (line : Int) (rest : List (Path × Message)) :
    notesAbout file line (e :: rest) =
      (if e.1 = file ∧ e.2.line = line then [e.2.text] else []) ++ notesAbout file line rest := by
  rw [notesAbout, List.takeWhile_cons_of_pos (p := fun e : Path × Message => e.2.isNote) hnote, List.filter_cons]
  by_cases habout : e.1 = file ∧ e.2.line = line <;> simp [habout, notesAbout]

theorem notesAbout_of_other (hother : ¬ e.2.isNote) (file : Path) (line : Int) (rest : List (Path × Message)) :
    notesAbout file line (e :: rest) = [] := by
  rw [notesAbout, List.takeWhile_cons_of_neg (p := fun e : Path × Message => e.2.isNote) hother]
  rfl

/-- The finding of the message that a list begins with, if that is no note. -/
def findingAt : List (Path × Message) → Option Finding
  | [] => none
  | (file, m) :: rest =>
    if m.isNote then none
    else some ⟨file, m.line, m.text, m.code, tipOf (m.hint.toList ++ notesAbout file m.line rest), true⟩

/-- Findings, the newest first, of which the newest takes the notes that come. -/
def attach (done : List Finding) (rest : List (Path × Message)) : List Finding :=
  match done with
  | [] => []
  | f :: fs => remark f (notesAbout f.file f.line rest) :: fs

theorem addMessage_note (hnote : e.2.isNote) (f : Finding) (fs : List Finding) :
    addMessage (f :: fs) e.1 e.2 =
      remark f (if e.1 = f.file ∧ e.2.line = f.line then [e.2.text] else []) :: fs := by
  have htip : some (f.tip.elim e.2.text (· ++ "\n" ++ e.2.text)) = tipOf (f.tip.toList ++ [e.2.text]) := by
    cases f.tip <;> simp [tipOf]
  rw [addMessage, if_pos hnote]
  simp only [htip, eq_comm (a := f.file), eq_comm (a := f.line)]
  split
  · rfl
  · rw [remark_nil]

theorem addMessage_other (hother : ¬ e.2.isNote) (done : List Finding) :
    addMessage done e.1 e.2 = ⟨e.1, e.2.line, e.2.text, e.2.code, e.2.hint, true⟩ :: done := if_neg hother

/-- One message goes to the tip of the newest finding or is a finding itself. -/
theorem attach_addMessage (done : List Finding) (e : Path × Message) (ms : List (Path × Message)) :
    attach (addMessage done e.1 e.2) ms = (findingAt (e :: ms)).toList ++ attach done (e :: ms) := by
  by_cases hnote : e.2.isNote
  · have hnone : findingAt (e :: ms) = none := if_pos hnote
    rw [hnone]
    cases done with
    | nil =>
      rw [addMessage, if_pos hnote]
      rfl
    | cons f fs =>
      rw [addMessage_note hnote, attach, remark_remark, attach, notesAbout_of_note hnote]
      rfl
  · have hfinding : findingAt (e :: ms) =
        some ⟨e.1, e.2.line, e.2.text, e.2.code, tipOf (e.2.hint.toList ++ notesAbout e.1 e.2.line ms), true⟩ :=
      if_neg hnote
    have hdone : attach done (e :: ms) = done := by
      cases done with
      | nil => rfl
      | cons f fs => rw [attach, notesAbout_of_other hnote, remark_nil]
    rw [hfinding, hdone, addMessage_other hnote]
    rfl

/-- What becomes of findings, the newest first, when messages come. -/
theorem foldl_addMessage (ms : List (Path × Message)) (done : List Finding) :
    ms.foldl (fun done e => addMessage done e.1 e.2) done =
      (ms.tails.filterMap findingAt).reverse ++ attach done ms := by
  induction ms generalizing done with
  | nil =>
    cases done with
    | nil => rfl
    | cons f fs => exact congrArg (· :: fs) (remark_nil f).symm
  | cons e ms ih =>
    rw [List.foldl_cons, ih, attach_addMessage, ← List.append_assoc]
    congr 1
    cases h : findingAt (e :: ms) <;> simp [h]

theorem findingsOf_eq (ms : List (Path × Message)) : findingsOf ms = ms.tails.filterMap findingAt := by
  rw [findingsOf, foldl_addMessage]
  simp [attach]

/-! ### Notes that belong to nothing -/

/-- Holds of notes that are not about the line of the last message of another kind before them. -/
def Stray (before : List (Path × Message)) (n : Path × Message) : Prop :=
  n.2.isNote ∧ ∀ e ∈ before.reverse.find? (!·.2.isNote), ¬ (e.1 = n.1 ∧ e.2.line = n.2.line)

/-- The newest finding is about the line of the last message that is no note. -/
theorem place_newest (ms : List (Path × Message)) :
    (ms.foldl (fun done e => addMessage done e.1 e.2) []).head?.map (fun f => (f.file, f.line)) =
      (ms.reverse.find? (!·.2.isNote)).map fun e => (e.1, e.2.line) := by
  induction ms using List.reverseRecOn with
  | nil => rfl
  | append_singleton ms e ih =>
    rw [List.foldl_append, List.reverse_append, List.reverse_singleton, List.singleton_append, List.foldl_cons,
      List.foldl_nil]
    by_cases hnote : e.2.isNote
    · rw [List.find?_cons_of_neg (by simpa using hnote), ← ih]
      cases ms.foldl (fun done e => addMessage done e.1 e.2) [] with
      | nil => rw [addMessage, if_pos hnote]
      | cons f fs => rw [addMessage_note hnote]; rfl
    · rw [List.find?_cons_of_pos (by simpa using hnote), addMessage_other hnote]
      rfl

/-- A note that belongs to nothing is as good as none. -/
theorem findingsOf_of_stray (h : Stray before n) :
    findingsOf (before ++ n :: after) = findingsOf (before ++ after) := by
  have hplace := place_newest before
  have hskip : ∀ done, before.foldl (fun done e => addMessage done e.1 e.2) [] = done →
      addMessage done n.1 n.2 = done := by
    rintro done rfl
    cases hdone : before.foldl (fun done e => addMessage done e.1 e.2) [] with
    | nil => rw [addMessage, if_pos h.1]
    | cons f fs =>
      rw [hdone] at hplace
      obtain ⟨e, he, hef⟩ := Option.map_eq_some_iff.1 hplace.symm
      rw [Prod.mk.injEq] at hef
      have hne := h.2 e he
      rw [addMessage_note h.1, if_neg fun hn => hne ⟨hef.1.trans hn.1.symm, hef.2.trans hn.2.symm⟩, remark_nil]
  rw [findingsOf, findingsOf, List.foldl_append, List.foldl_cons, hskip _ rfl, ← List.foldl_append]

/-! ### Files -/

variable {t : Files.Tree} {root : Path} {messages : List Message}

theorem findingsFrom_of_resolved {file : Message → Path}
    (h : ∀ m ∈ messages, resolveFrom t root m.file = .ok (file m)) :
    findingsFrom t root messages = .ok (findingsOf (messages.map fun m => (file m, m))) := by
  rw [findingsFrom, mapM_eq_map (g := fun m => (file m, m)) fun m hm => by rw [h m hm]; rfl]
  rfl

theorem findingsFrom_of_unresolved {m : Message} {e : Files.Tree.Unresolved} (hm : m ∈ messages)
    (he : resolveFrom t root m.file = .error e) : ∃ e, findingsFrom t root messages = .error e := by
  have hspec := mapM_spec (fun m : Message => do return (← resolveFrom t root m.file, m)) messages
  rw [findingsFrom]
  cases hlocated : messages.mapM fun m : Message => do return (← resolveFrom t root m.file, m) with
  | error e' => exact ⟨e', rfl⟩
  | ok located =>
    rw [hlocated] at hspec
    obtain ⟨l, -, hl⟩ := exists_of_each hspec.flip hm
    change (do return (← resolveFrom t root m.file, m)) = Except.ok l at hl
    rw [he] at hl
    cases hl

theorem tip_findingAt {rest : List (Path × Message)} (h : findingAt (e :: rest) = some f) :
    f.tip = none ↔ e.2.hint = none ∧ notesAbout e.1 e.2.line rest = [] := by
  rw [findingAt] at h
  split at h
  · cases h
  · cases h
    rw [tipOf_eq_none, List.append_eq_nil_iff, Option.toList_eq_nil_iff]

/-- If the files of all messages are known, every message that is no note is a finding, in order: its tip are its hint
and the notes behind it that are about its line, and there is none if there are none of these. Other notes are as good
as none. If a file is not known, also one of such a note, nothing is found. -/
theorem findingsFrom_notes (t : Files.Tree) (root : Path) (messages : List Message) :
    (∀ file : Message → Path, (∀ m ∈ messages, resolveFrom t root m.file = .ok (file m)) →
      findingsFrom t root messages = .ok ((messages.map fun m => (file m, m)).tails.filterMap findingAt) ∧
      (∀ e rest f, findingAt (e :: rest) = some f →
        (f.tip = none ↔ e.2.hint = none ∧ notesAbout e.1 e.2.line rest = [])) ∧
      ∀ before n after, messages = before ++ n :: after → Stray (before.map fun m => (file m, m)) (file n, n) →
        findingsFrom t root (before ++ after) = findingsFrom t root messages) ∧
    ∀ m ∈ messages, ∀ e, resolveFrom t root m.file = .error e → ∃ e, findingsFrom t root messages = .error e := by
  refine ⟨fun file hfile => ⟨?_, fun e rest f => tip_findingAt, ?_⟩, fun m hm e => findingsFrom_of_unresolved hm⟩
  · rw [findingsFrom_of_resolved hfile, findingsOf_eq]
  · rintro before n after rfl hstray
    have hrest : ∀ m ∈ before ++ after, resolveFrom t root m.file = .ok (file m) := fun m hm =>
      hfile m (by rw [List.mem_append] at hm; simp; tauto)
    rw [findingsFrom_of_resolved hfile, findingsFrom_of_resolved hrest, List.map_append, List.map_append, List.map_cons,
      findingsOf_of_stray hstray]

/-- Messages of which the second is about the line of the first, and the third about another file. -/
def remarked : List Message :=
  [⟨"unit.py", 12, none, "Boom", none, some "misc", "error"⟩, ⟨"./unit.py", 12, none, "Look here", none, none, "note"⟩,
    ⟨"loop.py", 12, none, "Or there", none, none, "note"⟩]

/-- The note about the line of the finding is its tip, the one about another file is nothing. -/
theorem findingsFrom_notes_remarked : findingsFrom ⟨[]⟩ ⟨true, ["site"]⟩ remarked =
    .ok [⟨⟨true, ["site", "unit.py"]⟩, 12, "Boom", some "misc", some "Look here", true⟩] := by
  let file (m : Message) : Path := ⟨true, "site" :: (Path.ofString m.file).parts⟩
  have hfile : ∀ m ∈ remarked, resolveFrom ⟨[]⟩ ⟨true, ["site"]⟩ m.file = .ok (file m) := by
    simp only [remarked, List.forall_mem_cons]
    exact ⟨rfl, rfl, rfl, by simp⟩
  rw [((findingsFrom_notes ⟨[]⟩ ⟨true, ["site"]⟩ remarked).1 file hfile).1]
  rfl

/-- Nothing is found if a note is about a link to itself, though it belongs to no finding. -/
theorem not_findingsFrom_linkLoop :
    let t : Files.Tree := ⟨[(["site"], .dir), (["site", "loop.py"], .link ⟨false, ["loop.py"]⟩)]⟩
    ∀ findings, findingsFrom t ⟨true, ["site"]⟩ remarked ≠ .ok findings := by
  intro t findings h
  have hloop : findingsFrom t ⟨true, ["site"]⟩ remarked = .error (.loop ⟨true, ["site", "loop.py"]⟩) := rfl
  rw [hloop] at h
  cases h

end Stencil.Checker
