import Stencil.Compile.Unit
import Stencil.Dependency.Graph
import Stencil.Template.Reference

/-! The templates that some templates lead to. -/
namespace Stencil.Dependency
open Template

/-- What is wrong with a template or one of its references; the search goes on without it. -/
inductive Warning
  | malformed (template : Path) (e : SyntaxError)
  | unreadable (template : Path) (failure : Files.Failure)
  | dynamic (template : Path) (line : Line) (kind : ReferenceKind)
  | unresolved (template : Path) (line : Line) (miss : Unresolved)

def Warning.message : Warning → String
  | malformed t e => s!"{t}:{e.line}: {e.fault.message}"
  | unreadable t f => s!"{t}: {f.message}"
  | dynamic t l k =>
    s!"{t}:{Location.lineText l}: dynamic {k.text} target cannot be resolved statically"
  | unresolved t l u => s!"{t}:{Location.lineText l}: {u.message}"

/-- A file that stops the search. -/
inductive Halt
  | undecodable
  | numeral (e : NumeralError)

/-- A graph of templates and what was noticed on the way. The library knows the names by then. -/
structure Discovery where
  graph : Graph Path
  warnings : List Warning
  library : Library
  queue : List Path

namespace Discovery

variable (dialect : Dialect) (t : Files.Tree)

def warn (w : Warning) (d : Discovery) : Discovery := { d with warnings := d.warnings ++ [w] }

/-- Follows one name that a template refers to. -/
def followName (template : Path) (r : Reference) (d : Discovery) (name : Text.Points) :
    Except Halt Discovery :=
  let found := d.library.find t name
  let d := { d with library := d.library.learn name found }
  match found with
  | .error .undecodable => .error .undecodable
  | .error (.unresolved u) =>
    .ok (if r.ignoreMissing then d else d.warn (.unresolved template r.line u))
  | .ok target =>
    .ok { d with
      graph := d.graph.addEdge template target
      queue := if d.graph.hasNode target then d.queue else d.queue ++ [target] }

def followReference (template : Path) (d : Discovery) (r : Reference) : Except Halt Discovery :=
  match r.names with
  | none => .ok (d.warn (.dynamic template r.line r.kind))
  | some names => names.foldlM (followName t template r) d

/-- Follows the references of one template. -/
def followTemplate (template : Path) (d : Discovery) : Except Halt Discovery :=
  match Compile.parseFile dialect t template with
  | .ok document => document.references.foldlM (followReference t template) d
  | .error (.malformed e) => .ok (d.warn (.malformed template e))
  | .error (.file f) => .ok (d.warn (.unreadable template f))
  | .error .undecodable => .error .undecodable
  | .error (.numeral e) => .error (.numeral e)

/-! ### The end of the search

Every name that is ever looked up stands in one of the tree's files, so only finitely many templates
can be added to the queue.
-/

/-- The names that an entry refers to templates by, if it is a template. -/
def namesIn : Files.Entry → TemplateNames
  | .file bytes =>
    match Files.decodeText bytes with
    | .ok source =>
      match Document.parse dialect source with
      | .ok document => document.names
      | .error _ => []
    | .error _ => []
  | _ => []

/-- The names that the files of a tree refer to templates by. -/
def namesOf : TemplateNames := t.entries.flatMap fun e => namesIn dialect e.2

/-- Holds of names that lead to a template outside the graph. -/
def isNew (d : Discovery) (name : Text.Points) : Bool :=
  match d.library.find t name with
  | .ok target => !d.graph.hasNode target
  | .error _ => false

/-- How many templates are or may still come into the queue. -/
def ahead (d : Discovery) : Nat := (namesOf dialect t).countP (d.isNew t) + d.queue.length

variable {dialect t} {d d' : Discovery} {template : Path} {r : Reference} {name : Text.Points}
  {document : Document} {k : Nat}

theorem mem_namesOf (h : Compile.parseFile dialect t template = .ok document)
    (hn : name ∈ document.names) : name ∈ namesOf dialect t := by
  unfold Compile.parseFile Files.Tree.readText Files.Tree.readBytes Files.Tree.read at h
  cases hfollow : t.follow template.parts with
  | error e => simp [hfollow] at h
  | ok q =>
    cases hentry : t.entry? q with
    | none => simp [hfollow, hentry] at h
    | some entry =>
      cases entry with
      | link target => simp [hfollow, hentry] at h
      | dir => simp [hfollow, hentry] at h
      | file bytes =>
        cases hdecode : Files.decodeText bytes with
        | error e => cases e <;> simp [hfollow, hentry, hdecode] at h
        | ok source =>
          have hparse : Document.parse dialect source = .ok document := by
            simp only [hfollow, hentry, hdecode] at h
            split at h <;> simp_all
          have hmem : (q, Files.Entry.file bytes) ∈ t.entries := by
            unfold Files.Tree.entry? at hentry
            split at hentry
            · cases hentry
            · obtain ⟨before, behind, hsplit, -⟩ := List.lookup_eq_some_iff.1 hentry
              simp [hsplit]
          refine List.mem_flatMap.2 ⟨_, hmem, ?_⟩
          simpa [namesIn, hdecode, hparse] using hn

/-- A list worked off in steps that keep a property. -/
theorem foldlM_keeps {σ α ε : Type} {f : σ → α → Except ε σ} {p : σ → Prop} {l : List α} {s s' : σ}
    (hstep : ∀ s a s', a ∈ l → p s → f s a = .ok s' → p s') (hs : p s)
    (h : l.foldlM f s = .ok s') : p s' := by
  induction l generalizing s with
  | nil =>
    cases h
    exact hs
  | cons a l ih =>
    rw [List.foldlM_cons] at h
    cases ha : f s a with
    | error e =>
      rw [ha] at h
      cases h
    | ok s₁ =>
      rw [ha] at h
      exact ih (fun s b s' hb => hstep s b s' (List.mem_cons_of_mem a hb))
        (hstep s a s₁ List.mem_cons_self hs ha) h

theorem countP_lt {α : Type} {p q : α → Bool} {l : List α} {a : α} (ha : a ∈ l) (hp : p a)
    (hq : q a = false) (himp : ∀ b ∈ l, q b → p b) : l.countP q < l.countP p := by
  obtain ⟨before, behind, rfl⟩ := List.append_of_mem ha
  have hbefore := List.countP_mono_left (l := before) (p := q) (q := p) fun b hb =>
    himp b (List.mem_append_left _ hb)
  have hbehind := List.countP_mono_left (l := behind) (p := q) (q := p) fun b hb =>
    himp b (List.mem_append_right _ (List.mem_cons_of_mem a hb))
  simp only [List.countP_append, List.countP_cons, hp, hq]
  simp
  omega

/-- A name is followed to a template outside the graph at most once. -/
theorem followName_ahead (hn : name ∈ namesOf dialect t)
    (h : followName t template r d name = .ok d') : d'.ahead dialect t ≤ d.ahead dialect t := by
  unfold followName at h
  cases hfound : d.library.find t name with
  | error e =>
    cases e with
    | undecodable => simp [hfound] at h
    | unresolved u =>
      simp only [hfound, Library.learn, Except.ok.injEq] at h
      subst h
      split <;> exact Nat.le_refl _
  | ok target =>
    simp only [hfound, Except.ok.injEq] at h
    have hfind := d.library.find_learn t name
    rw [hfound] at hfind
    have himp : ∀ n, d'.isNew t n → d.isNew t n := by
      intro n
      subst h
      simp only [isNew, hfind]
      cases d.library.find t n with
      | error e => exact id
      | ok p =>
        simp only [Bool.not_eq_true', ← Bool.not_eq_true, Graph.hasNode_iff, Graph.mem_nodes_addEdge]
        exact fun hnew hp => hnew (.inl hp)
    have hle := List.countP_mono_left (l := namesOf dialect t) fun n _ => himp n
    unfold ahead
    by_cases hknown : d.graph.hasNode target
    · have hqueue : d'.queue = d.queue := by
        subst h
        simp [hknown]
      rw [hqueue]
      exact Nat.add_le_add_right hle _
    · have hqueue : d'.queue = d.queue ++ [target] := by
        subst h
        simp [hknown]
      have hold : d.isNew t name := by
        simp only [isNew, hfound, Bool.not_eq_true']
        exact Bool.eq_false_iff.2 hknown
      have hnew : d'.isNew t name = false := by
        subst h
        simp [isNew, hfind, hfound, Graph.mem_nodes_addEdge]
      have hlt := countP_lt hn hold hnew fun n _ => himp n
      rw [hqueue, List.length_append, List.length_singleton]
      omega

theorem followTemplate_ahead (h : followTemplate dialect t template d = .ok d') :
    d'.ahead dialect t ≤ d.ahead dialect t := by
  unfold followTemplate at h
  cases hparse : Compile.parseFile dialect t template with
  | error e =>
    cases e <;> simp only [hparse, Except.ok.injEq, reduceCtorEq] at h
    all_goals exact h ▸ Nat.le_refl _
  | ok document =>
    simp only [hparse] at h
    refine foldlM_keeps (p := fun s => s.ahead dialect t ≤ d.ahead dialect t) ?_ (Nat.le_refl _) h
    intro s r s' hr hs hstep
    unfold followReference at hstep
    cases hnames : r.names with
    | none =>
      simp only [hnames, Except.ok.injEq] at hstep
      exact hstep ▸ hs
    | some names =>
      simp only [hnames] at hstep
      refine foldlM_keeps (p := fun s => s.ahead dialect t ≤ d.ahead dialect t) ?_ hs hstep
      intro s n s' hn hs hname
      have hdocument : n ∈ document.names :=
        List.mem_flatMap.2 ⟨r, hr, by simpa [hnames] using hn⟩
      exact Nat.le_trans (followName_ahead (mem_namesOf hparse hdocument) hname) hs

variable (dialect t)

/-- Follows the templates of the queue. -/
def run (d : Discovery) : Except Halt Discovery :=
  match _hq : d.queue with
  | [] => .ok d
  | template :: queue =>
    match _hd : followTemplate dialect t template { d with queue } with
    | .error e => .error e
    | .ok d' => run d'
termination_by d.ahead dialect t
decreasing_by
  have := followTemplate_ahead _hd
  simp only [ahead, _hq, List.length_cons] at this ⊢
  exact Nat.lt_of_le_of_lt this (Nat.lt_succ_self _)

variable {dialect t}

theorem run_nil (h : d.queue = []) : d.run dialect t = .ok d := by
  rw [run]
  split <;> simp_all

theorem run_cons {queue : List Path} (h : d.queue = template :: queue) :
    d.run dialect t = followTemplate dialect t template { d with queue } >>= run dialect t := by
  rw [run]
  split
  · simp_all
  · next hqueue =>
    obtain ⟨rfl, rfl⟩ := List.cons.inj (hqueue.symm.trans h)
    split <;> simp_all [bind, Except.bind]

variable (dialect t)

/-- What can be reached from the seed. Besides the seed only files of the tree are templates. -/
def ofSeed (library : Library) (seed : List Path) : Except Halt Discovery :=
  let graph := seed.foldl Graph.addNode Graph.empty
  run dialect t ⟨graph, [], library, graph.nodes⟩

end Discovery

end Stencil.Dependency
