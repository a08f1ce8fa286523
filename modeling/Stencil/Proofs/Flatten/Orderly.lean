import Mathlib.Data.List.Chain
import Mathlib.Data.List.Forall2
import Stencil.Flatten.Composite
import Stencil.Proofs.Compile.Buffers

/-!
Lines in order. A block stands below each line that ends with a colon and below no other, what goes on with a
condition stands behind it, and buffers are used behind the line that opens them, in the same function. So lines one
below the other are indented as their blocks are, and no buffer is used where it has not been opened.
-/
namespace Stencil.Flatten
open Code Compile Grouping

variable {α β : Type} {c : Bool} {bs cs : List String} {n : Nat} {l m : CodeLine α} {ls xs ys : List (CodeLine α)}
  {b w : String}

/-! ### Lines by their texts -/

/-- Holds of lines that a block stands below. -/
def opensBlock (code : String) : Bool := code.toList.getLast? == some ':'

/-- The word that a line begins with. -/
def firstWord (code : String) : List Char := code.toList.takeWhile Text.isIdentifierContinue

def isFunction (code : String) : Bool := firstWord code == "def".toList

/-- Holds of lines that others may go on with. -/
def isCondition (code : String) : Bool := firstWord code == "if".toList || firstWord code == "elif".toList

/-- The buffers in reach below a line: a function has none but its own. -/
def inner (code : String) (bs : List String) : List String := if isFunction code then [] else bs

theorem inner_subset (code : String) (bs : List String) : inner code bs ⊆ bs := by
  unfold inner
  split <;> simp

theorem inner_mono {code : String} (h : bs ⊆ cs) : inner code bs ⊆ inner code cs := by
  unfold inner
  split
  · simp
  · exact h

/-! ### Order -/

/-- Lines at depth `n` in order, with the buffers `bs` in reach. With `c` they may begin with what goes on with a
condition. -/
inductive Orderly : Bool → List String → Nat → List (CodeLine α) → Prop
  | nil (c : Bool) (bs : List String) (n : Nat) : Orderly c bs n []
  /-- A line that opens the buffers `os`. -/
  | line {c : Bool} {bs : List String} {n : Nat} {l : CodeLine α} {ls : List (CodeLine α)} (os : List String)
      (indent : l.indent = n) (plain : opensBlock l.code = false ∧ continuesGroup l.code = false)
      (opens : ∀ b ∈ os, isBuffer b ∧ l.code = opened b) (covered : Covered (os ++ bs) l.code) (rest : Orderly false (os ++ bs) n ls) :
      Orderly c bs n (l :: ls)
  | block {c : Bool} {bs : List String} {n : Nat} {l : CodeLine α} {body ls : List (CodeLine α)} (indent : l.indent = n)
      (header : opensBlock l.code) (clause : continuesGroup l.code → c) (covered : Covered (inner l.code bs) l.code)
      (below : Orderly false (inner l.code bs) (n + 1) body) (ne : body ≠ [])
      (rest : Orderly (isCondition l.code) bs n ls) : Orderly c bs n (l :: (body ++ ls))

namespace Orderly

theorem weaken (h : Orderly false bs n ls) (c : Bool) : Orderly c bs n ls := by
  cases h with
  | nil => exact .nil ..
  | line os indent plain opens covered rest => exact .line os indent plain opens covered rest
  | block indent header clause covered below ne rest =>
    exact .block indent header (fun h => absurd (clause h) (by decide)) covered below ne rest

theorem mono (h : Orderly c bs n ls) (hbs : bs ⊆ cs) : Orderly c cs n ls := by
  induction h generalizing cs with
  | nil => exact .nil ..
  | line os indent plain opens covered _ ih =>
    have hall : os ++ _ ⊆ os ++ cs := List.append_subset_of_subset_of_subset (List.subset_append_left ..)
      (List.subset_append_of_subset_right _ hbs)
    exact .line os indent plain opens (covered.mono hall) (ih hall)
  | block indent header clause covered _ ne _ ihbelow ih =>
    exact .block indent header clause (covered.mono (inner_mono hbs)) (ihbelow (inner_mono hbs)) ne (ih hbs)

theorem append (h : Orderly c bs n xs) (h' : Orderly false bs n ys) : Orderly c bs n (xs ++ ys) := by
  induction h with
  | nil => exact h'.weaken _
  | line os indent plain opens covered _ ih =>
    exact .line os indent plain opens covered (ih (h'.mono (List.subset_append_right ..)))
  | block indent header clause covered below ne _ _ ih =>
    rw [List.cons_append, List.append_assoc]
    exact .block indent header clause covered below ne (ih h')

theorem flatten {gs : List (List (CodeLine α))} (h : ∀ g ∈ gs, Orderly false bs n g) : Orderly false bs n gs.flatten := by
  induction gs with
  | nil => exact .nil ..
  | cons g gs ih =>
    obtain ⟨hg, hgs⟩ := List.forall_mem_cons.1 h
    exact hg.append (ih hgs)

/-- No line is less deep. -/
theorem le_indent (h : Orderly c bs n ls) : ∀ l ∈ ls, n ≤ l.indent := by
  induction h with
  | nil => simp
  | line _ indent _ _ _ _ ih => exact List.forall_mem_cons.2 ⟨indent.ge, ih⟩
  | block indent _ _ _ _ _ _ ihbelow ih =>
    refine List.forall_mem_cons.2 ⟨indent.ge, List.forall_mem_append.2 ⟨fun l hl => ?_, ih⟩⟩
    have := ihbelow l hl
    omega

theorem head (h : Orderly c bs n ls) : ∀ l ∈ ls.head?, l.indent = n ∧ (continuesGroup l.code → c) := by
  cases h with
  | nil => simp
  | line _ indent plain => simpa [plain.2] using indent
  | block indent _ clause => simpa using ⟨indent, clause⟩

/-- Of lines of which the first goes on with nothing it does not matter what is in front. -/
theorem restart (h : Orderly c bs n ls) (hls : ∀ l ∈ ls.head?, continuesGroup l.code = false) :
    Orderly false bs n ls := by
  cases h with
  | nil => exact .nil ..
  | line os indent plain opens covered rest => exact .line os indent plain opens covered rest
  | block indent header clause covered below ne rest =>
    exact .block indent header (by simp [hls _ rfl]) covered below ne rest

/-- Lines that others can follow at the same depth, which may use the buffers `cs`. -/
structure Joins (c : Bool) (bs : List String) (n : Nat) (xs : List (CodeLine α)) (cs : List String) : Prop where
  reach : bs ⊆ cs
  opened : ∀ b ∈ cs, b ∈ bs ∨ isBuffer b ∧ ∃ l ∈ xs, l.indent = n ∧ l.code = Compile.opened b
  follow : ∀ zs, Orderly false cs n zs → Orderly c bs n (xs ++ zs)

theorem Joins.nil : Joins c bs n ([] : List (CodeLine α)) bs :=
  ⟨List.Subset.refl bs, fun _ hb => .inl hb, fun _ hzs => hzs.weaken c⟩

/-- What stands behind others at the same depth can be replaced. -/
theorem cut (h : Orderly c bs n (xs ++ ys)) (hys : ∀ l ∈ ys.head?, l.indent = n ∧ continuesGroup l.code = false) :
    ∃ cs, Joins c bs n xs cs ∧ Orderly false cs n ys := by
  generalize hls : xs ++ ys = ls at h
  induction h generalizing xs with
  | nil c bs n =>
    obtain ⟨rfl, rfl⟩ := List.append_eq_nil_iff.1 hls
    exact ⟨bs, .nil, .nil ..⟩
  | @line c bs n l ls os indent plain opens covered rest ih =>
    obtain ⟨rfl, rfl⟩ | ⟨xs, rfl, rfl⟩ := List.append_eq_cons_iff.1 hls
    · exact ⟨bs, .nil, .line os indent plain opens covered rest⟩
    · obtain ⟨cs, hjoins, hrest⟩ := ih hys rfl
      refine ⟨cs, ⟨fun b hb => hjoins.reach (List.mem_append_right _ hb), fun b hb => ?_,
        fun zs h => .line os indent plain opens covered (hjoins.follow zs h)⟩, hrest⟩
      obtain hb | ⟨hbuffer, m, hm, hopened⟩ := hjoins.opened b hb
      · obtain hb | hb := List.mem_append.1 hb
        · exact .inr ⟨(opens b hb).1, l, List.mem_cons_self, indent, (opens b hb).2⟩
        · exact .inl hb
      · exact .inr ⟨hbuffer, m, List.mem_cons_of_mem _ hm, hopened⟩
  | @block c bs n l body ls indent header clause covered below ne rest _ ih =>
    obtain ⟨rfl, rfl⟩ | ⟨xs, rfl, hsplit⟩ := List.append_eq_cons_iff.1 hls
    · exact ⟨bs, .nil, (Orderly.block indent header clause covered below ne rest).restart fun l hl => (hys l hl).2⟩
    · -- what follows at the same depth does not begin inside the block
      obtain ⟨zs, rfl, rfl⟩ : ∃ zs, xs = body ++ zs ∧ ls = zs ++ ys := by
        obtain h | ⟨zs, hbody, hzs⟩ := List.append_eq_append_iff.1 hsplit
        · exact h
        · cases zs with
          | nil => exact ⟨[], by simp [hbody], by simp [hzs]⟩
          | cons z zs =>
            have hdeep := below.le_indent z (by simp [hbody])
            have hlevel := (hys z (by simp [hzs])).1
            omega
      obtain ⟨cs, hjoins, hrest⟩ := ih hys rfl
      refine ⟨cs, ⟨hjoins.reach, fun b hb => ?_, fun ws h => ?_⟩, hrest⟩
      · obtain hb | ⟨hbuffer, m, hm, hopened⟩ := hjoins.opened b hb
        · exact .inl hb
        · exact .inr ⟨hbuffer, m, List.mem_cons_of_mem _ (List.mem_append_right _ hm), hopened⟩
      · rw [List.cons_append, List.append_assoc]
        exact .block indent header clause covered below ne (hjoins.follow ws h)

/-- What statements are made of may be left out, unless it opens a buffer that was not there before. -/
theorem filter {gs : List β} {piece : β → List (CodeLine α)} (keep : β → Bool)
    (h : Orderly false bs n (gs.flatMap piece))
    (hgs : ∀ g ∈ gs, ∃ l ∈ (piece g).head?, l.indent = n ∧ continuesGroup l.code = false)
    (hdrop : ∀ g ∈ gs, keep g = false → ∀ cs (rest : List (CodeLine α)), Orderly false cs n (piece g ++ rest) →
      (∀ l ∈ rest.head?, l.indent = (n : Int) ∧ continuesGroup l.code = false) →
        ∀ l ∈ piece g, l.indent = n → ∀ b, isBuffer b → l.code = opened b → b ∈ bs) :
    Orderly false bs n ((gs.filter keep).flatMap piece) := by
  induction gs generalizing bs with
  | nil => exact .nil ..
  | cons g gs ih =>
    obtain ⟨-, hgs⟩ := List.forall_mem_cons.1 hgs
    obtain ⟨hg, hdrop⟩ := List.forall_mem_cons.1 hdrop
    have hhead : ∀ l ∈ (gs.flatMap piece).head?, l.indent = n ∧ continuesGroup l.code = false := by
      cases gs with
      | nil => simp
      | cons g' gs =>
        obtain ⟨l, hl, hstarts⟩ := hgs g' List.mem_cons_self
        intro m hm
        rw [List.flatMap_cons, List.head?_append, Option.mem_def.1 hl] at hm
        obtain rfl := Option.some.inj hm
        exact hstarts
    rw [List.flatMap_cons] at h
    obtain ⟨cs, hjoins, hrest⟩ := h.cut hhead
    cases hkeep : keep g with
    | true =>
      rw [List.filter_cons_of_pos hkeep, List.flatMap_cons]
      exact hjoins.follow _ (ih hrest hgs fun g hg hk cs rest h hr l hl hi b hbuffer hb =>
        hjoins.reach (hdrop g hg hk cs rest h hr l hl hi b hbuffer hb))
    | false =>
      rw [List.filter_cons_of_neg (by simp [hkeep])]
      refine ih (hrest.mono fun b hb => ?_) hgs hdrop
      obtain hb | ⟨hbuffer, l, hl, hi, hopened⟩ := hjoins.opened b hb
      · exact hb
      · exact hg hkeep bs _ h hhead l hl hi b hbuffer hopened

end Orderly

/-! ### The same order elsewhere -/

/-- A line in the place of another, `k` steps deeper. -/
structure Corresponds (k : Nat) (l : CodeLine α) (m : CodeLine β) : Prop where
  indent : m.indent = l.indent + k
  header : opensBlock m.code = opensBlock l.code
  clause : continuesGroup m.code → continuesGroup l.code
  condition : isCondition m.code = isCondition l.code
  function : isFunction m.code = isFunction l.code
  opened : ∀ b, isBuffer b → l.code = opened b → m.code = Compile.opened b
  covered : ∀ bs, Covered bs l.code → Covered bs m.code

theorem Corresponds.of_code {k : Nat} {l : CodeLine α} {m : CodeLine β} (hindent : m.indent = l.indent + k)
    (hcode : m.code = l.code) : Corresponds k l m := by
  refine ⟨hindent, ?_, ?_, ?_, ?_, fun b _ hb => hcode.trans hb, fun bs h => ?_⟩ <;> rw [hcode]
  · exact id
  · exact h

theorem Orderly.corresponds {k : Nat} {ms : List (CodeLine β)} (h : Orderly c bs n ls)
    (hms : List.Forall₂ (Corresponds k) ls ms) : Orderly c bs (n + k) ms := by
  induction h generalizing ms with
  | nil =>
    cases hms
    exact .nil ..
  | @line c bs n l ls os indent plain opens covered _ ih =>
    cases hms with
    | @cons _ m _ ms hm hms =>
      refine .line os ?_ ⟨hm.header.trans plain.1, ?_⟩ (fun b hb => ⟨(opens b hb).1, hm.opened b (opens b hb).1 (opens b hb).2⟩)
        (hm.covered _ covered) (ih hms)
      · rw [hm.indent, indent]
        rfl
      · exact Bool.eq_false_iff.2 fun hc => by simp [hm.clause hc] at plain
  | @block c bs n l body ls indent header clause covered _ ne _ ihbelow ih =>
    cases hms with
    | @cons _ m _ ms hm hms =>
      obtain ⟨body', ls', hbody, hls, rfl⟩ : ∃ body' ls', List.Forall₂ (Corresponds k) body body' ∧
          List.Forall₂ (Corresponds k) ls ls' ∧ ms = body' ++ ls' :=
        ⟨ms.take body.length, ms.drop body.length, by simpa using List.forall₂_take body.length hms,
          by simpa using List.forall₂_drop body.length hms, (List.take_append_drop ..).symm⟩
      have hinner : inner m.code bs = inner l.code bs := by rw [inner, hm.function, inner]
      refine .block ?_ (hm.header.trans header) (fun hc => clause (hm.clause hc)) ?_ ?_ ?_ ?_
      · rw [hm.indent, indent]
        rfl
      · rw [hinner]
        exact hm.covered _ covered
      · rw [hinner, Nat.add_right_comm]
        exact ihbelow hbody
      · rintro rfl
        cases hbody
        exact ne rfl
      · rw [hm.condition]
        exact ih hls

end Stencil.Flatten

namespace Stencil.Flatten
open Code Compile Grouping

variable {α : Type} {c : Bool} {bs : List String} {n : Nat} {l m o : CodeLine α} {ls rest pre post : List (CodeLine α)}
  {b : String}

/-! ### Indentation -/

/-- The line below one that opens a block is indented one step more, and no other is. -/
def Follows (l m : CodeLine α) : Prop :=
  (m.indent = l.indent + 1 ↔ opensBlock l.code) ∧ (¬ opensBlock l.code → m.indent ≤ l.indent)

theorem Follows.below (hl : opensBlock l.code) (hm : m.indent = l.indent + 1) : Follows l m :=
  ⟨iff_of_true hm hl, fun h => (h hl).elim⟩

theorem Follows.behind (hl : opensBlock l.code = false) (hm : m.indent ≤ l.indent) : Follows l m :=
  ⟨iff_of_false (by omega) (by simp [hl]), fun _ => hm⟩

/-- A line in `pre` that `l` goes on with: between them all is deeper. -/
def GoesOnFrom (pre : List (CodeLine α)) (l : CodeLine α) : Prop :=
  ∃ before m between, pre = before ++ m :: between ∧ isCondition m.code ∧ m.indent = l.indent ∧
    ∀ k ∈ between, l.indent < k.indent

theorem GoesOnFrom.append (h : GoesOnFrom pre l) (front : List (CodeLine α)) : GoesOnFrom (front ++ pre) l := by
  obtain ⟨before, m, between, rfl, hm⟩ := h
  exact ⟨front ++ before, m, between, (List.append_assoc ..).symm, hm⟩

theorem GoesOnFrom.cons (h : GoesOnFrom pre l) (m : CodeLine α) : GoesOnFrom (m :: pre) l := h.append [m]

/-- Blocks inside each other, from the outermost level on. -/
structure WellNested (ls : List (CodeLine α)) : Prop where
  start : ∀ l ∈ ls.head?, l.indent = 0
  nonneg : ∀ l ∈ ls, 0 ≤ l.indent
  follows : ls.IsChain Follows
  last : ∀ l ∈ ls.getLast?, ¬ opensBlock l.code
  clauses : ∀ pre l post, ls = pre ++ l :: post → continuesGroup l.code → GoesOnFrom pre l

namespace Orderly

theorem follows (h : Orderly c bs n ls) (hrest : rest.IsChain Follows) (hhead : ∀ m ∈ rest.head?, m.indent ≤ n) :
    (ls ++ rest).IsChain Follows ∧ ∀ m ∈ (ls ++ rest).head?, m.indent ≤ n := by
  induction h generalizing rest with
  | nil => exact ⟨hrest, hhead⟩
  | @line c bs n l ls os indent plain opens covered _ ih =>
    obtain ⟨hchain, hnext⟩ := ih hrest hhead
    refine ⟨List.isChain_cons.2 ⟨fun m hm => .behind plain.1 ?_, hchain⟩, by simp [indent]⟩
    exact indent ▸ hnext m hm
  | @block c bs n l body ls indent header clause covered below ne _ ihbelow ih =>
    obtain ⟨hchain, hnext⟩ := ih hrest hhead
    obtain ⟨hbody, -⟩ := ihbelow hchain fun m hm => (hnext m hm).trans (by omega)
    rw [List.cons_append, List.append_assoc]
    refine ⟨List.isChain_cons.2 ⟨fun m hm => .below header ?_, hbody⟩, by simp [indent]⟩
    rw [List.head?_append_of_ne_nil _ ne] at hm
    rw [(below.head m hm).1, indent]
    rfl

theorem getLast (h : Orderly c bs n ls) : ∀ l ∈ ls.getLast?, ¬ opensBlock l.code := by
  induction h with
  | nil => simp
  | @line c bs n l ls os indent plain opens covered _ ih =>
    cases ls with
    | nil => simp [plain.1]
    | cons m ls => simpa using ih
  | @block c bs n l body ls indent header clause covered below ne _ ihbelow ih =>
    intro k hk
    rw [List.getLast?_cons, Option.mem_def, Option.some.injEq, List.getLast?_append] at hk
    subst hk
    cases hls : ls.getLast? with
    | some k => exact ih k hls
    | none =>
      cases hbody : body.getLast? with
      | some k => exact ihbelow k hbody
      | none => exact (ne (by simpa using hbody)).elim

/-- What goes on with a condition stands behind it, if not at the start. -/
theorem clauses (h : Orderly c bs n ls) (hls : ls = pre ++ l :: post) (hl : continuesGroup l.code) :
    GoesOnFrom pre l ∨ (c ∧ l.indent = n ∧ ∀ k ∈ pre, n < k.indent) := by
  induction h generalizing pre post with
  | nil => simp at hls
  | @line c bs n k ls os indent plain opens covered _ ih =>
    obtain ⟨rfl, hcons⟩ | ⟨pre, rfl, rfl⟩ := List.cons_eq_append_iff.1 hls
    · obtain ⟨rfl, -⟩ := List.cons.inj hcons
      simp [plain.2] at hl
    · obtain h | ⟨hfalse, -⟩ := ih rfl
      · exact .inl (h.cons k)
      · cases hfalse
  | @block c bs n k body ls indent header clause covered below ne _ ihbelow ih =>
    obtain ⟨rfl, hcons⟩ | ⟨pre, rfl, hsplit⟩ := List.cons_eq_append_iff.1 hls
    · obtain ⟨rfl, -⟩ := List.cons.inj hcons
      exact .inr ⟨clause hl, indent, by simp⟩
    · rcases List.append_eq_append_iff.1 hsplit with ⟨mid, rfl, hrest⟩ | ⟨mid, hbody, hmid⟩
      · obtain h | ⟨hcondition, hlevel, hdeep⟩ := ih hrest
        · exact .inl ((h.append body).cons k)
        · refine .inl ⟨[], k, body ++ mid, rfl, hcondition, indent.trans hlevel.symm, fun m hm => ?_⟩
          obtain hm | hm := List.mem_append.1 hm
          · have := below.le_indent m hm
            omega
          · rw [hlevel]
            exact hdeep m hm
      · cases mid with
        | nil =>
          obtain h | ⟨hcondition, hlevel, -⟩ := ih (show ls = [] ++ l :: post from hmid.symm)
          · obtain ⟨before, m, between, hnil, -⟩ := h
            simp at hnil
          · rw [List.append_nil] at hbody
            refine .inl ⟨[], k, pre, rfl, hcondition, indent.trans hlevel.symm, fun m hm => ?_⟩
            have := below.le_indent m (hbody ▸ hm)
            omega
        | cons m mid =>
          obtain ⟨rfl, rfl⟩ := List.cons.inj hmid
          obtain h | ⟨hfalse, -⟩ := ihbelow hbody
          · exact .inl (h.cons k)
          · cases hfalse

theorem wellNested (h : Orderly false bs 0 ls) : WellNested ls where
  start l hl := (h.head l hl).1
  nonneg l hl := h.le_indent l hl
  follows := by simpa using (h.follows (List.IsChain.nil (R := Follows)) (by simp)).1
  last := h.getLast
  clauses pre l post hls hl := by
    obtain h | ⟨hfalse, -⟩ := h.clauses hls hl
    · exact h
    · cases hfalse

end Orderly

/-! ### Buffers -/

/-- No function that is defined among these lines goes on to a line behind them. -/
def Outside (ls : List (CodeLine α)) (l : CodeLine α) : Prop :=
  ∀ before f between, ls = before ++ f :: between → isFunction f.code → ∃ m ∈ between ++ [l], m.indent ≤ f.indent

/-- The buffer is opened among these lines, in front of `l` and in the same function: what stands between is at least
as deep, and so is `l`. -/
def OpenedFor (pre : List (CodeLine α)) (l : CodeLine α) (b : String) : Prop :=
  ∃ before o between, pre = before ++ o :: between ∧ o.code = opened b ∧ o.indent ≤ l.indent ∧
    (∀ m ∈ between, o.indent ≤ m.indent) ∧ Outside between l

/-- All lines but the one that opens a buffer use it where it has been opened. -/
def Initialised (ls : List (CodeLine α)) : Prop :=
  ∀ pre l post, ls = pre ++ l :: post → ∀ b ∈ wordsOf l.code, isBuffer b → l.code = opened b ∨ OpenedFor pre l b

theorem OpenedFor.append (h : OpenedFor pre l b) (front : List (CodeLine α)) : OpenedFor (front ++ pre) l b := by
  obtain ⟨before, o, between, rfl, ho⟩ := h
  exact ⟨front ++ before, o, between, (List.append_assoc ..).symm, ho⟩

theorem OpenedFor.cons (h : OpenedFor pre l b) (m : CodeLine α) : OpenedFor (m :: pre) l b := h.append [m]

theorem Outside.nil : Outside [] l := by
  intro before f between hnil
  simp at hnil

/-- A line that is no function, or that the next line is not below of. -/
theorem Outside.cons (h : Outside ls l) (hm : isFunction m.code → ∃ k ∈ ls ++ [l], k.indent ≤ m.indent) :
    Outside (m :: ls) l := by
  intro before f between hsplit hf
  obtain ⟨rfl, hcons⟩ | ⟨before, rfl, hls⟩ := List.cons_eq_append_iff.1 hsplit
  · obtain ⟨rfl, rfl⟩ := List.cons.inj hcons
    exact hm hf
  · exact h before f between hls hf

/-- What is deeper than a line behind it does not go on to there. -/
theorem Outside.append {front : List (CodeLine α)} (h : Outside ls l)
    (hfront : ∃ k ∈ ls ++ [l], ∀ m ∈ front, k.indent ≤ m.indent) : Outside (front ++ ls) l := by
  obtain ⟨k, hk, hdeep⟩ := hfront
  induction front with
  | nil => exact h
  | cons m front ih =>
    obtain ⟨hm, hfront⟩ := List.forall_mem_cons.1 hdeep
    exact (ih hfront).cons fun _ => ⟨k, by simp_all, hm⟩

namespace Orderly

/-- Where a line uses a buffer, it opens it, or it has been opened in front, or it was in reach. -/
theorem opened (h : Orderly c bs n ls) (hls : ls = pre ++ l :: post) (hb : b ∈ wordsOf l.code) (hbuffer : isBuffer b) :
    l.code = Compile.opened b ∨ OpenedFor pre l b ∨ (b ∈ bs ∧ Outside pre l) := by
  induction h generalizing pre post with
  | nil => simp at hls
  | @line c bs n k ls os indent plain opens covered rest ih =>
    obtain ⟨rfl, hcons⟩ | ⟨pre, rfl, rfl⟩ := List.cons_eq_append_iff.1 hls
    · obtain ⟨rfl, -⟩ := List.cons.inj hcons
      obtain hos | hbs := List.mem_append.1 (covered b hb hbuffer)
      · exact .inl (opens b hos).2
      · exact .inr (.inr ⟨hbs, .nil⟩)
    · obtain h | h | ⟨hmem, hout⟩ := ih rfl
      · exact .inl h
      · exact .inr (.inl (h.cons k))
      · have hdeep : ∀ m ∈ pre ++ l :: post, (n : Int) ≤ m.indent := rest.le_indent
        obtain hos | hbs := List.mem_append.1 hmem
        · refine .inr (.inl ⟨[], k, pre, rfl, (opens b hos).2, ?_, fun m hm => ?_, hout⟩)
          · exact indent ▸ hdeep l (by simp)
          · exact indent ▸ hdeep m (by simp [hm])
        · refine .inr (.inr ⟨hbs, hout.cons fun _ => ?_⟩)
          -- the next line is at the same depth
          have hne : pre ++ [l] ≠ [] := by simp
          obtain ⟨m, hm⟩ : ∃ m, (pre ++ [l]).head? = some m := ⟨_, List.head?_eq_some_head hne⟩
          have hhead : (pre ++ l :: post).head? = some m := by
            rwa [← List.singleton_append, ← List.append_assoc, List.head?_append_of_ne_nil _ hne]
          exact ⟨m, List.mem_of_mem_head? hm, by rw [(rest.head m hhead).1, indent]⟩
  | @block c bs n k body ls indent header clause covered below ne rest ihbelow ih =>
    obtain ⟨rfl, hcons⟩ | ⟨pre, rfl, hsplit⟩ := List.cons_eq_append_iff.1 hls
    · obtain ⟨rfl, -⟩ := List.cons.inj hcons
      exact .inr (.inr ⟨inner_subset _ _ (covered b hb hbuffer), .nil⟩)
    · have hbehind {mid : List (CodeLine α)} (hmid : ls = mid ++ l :: post)
          (h : l.code = Compile.opened b ∨ OpenedFor mid l b ∨ (b ∈ bs ∧ Outside mid l)) :
          l.code = Compile.opened b ∨ OpenedFor (k :: (body ++ mid)) l b ∨ (b ∈ bs ∧ Outside (k :: (body ++ mid)) l) := by
        obtain h | h | ⟨hbs, hout⟩ := h
        · exact .inl h
        · exact .inr (.inl ((h.append body).cons k))
        · -- the first line behind the block ends it
          have hne : mid ++ [l] ≠ [] := by simp
          obtain ⟨m, hm⟩ : ∃ m, (mid ++ [l]).head? = some m := ⟨_, List.head?_eq_some_head hne⟩
          have hhead : ls.head? = some m := by
            rwa [hmid, ← List.singleton_append, ← List.append_assoc, List.head?_append_of_ne_nil _ hne]
          have hlevel := (rest.head m hhead).1
          have hmem := List.mem_of_mem_head? hm
          refine .inr (.inr ⟨hbs, (hout.append ⟨m, hmem, fun x hx => ?_⟩).cons fun _ => ⟨m, ?_, ?_⟩⟩)
          · have := below.le_indent x hx
            omega
          · simp_all
          · omega
      rcases List.append_eq_append_iff.1 hsplit with ⟨mid, rfl, hrest⟩ | ⟨mid, hbody, hmid⟩
      · exact hbehind hrest (ih hrest)
      · cases mid with
        | nil =>
          have hstart : ls = [] ++ l :: post := hmid.symm
          have := hbehind hstart (ih hstart)
          rw [List.append_nil] at hbody this
          rwa [hbody] at this
        | cons m mid =>
          obtain ⟨rfl, rfl⟩ := List.cons.inj hmid
          obtain h | h | ⟨hmem, hout⟩ := ihbelow hbody
          · exact .inl h
          · exact .inr (.inl (h.cons k))
          · refine .inr (.inr ⟨inner_subset _ _ hmem, hout.cons fun hk => ?_⟩)
            simp [inner, hk] at hmem

theorem initialised (h : Orderly c [] n ls) : Initialised ls := by
  intro pre l post hls b hb hbuffer
  obtain h | h | ⟨hnil, -⟩ := h.opened hls hb hbuffer
  · exact .inl h
  · exact .inr h
  · cases hnil

end Orderly

end Stencil.Flatten
