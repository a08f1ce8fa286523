import Stencil.Proofs.Flatten.Statements

/-!
Blocks of statements. A statement ends in front of a line that is not indented more than its first
one, since every line that is indented more stands below a header.
-/
namespace Stencil.Flatten
open Code Grammar

variable {α : Type} {g : Page} {f : Frame} {c c' : Bool} {k : Int} {s s' s₁ : State} {base w : Nat}
  {ns ms : List Node} {n : Node} {t : Token} {ts us seg : List Token} {P : State → Prop} {i : Nat}
  {x : String} {statement : Read (List Node)}

/-- The next line is not part of a block that is indented by `i`. -/
def Leaves (i : Nat) (s : State) : Prop :=
  ∀ t ∈ s.rest.head?, t.shape ≠ .stop → ∀ j ∈ t.indent, j < i

/-- A line starts. Unless it begins with an equals sign, it is not indented more than `w`. -/
def Onward (w : Nat) (s : State) : Prop :=
  ∀ t ∈ s.rest.head?, t.indent.isSome ∧ (t.text ≠ "=" → ∀ j ∈ t.indent, j ≤ w)

/-- The next token stands behind others in a header that is indented by `w`. -/
def OnHeader (g : Page) (w : Nat) (s : State) : Prop :=
  ∀ t ∈ s.rest.head?, t.indent = none ∧ g.isHeader t.row ∧ g.indentOf t.row = w

/-- A statement may begin with the next token, which starts a line of the block. -/
structure Starts (g : Page) (f : Frame) : Prop where
  rank : f.rank = 0
  begins : Begins g f
  line : ∀ t ∈ f.start.rest.head?, t.indent = some f.indent

theorem Onward.atLine (h : Onward w s) : AtLine s := fun t ht => (h t ht).1

theorem fresh_of_atLine (ha : Amid g f k c ns s) (hl : AtLine s) : Fresh g s :=
  fun t ts ht => by
    have hf := ha.fits (t := t) (by simp [ht])
    rw [ht] at hf
    exact hf.lead (hl t (by simp [ht]))

theorem Starts.depth (h : Starts g f) (ha : Amid g f 0 c ns f.start) : f.depth = 0 := by
  have ho := ha.owed
  cases hr : f.start.rest with
  | nil =>
    simp only [hr, owed] at ho
    omega
  | cons t ts =>
    have hlevel := (ha.fits (t := t) (by simp [hr])).level (by simp [h.line t (by simp [hr])])
    simp only [hr, List.tail_cons] at hlevel ho
    omega

theorem Amid.lower {r : Nat} (h : Amid g { f with rank := r } k c ns s) (hr : f.rank ≤ r) :
    Amid g f k c ns s := by
  obtain ⟨seg, hm, hc⟩ := h.moves
  exact { h with moves := ⟨seg, hm.lower le_rfl hr, hc⟩ }

/-- What a reader started from may be in reach or not as long as nothing has been read. -/
theorem Amid.rebase (h : Amid g f k false [] f.start) (base : Nat) (hb : base ≤ f.indent) :
    Amid g { f with base } k false [] f.start :=
  { h with bound := hb, moves := ⟨[], .refl _, by simp⟩ }

/-- Lines that are no headers are not followed by deeper ones. -/
theorem flat_of_calm (h : Sheet g (t :: (seg ++ us)))
    (ht : ¬ g.isHeader t.row ∧ g.indentOf t.row ≤ w)
    (hseg : ∀ u ∈ seg, u.indent.isSome → u.text ∉ headers) :
    ∀ u ∈ us.head?, u.indent.isSome → g.indentOf u.row ≤ w := by
  induction seg generalizing t with
  | nil =>
    intro u hu hi
    have hd := h.fits.deeper u hu hi
    rw [if_neg ht.1] at hd
    exact hd.trans ht.2
  | cons u seg ih =>
    refine ih (h.suffix (List.suffix_cons ..)) ?_ fun v hv => hseg v (by simp [hv])
    cases hi : u.indent with
    | none => rwa [h.fits.row u rfl hi]
    | some i =>
      have hd := h.fits.deeper u rfl (by simp [hi])
      rw [if_neg ht.1] at hd
      have hf : Fits g u (seg ++ us) := (h.suffix (List.suffix_cons ..)).fits
      exact ⟨mt (hf.headed (by simp [hi])).1 (hseg u (by simp) (by simp [hi])), hd.trans ht.2⟩

/-- Behind what has passed no header the next line is not indented more than the first one, an equals
sign apart. -/
theorem Amid.flat (h : Amid g f k true ns s) (hr : 1 ≤ f.rank)
    (hs : Sheet g f.start.rest) (hl : ∀ t ∈ f.start.rest.head?, t.indent = some f.indent) :
    ∀ u ∈ s.rest.head?, u.text ≠ "=" → ∀ j ∈ u.indent, j ≤ f.indent := by
  obtain ⟨seg, hm, hc⟩ := h.moves
  have hrest := hm.rest
  have hcalm := hm.calm hr
  cases seg with
  | nil => exact (hc rfl rfl).elim
  | cons t seg =>
    have hi : t.indent = some f.indent := hl t (by simp [hrest])
    rw [hrest] at hs
    have hf : Fits g t (seg ++ s.rest) := Sheet.fits hs
    have ht : ¬ g.isHeader t.row ∧ g.indentOf t.row ≤ f.indent :=
      ⟨mt (hf.headed (by simp [hi])).1 (hcalm t (by simp) (by simp [hi])),
        (hf.start _ (by simp [hi])).1⟩
    intro u hu hx j hj
    have := flat_of_calm hs ht (fun v hv => hcalm v (by simp [hv])) u hu
      (Option.isSome_of_mem hj)
    rwa [(((h.fits hu).start j hj).2 hx).1] at this

/-- Between two states no line starts that is indented as far as `w` or less. -/
def Deep (w : Nat) (s₁ s : State) : Prop :=
  ∃ seg, s₁.rest = seg ++ s.rest ∧ ∀ t ∈ seg, ∀ i ∈ t.indent, w < i

theorem Deep.trans {s₂ : State} (h : Deep w s₁ s) (h' : Deep w s s₂) : Deep w s₁ s₂ := by
  obtain ⟨ts, hts, ht⟩ := h
  obtain ⟨us, hus, hu⟩ := h'
  refine ⟨ts ++ us, by rw [hts, hus, List.append_assoc], fun v hv => ?_⟩
  obtain hv | hv := List.mem_append.1 hv
  · exact ht v hv
  · exact hu v hv

/-- What has passed no colon on the level of a header is still in it. -/
theorem Amid.onHeader (h : Amid g f k c ns s) (hr : 2 ≤ f.rank) (hs : Sheet g f.start.rest)
    (hw : OnHeader g w f.start) : OnHeader g w s ∧ Deep (w + 2) f.start s := by
  obtain ⟨seg, hm, -⟩ := h.moves
  have hrest := hm.rest
  have hcolon := hm.colonless hr
  have key : ∀ (seg : List Token) (s₁ : State), s₁.rest = seg ++ s.rest → Sheet g s₁.rest →
      (∀ a t b, seg = a ++ t :: b → t.text = ":" → Flatten.owed (t :: b ++ s.rest) ≠ 0) →
      OnHeader g w s₁ → OnHeader g w s ∧ ∀ t ∈ seg, t.indent = none := by
    intro seg
    induction seg with
    | nil =>
      intro s₁ hrest _ _ hw
      exact ⟨fun u hu => hw u (by simpa [hrest] using hu), by simp⟩
    | cons t seg ih =>
      intro s₁ hrest hs hcolon hw
      obtain ⟨hnone, hheader, hindent⟩ := hw t (by simp [hrest])
      rw [hrest] at hs
      have hf : Fits g t (seg ++ s.rest) := Sheet.fits hs
      have hnext : OnHeader g w { s₁ with rest := seg ++ s.rest } := by
        intro u hu
        have hnone : u.indent = none := by
          by_contra hi
          have hd := hf.deeper u hu (by simpa [Option.isSome_iff_ne_none] using hi)
          rw [if_pos hheader] at hd
          exact hcolon [] t seg rfl hd.1 hd.2.1
        rw [hf.row u hu hnone]
        exact ⟨hnone, hheader, hindent⟩
      obtain ⟨hend, hseg⟩ := ih { s₁ with rest := seg ++ s.rest } rfl
        (hs.suffix ⟨[t], rfl⟩) (fun a u b hab => hcolon (t :: a) u b (by simp [hab])) hnext
      exact ⟨hend, by simpa [hnone] using hseg⟩
  obtain ⟨hend, hseg⟩ := key seg _ hrest hs hcolon hw
  exact ⟨hend, seg, hrest, fun t ht j hj => by simp [hseg t ht] at hj⟩

/-- Behind the word that a header begins with. -/
theorem onHeader_after (h : Amid g f 0 c ns s) (ht : s.rest.head? = some t)
    (hi : t.indent = some w) (hx : t.text ∈ headers) : OnHeader g w (after t s) := by
  have hf := h.fits ht
  have hheader := (hf.headed (by simp [hi])).2 hx
  have hne : ∀ y ∈ headers, y ≠ ":" ∧ y ≠ "=" := by decide
  intro u hu
  have hnone : u.indent = none := by
    by_contra hj
    have hd := hf.deeper u hu (by simpa [Option.isSome_iff_ne_none] using hj)
    rw [if_pos hheader] at hd
    exact (hne _ hx).1 hd.1
  rw [hf.row u hu hnone]
  exact ⟨hnone, hheader, ((hf.start w (by simp [hi])).2 (hne _ hx).2).1⟩

/-- A reader that goes on to the end of a line. -/
def Runs (g : Page) (pre : Frame → Prop) (p : Read α) (nodes : α → List Node) : Prop :=
  ∀ f, Amid g f 0 false [] f.start → pre f →
    ∀ a s, p f.start = some (a, s) → Amid g f 0 true (nodes a) s ∧ Onward f.indent s

namespace Runs

variable {pre : Frame → Prop} {p : Read α} {nodes : α → List Node}

theorem of_yields (h : ∀ f : Frame,
    Yields (fun s => Amid g f 0 false [] s ∧ pre { f with start := s }) p fun a s =>
      Amid g f 0 true (nodes a) s ∧ Onward f.indent s) : Runs g pre p nodes :=
  fun f ha hs _ _ hp => h f ⟨ha, hs⟩ hp

end Runs

/-- The kind of the statement that some tokens begin with. -/
def kindOf : List Token → Kind
  | t :: u :: _ => if t.text = "def" then .function u.text else .statement
  | _ => .statement

/-- A statement has been read into a node. -/
structure Makes (g : Page) (f : Frame) (n : Node) (s : State) : Prop where
  amid : Amid g f 0 true [n] s
  onward : Onward f.indent s
  spans : Spans f.start n s
  kind : n.kind = kindOf f.start.rest
  deep : ∀ t ts, f.start.rest = t :: ts → t.text = "def" → Deep (f.indent + 2) (after t f.start) s

def IsEquals (t : Token) : Prop := t.shape = .symbol ∧ t.text = "="

/-- A reader of lines makes one node of each. No line begins with an equals sign or with what goes on with a
condition, unless it goes on with the one before. -/
structure LineByLine (g : Page) (p : Read (List Node)) : Prop where
  makes : ∀ f, Amid g f 0 false [] f.start → Starts g f →
    ∀ ns s, p f.start = some (ns, s) → ∃ n, ns = [n] ∧ Makes g f n s
  refuses : ∀ s t, s.rest.head? = some t → IsStuck t → p s = none

/-- The statements of a block one after the other. How far up lines are in reach does not matter, but
a `return` on the level of the block is out of it. -/
inductive Rounds (g : Page) (statement : Read (List Node)) (w : Nat) :
    State → List Node → State → Prop
  | done (s : State) : Rounds g statement w s [] s
  | next {s₀ s₁ s : State} {n : Node} {ns : List Node}
      (read : statement s₀ = some ([n], s₁))
      (line : ∀ t ∈ s₀.rest.head?, t.indent = some w)
      (makes : ∀ base ≤ w, (∀ t ∈ s₀.rest.head?, t.text = "return" → base < w) →
        Makes g ⟨s₀, base, w, 0, 0⟩ n s₁)
      (onward : Onward w s₁) (rounds : Rounds g statement w s₁ ns s) :
      Rounds g statement w s₀ (n :: ns) s

namespace Rounds

variable {s₀ s₂ : State}

theorem trans (h : Rounds g statement w s₀ ns s₁) (h' : Rounds g statement w s₁ ms s₂) :
    Rounds g statement w s₀ (ns ++ ms) s₂ := by
  induction h with
  | done => exact h'
  | next read line makes onward _ ih => exact .next read line makes onward (ih h')

theorem amid (h : Rounds g statement w s₁ ms s) (hb : base < w) (ha : Amid g ⟨s₀, base, w, 0, 0⟩ 0 c ns s₁) :
    Amid g ⟨s₀, base, w, 0, 0⟩ 0 c (ns ++ ms) s := by
  induction h generalizing ns with
  | done => simpa using ha
  | next _ _ makes _ _ ih =>
    have hmakes := makes base hb.le fun _ _ _ => hb
    have := ih (ha.trans hmakes.amid le_rfl).relax
    simpa using this

theorem onward (h : Rounds g statement w s₁ ns s) (hs : Onward w s₁) : Onward w s := by
  induction h with
  | done => exact hs
  | next _ _ _ onward _ ih => exact ih onward

end Rounds

/-- The statements of the next line of a block, if there is one. -/
def nextLine (statement : Read (List Node)) (w : Nat) : Read (Option (List Node)) := do
  let s ← get
  match s.rest.head? with
  | some t => if t.shape ≠ .stop && t.indent.all (w ≤ ·) then return some (← statement) else return none
  | none => return none

theorem blockLines_eq (statement : Read (List Node)) (w : Nat) :
    blockLines statement w = (do return (← many (nextLine statement w)).flatten) := rfl

/-- A block goes on as long as lines are indented as far as its first one. -/
theorem blockLines_rounds (hr : LineByLine g statement) (hi : base < w) {s₀ : State}
    (ha : Amid g ⟨s₀, base, w, 0, 0⟩ 0 false [] s₀) (ho : Onward w s₀) :
    Yields (· = s₀) (blockLines statement w) fun ms s => Rounds g statement w s₀ ms s ∧ Leaves w s := by
  have hround (ns : List Node) (s s' : State) (o : Option (List Node))
      (hs : Rounds g statement w s₀ ns s)
      (h : nextLine statement w s = some (o, s')) :
      (∀ ms, o = some ms → Rounds g statement w s₀ (ns ++ ms) s' ∧ s'.rest.length < s.rest.length) ∧
        (o = none → Rounds g statement w s₀ ns s' ∧ Leaves w s') := by
    obtain ⟨_, _, hget, h⟩ := bind_eq_some.1 h
    cases hget
    have ha' := hs.amid hi ha
    have ho' := hs.onward ho
    cases ht : s.rest.head? with
    | none =>
      simp only [ht] at h
      obtain ⟨rfl, rfl⟩ := pure_eq_some.1 h
      exact ⟨by simp, fun _ => ⟨hs, fun u hu => by simp [ht] at hu⟩⟩
    | some t =>
      obtain ⟨hsome, hjw⟩ := ho' t ht
      obtain ⟨j, hj⟩ := Option.isSome_iff_exists.1 hsome
      simp only [ht, hj, Option.all_some] at h
      split at h
      · next hcond =>
        simp only [Bool.and_eq_true, decide_eq_true_eq] at hcond
        obtain ⟨ms, s₁, hms, h⟩ := bind_eq_some.1 h
        obtain ⟨rfl, rfl⟩ := pure_eq_some.1 h
        replace hjw : j ≤ w := by
          refine hjw (fun hx => ?_) j hj
          rw [hr.refuses s t ht (.inl ⟨(ha'.fits ht).equals hx, .inl hx⟩)] at hms
          cases hms
        have hline : ∀ u ∈ s.rest.head?, u.indent = some w := by
          intro u hu
          obtain rfl : t = u := Option.some.inj (ht.symm.trans hu)
          rw [hj]
          exact congrArg some (le_antisymm hjw hcond.2)
        have hmakes (b : Nat) (hb : b ≤ w) (hret : ∀ u ∈ s.rest.head?, u.text = "return" → b < w) :
            ∃ n, ms = [n] ∧ Makes g ⟨s, b, w, 0, 0⟩ n s₁ := by
          refine hr.makes ⟨s, b, w, 0, 0⟩ ((ha'.start 0).rebase b hb) ⟨rfl, ⟨fresh_of_atLine ha' ho'.atLine,
            fun u hu hx i hi => ?_⟩, hline⟩ _ _ hms
          rw [hline u hu] at hi
          exact Option.some.inj hi ▸ hret u hu hx
        obtain ⟨n, rfl, hn⟩ := hmakes base hi.le fun _ _ _ => hi
        refine ⟨fun ms hm => ?_, by simp⟩
        obtain rfl := Option.some.inj hm
        refine ⟨hs.trans (.next hms hline (fun b hb hret => ?_) hn.onward (.done _)), hn.amid.rest_lt⟩
        obtain ⟨m, hm, hmade⟩ := hmakes b hb hret
        obtain rfl : n = m := by simpa using hm
        exact hmade
      · next hcond =>
        obtain ⟨rfl, rfl⟩ := pure_eq_some.1 h
        refine ⟨by simp, fun _ => ⟨hs, fun u hu hshape i hi => ?_⟩⟩
        obtain rfl : t = u := Option.some.inj (ht.symm.trans hu)
        obtain rfl : i = j := Option.some.inj (hi.symm.trans hj)
        simp only [Bool.and_eq_true, decide_eq_true_eq, not_and, not_le] at hcond
        exact hcond (by simpa using hshape)
  rw [blockLines_eq]
  refine Yields.bind (Yields.weaken (P := Rounds g statement w s₀ []) (Yields.many_end
    (I := Rounds g statement w s₀) (E := fun ns s => Rounds g statement w s₀ ns s ∧ Leaves w s) (f := id)
    (fun ns s o s' hs h => ?_) fun ns s a s' hs h => ((hround ns s s' _ hs h).1 a rfl).2) ?_)
    fun found => Yields.pure fun s hs => ?_
  · have := hround ns s s' o hs h
    cases o with
    | none => exact this.2 rfl
    | some ms => exact (this.1 ms rfl).1
  · rintro s rfl
    exact .done s
  · simpa using hs

/-- There are no comments to close a block with. -/
theorem closeBlock_spec (hP : ∀ s, P s → Sheet g s.rest) :
    Yields P (closeBlock i) fun _ => P := by
  refine Yields.modify fun s hs => ?_
  have hrest := hP s hs
  split
  · next t rest hr =>
    have hq : t.comments = [] := (hr ▸ hrest : Sheet g (t :: rest)).fits.quiet
    have : s = { s with rest := { t with comments := [] } :: rest, endRow := s.endRow } := by
      cases t
      cases s
      simp_all
    simp only [hq, List.takeWhile_nil, List.getLast?_nil, List.drop_nil]
    exact this ▸ hs
  · exact hs

theorem Amid.setIndent (h : Amid g f k c ns s) (hi : f.base ≤ i) :
    Amid g { f with indent := i } k c ns { s with indent := i } := by
  obtain ⟨seg, hm, hc⟩ := h.moves
  exact ⟨h.sheet, hi, rfl, h.depth, h.owed, h.outside, seg, by
    have := hm.setLevel s.depth i
    exact this, hc⟩

/-- The lines below a header are indented one step more. -/
theorem below_header (h : Amid g f 0 c ns s) (hd : f.depth = 0) (ht : s.rest.head? = some t)
    (hw : OnHeader g w s) (hx : t.text = ":") :
    ∀ u ∈ (after t s).rest.head?, ∃ j ∈ u.indent, w + 4 ≤ j ∧ (u.text ≠ "=" → j = w + 4) := by
  obtain ⟨-, hheader, hindent⟩ := hw t ht
  have hf := h.fits ht
  have howed : owed (t :: s.rest.tail) = 0 := by
    have ho := h.owed
    rw [(List.cons_head?_tail ht).symm] at ho
    omega
  intro u (hu : s.rest.tail.head? = some u)
  have hline := hf.colon hheader hx howed u hu
  have hdeeper := hf.deeper u hu hline
  rw [if_pos hheader] at hdeeper
  obtain ⟨j, hj⟩ := Option.isSome_iff_exists.1 hline
  have hsheet := h.sheet.suffix (List.tail_suffix _)
  rw [(List.cons_head?_tail hu).symm] at hsheet
  obtain ⟨hle, heq⟩ := hsheet.fits.start j hj
  refine ⟨j, hj, by omega, fun hx => ?_⟩
  have := (heq hx).1
  omega

/-- A block is read with its own indentation. -/
theorem Amid.restored {s₂ : State} (h : Amid g ⟨{ s₁ with indent := i }, base, i, 0, 0⟩ 0 false ms s₂)
    (ha : Amid g f 0 true [] s₁) (hf : f.rank = 0 ∧ f.depth = 0) (hb : f.base ≤ base) :
    Amid g f 0 true ms { s₂ with indent := f.indent } := by
  obtain ⟨seg, hm, -⟩ := h.moves
  obtain ⟨seg', hm', hc⟩ := ha.moves
  have hinner : Moves g f.base f.rank s₁ seg ms { s₂ with indent := f.indent } := by
    have hlevel := (hm.setLevel s₂.depth f.indent).lower hb hf.1.le
    exact ⟨hlevel.rest, hlevel.above, hlevel.inner, hlevel.stop, hlevel.endRow, hlevel.accounts,
      hlevel.calm, hlevel.colonless⟩
  refine ⟨h.sheet, ha.bound, rfl, h.depth.trans hf.2.symm, ?_, h.outside, seg' ++ seg,
    hm'.trans hinner, ?_⟩
  · have := h.owed
    rw [hf.2]
    exact this
  · intro _ hn
    exact hc rfl (List.append_eq_nil_iff.1 hn).1

section

variable (hr : LineByLine g statement)
include hr

/-- No block begins with an equals sign. -/
theorem blockLines_refuses (ht : s.rest.head? = some t) (hi : t.indent = some i)
    (hx : IsEquals t) : blockLines statement i s = none := by
  have hstop : t.shape ≠ .stop := by simp [hx.1]
  refine Option.eq_none_iff_forall_ne_some.2 fun r h => ?_
  obtain ⟨_, _, h, -⟩ := bind_eq_some.1 h
  obtain ⟨_, _, hget, h⟩ := bind_eq_some.1 h
  cases hget
  obtain ⟨_, _, h, -⟩ := bind_eq_some.1 h
  obtain ⟨_, _, hget, h⟩ := bind_eq_some.1 h
  cases hget
  simp only [ht, hi, Option.all_some, le_refl, hstop, ne_eq, not_false_eq_true, decide_true,
    Bool.and_self, if_true] at h
  obtain ⟨_, _, h, -⟩ := bind_eq_some.1 h
  rw [hr.refuses s t ht (.inl ⟨hx.1, .inl hx.2⟩)] at h
  cases h

/-- The block below a header. -/
theorem suite_makes (hf : f.rank = 0 ∧ f.depth = 0) (ha : Amid g f 0 c ns s₁)
    (hw : OnHeader g f.indent s₁) :
    Yields (· = s₁) (suite statement) fun n s =>
      (Amid g f 0 true (ns ++ [n]) s ∧ Onward f.indent s) ∧ Deep (f.indent + 2) s₁ s := by
  -- the colon is the last token of the header
  refine Yields.bind (Q := fun _ s => (Amid g { f with start := s₁ } 0 true [] s ∧
    Deep (f.indent + 2) s₁ s) ∧ ∀ u ∈ s.rest.head?, ∃ j ∈ u.indent, f.indent + 4 ≤ j ∧
      (u.text ≠ "=" → j = f.indent + 4)) ?_ fun _ => ?_
  · refine Yields.bind (needed_spec (P := (· = s₁)) fun s hs => hs ▸ ha) fun t =>
      Yields.ite (fun ht => ?_) fun _ => Yields.fail
    refine consume_spec fun s hs => ?_
    obtain ⟨rfl, hfaces⟩ := hs
    have htext : t.text = ":" := by
      simp only [Token.is, Bool.and_eq_true, beq_iff_eq] at ht
      exact ht.2
    have htaken := (ha.start f.rank).take_word hfaces ht (by decide) (by simp [headers])
      (by have := hf.1; simp only; omega)
    refine ⟨⟨htaken.1, [t], (List.cons_head?_tail hfaces.head).symm, ?_⟩,
      below_header ha hf.2 hfaces.head hw htext⟩
    simp [(hw t hfaces.head).1]
  refine Yields.bind Yields.get fun s => ?_
  split
  · exact Yields.fail
  next t ht =>
  suffices h : Amid g { f with start := s₁ } 0 true [] s → Deep (f.indent + 2) s₁ s →
      (∃ j ∈ t.indent, f.indent + 4 ≤ j ∧ (t.text ≠ "=" → j = f.indent + 4)) →
        Yields (· = s) _ _ from
    fun s' n s'' hs => by
      obtain ⟨⟨⟨hb, hd⟩, hi⟩, rfl⟩ := hs
      exact h hb hd (hi t ht) rfl
  rintro hb hdeep ⟨i, hi, hle, hexact⟩
  rw [Option.mem_def] at hi
  by_cases htext : t.text = "="
  · have his : IsEquals t := ⟨(hb.fits ht).equals htext, htext⟩
    simp only [hi]
    refine Yields.ite (fun _ => ?_) fun hc => ?_
    · refine Yields.bind (Q := fun _ s' => s'.rest.head? = some t)
        (Yields.modify fun s' hs => by rw [hs]; exact ht) fun _ =>
        Yields.bind (Q := fun _ _ => False) (fun s' ms s'' hs h => ?_) fun _ =>
          Yields.absurd fun _ => id
      rw [blockLines_refuses hr hs hi his] at h
      cases h
    · have hindent : s.indent = f.indent := hb.indent
      have hstop : t.shape ≠ .stop := by simp [his.1]
      simp only [hstop, ne_eq, not_false_eq_true, decide_true, Bool.true_and, decide_eq_true_eq] at hc
      omega
  obtain rfl : i = f.indent + 4 := hexact htext
  have hstop : t.shape ≠ .stop := by
    rintro hs
    have := (hb.fits ht).last hs
    rw [hi] at this
    simp at this
  have hindent : s.indent = f.indent := hb.indent
  have hbound : f.base ≤ f.indent := ha.bound
  simp only [hi]
  refine Yields.ite (fun _ => ?_) fun hc => ?_
  · have hstart : Amid g ⟨{ s with indent := f.indent + 4 }, f.indent + 3, f.indent + 4, 0, 0⟩ 0
        false [] { s with indent := f.indent + 4 } := by
      have hlevel := (hb.setIndent (i := f.indent + 4) (by simp only; omega)).start 0
      have := hlevel.rebase (f.indent + 3) (by simp)
      simpa only [hf.2] using this
    have honward : Onward (f.indent + 4) { s with indent := f.indent + 4 } := by
      intro u hu
      obtain rfl : t = u := Option.some.inj (ht.symm.trans hu)
      exact ⟨by simp [hi], fun _ j hj => (Option.some.inj (hi.symm.trans hj)).ge⟩
    refine Yields.bind (Q := fun _ s' => s' = { s with indent := f.indent + 4 })
      (Yields.modify fun s' hs => by rw [hs]) fun _ => ?_
    refine Yields.bind (blockLines_rounds hr (by omega) hstart honward) fun ms => ?_
    refine Yields.bind (closeBlock_spec fun s' hs => (hs.1.amid (by omega) hstart).sheet) fun _ => ?_
    refine Yields.bind (Q := fun _ s' => (Amid g { f with start := s₁ } 0 true ms s' ∧
      Onward f.indent s') ∧ Deep (f.indent + 2) s₁ s') (Yields.modify fun s' hs => ?_) fun _ => ?_
    · obtain ⟨hrounds, hleaves⟩ := hs
      have hblock : Amid g _ 0 false ([] ++ ms) s' := hrounds.amid (by omega) hstart
      obtain ⟨seg, hmoves, -⟩ := hblock.moves
      have hinner : Deep (f.indent + 2) s { s' with indent := f.indent } :=
        ⟨seg, hmoves.rest, fun u hu j hj => Nat.lt_of_lt_of_le (by simp) (hmoves.above u hu j hj)⟩
      rw [hindent]
      refine ⟨⟨hblock.restored hb hf (by simp only; omega), fun u hu => ?_⟩, hdeep.trans hinner⟩
      refine ⟨(hrounds.onward honward u hu).1, fun hux j hj => ?_⟩
      -- indentation goes by steps, so what is less than a step more is no more
      have hsteps := (((hb.fits ht).start _ hi).2 htext).2
      have hsteps' := (((hblock.fits hu).start _ hj).2 hux).2
      by_cases hend : u.shape = .stop
      · have := (hblock.fits hu).last hend
        rw [Option.mem_def.1 hj] at this
        obtain rfl := Option.some.inj this
        omega
      · have := hleaves u hu hend j hj
        omega
    · refine Yields.bind (Q := fun ms s' => (Amid g { f with start := s₁ } 0 true ms s' ∧
        Onward f.indent s') ∧ Deep (f.indent + 2) s₁ s') (Yields.pure fun s' hs => hs) fun ms => ?_
      refine Yields.bind Yields.get fun _ => Yields.pure fun s hs => ?_
      exact ⟨⟨(ha.trans (hs.1.1.1.wrap (by simp)) le_rfl).relax, hs.1.1.2⟩, hs.1.2⟩
  · simp [hstop, hindent] at hc

/-- The block behind what has been read of a header from `s₁` on. -/
theorem suite_deep (hf : f.rank = 0 ∧ f.depth = 0) (ha : Amid g f 0 c ns s₁)
    (hw : OnHeader g f.indent s₁) :
    Yields (Amid g { f with start := s₁, rank := 2 } 0 c' ms) (suite statement) fun n s =>
      (Amid g f 0 true (ns ++ ms ++ [n]) s ∧ Onward f.indent s) ∧ Deep (f.indent + 2) s₁ s := by
  intro s n s' hs h
  obtain ⟨hw', hdeep⟩ := hs.onHeader le_rfl ha.sheet hw
  have hrank : f.rank ≤ 2 := by omega
  obtain ⟨hamid, hdeep'⟩ := suite_makes hr hf (ha.trans hs hrank) hw' rfl h
  exact ⟨hamid, hdeep.trans hdeep'⟩

theorem suite_spec (hf : f.rank = 0 ∧ f.depth = 0) (ha : Amid g f 0 c ns s₁)
    (hw : OnHeader g f.indent s₁) :
    Yields (Amid g { f with start := s₁, rank := 2 } 0 c' ms) (suite statement) fun n s =>
      Amid g f 0 true (ns ++ ms ++ [n]) s ∧ Onward f.indent s :=
  (suite_deep hr hf ha hw).mono (fun _ hs => hs) fun _ _ hs => hs.1

end

/-- What stands in a header is read as an expression is. -/
theorem header_then {p : Read α} {Q : α → State → Prop}
    (h : ∀ s₁, Amid g f 0 c ns s₁ → OnHeader g f.indent s₁ →
      Yields (Poised g { f with start := s₁, rank := 2 } 0 false []) p Q) :
    Yields (fun s => Poised g f 0 c ns s ∧ OnHeader g f.indent s) p Q :=
  fun s _ _ hs hp => h s hs.1.1 hs.2 ⟨hs.1.1.start 2, hs.1.2⟩ hp

/-- The word that a compound statement begins with. -/
theorem keyword_spec (hx : x ∈ headers) :
    Yields (fun s => Amid g f 0 false [] s ∧ Starts g { f with start := s }) (expect x) fun _ s =>
      (Poised g f 0 true [] s ∧ OnHeader g f.indent s) ∧ f.rank = 0 ∧ f.depth = 0 := by
  have hwords : ∀ y ∈ headers, (y ≠ "." ∧ y ≠ "return" ∧ isReserved y = false) ∧ y ≠ ":" ∧
      weightOf y = 0 := by decide
  obtain ⟨hword, hcolon, hweight⟩ := hwords x hx
  refine Yields.bind (needed_spec fun _ hs => hs.1) fun t => Yields.ite (fun ht => ?_) fun _ =>
    Yields.fail
  refine consume_spec fun s hs => ?_
  obtain ⟨⟨ha, hs⟩, hfaces⟩ := hs
  have hrank : f.rank = 0 := hs.rank
  have htext : t.text = x := by
    simp only [Token.is, Bool.and_eq_true, beq_iff_eq] at ht
    exact ht.2
  have htaken := ha.take_word hfaces ht hword (by omega) fun h => (hcolon h).elim
  rw [hweight] at htaken
  exact ⟨⟨htaken, onHeader_after ha hfaces.head (hs.line t hfaces.head) (htext ▸ hx)⟩, hrank,
    hs.depth (ha.start f.rank)⟩

/-- The word of a further header of the statement. -/
theorem continues_then {p q : Read α} {Q : α → State → Prop} (hx : x = "elif" ∨ x = "else")
    (hf : f.rank = 0)
    (hp : Yields (fun s => Poised g f 0 true ns s ∧ OnHeader g f.indent s) p Q)
    (hq : Yields (fun s => Amid g f 0 c ns s ∧ Onward f.indent s) q Q) :
    Yields (fun s => Amid g f 0 c ns s ∧ Onward f.indent s)
      (do if ← continues x then p else q) Q := by
  have hword : x ∈ headers ∧ (x ≠ "." ∧ x ≠ "return" ∧ isReserved x = false) ∧ x ≠ ":" ∧
      weightOf x = 0 := by
    obtain rfl | rfl := hx <;> decide
  obtain ⟨hmem, hword, hcolon, hweight⟩ := hword
  refine Yields.bind (Q := fun r s => if r then Poised g f 0 true ns s ∧ OnHeader g f.indent s
    else Amid g f 0 c ns s ∧ Onward f.indent s) ?_ fun r => ?_
  · refine Yields.bind Yields.get fun s => ?_
    split
    · next t ht =>
      refine Yields.ite (fun hc => ?_) fun _ => Yields.pure fun s hs => hs.1
      simp only [Bool.and_eq_true] at hc
      refine Yields.bind (Q := fun _ s => Poised g f 0 true ns s ∧ OnHeader g f.indent s)
        (consume_spec fun s' hs => ?_) fun _ => Yields.pure fun s hs => hs
      obtain ⟨⟨ha, ho⟩, rfl⟩ := hs
      have htext : t.text = x := by
        have his := hc.1
        simp only [Token.is, Bool.and_eq_true, beq_iff_eq] at his
        exact his.2
      obtain ⟨hsome, hle⟩ := ho t ht
      obtain ⟨j, hj⟩ := Option.isSome_iff_exists.1 hsome
      replace hle := hle (by rw [htext]; obtain rfl | rfl := hx <;> decide) j hj
      have hfaces : Faces t s := by
        refine ⟨ht, ?_, by simpa [hj] using hc.2⟩
        rintro hstop
        simp [Token.is, hstop] at hc
      have hindent : t.indent = some f.indent := by
        have hle' := hfaces.above j hj
        rw [ha.indent] at hle'
        rw [hj]
        exact congrArg some (le_antisymm hle hle')
      have htaken := ha.take_word hfaces hc.1 hword (by omega) fun h => (hcolon h).elim
      rw [hweight] at htaken
      exact ⟨htaken, onHeader_after ha ht hindent (htext ▸ hmem)⟩
    · exact Yields.pure fun s hs => hs.1
  · cases r with
    | false => simpa using hq
    | true => simpa using hp

theorem spannedRuns_of_yields {pre : Frame → Prop} {p : Read (Kind × List Node)}
    (h : ∀ f : Frame, Yields (fun s => Amid g f 0 false [] s ∧ pre { f with start := s }) p
      fun r s => (Amid g f 0 true r.2 s ∧ Onward f.indent s) ∧ r.1 ≠ .call) :
    Runs g pre (spanned p) fun n => [n] := by
  refine Runs.of_yields fun f => Yields.bind (needed_spec fun _ hs => hs.1) fun t => ?_
  refine Yields.bind ((h f).weaken fun s hs => hs.1) fun r => ?_
  exact Yields.bind Yields.get fun _ => Yields.pure fun s hs => ⟨hs.1.1.1.wrap hs.1.2, hs.1.1.2⟩

section

variable (hr : LineByLine g statement)
include hr

theorem else_spec (hf : f.rank = 0 ∧ f.depth = 0) :
    Yields (fun s => Amid g f 0 true ns s ∧ Onward f.indent s)
      (elseSuites statement ["else"]) fun ms s =>
        Amid g f 0 true (ns ++ ms) s ∧ Onward f.indent s := by
  have hone : Yields (fun s => Amid g f 0 true ns s ∧ Onward f.indent s)
      (do if ← continues "else" then return [← suite statement] else return []) fun ms s =>
        Amid g f 0 true (ns ++ ms) s ∧ Onward f.indent s := by
    refine continues_then (by simp) hf.1 (header_then fun s₁ ha hw => ?_)
      (Yields.pure fun s hs => by simpa using hs)
    refine Yields.bind ((suite_spec hr hf ha hw).weaken fun _ hs => hs.1) fun n => ?_
    exact Yields.pure fun s hs => by simpa using hs
  simp only [elseSuites, List.mapM_cons, List.mapM_nil]
  refine Yields.bind (Yields.bind hone fun ms => Yields.bind (Q := fun l s => l = [] ∧
    Amid g f 0 true (ns ++ ms) s ∧ Onward f.indent s) (Yields.pure fun s hs => ⟨rfl, hs⟩)
    fun l => ?_) fun l => Yields.pure fun s hs => hs
  exact Yields.pure fun s hs => by simpa [hs.1] using hs.2

theorem ifStatement_runs : Runs g (Starts g) (ifStatement statement) fun n => [n] := by
  refine spannedRuns_of_yields fun f => Yields.bind (keyword_spec (by decide)) fun _ => ?_
  refine Yields.keep' (C := f.rank = 0 ∧ f.depth = 0) fun hf => header_then fun s₁ ha hw => ?_
  refine Yields.bind (expression_reads.first fun _ hs => hs) fun test => ?_
  refine Yields.bind (suite_spec hr hf ha hw) fun body => ?_
  refine Yields.bind (Yields.many (I := fun ns s => Amid g f 0 true ns s ∧ Onward f.indent s)
    (f := id) fun ns => ?_) fun elifs => ?_
  · refine continues_then (by simp) hf.1 (header_then fun s₁ ha hw => ?_)
      (Yields.pure fun s hs => by simpa using hs)
    refine Yields.bind (expression_reads.first fun _ hs => hs) fun test => ?_
    refine Yields.bind (suite_spec hr hf ha hw) fun body => ?_
    exact Yields.pure fun s hs => by simpa using hs
  · refine Yields.bind (else_spec hr hf) fun ms => Yields.pure fun s hs => ⟨?_, by simp⟩
    simpa using hs

omit hr in
/-- What no operand begins with is not there either in front of a statement. -/
theorem refuse_lead_spec (hx : x ∈ leads) :
    Yields (fun s => Amid g f 0 false [] s ∧ Starts g { f with start := s }) (accept x) fun _ s =>
      Amid g f 0 false [] s ∧ Starts g { f with start := s } := by
  intro s r s' hs h
  cases hrest : s.rest with
  | nil =>
    obtain ⟨o, u, ho, h⟩ := bind_eq_some.1 h
    obtain ⟨rfl, rfl⟩ := pure_eq_some.1 ho
    simp only [hrest, List.head?_nil, Option.filter_none] at h
    obtain ⟨-, rfl⟩ := pure_eq_some.1 h
    exact hs
  | cons t ts =>
    have hne := Fresh.not_is hs.2.begins.1 (t := t) (by simp [hrest]) hx
    cases refuse_gives hrest hne _ h
    exact hs

theorem forStatement_runs : Runs g (Starts g) (forStatement statement) fun n => [n] := by
  refine spannedRuns_of_yields fun f => ?_
  refine Yields.bind (refuse_lead_spec (by decide)) fun _ => ?_
  refine Yields.bind (keyword_spec (by decide)) fun _ => ?_
  refine Yields.keep' (C := f.rank = 0 ∧ f.depth = 0) fun hf => header_then fun s₁ ha hw => ?_
  refine Yields.bind ((targets_keeps value_reads).first fun _ hs => hs) fun ts => ?_
  refine Yields.bind (expect_spec 0 (by decide) fun _ hs => hs) fun _ => ?_
  refine Yields.bind (expressionList_reads.spec fun _ hs => hs) fun source => ?_
  refine Yields.bind (suite_spec hr hf ha hw) fun body => ?_
  refine Yields.bind (else_spec hr hf) fun ms => Yields.pure fun s hs => ⟨?_, by simp⟩
  simpa using hs

end

/-- A parameter stands in brackets. -/
theorem parameter_keeps (typed : Bool) :
    Keeps g (fun f => Fresh g f.start ∧ 0 < f.depth) true (parameter expression typed)
      fun n => [n] := by
  refine spanned_keeps fun f => ?_
  suffices h : 0 < f.depth → Yields (Amid g f 0 false []) _ _ from
    fun s r s' hs => h hs.2.2 hs.1
  intro hd
  have htype : Yields (Amid g f 0 true [])
      (do if typed then (do if ← accept ":" then return [← starred expression] else return [])
          else return []) (Amid g f 0 true) := by
    refine Yields.ite (fun _ => ?_) fun _ => Yields.pure fun s hs => hs
    refine accept_colon_then (fun _ => hd) (fun _ hs => hs) ?_ (Yields.pure fun s hs => hs)
    exact Yields.bind ((starred_reads expression_reads).first fun _ hs => hs) fun n =>
      Yields.pure fun s hs => hs
  have hname {P : State → Prop} {c : Bool} (hP : ∀ s, P s → Amid g f 0 c [] s) :
      Yields P Grammar.identifier fun _ => Amid g f 0 true [] :=
    (identifier_spec fun s hs => ⟨hP s hs, fun t ht => (hP s hs).indent_eq_none hd ht⟩).mono
      (fun _ hs => hs) fun _ _ hs => hs.1
  refine accept_then 0 (by decide) (fun _ hs => hs) (Yields.pure fun s hs => ⟨hs.1, by simp⟩) ?_
  refine accept_then 0 (by decide) (fun _ hs => hs) ?_ ?_
  · refine Yields.bind (hname fun _ hs => hs.1) fun _ => Yields.bind htype fun ms => ?_
    exact Yields.pure fun s hs => ⟨hs, by simp⟩
  refine accept_then 0 (by decide) (fun _ hs => hs) ?_ ?_
  · refine Yields.bind (inLine_spec fun _ hs => hs.1) fun _ => Yields.ite (fun _ => ?_) fun _ => ?_
    · refine Yields.bind (hname fun _ hs => hs.1.1) fun _ => Yields.bind htype fun ms => ?_
      exact Yields.pure fun s hs => ⟨hs, by simp⟩
    · exact Yields.pure fun s hs => ⟨hs.1.1, by simp⟩
  · refine Yields.bind (hname fun _ hs => hs) fun _ => Yields.bind htype fun ms => ?_
    refine accept_then 0 (by decide) (fun _ hs => hs) ?_ (Yields.pure fun s hs => ⟨hs, by simp⟩)
    exact Yields.bind (expression_reads.spec fun _ hs => hs) fun n =>
      Yields.pure fun s hs => ⟨hs, by simp⟩

/-- What stands behind the keyword of a function. -/
def signature (statement : Read (List Node)) : Read (Kind × List Node) := do
  let name ← Grammar.identifier
  let types ← typeParameters
  expect "("
  let ps ← nested (Grammar.parameters expression true ")")
  let result ← if ← accept "->" then pure [← starred expression] else pure []
  return (.function name.text, types ++ ps ++ result ++ [← suite statement])

theorem signature_spec (hr : LineByLine g statement) (hf : f.rank = 0 ∧ f.depth = 0)
    (ha : Amid g f 0 true [] s₁) (hw : OnHeader g f.indent s₁) :
    Yields (Poised g { f with start := s₁, rank := 2 } 0 false []) (signature statement) fun r s =>
      ((Amid g f 0 true r.2 s ∧ Onward f.indent s) ∧ r.1 ≠ .call) ∧ Deep (f.indent + 2) s₁ s := by
  obtain ⟨f₁, hf₁⟩ : ∃ f₁ : Frame, f₁ = { f with start := s₁, rank := 2 } := ⟨_, rfl⟩
  rw [← hf₁]
  refine Yields.bind (identifier_spec fun s hs => ⟨hs.1, fun t ht => ?_⟩) fun name => ?_
  · subst hf₁
    exact ((hs.1.onHeader le_rfl ha.sheet hw).1 t ht).1
  refine Yields.bind (Q := fun ms => Amid g f₁ 0 true ms) ?_ fun types => ?_
  · refine looksAt_then (fun _ hs => hs.1) ?_ (Yields.pure fun s hs => hs.1)
    exact Yields.bind ((bracketed_reads expression_reads value_reads).first fun _ hs =>
      ⟨hs.1.1, trivial⟩) fun n => Yields.pure fun s hs => hs
  refine Yields.bind (expect_spec 1 (by decide) fun _ hs => hs) fun _ => ?_
  refine Yields.bind (Q := fun ps s => Amid g f₁ 0 true (types ++ ps) s ∧ True) (nested_spec ?_)
    fun ps => ?_
  · refine accept_then (-1) (by decide) (fun _ hs => hs.1)
      (Yields.pure fun s hs => ⟨by simpa using hs.1, trivial⟩) ?_
    refine Yields.bind ((parameter_keeps true).spec fun s hs => ⟨hs.1, hs.2, ?_⟩) fun n => ?_
    · simp
    · refine Yields.bind (elements_spec (parameter_keeps true) (fun s hs => ⟨hs, by simp⟩)
        (by decide)) fun ms => Yields.pure fun s hs => ⟨by simpa using hs.1, trivial⟩
  have hend (result : List Node) : Yields (Amid g f₁ 0 true (types ++ ps ++ result))
      (do return (Kind.function name.text, types ++ ps ++ result ++ [← suite statement]))
      fun r s => ((Amid g f 0 true r.2 s ∧ Onward f.indent s) ∧ r.1 ≠ .call) ∧
        Deep (f.indent + 2) s₁ s := by
    subst hf₁
    refine Yields.bind (suite_deep hr hf ha hw) fun n => ?_
    exact Yields.pure fun s hs => ⟨⟨hs.1, by simp⟩, hs.2⟩
  refine accept_then 0 (by decide) (fun _ hs => hs.1) ?_ ?_
  · refine Yields.bind ((starred_reads expression_reads).spec fun _ hs => hs) fun n => ?_
    exact Yields.bind (Yields.pure fun s hs => hs) fun result => hend result
  · exact Yields.bind (Q := fun result => Amid g f₁ 0 true (types ++ ps ++ result))
      (Yields.pure fun s hs => by simpa using hs.1) fun result => hend result

theorem functionStatement_runs (hr : LineByLine g statement) :
    Runs g (Starts g) (functionStatement statement) fun n => [n] := by
  refine spannedRuns_of_yields fun f => ?_
  refine Yields.bind (refuse_lead_spec (by decide)) fun _ => ?_
  refine Yields.bind (keyword_spec (by decide)) fun _ => ?_
  refine Yields.keep' (C := f.rank = 0 ∧ f.depth = 0) fun hf => header_then fun s₁ ha hw => ?_
  exact (signature_spec hr hf ha hw).mono (fun _ hs => hs) fun _ _ hs => hs.1

/-- Below the header of a function all lines are indented more. -/
theorem functionStatement_deep (hr : LineByLine g statement) (ha : Amid g f 0 false [] f.start)
    (hs : Starts g f) (ht : f.start.rest = t :: ts) :
    Yields (· = f.start) (functionStatement statement) fun _ s =>
      Deep (f.indent + 2) (after t f.start) s := by
  refine Yields.bind needed_head fun _ => ?_
  refine Yields.bind (Q := fun _ s => Deep (f.indent + 2) (after t f.start) s) ?_ fun _ =>
    Yields.bind Yields.get fun _ => Yields.pure fun s hs => hs.1
  rintro _ r s ⟨-, rfl⟩ h
  obtain ⟨b, s₁, hb, h₁⟩ := bind_eq_some.1 h
  have hne := Fresh.not_is hs.begins.1 (t := t) (by simp [ht]) (show "async" ∈ leads by decide)
  cases refuse_gives ht hne _ hb
  obtain ⟨_, s₂, hexpect, h₂⟩ := bind_eq_some.1 h₁
  obtain ⟨⟨hpoised, hw⟩, hf⟩ := keyword_spec (f := f) (by decide) ⟨ha, hs⟩ hexpect
  obtain ⟨u, s₃, hu, h₃⟩ := bind_eq_some.1 hexpect
  cases needed_gives ht _ hu
  split at h₃
  · cases h₃
    exact (signature_spec hr hf hpoised.1 hw ⟨hpoised.1.start 2, hpoised.2⟩ h₂).2
  · cases h₃

/-- A `match` is read at most up to a colon at the end of its line: no cases stand below. -/
theorem matchStatement_runs (statement : Read (List Node)) :
    Runs g (Starts g) (matchStatement statement) fun n => [n] := by
  refine spannedRuns_of_yields fun f => ?_
  suffices h : ∀ s₀, Amid g f 0 false [] s₀ → Starts g { f with start := s₀ } →
      Yields (Amid g { f with start := s₀, rank := 1 } 0 false []) _ _ from
    fun s r s' hs => h s hs.1 hs.2 (hs.1.start 1)
  intro s₀ ha hs
  have hrank : f.rank = 0 := hs.rank
  obtain ⟨f₁, hf₁⟩ : ∃ f₁ : Frame, f₁ = { f with start := s₀, rank := 1 } := ⟨_, rfl⟩
  rw [← hf₁]
  refine Yields.bind (expect_spec 0 (by decide) fun _ hs => hs) fun _ => ?_
  refine Yields.bind (expressionList_reads.first fun _ hs => hs) fun subject => ?_
  refine Yields.bind (expect_colon_spec (by rw [hf₁]; simp) fun _ hs => hs) fun _ => ?_
  refine Yields.bind Yields.get fun s => ?_
  split
  · exact Yields.fail
  · next i hi =>
    obtain ⟨t, ht, hi⟩ := Option.bind_eq_some_iff.1 hi
    have hdone (ms : List Node) (h : Amid g f₁ 0 true ms s) :
        Amid g f 0 true ms s ∧ Onward f.indent s ∧ s.indent = f.indent := by
      subst hf₁
      refine ⟨ha.trans h (by simp [hrank]), fun u hu => ⟨?_, h.flat le_rfl ha.sheet hs.line u hu⟩,
        h.indent⟩
      obtain rfl : t = u := Option.some.inj (ht.symm.trans hu)
      simp [hi]
    refine Yields.ite (fun _ => Yields.pure fun s' hs' => ?_) fun hc => ?_
    · obtain ⟨hs', rfl⟩ := hs'
      obtain ⟨hamid, honward, -⟩ := hdone _ hs'.1
      exact ⟨⟨hamid, honward⟩, by simp⟩
    suffices h : Amid g f₁ 0 true [subject] s → Yields (· = s) _ _ from
      fun s' r s'' hs' => h (hs'.2 ▸ hs'.1.1) hs'.2.symm
    intro hamid
    obtain ⟨hamid, honward, hindent⟩ := hdone _ hamid
    -- a deeper line can only begin with an equals sign, which is no case
    have hcase : t.is "case" = false := by
      by_contra his
      have htext : t.text = "case" := by simp_all [Token.is]
      have := (honward t ht).2 (by rw [htext]; decide) i hi
      omega
    refine Yields.bind (Q := fun _ s' => s' = { s with indent := i })
      (Yields.modify fun s' hs' => by rw [hs']) fun _ => ?_
    refine Yields.bind (Q := fun l s' => l = [] ∧ s' = { s with indent := i })
      (fun s' l s'' hs' h => ?_) fun cases => ?_
    · have hround : Gives (continues "case") s' false s' := by
        refine .bind .get ?_
        rw [hs']
        simp only [ht, hcase, Bool.false_and]
        exact .ite_neg (by simp) .pure
      cases Gives.many_nil (.bind hround (.ite_neg (by simp) .pure)) _ h
      exact ⟨rfl, hs'⟩
    refine Yields.bind (closeBlock_spec (g := g) fun s' hs' => ?_) fun _ => ?_
    · rw [hs'.2]
      exact hamid.sheet
    refine Yields.bind (Q := fun _ s' => cases = [] ∧ s' = s) (Yields.modify fun s' hs' => ?_)
      fun _ => Yields.pure fun s' hs' => ?_
    · exact ⟨hs'.1, by rw [hs'.2]⟩
    · obtain ⟨rfl, rfl⟩ := hs'
      exact ⟨⟨by simpa using hamid, honward⟩, by simp⟩

section Kinds

theorem kindOf_of_ne (h : ∀ t ∈ ts.head?, t.text ≠ "def") : kindOf ts = .statement := by
  unfold kindOf
  split
  · next t u us => exact if_neg (h t rfl)
  · rfl

theorem ifStatement_kind (statement : Read (List Node)) :
    Yields (· = s') (ifStatement statement) fun n _ => n.kind = .statement := by
  refine spanned_kind (Yields.bind Yields.trivial fun _ => Yields.bind Yields.trivial fun _ => ?_)
  refine Yields.bind Yields.trivial fun _ => Yields.bind Yields.trivial fun _ => ?_
  exact Yields.bind Yields.trivial fun _ => Yields.pure fun _ _ => rfl

theorem forStatement_kind (statement : Read (List Node)) :
    Yields (· = s') (forStatement statement) fun n _ => n.kind = .statement := by
  refine spanned_kind (Yields.bind Yields.trivial fun _ => Yields.bind Yields.trivial fun _ => ?_)
  refine Yields.bind Yields.trivial fun _ => Yields.bind Yields.trivial fun _ => ?_
  refine Yields.bind Yields.trivial fun _ => Yields.bind Yields.trivial fun _ => ?_
  exact Yields.bind Yields.trivial fun _ => Yields.pure fun _ _ => rfl

theorem matchStatement_kind (statement : Read (List Node)) :
    Yields (· = s') (matchStatement statement) fun n _ => n.kind = .statement := by
  refine spanned_kind (Yields.bind Yields.trivial fun _ => Yields.bind Yields.trivial fun _ => ?_)
  refine Yields.bind Yields.trivial fun _ => Yields.bind Yields.trivial fun s => ?_
  split
  · exact Yields.fail
  refine Yields.ite (fun _ => Yields.pure fun _ _ => rfl) fun _ => ?_
  refine Yields.bind Yields.trivial fun _ => Yields.bind Yields.trivial fun _ => ?_
  refine Yields.bind Yields.trivial fun _ => Yields.bind Yields.trivial fun _ => ?_
  exact Yields.pure fun _ _ => rfl

/-- A function has the name behind its keyword. -/
theorem functionStatement_kind (statement : Read (List Node)) (ht : t.text = "def") :
    Yields (fun s => s = s' ∧ s.rest = t :: ts) (functionStatement statement) fun n _ =>
      n.kind = kindOf (t :: ts) := by
  suffices h : s'.rest = t :: ts → Yields (· = s') (functionStatement statement) fun n _ =>
      n.kind = kindOf (t :: ts) from fun s n s'' hs => h (hs.1 ▸ hs.2) hs.1
  intro hrest
  have hdef : ∀ r s'', expect "def" s' = some (r, s'') → t.is "def" := by
    intro r s'' h
    obtain ⟨u, s₁, hu, h⟩ := bind_eq_some.1 h
    cases needed_gives hrest _ hu
    split at h
    · assumption
    · cases h
  refine spanned_kind ?_
  intro s r s'' hs h
  subst hs
  obtain ⟨b, s₁, hb, h₁⟩ := bind_eq_some.1 h
  cases refuse_gives hrest (by simp [Token.is, ht]) _ hb
  obtain ⟨_, s₂, hexpect, h₂⟩ := bind_eq_some.1 h₁
  cases expect_gives hrest (hdef _ _ hexpect) _ hexpect
  obtain ⟨name, s₃, hname, h₃⟩ := bind_eq_some.1 h₂
  have hts : ∃ us, ts = name :: us := by
    cases hr : (after t s).rest with
    | nil =>
      obtain ⟨u, s₄, hu, -⟩ := bind_eq_some.1 hname
      have := (needed_head rfl hu).1
      simp [hr] at this
    | cons u us =>
      cases identifier_gives hr _ hname
      exact ⟨us, by simpa [after, hrest] using hr⟩
  obtain ⟨us, rfl⟩ := hts
  have hend : Yields (fun _ => True) (do
      let types ← typeParameters
      expect "("
      let ps ← nested (parameters expression true ")")
      let result ← if ← accept "->" then pure [← starred expression] else pure []
      return (Kind.function name.text, types ++ ps ++ result ++ [← suite statement]))
      fun r _ => r.1 = .function name.text := by
    refine Yields.bind Yields.trivial fun _ => Yields.bind Yields.trivial fun _ => ?_
    refine Yields.bind Yields.trivial fun _ => Yields.bind Yields.trivial fun _ => ?_
    refine Yields.ite (fun _ => ?_) fun _ => ?_
    · refine Yields.bind Yields.trivial fun _ => Yields.bind Yields.trivial fun _ => ?_
      exact Yields.bind Yields.trivial fun _ => Yields.pure fun _ _ => rfl
    · refine Yields.bind Yields.trivial fun _ => ?_
      exact Yields.bind Yields.trivial fun _ => Yields.pure fun _ _ => rfl
  simpa [kindOf, ht] using hend True.intro h₃

end Kinds

theorem line_lines (hr : LineByLine g statement) : LineByLine g (line statement) := by
  refine ⟨?_, fun s t ht hx => Option.eq_none_iff_forall_ne_some.2 fun r hr =>
    line_refuses hx statement ht hr⟩
  intro f ha hs ns s h
  obtain ⟨t, s₁, ht, h₁⟩ := bind_eq_some.1 h
  obtain ⟨hhead, rfl⟩ := needed_head rfl ht
  obtain ⟨second, s₂, hsecond, h₂⟩ := bind_eq_some.1 h₁
  obtain ⟨-, rfl⟩ := pure_eq_some.1 hsecond
  obtain ⟨_, _, hget, h₃⟩ := bind_eq_some.1 h₂
  cases hget
  have hone {p : Read Node} (hp : Runs g (Starts g) p fun n => [n])
      (hspans : Yields (· = f.start) p (Spans f.start))
      (hkind : Yields (· = f.start) p fun n _ => n.kind = kindOf f.start.rest)
      (hdeep : t.text = "def" → Yields (· = f.start) p fun _ s =>
        Deep (f.indent + 2) (after t f.start) s)
      (h : (do return [← p]) f.start = some (ns, s)) : ∃ n, ns = [n] ∧ Makes g f n s := by
    obtain ⟨n, s₁, hn, h⟩ := bind_eq_some.1 h
    obtain ⟨rfl, rfl⟩ := pure_eq_some.1 h
    obtain ⟨hamid, honward⟩ := hp f ha hs n s₁ hn
    refine ⟨n, rfl, hamid, honward, hspans rfl hn, hkind rfl hn, fun u us hrest hu => ?_⟩
    obtain rfl : t = u := by simpa [hrest] using hhead.symm
    exact hdeep hu rfl hn
  have hword {x : String} (h : (if t.shape = .name || t.is "@" then t.text else "") = x)
      (hx : x ≠ "") : t.text = x := by
    split at h
    · exact h
    · exact (hx h.symm).elim
  have hlead {x : String} (h : (if t.shape = .name || t.is "@" then t.text else "") = x)
      (hx : x ∈ leads) : ∃ n, ns = [n] ∧ Makes g f n s :=
    (hs.begins.1.text_ne hhead hx (hword h (by rintro rfl; revert hx; decide))).elim
  have hkind (hne : t.text ≠ "def") : kindOf f.start.rest = .statement :=
    kindOf_of_ne fun u hu => by rwa [← Option.some.inj (hhead.symm.trans hu)]
  have hkindOf {p : Read Node} (hne : t.text ≠ "def")
      (h : Yields (· = f.start) p fun n _ => n.kind = .statement) :
      Yields (· = f.start) p fun n _ => n.kind = kindOf f.start.rest :=
    h.mono (fun _ hs => hs) fun n _ hn => hn.trans (hkind hne).symm
  have hsimples (fuel : Nat) (hne : t.text ≠ "def") (h : simples fuel f.start = some (ns, s)) :
      ∃ n, ns = [n] ∧ Makes g f n s := by
    obtain ⟨n, rfl, hamid, hline, hspans, hstatement⟩ :=
      simples_line fuel (f := { f with rank := 1 }) (ha.start 1) le_rfl hs.begins h
    have hflat := hamid.flat le_rfl ha.sheet hs.line
    refine ⟨n, rfl, hamid.lower (by simp [hs.rank]), fun u hu => ?_, hspans,
      hstatement.trans (hkind hne).symm, fun u us hrest hu => ?_⟩
    · exact ⟨hline u hu, hflat u hu⟩
    · obtain rfl : t = u := by simpa [hrest] using hhead.symm
      exact (hne hu).elim
  dsimp only at h₃
  generalize hx : (if t.shape = .name || t.is "@" then t.text else "") = word at h₃
  split at h₃
  · have hne : t.text ≠ "def" := by rw [hword hx (by decide)]; decide
    exact hone (ifStatement_runs hr) spanned_spans (hkindOf hne (ifStatement_kind _))
      (fun hu => (hne hu).elim) h₃
  · exact hlead hx (by decide)
  · have hne : t.text ≠ "def" := by rw [hword hx (by decide)]; decide
    exact hone (forStatement_runs hr) spanned_spans (hkindOf hne (forStatement_kind _))
      (fun hu => (hne hu).elim) h₃
  · exact hlead hx (by decide)
  · exact hlead hx (by decide)
  · have hrest : f.start.rest = t :: f.start.rest.tail := (List.cons_head?_tail hhead).symm
    refine hone (functionStatement_runs hr) spanned_spans ?_
      (fun _ => functionStatement_deep hr ha hs hrest) h₃
    rw [hrest]
    exact (functionStatement_kind _ (hword hx (by decide))).weaken fun s hs =>
      ⟨hs, hs ▸ hrest⟩
  · exact hlead hx (by decide)
  · exact hlead hx (by decide)
  · exact hlead hx (by decide)
  · have hne : t.text ≠ "def" := by rw [hword hx (by decide)]; decide
    obtain h | ⟨-, h⟩ := Option.or_eq_some_iff.1 h₃
    · exact hsimples _ hne h
    · exact hone (matchStatement_runs _) spanned_spans (hkindOf hne (matchStatement_kind _))
        (fun hu => (hne hu).elim) h
  · next hdef _ _ _ _ =>
    refine hsimples _ (fun htext => hdef ?_) h₃
    have hi : t.indent.isSome := by simp [hs.line t hhead]
    have hshape := (ha.fits hhead).called (.inr (by rw [htext]; decide))
    simp [← hx, hshape, htext]

theorem lineAt_lines (k : Nat) : LineByLine g (Grammar.lineAt k) := by
  induction k with
  | zero =>
    refine ⟨fun f _ _ ns s h => ?_, fun _ _ _ _ => rfl⟩
    cases h
  | succ k ih => exact line_lines ih

end Stencil.Flatten
