import Mathlib.Algebra.Ring.Int.Defs
import Mathlib.Data.List.Chain
import Stencil.Proofs.Code.Quoted
import Stencil.Proofs.Compile.Phrase
import Stencil.Proofs.Flatten.Strip

/-!
Lines of code by what they are put together from: statements, headers of blocks and directives. The
tokens of each are a strip of a sheet.
-/
namespace Stencil.Flatten
open Code Grammar Token Text Atom

variable {g : Page} {gap : Gap} {c : Char} {r o i : Nat} {d e : Nat} {a : Atom} {as bs : List Atom} {t u : Token}
  {us vs ws : List Token} {clean : Prop} {free : Bool}

/-! ### The tokens of one part -/

/-- How many brackets a part opens. -/
def weight : Atom → Int
  | symbol s => weightOf s
  | _ => 0

/-- How many brackets some parts open. -/
def balance (as : List Atom) : Int := (as.map weight).sum

/-- A part on one line, with no sign of a second statement or of a decorator. -/
structure Sound (a : Atom) : Prop extends a.Mild where
  single : a ≠ symbol ";" ∧ a ≠ symbol "@"

/-- The tokens of a part that is no blank. -/
inductive Part (r : Nat) (gap : Gap) (o : Nat) : Atom → List Token → Prop
  | word (cs : List Char) : Part r gap o (word cs) [tokenOf r gap o .name cs]
  | quoted (cs : List Char) : Part r gap o (quoted cs) [tokenOf r gap o .quoted cs]
  | symbol (s : String) : Part r gap o (symbol s) [tokenOf r gap o .symbol s.toList]
  | member (cs : List Char) : Part r gap o (member cs)
      [tokenOf r gap o .symbol ['.'], tokenOf r within (o + 1) .name cs]
  | number {cs : List Char} {vs : List Token} (h : Scraps cs r gap vs) : Part r gap o (number cs) vs

theorem written_cons (h : Written r gap o (a :: as) us) :
    (a = .blank ∧ Written r gap (o + 1) as us) ∨
      ∃ vs ws, us = vs ++ ws ∧ Part r gap o a vs ∧ Written r within (o + a.chars.length) as ws := by
  cases h with
  | blank h => exact .inl ⟨rfl, h⟩
  | word h => exact .inr ⟨_, _, rfl, .word _, h⟩
  | quoted h => exact .inr ⟨_, _, rfl, .quoted _, h⟩
  | symbol h => exact .inr ⟨_, _, rfl, .symbol _, h⟩
  | member h =>
    refine .inr ⟨_, _, rfl, .member _, ?_⟩
    rwa [chars, List.length_cons, Nat.add_comm _ 1, ← Nat.add_assoc]
  | number hcs h => exact .inr ⟨_, _, rfl, .number hcs, h⟩

theorem Part.written (hpart : Part r gap o a vs) (h : Written r within (o + a.chars.length) as ws) :
    Written r gap o (a :: as) (vs ++ ws) := by
  cases hpart with
  | word => exact .word h
  | quoted => exact .quoted h
  | symbol => exact .symbol h
  | member =>
    rw [chars, List.length_cons, Nat.add_comm _ 1, ← Nat.add_assoc] at h
    exact .member h
  | number hcs => exact .number hcs h

/-- What is known of the tokens of a part. -/
structure PartSpec (r : Nat) (gap : Gap) (a : Atom) (vs : List Token) : Prop where
  tokens : ∀ t ∈ vs, Shaped t ∧ t.row = r ∧ t.endRow = r
  head : ∃ t rest, vs = t :: rest ∧ t.indent = gap.indent ∧ t.comments = gap.comments ∧
    ∀ u ∈ rest, u.indent = none ∧ u.comments = []
  owed : owed vs = -weight a
  last : ∀ t ∈ vs.getLast?, t.text ≠ "."

theorem text_tokenOf (r : Nat) (gap : Gap) (o : Nat) (shape : Shape) (cs : List Char) :
    (tokenOf r gap o shape cs).text.toList = cs := by simp [tokenOf]

theorem shaped_name {cs : List Char} (h : isIdentifier cs) : Shaped (tokenOf r gap o .name cs) := by
  simpa [Shaped, tokenOf] using h

theorem shaped_symbol {s : String} (h : s ∈ symbols) (hs : s ≠ ";" ∧ s ≠ "@") :
    Shaped (tokenOf r gap o .symbol s.toList) := by
  simpa [Shaped, tokenOf] using ⟨h, hs⟩

theorem shaped_scrap {cs : List Char} (h : Scrap cs t) : Shaped t := by
  cases h with
  | number hshape htext => simpa [Shaped, hshape] using htext
  | name hshape _ hname => simpa [Shaped, hshape] using hname
  | symbol hshape htext =>
    simp only [List.mem_cons, List.not_mem_nil, or_false] at htext
    simp only [Shaped, hshape]
    obtain h | h | h := htext <;> rw [h] <;> decide

/-- Tokens that are no brackets. -/
theorem owed_eq_zero (h : ∀ t ∈ vs, weightOf t.text = 0) : owed vs = 0 := by
  induction vs with
  | nil => rfl
  | cons t vs ih =>
    rw [List.forall_mem_cons] at h
    rw [owed, ih h.2, h.1, Int.sub_zero]

theorem weightOf_scrap {cs : List Char} (h : Scrap cs t) : weightOf t.text = 0 := by
  by_cases hs : t.shape = .symbol
  · cases h with
    | symbol _ htext =>
      simp only [List.mem_cons, List.not_mem_nil, or_false] at htext
      obtain h | h | h := htext <;> rw [h] <;> decide
    | number h => simp [h] at hs
    | name h => simp [h] at hs
  · exact ((shaped_scrap h).shaped hs).1

theorem Part.spec (h : Part r gap o a vs) (ha : Sound a) : PartSpec r gap a vs := by
  have hvalid := ha.valid
  cases h with
  | word cs =>
    have hshaped : Shaped (tokenOf r gap o .name cs) := shaped_name hvalid
    have hplain := hshaped.shaped (by simp [tokenOf])
    exact ⟨by simpa using ⟨hshaped, rfl, rfl⟩, ⟨_, [], rfl, rfl, rfl, by simp⟩,
      by simp [owed, hplain.1, weight], by simpa using hplain.2.1⟩
  | quoted cs =>
    obtain ⟨q, inside, hq, rfl, -⟩ := hvalid.quoted
    have hshaped : Shaped (tokenOf r gap o .quoted (q :: inside ++ [q])) := by
      simpa [Shaped, tokenOf] using hq
    have hplain := hshaped.shaped (by simp [tokenOf])
    exact ⟨by simpa using ⟨hshaped, rfl, rfl⟩, ⟨_, [], rfl, rfl, rfl, by simp⟩,
      by rw [owed, owed, hplain.1]; rfl, by simpa using hplain.2.1⟩
  | symbol s =>
    have hshaped : Shaped (tokenOf r gap o .symbol s.toList) :=
      shaped_symbol hvalid.1 ⟨fun h => ha.single.1 (h ▸ rfl), fun h => ha.single.2 (h ▸ rfl)⟩
    exact ⟨by simpa using ⟨hshaped, rfl, rfl⟩, ⟨_, [], rfl, rfl, rfl, by simp⟩,
      by simp [owed, weight, tokenOf], by simpa [tokenOf] using hvalid.2⟩
  | member cs =>
    have hshaped : Shaped (tokenOf r within (o + 1) .name cs) := shaped_name hvalid
    have hplain := hshaped.shaped (by simp [tokenOf])
    have hdot : Shaped (tokenOf r gap o .symbol ['.']) := shaped_symbol (s := ".") (by decide) (by decide)
    refine ⟨by simpa using ⟨⟨hdot, rfl, rfl⟩, hshaped, rfl, rfl⟩,
      ⟨_, _, rfl, rfl, rfl, by simp [tokenOf, within]⟩, ?_, by simpa using hplain.2.1⟩
    have hpoint : weightOf (tokenOf r gap o .symbol ['.']).text = 0 := rfl
    simp [owed, hplain.1, hpoint, weight]
  | number h =>
    obtain ⟨t, rest, rfl, hindent, hcomments, hrest, -⟩ := h.head
    refine ⟨fun u hu => ⟨shaped_scrap (h.scrap u hu), h.rows u hu⟩,
      ⟨t, rest, rfl, hindent, hcomments, hrest⟩, ?_, fun u hu => ?_⟩
    · rw [owed_eq_zero fun u hu => weightOf_scrap (h.scrap u hu)]
      rfl
    · have hmem := List.mem_of_getLast? hu
      exact ((shaped_scrap (h.scrap u hmem)).shaped (h.last u hu)).2.1

/-- A colon is a part of its own. -/
theorem Part.colon (h : Part r gap o a vs) (ha : Sound a) (t : Token) (ht : t ∈ vs) (htext : t.text = ":") :
    a = .symbol ":" ∧ vs = [t] := by
  have hsymbol : t.shape = .symbol := by
    by_contra hs
    exact (((h.spec ha).tokens t ht).1.shaped hs).2.2 htext
  cases h with
  | word cs | quoted cs =>
    obtain rfl := List.mem_singleton.1 ht
    cases hsymbol
  | symbol s =>
    obtain rfl := List.mem_singleton.1 ht
    exact ⟨by simpa [tokenOf] using htext, rfl⟩
  | member cs =>
    simp only [List.mem_cons, List.not_mem_nil, or_false] at ht
    obtain rfl | rfl := ht
    · exact absurd htext (by decide : String.ofList ['.'] ≠ ":")
    · cases hsymbol
  | number h =>
    cases h.scrap t ht with
    | number hs | name hs => simp [hs] at hsymbol
    | symbol _ hx =>
      rw [htext] at hx
      simp at hx

/-! ### The tokens of a line -/

theorem written_tokens (h : Written r gap o as us) (has : ∀ a ∈ as, Sound a) :
    ∀ t ∈ us, Shaped t ∧ t.row = r ∧ t.endRow = r := by
  induction as generalizing gap o us with
  | nil =>
    cases h
    simp
  | cons a as ih =>
    rw [List.forall_mem_cons] at has
    obtain ⟨rfl, hrow⟩ | ⟨vs, ws, rfl, hpart, hrow⟩ := written_cons h
    · exact ih hrow has.2
    · exact List.forall_mem_append.2 ⟨(hpart.spec has.1).tokens, ih hrow has.2⟩

/-- Only the first token has something in front of it. -/
theorem written_gaps (h : Written r gap o as us) (has : ∀ a ∈ as, Sound a) :
    (∀ t ∈ us.head?, t.indent = gap.indent ∧ t.comments = gap.comments) ∧
      ∀ t ∈ us.tail, t.indent = none ∧ t.comments = [] := by
  induction as generalizing gap o us with
  | nil =>
    cases h
    simp
  | cons a as ih =>
    rw [List.forall_mem_cons] at has
    obtain ⟨rfl, hrow⟩ | ⟨vs, ws, rfl, hpart, hrow⟩ := written_cons h
    · exact ih hrow has.2
    · obtain ⟨t, rest, rfl, hindent, hcomments, hrest⟩ := (hpart.spec has.1).head
      obtain ⟨hhead, htail⟩ := ih hrow has.2
      refine ⟨by simpa using ⟨hindent, hcomments⟩, List.forall_mem_append.2 ⟨hrest, ?_⟩⟩
      cases ws with
      | nil => simp
      | cons w ws => exact List.forall_mem_cons.2 ⟨hhead w rfl, htail⟩

theorem written_owed (h : Written r gap o as us) (has : ∀ a ∈ as, Sound a) :
    owed us = -balance as := by
  induction as generalizing gap o us with
  | nil =>
    cases h
    rfl
  | cons a as ih =>
    rw [List.forall_mem_cons] at has
    rw [balance, List.map_cons, List.sum_cons, ← balance]
    obtain ⟨rfl, hrow⟩ | ⟨vs, ws, rfl, hpart, hrow⟩ := written_cons h
    · rw [ih hrow has.2, show weight .blank = 0 from rfl, Int.zero_add]
    · rw [owed_append, (hpart.spec has.1).owed, ih hrow has.2, Int.neg_add]

theorem written_last (h : Written r gap o as us) (has : ∀ a ∈ as, Sound a) :
    ∀ t ∈ us.getLast?, t.text ≠ "." := by
  induction as generalizing gap o us with
  | nil =>
    cases h
    simp
  | cons a as ih =>
    rw [List.forall_mem_cons] at has
    obtain ⟨rfl, hrow⟩ | ⟨vs, ws, rfl, hpart, hrow⟩ := written_cons h
    · exact ih hrow has.2
    · intro t ht
      rcases Option.or_eq_some_iff.1 ((List.getLast?_append ..).symm.trans ht) with ht | ⟨-, ht⟩
      · exact ih hrow has.2 t ht
      · exact (hpart.spec has.1).last t ht

/-- Names that stand behind numbers and points begin nothing. -/
theorem readable_append (hvs : ∀ t ∈ vs, Shaped t) (hhead : ∀ t ∈ vs.head?, free → t.shape ≠ .name)
    (hlinked : vs.IsChain Linked) (hws : ∀ flag, Readable clean flag ws) :
    Readable clean free (vs ++ ws) := by
  induction vs generalizing free with
  | nil => exact hws free
  | cons t vs ih =>
    obtain ⟨ht, hvs⟩ := List.forall_mem_cons.1 hvs
    refine ⟨fun hfree => ?_, ih hvs (fun u hu hflag => ?_) (List.IsChain.of_cons hlinked)⟩
    · have hname : t.shape ≠ .name := hhead t rfl hfree
      refine ⟨ht.isLead_eq_false hname, fun _ htext => (hname ?_).elim⟩
      exact ht.of_isWordy (by rw [htext]; decide)
    · intro hname
      have hlink : Linked t u := hlinked.rel_head? hu
      obtain hs | hs := hlink hname <;> simp [hs] at hflag

/-- What is taken of the runtime module stands right behind it. -/
theorem drawn_of_clear {cs : List Char} (h : Written r within (o + cs.length) as ws)
    (hclear : Clear (word cs :: as)) : Drawn (tokenOf r gap o .name cs) ws := by
  intro hcs
  have hruntime : word cs = runtime := by rw [runtime, ← hcs, text_tokenOf]
  obtain ⟨b, hb, hdrawn⟩ := hclear.1 hruntime
  cases as with
  | nil => cases hb
  | cons c as =>
    obtain rfl : c = b := by simpa using hb
    cases h with
    | member h =>
      simp only [isDrawn, Bool.and_eq_true, bne_iff_ne] at hdrawn
      refine ⟨_, _, _, rfl, rfl, rfl, rfl, rfl, fun htext => hdrawn.1 ?_, fun htext => hdrawn.2 ?_⟩
      · rw [← htext, text_tokenOf]
      · rw [← htext, text_tokenOf]
    | blank | word | quoted | symbol | number => simp [isDrawn] at hdrawn

theorem written_readable (h : Written r gap o as us) (has : ∀ a ∈ as, Sound a)
    (hclear : clean → Clear as) (free : Bool) : Readable clean free us := by
  induction as generalizing gap o us free with
  | nil =>
    cases h
    exact True.intro
  | cons a as ih =>
    obtain ⟨ha, hsound⟩ := List.forall_mem_cons.1 has
    have hrest (hc : clean) : Clear as := (hclear hc).2
    obtain ⟨rfl, hrow⟩ | ⟨vs, ws, rfl, hpart, hrow⟩ := written_cons h
    · exact ih hrow hsound hrest free
    · have hall : ∀ flag, Readable clean flag ws := fun flag => ih hrow hsound hrest flag
      have hspec := hpart.spec ha
      have hshaped : ∀ t ∈ vs, Shaped t := fun t ht => (hspec.tokens t ht).1
      cases hpart with
      | word cs =>
        refine ⟨fun _ => ⟨?_, fun hc => drawn_of_clear hrow (hclear hc)⟩, hall _⟩
        simpa [isLead, tokenOf] using ha.lead cs rfl
      | quoted cs | symbol s => exact readable_append hshaped (by simp [tokenOf]) (by simp) hall
      | member cs =>
        exact readable_append hshaped (by simp [tokenOf]) (by simp [Linked, tokenOf]) hall
      | number hs =>
        refine readable_append hshaped (fun t ht _ hname => ?_) hs.linked hall
        obtain ⟨u, rest, rfl, -, -, -, hstart⟩ := hs.head
        obtain rfl : u = t := by simpa using ht
        obtain ⟨c, hc, hstart⟩ := hstart hname
        obtain ⟨c', hc', hdigit⟩ := ha.digit _ rfl
        obtain rfl : c = c' := Option.some.inj (hc.symm.trans hc')
        simp [isDigit_of_isIdentifierStart hstart] at hdigit

/-! ### Headers -/

theorem step_weight (h : Atom.step d a = some e) : (e : Int) = d + weight a := by
  cases a with
  | symbol s =>
    simp only [Atom.step] at h
    simp only [weight, weightOf]
    split at h
    · next hopen =>
      rw [if_pos hopen]
      simp only [Option.some.injEq] at h
      omega
    · next hopen =>
      rw [if_neg hopen]
      split at h
      · next hclose =>
        rw [if_pos hclose]
        split at h
        · cases h
        · simp only [Option.some.injEq] at h
          omega
      · next hclose =>
        rw [if_neg hclose]
        split at h
        · cases h
        · simp only [Option.some.injEq] at h
          omega
  | word | number | quoted | member | blank =>
    simp only [Atom.step, Option.some.injEq] at h
    simp only [weight, h, Int.add_zero]

theorem steps_balance (h : steps d as = some e) : (e : Int) = d + balance as := by
  induction as generalizing d with
  | nil =>
    cases h
    simp [balance]
  | cons a as ih =>
    rw [steps_cons] at h
    obtain ⟨f, hf, hrest⟩ := Option.bind_eq_some_iff.1 h
    have := ih hrest
    have := step_weight hf
    rw [balance, List.map_cons, List.sum_cons, ← balance]
    omega

/-- A colon that is read as one stands in brackets that are closed behind it. -/
theorem written_colon (h : Written r gap o as us) (has : ∀ a ∈ as, Sound a)
    (hsteps : steps d as = some e) : ∀ vs t ws, us = vs ++ t :: ws → t.text = ":" →
      0 < owed (t :: ws) + e := by
  induction as generalizing gap o us d with
  | nil =>
    cases h
    simp
  | cons a as ih =>
    obtain ⟨ha, hsound⟩ := List.forall_mem_cons.1 has
    rw [steps_cons] at hsteps
    obtain ⟨f, hf, hrest⟩ := Option.bind_eq_some_iff.1 hsteps
    obtain ⟨rfl, hrow⟩ | ⟨xs, ys, rfl, hpart, hrow⟩ := written_cons h
    · exact ih hrow hsound hrest
    · intro vs t ws hsplit htext
      rcases List.append_eq_append_iff.1 hsplit with ⟨zs, rfl, hys⟩ | ⟨zs, rfl, hzs⟩
      · exact ih hrow hsound hrest zs t ws hys htext
      · cases zs with
        | nil => exact ih hrow hsound hrest [] t ws hzs.symm htext
        | cons z zs =>
          obtain ⟨rfl, rfl⟩ := List.cons.inj hzs
          obtain ⟨rfl, hsingle⟩ := hpart.colon ha t (by simp) htext
          obtain ⟨rfl, rfl⟩ : vs = [] ∧ zs = [] := by simpa [List.append_eq_singleton_iff] using hsingle
          have hopen : 0 < f := by
            simp [Atom.step] at hf
            omega
          have := steps_balance hrest
          change 0 < owed ys - weightOf t.text + e
          rw [written_owed hrow hsound, htext, show weightOf ":" = 0 from rfl]
          omega

/-! ### Kinds of lines -/

/-- What a line of code is. -/
inductive LineKind
  | statement
  /-- A block stands below the line. -/
  | header
  | directive (d : Directive)
deriving DecidableEq

/-- The directive in a line. -/
def LineKind.mark? : LineKind → Option Directive
  | directive d => some d
  | _ => none

/-- The line that stands for the template with this path. -/
def directiveParts (kind : DirectiveKind) (path : String) : List Atom :=
  let call := fun (name : String) =>
    [runtime, member name.toList, symbol "(", quoted (Text.quote path).toList, symbol ")"]
  match kind with
  | .extends_ => call "extends"
  | .include_ buffer =>
    [word buffer.toList, member "append".toList, symbol "("] ++ call "include" ++ [symbol ")"]

/-- A directive that can be read back: it stands for what the text of its path is read as. -/
structure Settled (d : Directive) (path : String) : Prop where
  target : Path.ofString path = d.target
  buffer : ∀ buffer, d.kind = .include_ buffer →
    isIdentifier buffer.toList ∧ isReserved buffer ∧ buffer ≠ "_jt_rt"

/-- The word that a line begins with. -/
def leading? (as : List Atom) : Option String :=
  match as.head? with
  | some (word cs) => some (String.ofList cs)
  | _ => none

theorem leading_eq_some {x : String} (h : leading? as = some x) :
    ∃ cs, as.head? = some (word cs) ∧ String.ofList cs = x := by
  unfold leading? at h
  split at h
  · next cs hcs => exact ⟨cs, hcs, Option.some.inj h⟩
  · cases h

/-- What a line of a kind is put together from. -/
inductive Lined : LineKind → List Atom → Prop
  | statement {as : List Atom} (sound : ∀ a ∈ as, Sound a) (fit : Fit as '\n') (clear : Clear as)
      (balanced : balance as = 0) (begins : ∃ a ∈ as.head?, a ≠ .blank)
      (plain : ∀ x ∈ leading? as, x ∉ headers) : Lined .statement as
  /-- The only word with nothing between it and the colon is `else`. -/
  | header {as : List Atom} (sound : ∀ a ∈ as, Sound a) (fit : Fit (as ++ [symbol ":"]) '\n')
      (clear : Clear as) (level : steps 0 as = some 0) (begins : ∃ x ∈ leading? as, x ∈ headers)
      (single : leading? as = some "else" → as = [word "else".toList]) :
      Lined .header (as ++ [symbol ":"])
  | directive {d : Directive} {path : String} (h : Settled d path) : Lined (.directive d) (directiveParts d.kind path)

/-- What is counted is no sign of a second statement. -/
theorem sound_of_steps (hmild : ∀ a ∈ as, a.Mild) (hsteps : steps d as = some e) : ∀ a ∈ as, Sound a := by
  induction as generalizing d with
  | nil => simp
  | cons a as ih =>
    rw [List.forall_mem_cons] at hmild ⊢
    obtain ⟨f, hf, hrest⟩ := Option.bind_eq_some_iff.1 (steps_cons d a as ▸ hsteps)
    refine ⟨⟨hmild.1, fun h => ?_, fun h => ?_⟩, ih hmild.2 hrest⟩
    · subst h
      cases hf
    · subst h
      cases hf

theorem mild_quote (s : String) : (quoted (Text.quote s).toList).Mild := by
  obtain ⟨h, hb⟩ := literal_quotePoints (Points.ofString s)
  exact (phrase_quoted h hb).mild _ (List.mem_singleton.2 rfl)

theorem mild_runtime : runtime.Mild := mild_word (by decide) (by decide)

theorem not_lead_of_isReserved {s : String} (h : isReserved s) : s ∉ leads := by
  intro hs
  have hall : leads.all fun x => !isReserved x := by decide
  simpa [h] using List.all_eq_true.1 hall s hs

/-- What is known of every line. -/
structure LineSpec (k : LineKind) (as : List Atom) : Prop where
  sound : ∀ a ∈ as, Sound a
  fit : Fit as '\n'
  clear : k.mark? = none → Clear as
  balanced : balance as = 0
  begins : ∃ a ∈ as.head?, a ≠ .blank

/-- The call of a directive, in front of what is behind it. -/
theorem fit_call (name path : String) (c : Char) :
    Fit [runtime, member name.toList, symbol "(", quoted (Text.quote path).toList, symbol ")"] c := by
  refine ⟨?_, ?_, ?_, ?_, ?_, True.intro⟩
  · exact (by decide : endsName '.' = true)
  · exact (by decide : endsName '(' = true)
  · simp [stops, joins_final (s := "(") (by decide)]
  · exact (by decide : (!isQuote ')') = true)
  · simp [stops, joins_final (s := ")") (by decide)]

theorem directive_spec {d : Directive} {path : String} (h : Settled d path) :
    LineSpec (.directive d) (directiveParts d.kind path) := by
  obtain ⟨kind, target⟩ := d
  dsimp only
  have hopen : (symbol "(").Mild := mild_symbol (by decide)
  have hclose : (symbol ")").Mild := mild_symbol (by decide)
  have hquote := mild_quote path
  cases kind with
  | extends_ =>
    have hmild : ∀ a ∈ directiveParts .extends_ path, a.Mild := by
      simpa [directiveParts] using
        ⟨mild_runtime, mild_member (by decide), hopen, hquote, hclose⟩
    have hsteps : steps 0 (directiveParts .extends_ path) = some 0 := rfl
    refine ⟨sound_of_steps hmild hsteps, fit_call .., (fun hnone => by cases hnone), ?_,
      ⟨runtime, rfl, by simp [runtime]⟩⟩
    have := steps_balance hsteps
    omega
  | include_ buffer =>
    obtain ⟨hidentifier, hreserved, -⟩ := h.buffer buffer rfl
    have hword : (word buffer.toList).Mild :=
      mild_word hidentifier (by rw [String.ofList_toList]; exact not_lead_of_isReserved hreserved)
    have hmild : ∀ a ∈ directiveParts (.include_ buffer) path, a.Mild := by
      simpa [directiveParts] using
        ⟨hword, mild_member (by decide), hopen, mild_runtime, mild_member (by decide), hopen, hquote, hclose⟩
    have hsteps : steps 0 (directiveParts (.include_ buffer) path) = some 0 := rfl
    refine ⟨sound_of_steps hmild hsteps, ?_, (fun hnone => by cases hnone), ?_, ⟨_, rfl, by simp⟩⟩
    · refine ⟨?_, ?_, ?_, (fit_append ..).2 ⟨fit_call .., ?_, True.intro⟩⟩
      · exact (by decide : endsName '.' = true)
      · exact (by decide : endsName '(' = true)
      · simp [stops, joins_final (s := "(") (by decide)]
      · simp [stops, joins_final (s := ")") (by decide)]
    · have := steps_balance hsteps
      omega

theorem Lined.spec {k : LineKind} (h : Lined k as) : LineSpec k as := by
  cases h with
  | statement sound fit clear balanced begins plain => exact ⟨sound, fit, fun _ => clear, balanced, begins⟩
  | header sound fit clear level begins single =>
    have hcolon : Sound (symbol ":") := ⟨mild_symbol (by decide), by simp⟩
    refine ⟨List.forall_mem_append.2 ⟨sound, by simpa using hcolon⟩, fit,
      fun _ => clear.append (clear_single (by simp [runtime])), ?_, ?_⟩
    · have := steps_balance level
      rw [balance, List.map_append, List.sum_append, ← balance]
      simp only [List.map_singleton, List.sum_singleton, show weight (symbol ":") = 0 from rfl]
      omega
    · obtain ⟨x, hx, -⟩ := begins
      obtain ⟨cs, hcs, -⟩ := leading_eq_some hx
      exact ⟨word cs, List.mem_head?_append_of_mem_head? hcs, by simp⟩
  | directive h => exact directive_spec h

theorem leading_append (h : as ≠ []) (bs : List Atom) : leading? (as ++ bs) = leading? as := by
  rw [leading?, List.head?_append_of_ne_nil as h, leading?]

theorem ne_nil_of_leading {x : String} (h : leading? as = some x) : as ≠ [] := by
  rintro rfl
  cases h

/-- Headers are known by the word that they begin with. -/
theorem Lined.isHeader_iff {k : LineKind} (h : Lined k as) :
    k = .header ↔ ∃ x ∈ leading? as, x ∈ headers := by
  cases h with
  | statement sound fit clear balanced begins plain =>
    simpa using plain
  | header sound fit clear level begins single =>
    obtain ⟨x, hx, hheader⟩ := begins
    exact iff_of_true rfl ⟨x, (leading_append (ne_nil_of_leading hx) _).trans hx, hheader⟩
  | @directive d path h =>
    refine iff_of_false (by simp) ?_
    rintro ⟨x, hx, hheader⟩
    obtain ⟨kind, target⟩ := d
    cases kind with
    | extends_ =>
      obtain rfl : "_jt_rt" = x := by simpa [leading?, directiveParts, runtime] using hx
      exact absurd hheader (by decide)
    | include_ buffer =>
      obtain rfl : buffer = x := by simpa [leading?, directiveParts] using hx
      have hall : headers.all fun x => !isReserved x := by decide
      simpa [(h.buffer buffer rfl).2.1] using List.all_eq_true.1 hall buffer hheader

/-! ### Lines as strips -/

/-- The first token of a line: a name is the leading word. -/
theorem written_leading (h : Written r gap o as us) (has : ∀ a ∈ as, Sound a)
    (hbegins : ∃ a ∈ as.head?, a ≠ .blank) : ∃ t ∈ us.head?,
      (t.shape = .name → leading? as = some t.text) ∧ (∀ x, leading? as = some x → t.text = x) ∧
      (as.head? = some (symbol "=") → t.text = "=") := by
  obtain ⟨a, ha, hblank⟩ := hbegins
  obtain ⟨as, rfl⟩ : ∃ bs, as = a :: bs := by
    cases as with
    | nil => cases ha
    | cons b bs => exact ⟨bs, by rw [Option.some.inj ha]⟩
  obtain ⟨rfl, -⟩ | ⟨vs, ws, rfl, hpart, -⟩ := written_cons h
  · exact (hblank rfl).elim
  have hsound := has a (by simp)
  cases hpart with
  | word cs =>
    refine ⟨_, rfl, fun _ => rfl, fun x hx => ?_, by simp⟩
    obtain ⟨cs', hcs, rfl⟩ := leading_eq_some hx
    obtain rfl : cs = cs' := by simpa using hcs
    rfl
  | quoted cs | member cs => exact ⟨_, rfl, fun hname => (by cases hname), fun x hx => (by cases hx), by simp⟩
  | symbol s =>
    refine ⟨_, rfl, fun hname => (by cases hname), fun x hx => (by cases hx), fun hs => ?_⟩
    obtain rfl : s = "=" := by simpa using hs
    rfl
  | number hs =>
    obtain ⟨t, rest, rfl, -, -, -, hstart⟩ := hs.head
    refine ⟨t, rfl, fun hname => ?_, fun x hx => (by cases hx), by simp⟩
    obtain ⟨c, hc, hstart⟩ := hstart hname
    obtain ⟨c', hc', hdigit⟩ := hsound.digit _ rfl
    obtain rfl : c = c' := Option.some.inj (hc.symm.trans hc')
    simp [isDigit_of_isIdentifierStart hstart] at hdigit

/-- The parts of a line come one after the other. -/
theorem written_append (h : Written r gap o (as ++ bs) us) : ∃ vs ws gap' o', us = vs ++ ws ∧
    Written r gap o as vs ∧ Written r gap' o' bs ws := by
  induction as generalizing gap o us with
  | nil => exact ⟨[], us, gap, o, rfl, .nil gap o, h⟩
  | cons a as ih =>
    obtain ⟨rfl, hrow⟩ | ⟨xs, ys, rfl, hpart, hrow⟩ := written_cons h
    · obtain ⟨vs, ws, gap', o', rfl, has, hbs⟩ := ih hrow
      exact ⟨vs, ws, gap', o', rfl, .blank has, hbs⟩
    · obtain ⟨vs, ws, gap', o', rfl, has, hbs⟩ := ih hrow
      exact ⟨xs ++ vs, ws, gap', o', (List.append_assoc ..).symm, hpart.written has, hbs⟩

section Inversion

variable {cs : List Char} {s : String}

theorem written_word (h : Written r gap o (word cs :: as) us) :
    ∃ ts, us = tokenOf r gap o .name cs :: ts ∧ Written r within (o + cs.length) as ts := by
  cases h with
  | word h => exact ⟨_, rfl, h⟩

theorem written_quoted (h : Written r gap o (quoted cs :: as) us) :
    ∃ ts, us = tokenOf r gap o .quoted cs :: ts ∧ Written r within (o + cs.length) as ts := by
  cases h with
  | quoted h => exact ⟨_, rfl, h⟩

theorem written_symbol (h : Written r gap o (symbol s :: as) us) :
    ∃ ts, us = tokenOf r gap o .symbol s.toList :: ts ∧
      Written r within (o + s.toList.length) as ts := by
  cases h with
  | symbol h => exact ⟨_, rfl, h⟩

theorem written_member (h : Written r gap o (member cs :: as) us) :
    ∃ ts, us = tokenOf r gap o .symbol ['.'] :: tokenOf r within (o + 1) .name cs :: ts ∧
      Written r within (o + 1 + cs.length) as ts := by
  cases h with
  | member h => exact ⟨_, rfl, h⟩

theorem written_nil (h : Written r gap o [] us) : us = [] := by
  cases h
  rfl

theorem isNext_tokenOf (shape : Shape) (cs : List Char) :
    IsNext (tokenOf r within o shape cs) shape (String.ofList cs) := ⟨rfl, rfl, rfl⟩

end Inversion

/-- The text of an attribute that stands right behind its owner. -/
theorem slice_member {source : List Char} {owner dot name : Token} (ho : Placed source owner)
    (hd : Placed source dot) (hn : Placed source name) (hdot : dot.start = owner.stop)
    (hname : name.start = dot.stop) :
    slice source owner.start name.stop = owner.text ++ dot.text ++ name.text := by
  have hostop := ho.stop
  have hdstop := hd.stop
  have hnstop := hn.stop
  rw [← slice_append (b := dot.stop) (by omega) (by omega),
    ← slice_append (b := owner.stop) (by omega) (by omega), slice_placed ho, ← hdot, slice_placed hd,
    ← hname, slice_placed hn]

theorem literal_target {source : List Char} {literal : Token} {path : String} {target : Path}
    (hl : Placed source literal) (htext : literal.text = Text.quote path) (hpath : Path.ofString path = target) :
    (literalText (slice source literal.start literal.stop)).map Path.ofString = .ok target := by
  rw [slice_placed hl, htext, literalText_quote]
  exact congrArg _ hpath

/-- The tokens of a directive's line. -/
theorem spells_of_written {d : Directive} {path : String} (h : Settled d path)
    (hw : Written r ⟨some i, []⟩ o (directiveParts d.kind path) us) (hplaced : ∀ t ∈ us, Placed g.source t)
    (hts : ∀ t ∈ ws.head?, t.indent.isSome) : Spells g.source d (us ++ ws) := by
  obtain ⟨kind, target⟩ := d
  cases kind with
  | extends_ =>
    obtain ⟨_, rfl, h₁⟩ := written_word hw
    obtain ⟨_, rfl, h₂⟩ := written_member h₁
    obtain ⟨_, rfl, h₃⟩ := written_symbol h₂
    obtain ⟨_, rfl, h₄⟩ := written_quoted h₃
    obtain ⟨_, rfl, h₅⟩ := written_symbol h₄
    obtain rfl := written_nil h₅
    simp only [List.forall_mem_cons] at hplaced
    obtain ⟨howner, hdot, hname, -, hliteral, -⟩ := hplaced
    refine .extends_ rfl rfl (isNext_tokenOf _ _) (isNext_tokenOf _ _) (isNext_tokenOf _ _) ⟨rfl, rfl⟩
      (isNext_tokenOf _ _) hts ?_ (literal_target hliteral ?_ h.target)
    · exact slice_member howner hdot hname rfl rfl
    · exact String.ofList_toList
  | include_ buffer =>
    obtain ⟨_, rfl, h₁⟩ := written_word hw
    obtain ⟨_, rfl, h₂⟩ := written_member h₁
    obtain ⟨_, rfl, h₃⟩ := written_symbol h₂
    obtain ⟨_, rfl, h₄⟩ := written_word h₃
    obtain ⟨_, rfl, h₅⟩ := written_member h₄
    obtain ⟨_, rfl, h₆⟩ := written_symbol h₅
    obtain ⟨_, rfl, h₇⟩ := written_quoted h₆
    obtain ⟨_, rfl, h₈⟩ := written_symbol h₇
    obtain ⟨_, rfl, h₉⟩ := written_symbol h₈
    obtain rfl := written_nil h₉
    simp only [List.forall_mem_cons] at hplaced
    obtain ⟨hbuffer, hpoint, happend, -, howner, hdot, hname, -, hliteral, -⟩ := hplaced
    obtain ⟨-, hreserved, -⟩ := h.buffer buffer rfl
    have htext := (slice_placed hbuffer).trans String.ofList_toList
    have haround := slice_member hbuffer hpoint happend rfl rfl
    have hnames : ∀ x ∈ directiveNames, buffer ++ ".append" ≠ x := by
      intro x hx heq
      have hlast := congrArg (fun s : String => s.toList.getLast?) heq
      simp only [directiveNames, List.mem_cons, List.not_mem_nil, or_false] at hx
      obtain rfl | rfl := hx <;> simp at hlast
    have hkind : (⟨.include_ buffer, target⟩ : Directive) = ⟨.include_ (slice g.source _ _), target⟩ :=
      congrArg (fun s => Directive.mk (.include_ s) target) htext.symm
    rw [hkind]
    refine .include_ rfl ?_ (isNext_tokenOf _ _) (isNext_tokenOf _ _) (isNext_tokenOf _ _)
      (isNext_tokenOf _ _) (isNext_tokenOf _ _) (isNext_tokenOf _ _) (isNext_tokenOf _ _) ⟨rfl, rfl⟩
      (isNext_tokenOf _ _) (isNext_tokenOf _ _) hts ?_ ?_ (literal_target hliteral ?_ h.target)
    · change isReserved (String.ofList buffer.toList)
      rwa [String.ofList_toList]
    · have hjoined : String.ofList buffer.toList ++ "." ++ "append" = buffer ++ ".append" := by
        rw [String.ofList_toList, String.append_assoc]
        rfl
      rw [haround.trans hjoined]
      exact ⟨hnames "_jt_rt.extends" (by simp [directiveNames]),
        hnames "_jt_rt.include" (by simp [directiveNames])⟩
    · exact slice_member howner hdot hname rfl rfl
    · exact String.ofList_toList

/-- Behind an `else` stands its colon. -/
theorem Lined.else_colon {k : LineKind} (h : Lined k as) (hw : Written r ⟨some i, []⟩ o as us)
    (ht : t ∈ us.head?) (htext : t.text = "else") : ∃ u ∈ us.tail.head?, u.text = ":" := by
  obtain ⟨t', ht', hname, hword, -⟩ := written_leading hw h.spec.sound h.spec.begins
  obtain rfl : t' = t := Option.some.inj (ht'.symm.trans ht)
  have hleading : leading? as = some "else" := by
    rw [← htext]
    refine hname ((written_tokens hw h.spec.sound t' (List.mem_of_mem_head? ht)).1.called (.inr ?_))
    rw [htext]
    decide
  have hk : k = .header := h.isHeader_iff.2 ⟨_, hleading, by decide⟩
  subst hk
  cases h with
  | @header pre sound fit clear level begins single =>
    obtain ⟨x, hx, -⟩ := begins
    obtain rfl : x = "else" := Option.some.inj (hx.symm.trans
      ((leading_append (ne_nil_of_leading hx) _).symm.trans hleading))
    obtain rfl := single hx
    obtain ⟨_, rfl, h₁⟩ := written_word hw
    obtain ⟨_, rfl, h₂⟩ := written_symbol h₁
    exact ⟨_, rfl, rfl⟩

/-- The colon of a header is its last token and the first one outside of brackets. -/
theorem Lined.colon (h : Lined .header as) (hw : Written r ⟨some i, []⟩ o as us) :
    ∃ ts t, us = ts ++ [t] ∧ t.text = ":" ∧
      ∀ vs u ws, ts = vs ++ u :: ws → u.text = ":" → owed (u :: ws) ≠ 0 := by
  cases h with
  | header sound fit clear level begins single =>
    obtain ⟨vs, ws, gap', o', rfl, hpre, hlast⟩ := written_append hw
    obtain ⟨_, rfl, hnil⟩ := written_symbol hlast
    obtain rfl := written_nil hnil
    refine ⟨vs, _, rfl, rfl, fun a u b hsplit htext => ?_⟩
    have := written_colon hpre sound level a u b hsplit htext
    omega

/-- A line is a strip of a page that says the same of its row. -/
theorem Lined.strip {k : LineKind} (h : Lined k as) (hw : Written r ⟨some i, []⟩ o as us)
    (hindent : g.indentOf r ≤ i ∧ (as.head? ≠ some (symbol "=") → g.indentOf r = i ∧ i % 4 = 0))
    (hheader : g.isHeader r ↔ k = .header) (hmark : g.marks r = k.mark?)
    (hplaced : ∀ t ∈ us, Placed g.source t) : Strip g r us := by
  have hspec := h.spec
  have htokens := written_tokens hw hspec.sound
  obtain ⟨hhead, htail⟩ := written_gaps hw hspec.sound
  obtain ⟨t, ht, hname, hword, hequals⟩ := written_leading hw hspec.sound hspec.begins
  have hcalled : t.text ∈ headers → leading? as = some t.text := fun hx =>
    hname ((htokens t (List.mem_of_mem_head? ht)).1.called (.inr hx))
  have hquiet : ∀ u ∈ us, u.comments = [] := by
    cases us with
    | nil => simp
    | cons v us => exact List.forall_mem_cons.2 ⟨(hhead v rfl).2, fun u hu => (htail u hu).2⟩
  refine {
    tokens := fun u hu => ⟨(htokens u hu).1, hquiet u hu, (htokens u hu).2⟩
    head := ⟨t, ht, i, (hhead t ht).1, hindent.1, fun hne => hindent.2 fun heq => hne (hequals heq), ?_, ?_⟩
    others := fun u hu => (htail u hu).1
    balanced := by rw [written_owed hw hspec.sound, hspec.balanced, Int.neg_zero]
    readable := written_readable hw hspec.sound (fun hnone => hspec.clear (hmark ▸ hnone)) true
    point := written_last hw hspec.sound
    colon := fun hg => ?_
    mark := fun d hd ts hts => ?_ }
  · rw [hheader, h.isHeader_iff]
    refine ⟨fun ⟨x, hx, hx'⟩ => ?_, fun hx => ⟨t.text, hcalled hx, hx⟩⟩
    rwa [hword x hx]
  · exact h.else_colon hw ht
  · exact (hheader.1 hg ▸ h : Lined .header as).colon hw
  · have hk : k = .directive d := by
      rw [hmark] at hd
      cases k with
      | directive e => exact congrArg _ (Option.some.inj hd)
      | statement | header => cases hd
    subst hk
    cases h with
    | directive h => exact spells_of_written h hw hplaced hts

end Stencil.Flatten
