import Stencil.Proofs.Code.Written
import Stencil.Proofs.Flatten.Sheet

/-! Tokens by their shapes, and which of them a directive's name can begin with. -/
namespace Stencil.Flatten
open Code Token Text

variable {source : List Char} {t u dot name : Token} {ts : List Token} {cs ds : List Char}
  {a b c k : Nat} {d : Char} {x : String}

/-- The names that calls of directives have. -/
def directiveNames : List String := ["_jt_rt.extends", "_jt_rt.include"]

/-- Begins as no name, literal or number does. -/
def isApart (x : String) : Bool :=
  x.toList.head?.any fun c =>
    !isIdentifierStart c && !isQuote c && !c.isDigit && (c != '.' || x == ".")

/-- Begins as a name does and as no other token. -/
def isWordy (x : String) : Bool :=
  !symbols.contains x && x.toList.head?.any fun c => !isQuote c && !c.isDigit && c != '.'

/-- What the text of a token begins with. -/
def Shaped (t : Token) : Prop :=
  match t.shape with
  | .name => isIdentifier t.text.toList
  | .quoted => ∃ c ∈ t.text.toList.head?, isQuote c
  | .number => ∃ c ∈ t.text.toList.head?, c.isDigit ∨ c = '.' ∧ t.text ≠ "."
  | .symbol => t.text ∈ symbols ∧ t.text ≠ ";" ∧ t.text ≠ "@"
  | .stop => False

namespace Shaped

theorem head (h : Shaped t) (hs : t.shape ≠ .symbol) : ∃ c ∈ t.text.toList.head?,
    (t.shape = .name ∧ isIdentifierStart c) ∨ (t.shape = .quoted ∧ isQuote c) ∨
      t.shape = .number ∧ (c.isDigit ∨ c = '.' ∧ t.text ≠ ".") := by
  unfold Shaped at h
  cases hshape : t.shape with
  | name =>
    simp only [hshape] at h
    cases hx : t.text.toList with
    | nil => simp [hx, isIdentifier] at h
    | cons c cs =>
      simp only [hx, isIdentifier, Bool.and_eq_true] at h
      exact ⟨c, rfl, .inl ⟨rfl, h.1⟩⟩
  | quoted =>
    simp only [hshape] at h
    obtain ⟨c, hc, hq⟩ := h
    exact ⟨c, hc, .inr (.inl ⟨rfl, hq⟩)⟩
  | number =>
    simp only [hshape] at h
    obtain ⟨c, hc, hd⟩ := h
    exact ⟨c, hc, .inr (.inr ⟨rfl, hd⟩)⟩
  | symbol => exact (hs hshape).elim
  | stop => simp [hshape] at h

theorem text_ne (h : Shaped t) (hs : t.shape ≠ .symbol) (hx : isApart x) : t.text ≠ x := by
  rintro rfl
  obtain ⟨c, hc, hcases⟩ := h.head hs
  simp only [isApart, Option.mem_def.1 hc, Option.any_some, Bool.and_eq_true, Bool.not_eq_true',
    Bool.or_eq_true, bne_iff_ne, beq_iff_eq] at hx
  obtain ⟨⟨⟨hstart, hquote⟩, hdigit⟩, hpoint⟩ := hx
  obtain ⟨-, h⟩ | ⟨-, h⟩ | ⟨-, h | ⟨rfl, h⟩⟩ := hcases
  · simp [h] at hstart
  · simp [h] at hquote
  · simp [h] at hdigit
  · exact hpoint.elim (fun hne => hne rfl) h

theorem of_isWordy (h : Shaped t) (hx : isWordy t.text) : t.shape = .name := by
  simp only [isWordy, Bool.and_eq_true, Bool.not_eq_true', List.contains_eq_mem,
    decide_eq_false_iff_not] at hx
  by_cases hs : t.shape = .symbol
  · simp only [Shaped, hs] at h
    exact absurd h.1 hx.1
  · obtain ⟨c, hc, hcases⟩ := h.head hs
    have hc := hx.2
    simp only [Option.mem_def.1 ‹c ∈ _›, Option.any_some, Bool.and_eq_true, Bool.not_eq_true',
      bne_iff_ne] at hc
    obtain ⟨⟨hquote, hdigit⟩, hpoint⟩ := hc
    obtain ⟨hname, -⟩ | ⟨-, h⟩ | ⟨-, h | ⟨rfl, -⟩⟩ := hcases
    · exact hname
    · simp [h] at hquote
    · simp [h] at hdigit
    · exact absurd rfl hpoint

theorem shaped (h : Shaped t) (hs : t.shape ≠ .symbol) :
    weightOf t.text = 0 ∧ t.text ≠ "." ∧ t.text ≠ ":" := by
  have hall : ["(", "[", "\x7b", ")", "]", "\x7d", ".", ":"].all isApart := by decide
  have hne : ∀ x ∈ ["(", "[", "\x7b", ")", "]", "\x7d", ".", ":"], t.text ≠ x := fun x hx =>
    h.text_ne hs (List.all_eq_true.1 hall x hx)
  simp only [List.mem_cons, List.not_mem_nil, or_false, forall_eq_or_imp, forall_eq] at hne
  simp [weightOf, hne]

/-- Words of statements are names. -/
theorem called (h : Shaped t) (hx : t.text = "return" ∨ t.text ∈ headers) : t.shape = .name := by
  have hall : ("return" :: headers).all isWordy := by decide
  exact h.of_isWordy (List.all_eq_true.1 hall _ (by simpa using hx))

theorem single (h : Shaped t) : t.text ≠ ";" := by
  by_cases hs : t.shape = .symbol
  · simp only [Shaped, hs] at h
    exact h.2.1
  · exact h.text_ne hs (by decide)

theorem not_stop (h : Shaped t) : t.shape ≠ .stop := fun hs => by simp [Shaped, hs] at h

/-- Only names are leads. -/
theorem isLead_eq_false (h : Shaped t) (hs : t.shape ≠ .name) : isLead t = false := by
  have hall : leads.all fun x => x == "@" || isWordy x := by decide
  by_contra hl
  simp only [isLead, List.contains_eq_mem, decide_eq_false_iff_not, not_not] at hl
  have hx := List.all_eq_true.1 hall _ hl
  rw [Bool.or_eq_true, beq_iff_eq] at hx
  refine hx.elim (fun hx => ?_) fun hx => hs (h.of_isWordy hx)
  by_cases hsymbol : t.shape = .symbol
  · simp only [Shaped, hsymbol] at h
    exact h.2.2 hx
  · exact h.text_ne hsymbol (by decide) hx

end Shaped

theorem toList_slice (source : List Char) (a b : Nat) :
    (slice source a b).toList = (source.drop a).take (b - a) := by
  rw [slice, String.toList_ofList]

theorem slice_append (h : a ≤ b) (h' : b ≤ c) :
    slice source a b ++ slice source b c = slice source a c := by
  rw [← String.toList_inj, String.toList_append, toList_slice, toList_slice, toList_slice,
    show c - a = (b - a) + (c - b) by omega, List.take_add, List.drop_drop,
    Nat.add_sub_cancel' h]

theorem slice_placed (h : Placed source t) : slice source t.start t.stop = t.text := by
  rw [← String.toList_inj, toList_slice, ← h.stop, Nat.add_sub_cancel_left, h.text]

section Names

variable (ht : Placed source t)
include ht

/-- A slice that is longer than a token begins with it. -/
theorem drop_placed : ∃ rest, source.drop t.start = t.text.toList ++ rest ∧
    rest = source.drop t.stop := by
  refine ⟨source.drop t.stop, ?_, rfl⟩
  rw [← ht.text, ← ht.stop, ← List.drop_drop, List.take_append_drop]

/-- A name is all of the name in front of a point. -/
theorem text_of_slice (hname : t.shape = .name) (hidentifier : isIdentifier t.text.toList)
    (hcs : cs.all isIdentifierContinue) (hd : isIdentifierContinue d = false)
    (h : ((source.drop t.start).take k) = cs ++ d :: ds) : t.text.toList = cs := by
  obtain ⟨rest, hrest, hbehind⟩ := drop_placed ht
  have hall := continue_of_mem_identifier hidentifier
  have hends : ∀ c ∈ rest.head?, isIdentifierContinue c = false := hbehind ▸ ht.ends hname
  have htake : (source.drop t.start).takeWhile isIdentifierContinue = t.text.toList := by
    rw [hrest, List.takeWhile_append_of_pos hall]
    cases rest with
    | nil => simp
    | cons c rest => simp [hends c rfl]
  have hdrop := List.take_append_drop k (source.drop t.start)
  rw [← htake, ← hdrop, h, List.append_assoc, List.takeWhile_append_of_pos (List.all_eq_true.1 hcs)]
  simp [hd]

end Names

/-- A directive's name begins with the runtime module's. -/
theorem slice_of_text_ne (ht : Placed source t) (hs : Shaped t ∨ t.text = "" ∧ u = t)
    (hx : t.text ≠ "_jt_rt") (hn : x ∈ directiveNames) : slice source t.start u.stop ≠ x := by
  intro h
  have hnames : ∀ x ∈ directiveNames, "_jt_rt.".toList <+: x.toList := by decide
  obtain ⟨ds, hsplit⟩ : ∃ ds, "_jt_rt".toList ++ '.' :: ds = x.toList := hnames x hn
  have hd : isIdentifierContinue '.' = false := by decide
  replace hsplit := hsplit.symm
  have hlist := congrArg String.toList h
  rw [toList_slice, hsplit] at hlist
  obtain hs | ⟨hempty, rfl⟩ := hs
  · by_cases hname : t.shape = .name
    · have hidentifier : isIdentifier t.text.toList := by simpa [Shaped, hname] using hs
      exact hx (String.toList_inj.1 (text_of_slice ht hname hidentifier (by decide) hd hlist))
    · -- other tokens do not begin with an underscore
      obtain ⟨rest, hrest, -⟩ := drop_placed ht
      have hhead : ∃ c ∈ t.text.toList.head?, c ≠ '_' := by
        by_cases hsymbol : t.shape = .symbol
        · have hall : symbols.all fun x => x.toList.head?.any (· != '_') := by decide
          simp only [Shaped, hsymbol] at hs
          simpa [Option.any_eq_true] using List.all_eq_true.1 hall _ hs.1
        · obtain ⟨c, hc, hcases⟩ := hs.head hsymbol
          refine ⟨c, hc, ?_⟩
          rintro rfl
          have hquote : isQuote '_' = false := by decide
          simp [hname, hquote] at hcases
      obtain ⟨c, hc, hne⟩ := hhead
      obtain ⟨cs, hcs⟩ : ∃ cs, t.text.toList = c :: cs :=
        ⟨_, (List.cons_head?_tail hc).symm⟩
      rw [hrest, hcs] at hlist
      cases hk : u.stop - t.start with
      | zero => simp [hk] at hlist
      | succ k =>
        rw [hk] at hlist
        simp only [List.cons_append, List.take_succ_cons] at hlist
        exact hne (List.cons.inj hlist).1
  · have hstop := ht.stop
    simp only [hempty, String.length_empty] at hstop
    simp [← hstop] at hlist

/-- Behind the runtime module and a point stands all of what is taken from it. -/
theorem slice_of_member (ht : Placed source t) (hdot : Placed source dot) (hname : Placed source name)
    (hx : t.text = "_jt_rt") (hdotx : dot.text = ".") (hdots : dot.start = t.stop)
    (hnames : name.start = dot.stop) (hshape : name.shape = .name)
    (hidentifier : isIdentifier name.text.toList)
    (hne : name.text ≠ "extends" ∧ name.text ≠ "include")
    (hu : u = t ∨ u = dot ∨ u = name ∨ name.stop ≤ u.stop) (hn : x ∈ directiveNames) :
    slice source t.start u.stop ≠ x := by
  intro h
  obtain ⟨hlength, cs, hcs, hcases⟩ : x.toList.length = 14 ∧ ∃ cs, x.toList = "_jt_rt.".toList ++ cs ∧
      (cs = "extends".toList ∨ cs = "include".toList) := by
    simp only [directiveNames, List.mem_cons, List.not_mem_nil, or_false] at hn
    obtain rfl | rfl := hn
    · exact ⟨rfl, "extends".toList, rfl, .inl rfl⟩
    · exact ⟨rfl, "include".toList, rfl, .inr rfl⟩
  have hstop := ht.stop
  have hdstop := hdot.stop
  have hnstop := hname.stop
  rw [hx, show "_jt_rt".length = 6 from rfl] at hstop
  rw [hdotx, show ".".length = 1 from rfl] at hdstop
  have hlist := congrArg String.toList h
  rw [toList_slice] at hlist
  have hlen := congrArg List.length hlist
  rw [List.length_take, hlength] at hlen
  -- the slice reaches as far as the name does
  have hreach : name.stop ≤ u.stop := by
    obtain rfl | rfl | rfl | hu := hu
    · omega
    · omega
    · exact le_rfl
    · exact hu
  obtain ⟨rest, hrest, -⟩ := drop_placed ht
  obtain ⟨rest', hrest', hbehind'⟩ := drop_placed hdot
  obtain ⟨rest'', hrest'', hbehind⟩ := drop_placed hname
  have hsource : source.drop t.start = "_jt_rt.".toList ++ (name.text.toList ++ rest'') := by
    obtain ⟨_, h₁, rfl⟩ := drop_placed ht
    obtain ⟨_, h₂, rfl⟩ := drop_placed hdot
    rw [h₁, ← hdots, h₂, ← hnames, hrest'', hx, hdotx]
    rfl
  have hk : u.stop - t.start = 7 + (name.text.length + (u.stop - name.stop)) := by omega
  rw [hsource, hcs, hk, show 7 = "_jt_rt.".toList.length from rfl, List.take_length_add_append] at hlist
  have htail := List.append_cancel_left hlist
  rw [← String.length_toList, List.take_length_add_append] at htail
  have hends : ∀ c ∈ rest''.head?, isIdentifierContinue c = false := hbehind ▸ hname.ends hshape
  have hall : cs.all isIdentifierContinue := by
    obtain rfl | rfl := hcases <;> decide
  rw [List.all_eq_true] at hall
  cases htake : rest''.take (u.stop - name.stop) with
  | nil =>
    rw [htake, List.append_nil] at htail
    obtain rfl | rfl := hcases
    · exact hne.1 (String.toList_inj.1 htail)
    · exact hne.2 (String.toList_inj.1 htail)
  | cons d ds =>
    have hd : d ∈ rest''.head? := by
      cases rest'' with
      | nil => simp at htake
      | cons c rest =>
        cases hm : u.stop - name.stop with
        | zero => simp [hm] at htake
        | succ m =>
          rw [hm, List.take_succ_cons] at htake
          simp [(List.cons.inj htake).1]
    have hcontinue := hall d (by rw [← htail, htake]; simp)
    simp [hends d hd] at hcontinue

end Stencil.Flatten
