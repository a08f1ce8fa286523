import Stencil.Proofs.Code.Written

/-! The tokens of a text of several lines. -/
namespace Stencil.Code
open Token

variable {c c' : Cursor} {cs rest : List Char} {as : List Atom} {g : Gap} {n k r o : Nat}
  {i : Option Nat} {ts us : List Token} {comments : List Comment} {rows : List Row}

/-- A line of code. -/
inductive Row
  | blank
  /-- A comment without the sign it begins with. -/
  | comment (cs : List Char)
  | code (indent : Nat) (as : List Atom)

namespace Row

def chars : Row → List Char
  | blank => []
  | comment cs => '#' :: cs
  | code indent as => List.replicate indent ' ' ++ Atom.spell as

/-- Rows with a line break behind each. -/
def text (rows : List Row) : List Char := rows.flatMap fun row => row.chars ++ ['\n']

def Valid : Row → Prop
  | blank => True
  | comment cs => '\n' ∉ cs
  | code _ as => (∃ a ∈ as.head?, a ≠ .blank) ∧ (∀ a ∈ as, a.Valid) ∧ Atom.Fit as '\n'

end Row

namespace Token

/-- The tokens of the rows from number `r` and offset `o` on, with comments in front of them. -/
inductive OfRows : Nat → Nat → List Comment → List Row → List Token → Prop
  | stop (r o : Nat) (comments : List Comment) :
      OfRows r o comments [] [⟨.stop, "", o, o, r, r, some 0, comments⟩]
  | blank {r o : Nat} {comments : List Comment} {rows : List Row} {ts : List Token}
      (h : OfRows (r + 1) (o + 1) comments rows ts) : OfRows r o comments (.blank :: rows) ts
  | comment {r o : Nat} {comments : List Comment} {cs : List Char} {rows : List Row}
      {ts : List Token}
      (h : OfRows (r + 1) (o + cs.length + 2) (comments ++ [⟨r, 0⟩]) rows ts) :
      OfRows r o comments (.comment cs :: rows) ts
  | code {r o indent : Nat} {comments : List Comment} {as : List Atom} {rows : List Row}
      {us ts : List Token} (hrow : Written r ⟨some indent, comments⟩ (o + indent) as us)
      (h : OfRows (r + 1) (o + indent + (Atom.spell as).length + 1) [] rows ts) :
      OfRows r o comments (.code indent as :: rows) (us ++ ts)

/-- A line break. -/
theorem Cursor.advance_newline (h : c.rest = '\n' :: cs) :
    c.advance 1 = ⟨cs, c.offset + 1, c.row + 1⟩ := by
  simp [advance, newlines, h]

theorem allFrom_ofRows (hrows : ∀ row ∈ rows, row.Valid)
    (hskip : ∀ g' c', Skips ⟨some 0, comments⟩ ⟨Row.text rows, o, r⟩ g' c' → Skips ⟨i, []⟩ c g' c')
    (h : allFrom n i c = some ts) : OfRows r o comments rows ts := by
  induction rows generalizing i c n ts comments r o with
  | nil =>
    rw [allFrom_stop h (hskip _ _ (.stop rfl)) rfl]
    exact .stop r o comments
  | cons row rows ih =>
    have hrows' : ∀ row ∈ rows, row.Valid := fun row hrow => hrows row (by simp [hrow])
    cases row with
    | blank =>
      refine .blank (ih hrows' (fun g' c' hs => hskip g' c' ?_) h)
      refine Skips.newline (show _ = '\n' :: Row.text rows from rfl) ?_
      rwa [Cursor.advance_newline (show _ = '\n' :: Row.text rows from rfl)]
    | comment cs =>
      have hcs : '\n' ∉ cs := hrows (.comment cs) (by simp)
      have hrest : Row.text (.comment cs :: rows) = '#' :: cs ++ '\n' :: Row.text rows := by
        simp [Row.text, Row.chars]
      refine .comment (ih hrows' (fun g' c' hs => hskip g' c' ?_) h)
      refine .comment hrest hcs rfl ?_
      have hadvance := Cursor.advance_append (c := ⟨Row.text (.comment cs :: rows), o, r⟩) hrest
        (by simpa using hcs)
      rw [show ('#' :: cs).length = cs.length + 1 from rfl] at hadvance
      rw [hadvance]
      refine .newline rfl ?_
      rw [Cursor.advance_newline rfl]
      exact hs
    | code indent as =>
      obtain ⟨⟨a, ha, hne⟩, hvalid, hfit⟩ := hrows _ (List.mem_cons_self ..)
      obtain ⟨as, rfl⟩ : ∃ bs, as = a :: bs := ⟨as.tail, (List.cons_head?_tail ha).symm⟩
      have hrest : Row.text (.code indent (a :: as) :: rows) =
          List.replicate indent ' ' ++ (Atom.spell (a :: as) ++ '\n' :: Row.text rows) := by
        simp [Row.text, Row.chars]
      obtain ⟨d, ds, hd, hsolid⟩ := (hvalid a (by simp)).solid hne
      have hspaces : Skips ⟨some 0, comments⟩ ⟨Row.text (.code indent (a :: as) :: rows), o, r⟩
          ⟨some (0 + indent), comments⟩ _ :=
        .spaces indent rfl (show _ = List.replicate indent ' ' ++
          d :: (ds ++ (Atom.spell as ++ '\n' :: Row.text rows)) by
            rw [hrest, Atom.spell_cons, hd]; simp) hsolid
      have hadvance := Cursor.advance_append (c := ⟨Row.text (.code indent (a :: as) :: rows), o, r⟩)
        hrest (by simp [List.mem_replicate])
      rw [List.length_replicate] at hadvance
      rw [hadvance, Nat.zero_add] at hspaces
      obtain ⟨us, ws, m, j, c₁, rfl, hwritten, hws, hafter⟩ := allFrom_written hvalid hne hfit h
        (hskip _ _ hspaces) rfl
      refine .code hwritten (ih hrows' (fun g' c' hs => hafter _ _ ?_) hws)
      have hnewline : '\n' ∉ Atom.spell (a :: as) := by
        simp only [Atom.spell, List.mem_flatMap, not_exists, not_and]
        exact fun b hb => not_newline_of_valid (hvalid b hb)
      rw [Cursor.advance_append rfl hnewline]
      refine .newline rfl ?_
      rw [Cursor.advance_newline rfl]
      exact hs

theorem all_ofRows (hrows : ∀ row ∈ rows, row.Valid) (h : all? (Row.text rows) = some ts) :
    OfRows 0 0 [] rows ts :=
  allFrom_ofRows hrows (fun _ _ hs => hs) h

end Token

end Stencil.Code
