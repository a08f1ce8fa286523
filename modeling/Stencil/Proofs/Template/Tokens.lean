import Stencil.Proofs.Template.ParsedExpression
import Stencil.Template.Lexer

/-! The names in the tokens of a template are identifiers. -/
namespace Stencil.Template

open Text

variable {p q : String → Prop} {stream : TokenStream} {l : Lexeme} {line : Nat}

theorem Lexeme.named_of_ne (h : ∀ s, l ≠ .name s) : l.Named p := fun s hs => absurd hs (h s)

theorem TokenStream.Named.and {stream : TokenStream} (hp : stream.Named p) (hq : stream.Named q) :
    stream.Named fun s => p s ∧ q s := by
  induction stream with
  | token t rest ih => exact ⟨fun s hs => ⟨hp.1 s hs, hq.1 s hs⟩, ih hp.2 hq.2⟩
  | _ => trivial

namespace Lexer

variable {total : Nat} {go : State → List Char → TokenStream} {st : State} {cs text : List Char}

theorem ite_named {c : Prop} {_ : Decidable c} {x y : TokenStream} (hx : c → x.Named p) (hy : ¬ c → y.Named p) :
    (if c then x else y).Named p := by
  split
  · exact hx ‹c›
  · exact hy ‹¬ c›

theorem tagEnd?_ne {tag : Opening} {opened : List Operator} {rest : List Char}
    (h : tagEnd? tag opened cs = some (l, rest)) (s : String) : l ≠ .name s := by
  unfold tagEnd? at h
  split at h
  · split at h
    all_goals
      obtain ⟨_, _, hl⟩ := Option.map_eq_some_iff.1 h
      cases hl
      simp
  · cases h

theorem named_pushData (h : stream.Named p) : (pushData line text stream).Named p := by
  unfold pushData
  split
  · exact h
  · exact ⟨Lexeme.named_of_ne (by simp), h⟩

section Steps

variable (hgo : ∀ st cs, (go st cs).Named p)

include hgo

theorem named_rawText : (rawText go st cs).Named p := by
  unfold rawText
  split
  · exact named_pushData (hgo _ _)
  · split <;> trivial

theorem named_commentText : (commentText go st cs).Named p := by
  unfold commentText
  split
  · exact hgo _ _
  · split <;> trivial

theorem named_betweenTags : (betweenTags go st cs).Named p := by
  unfold betweenTags
  split
  · exact named_pushData trivial
  · refine named_pushData ?_
    split
    · exact named_rawText hgo
    · exact named_commentText hgo
    · exact ⟨Lexeme.named_of_ne (by simp), hgo _ _⟩
    · exact ⟨Lexeme.named_of_ne (by simp), hgo _ _⟩

theorem named_inTag (hname : ∀ name, isIdentifier name → p (String.ofList name)) :
    (inTag total go st cs).Named p := by
  have hpush {line : Nat} {l : Lexeme} (hl : ∀ s, l ≠ .name s) (st : State) (rest : List Char) :
      (TokenStream.token ⟨line, l⟩ (go st rest)).Named p := ⟨Lexeme.named_of_ne hl, hgo _ _⟩
  unfold inTag
  dsimp only
  split
  · trivial
  · refine ite_named (fun _ => hgo _ _) fun _ => ?_
    split
    · split
      · exact hpush (by simp) _ _
      · trivial
    split
    · exact hpush (by simp) _ _
    · trivial
    refine ite_named (fun _ => ite_named (fun hid => ⟨?_, hgo _ _⟩) fun _ => trivial) fun _ => ?_
    · rintro _ ⟨⟩
      exact hname _ hid
    split
    · split
      · exact hpush (by simp) _ _
      · trivial
    split
    · split
      · exact hpush (by simp) _ _
      · trivial
    · trivial

end Steps

theorem named_run (hname : ∀ name, isIdentifier name → p (String.ofList name)) (fuel : Nat) (st : State)
    (cs : List Char) : (run total fuel st cs).Named p := by
  induction fuel generalizing st cs with
  | zero => trivial
  | succ fuel ih =>
    unfold run
    split
    · exact named_betweenTags ih
    · split
      · next l _ htag => exact ⟨Lexeme.named_of_ne (tagEnd?_ne htag), ih _ _⟩
      · exact named_inTag ih hname

end Lexer

theorem TokenStream.named_ofSource (source : String) :
    (TokenStream.ofSource source).Named fun s => isIdentifier s.toList :=
  Lexer.named_run (fun name h => by simpa using h) _ _ _

end Stencil.Template
