/-! Search patterns. -/
namespace Stencil.Pattern

/-- What an option letter changes in a part of a pattern. -/
structure Mode where
  ignoreCase : Bool
  multiline : Bool
  dotAll : Bool
  ascii : Bool
  verbose : Bool
deriving DecidableEq, Repr

def Mode.plain : Mode := ⟨false, false, false, false, false⟩

inductive Class
  | digit
  | space
  | word
deriving DecidableEq, Repr

/-- A member of a set of characters. -/
inductive Member
  | point (n : Nat)
  | range (low high : Nat)
  | cls (c : Class) (negated : Bool)
deriving DecidableEq, Repr

inductive Greed
  | greedy
  | lazy
  | possessive
deriving DecidableEq, Repr

/-- Conditions on a place that take no text. -/
inductive Anchor
  | start
  | stop
  | textStart
  | textStop
  | boundary
  | noBoundary
deriving DecidableEq, Repr

inductive Regex
  | point (mode : Mode) (n : Nat)
  | any (mode : Mode)
  | set (mode : Mode) (negated : Bool) (members : List Member)
  | anchor (mode : Mode) (a : Anchor)
  | seq (parts : List Regex)
  | alt (parts : List Regex)
  | repeated (low : Nat) (high : Option Nat) (greed : Greed) (part : Regex)
  /-- A group, numbered if it is kept. -/
  | group (index : Option Nat) (part : Regex)
  | atomic (part : Regex)
  /-- What stands behind this place, or in front of it within `width` characters. -/
  | ahead (negated : Bool) (part : Regex)
  | behind (negated : Bool) (width : Nat) (part : Regex)
  | backref (mode : Mode) (index : Nat)
  | cond (index : Nat) (yes no : Regex)

/-- The least and the greatest length of what matches; there may be no greatest. -/
structure Width where
  low : Nat
  high : Option Nat
deriving DecidableEq, Repr

namespace Width

def zero : Width := ⟨0, some 0⟩

def one : Width := ⟨1, some 1⟩

def add (a b : Width) : Width :=
  ⟨a.low + b.low, match a.high, b.high with
    | some m, some n => some (m + n)
    | _, _ => none⟩

def either (a b : Width) : Width :=
  ⟨min a.low b.low, match a.high, b.high with
    | some m, some n => some (max m n)
    | _, _ => none⟩

def times (a : Width) (low : Nat) (high : Option Nat) : Width :=
  ⟨a.low * low, match a.high, high with
    | some m, some n => some (m * n)
    | some 0, none => some 0
    | _, none => none
    | none, some 0 => some 0
    | none, some _ => none⟩

end Width

mutual

/-- The lengths of what matches, given those of the groups. -/
def Regex.width (groups : Nat → Width) : Regex → Width
  | .point .. | .any .. | .set .. => .one
  | .anchor .. | .ahead .. | .behind .. => .zero
  | .seq parts => widthSum groups parts
  | .alt parts => widthAny groups parts
  | .repeated low high _ part => (part.width groups).times low high
  | .group _ part => part.width groups
  | .atomic part => part.width groups
  | .backref _ index => groups index
  | .cond _ yes no => (yes.width groups).either (no.width groups)

def widthSum (groups : Nat → Width) : List Regex → Width
  | [] => .zero
  | r :: rs => (r.width groups).add (widthSum groups rs)

def widthAny (groups : Nat → Width) : List Regex → Width
  | [] => .zero
  | [r] => r.width groups
  | r :: rs => (r.width groups).either (widthAny groups rs)

end

end Stencil.Pattern
