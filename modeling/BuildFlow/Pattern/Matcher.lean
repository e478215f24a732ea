import BuildFlow.Pattern.Expr
/-!
Whether a pattern occurs in a text. An expression sends a set of places to the
places where a match from them can end; the pattern occurs if the places of the
whole text are not sent to nothing. A repetition goes on from the places that
the last round has added, and ends with a round that adds none.
-/
namespace BuildFlow.Pattern

/-- Places between the characters of a text, in ascending order. -/
abbrev Places := List Nat

namespace Places

def union (a b : Places) : Places := (a.merge b).eraseReps

/-- The places of one set that another does not have. -/
def minus : Places → Places → Places
  | [], _ => []
  | places, [] => places
  | a :: as, b :: bs =>
      if a < b then a :: minus as (b :: bs)
      else if a = b then minus as bs
      else minus (a :: as) bs
  termination_by a b => a.length + b.length

end Places

namespace Look

def inWord (look : Look) (c : Option Char) : Bool :=
  match c with
  | none => false
  | some c =>
      if look.flags.wide then isWord c else c.isAlphanum || c = '_'

def holds (look : Look) (text : Array Char) (place : Nat) : Bool :=
  let before := if place = 0 then none else text[place - 1]?
  let after := text[place]?
  let wordBefore := look.inWord before
  let wordAfter := look.inWord after
  match look.assertion with
  | .startText => place = 0
  | .endText => place = text.size
  | .startLine =>
      place = 0 || look.flags.multiline &&
        (before = some '\n' || look.flags.carriage && before = some '\r' && after ≠ some '\n')
  | .endLine =>
      place = text.size || look.flags.multiline &&
        (if look.flags.carriage then
          after = some '\r' || after = some '\n' && before ≠ some '\r'
        else after = some '\n')
  | .boundary => wordBefore != wordAfter
  | .notBoundary => wordBefore == wordAfter
  | .wordStart => !wordBefore && wordAfter
  | .wordEnd => wordBefore && !wordAfter
  | .wordStartHalf => !wordBefore
  | .wordEndHalf => !wordAfter

end Look

/-- A number of rounds, one after the other. -/
def rounds (step : Places → Places) : Nat → Places → Places
  | 0, places => places
  | count + 1, places => rounds step count (step places)

/-- Up to a number of rounds. Each goes on from the places that the last one added. -/
def spread (step : Places → Places) : Nat → Places → Places → Places
  | 0, reached, _ => reached
  | count + 1, reached, added =>
      -- A round that adds nothing ends the loop, since all later ones would add nothing either.
      match (step added).minus reached with
      | [] => reached
      | added => spread step count (reached.union added) added

def Expr.ends (text : Array Char) : Expr → Places → Places
  | .nothing, places => places
  | .set chars, places => places.filterMap fun place =>
      match text[place]? with
      | some c => if chars.contains c.toNat then some (place + 1) else none
      | none => none
  | .look condition, places => places.filter (condition.holds text)
  | .seq first second, places => second.ends text (first.ends text places)
  | .either left right, places => (left.ends text places).union (right.ends text places)
  | .loop body least most, places =>
      -- No more rounds than these can reach a new place.
      let bound := text.size + 1
      let start := rounds (body.ends text) (min least bound) places
      let more := match most with
        | none => bound
        | some most => min (most - least) bound
      spread (body.ends text) more start start

end Pattern

/-- A pattern that was read, with the text it was read from. -/
structure Pattern where
  source : String
  expr : Pattern.Expr

namespace Pattern

def ofString? (source : String) : Option Pattern :=
  (Expr.read? source).map fun expr => ⟨source, expr⟩

/-- Whether the pattern occurs anywhere in a text. -/
def occursIn (pattern : Pattern) (text : String) : Bool :=
  let chars := text.toList.toArray
  !(pattern.expr.ends chars (List.range (chars.size + 1))).isEmpty

end Pattern

end BuildFlow
