import BuildFlow.Pattern.CharSet
/-!
A pattern as it is written: groups, flags and classes before any of them is
given a meaning.
-/
namespace BuildFlow.Pattern

/-- The flags that change what a pattern matches. -/
structure Flags where
  ignoreCase : Bool
  multiline : Bool
  dotAll : Bool
  wide : Bool
  carriage : Bool
  deriving DecidableEq, Repr

/-- At the start of a pattern only `wide` is on: classes cover all scripts. -/
def Flags.initial : Flags := ⟨false, false, false, true, false⟩

inductive Flag where
  | ignoreCase
  | multiline
  | dotAll
  | swapGreed
  | wide
  | carriage
  | blanks
  deriving DecidableEq, Repr

def Flag.ofChar? : Char → Option Flag
  | 'i' => some .ignoreCase
  | 'm' => some .multiline
  | 's' => some .dotAll
  | 'U' => some .swapGreed
  | 'u' => some .wide
  | 'R' => some .carriage
  | 'x' => some .blanks
  | _ => none

/-- Flags switched on or off, in the order they are written. -/
abbrev FlagChange := List (Flag × Bool)

def Flags.apply (flags : Flags) (change : FlagChange) : Flags :=
  change.foldl (fun flags (flag, value) =>
    match flag with
    | .ignoreCase => { flags with ignoreCase := value }
    | .multiline => { flags with multiline := value }
    | .dotAll => { flags with dotAll := value }
    | .wide => { flags with wide := value }
    | .carriage => { flags with carriage := value }
    | .swapGreed | .blanks => flags) flags

/-- What a flag is changed to, if at all. -/
def FlagChange.value? (change : FlagChange) (flag : Flag) : Option Bool :=
  (change.find? fun entry => entry.1 = flag).map (·.2)

inductive ClassName where
  | digit
  | space
  | word
  deriving DecidableEq, Repr

inductive Assertion where
  | startLine
  | endLine
  | startText
  | endText
  | boundary
  | notBoundary
  | wordStart
  | wordEnd
  | wordStartHalf
  | wordEndHalf
  deriving DecidableEq, Repr

/-- How two sets inside brackets are combined. -/
inductive SetOp where
  | intersection
  | difference
  | symmetricDifference
  deriving DecidableEq, Repr

/-- A single character. `coded` marks one that was written as `\x` and digits. -/
structure Literal where
  char : Char
  coded : Bool
  deriving DecidableEq, Repr

/-- What stands inside brackets. -/
inductive ClassTerm where
  | literal (literal : Literal)
  | range (first last : Literal)
  | posix (ranges : List (Nat × Nat)) (negated : Bool)
  | named (name : ClassName) (negated : Bool)
  | bracket (negated : Bool) (body : ClassTerm)
  | union (items : List ClassTerm)
  | combine (op : SetOp) (left right : ClassTerm)

inductive Term where
  | empty
  | flags (change : FlagChange)
  | literal (literal : Literal)
  | dot
  | assertion (assertion : Assertion)
  | named (name : ClassName) (negated : Bool)
  | bracket (negated : Bool) (body : ClassTerm)
  | repeated (body : Term) (least : Nat) (most : Option Nat)
  | group (change : FlagChange) (body : Term)
  | alternation (branches : List Term)
  | concat (parts : List Term)

def Term.concatOf : List Term → Term
  | [] => .empty
  | [part] => part
  | parts => .concat parts

/-- Whether a repetition may follow. -/
def Term.repeatable : Term → Bool
  | .empty | .flags _ => false
  | _ => true

/-! ## Nesting -/

mutual

def ClassTerm.depth : ClassTerm → Nat
  | .bracket _ body => body.depth + 1
  | .union items => ClassTerm.depthOf items + 1
  | .combine _ left right => max left.depth right.depth + 1
  | _ => 0

def ClassTerm.depthOf : List ClassTerm → Nat
  | [] => 0
  | item :: rest => max item.depth (ClassTerm.depthOf rest)

end

mutual

/-- How deep groups, repetitions, sequences, alternatives and brackets nest. -/
def Term.depth : Term → Nat
  | .bracket _ body => body.depth + 1
  | .repeated body _ _ => body.depth + 1
  | .group _ body => body.depth + 1
  | .alternation branches => Term.depthOf branches + 1
  | .concat parts => Term.depthOf parts + 1
  | _ => 0

def Term.depthOf : List Term → Nat
  | [] => 0
  | term :: rest => max term.depth (Term.depthOf rest)

end

end BuildFlow.Pattern
