import BuildFlow.Pattern.Reader
/-!
The meaning of a pattern. Flags are resolved into sets of characters and
conditions on a place in the text. A repetition keeps its bounds, and the size
of a pattern counts every copy that the bounds ask for.
-/
namespace BuildFlow.Pattern

/-- A condition on a place between two characters. -/
structure Look where
  assertion : Assertion
  flags : Flags
  deriving DecidableEq, Repr

inductive Expr where
  | nothing
  | set (set : CharSet)
  | look (look : Look)
  | seq (first second : Expr)
  | either (left right : Expr)
  | loop (body : Expr) (least : Nat) (most : Option Nat)

/-! ## Sets of characters -/

/-- The last member that a complement can have. Without `wide` a pattern
speaks of bytes. -/
def Flags.last (flags : Flags) : Nat := if flags.wide then lastCode else 0xff

def asciiVariants (code : Nat) : List Nat :=
  if 0x41 ≤ code ∧ code ≤ 0x5a then [code, code + 32]
  else if 0x61 ≤ code ∧ code ≤ 0x7a then [code, code - 32]
  else [code]

def Flags.variants (flags : Flags) (code : Nat) : List Nat :=
  if !flags.ignoreCase then [code]
  else if flags.wide then caseVariants code
  else asciiVariants code

def CharSet.closeAscii (set : CharSet) : CharSet :=
  let letters := (List.range 26).flatMap fun i => [0x41 + i, 0x61 + i]
  set.union ⟨((letters.filter set.contains).flatMap asciiVariants).map fun code => (code, code)⟩

def Flags.close (flags : Flags) (set : CharSet) : CharSet :=
  if !flags.ignoreCase then set
  else if flags.wide then set.closeCase
  else set.closeAscii

def Flags.negate (flags : Flags) (negated : Bool) (set : CharSet) : CharSet :=
  if negated then set.complement flags.last else set

/-- Without `wide` a set must not reach beyond single bytes of text. -/
def Flags.admit (flags : Flags) (set : CharSet) : Option CharSet :=
  if flags.wide || set.isAscii then some set else none

def ClassName.set (flags : Flags) (name : ClassName) : CharSet :=
  match name, flags.wide with
  | .digit, true => .digit
  | .space, true => .space
  | .word, true => .word
  | .digit, false => .range 0x30 0x39
  | .space, false => ⟨[(0x09, 0x0d), (0x20, 0x20)]⟩
  | .word, false => ⟨[(0x30, 0x39), (0x41, 0x5a), (0x5f, 0x5f), (0x61, 0x7a)]⟩

def ClassName.set? (flags : Flags) (name : ClassName) (negated : Bool) : Option CharSet :=
  flags.admit (flags.negate negated (name.set flags))

/-- The code of a character within a class. -/
def Literal.code? (flags : Flags) (literal : Literal) : Option Nat :=
  let code := literal.char.toNat
  if flags.wide || code < 128 || (literal.coded && code < 256) then some code else none

def SetOp.apply (flags : Flags) (op : SetOp) (left right : CharSet) : CharSet :=
  let left := flags.close left
  let right := flags.close right
  match op with
  | .intersection => left.inter right
  | .difference => left.diff right flags.last
  | .symmetricDifference => left.symmDiff right flags.last

mutual

def ClassTerm.set? (flags : Flags) : ClassTerm → Option CharSet
  | .literal char => do
      let code ← char.code? flags
      return flags.close (.single code)
  | .range first last => do
      return flags.close (.range (← first.code? flags) (← last.code? flags))
  | .posix ranges negated => some (flags.negate negated (flags.close ⟨ranges⟩))
  | .named name negated => name.set? flags negated
  | .bracket negated body => do
      return flags.negate negated (flags.close (← body.set? flags))
  | .union items => ClassTerm.unionSet? flags items
  | .combine op left right => do
      return op.apply flags (← left.set? flags) (← right.set? flags)

def ClassTerm.unionSet? (flags : Flags) : List ClassTerm → Option CharSet
  | [] => some .empty
  | item :: rest => do
      return (← item.set? flags).union (← ClassTerm.unionSet? flags rest)

end

/-! ## Expressions -/

def dotSet (flags : Flags) : CharSet :=
  let excluded : CharSet :=
    if flags.dotAll then .empty
    else if flags.carriage then ⟨[(0x0a, 0x0a), (0x0d, 0x0d)]⟩
    else .single 0x0a
  excluded.complement lastCode

def Literal.expr? (flags : Flags) (literal : Literal) : Option Expr :=
  if !flags.wide && literal.coded && 128 ≤ literal.char.toNat then none
  else some (.set ⟨(flags.variants literal.char.toNat).map fun code => (code, code)⟩)

/-- A repetition of something that takes no characters needs one copy at most. -/
def Expr.takesNothing : Expr → Bool
  | .nothing | .look _ => true
  | .set _ => false
  | .seq first second => first.takesNothing && second.takesNothing
  | .either left right => left.takesNothing && right.takesNothing
  | .loop body _ most => body.takesNothing || most == some 0

mutual

/-- The meaning of a term under flags, and the flags for what follows it. A
group takes back the changes that it holds. -/
def Term.expr? (flags : Flags) : Term → Option (Expr × Flags)
  | .empty => some (.nothing, flags)
  | .flags change => some (.nothing, flags.apply change)
  | .literal char => (char.expr? flags).map (·, flags)
  | .dot => if flags.wide then some (.set (dotSet flags), flags) else none
  | .assertion condition => some (.look ⟨condition, flags⟩, flags)
  | .named name negated => do
      return (.set (← name.set? flags negated), flags)
  | .bracket negated body => do
      let set := flags.negate negated (flags.close (← body.set? flags))
      return (.set (← flags.admit set), flags)
  | .repeated body least most => do
      let (body, after) ← body.expr? flags
      return (.loop body least most, after)
  | .group change body => do
      let (body, _) ← body.expr? (flags.apply change)
      return (body, flags)
  | .alternation branches => Term.either? flags branches
  | .concat parts => Term.seq? flags parts

def Term.either? (flags : Flags) : List Term → Option (Expr × Flags)
  | [] => some (.nothing, flags)
  | [branch] => branch.expr? flags
  | branch :: rest => do
      -- A change of flags in one branch goes on to those behind it.
      let (left, flags) ← branch.expr? flags
      let (right, flags) ← Term.either? flags rest
      return (.either left right, flags)

def Term.seq? (flags : Flags) : List Term → Option (Expr × Flags)
  | [] => some (.nothing, flags)
  | part :: rest => do
      let (first, flags) ← part.expr? flags
      let (second, flags) ← Term.seq? flags rest
      return (.seq first second, flags)

end

/-! ## Size -/

/-- The bytes that a character takes in text. -/
def encodedLength (code : Nat) : Nat :=
  if code < 0x80 then 1 else if code < 0x800 then 2 else if code < 0x10000 then 3 else 4

def CharSet.size (set : CharSet) : Nat :=
  match set.ranges with
  | [] => 32
  | [(first, last)] =>
      if last < 128 then 32 else if first = last then 32 * encodedLength first else 320
  | ranges => if set.isAscii then 32 + 8 * ranges.length else 32 + 26 * ranges.length

/-- How much room a compiled expression takes, about. -/
def Expr.size : Expr → Nat
  | .nothing => 0
  | .set chars => chars.size
  | .look _ => 32
  | .seq first second => first.size + second.size
  | .either left right => 40 + left.size + right.size
  | .loop body least most =>
      let cap (n : Nat) := if body.takesNothing then min n 1 else n
      match most with
      | none => max 1 (cap least) * body.size + 40
      | some most => cap least * body.size + (cap most - cap least) * (body.size + 40)

/-- Expressions that take more room are refused. -/
def sizeLimit : Nat := 10 * 1024 * 1024

def Expr.read? (text : String) : Option Expr := do
  let (expr, _) ← (← Term.read? text).expr? .initial
  guard (expr.size ≤ sizeLimit)
  return expr

end BuildFlow.Pattern
