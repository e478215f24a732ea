import BuildFlow.Pattern.Tables
/-!
Sets of characters as ranges of code points. The ranges of a normal set ascend
and do not touch, which makes complements easy to read off.
-/
namespace BuildFlow.Pattern

/-- The last code point. -/
def lastCode : Nat := 0x10ffff

structure CharSet where
  ranges : List (Nat × Nat)
  deriving DecidableEq, Repr

namespace CharSet

def empty : CharSet := ⟨[]⟩
def single (code : Nat) : CharSet := ⟨[(code, code)]⟩
def range (first last : Nat) : CharSet := ⟨[(first, last)]⟩

def contains (set : CharSet) (code : Nat) : Bool :=
  set.ranges.any fun range => range.1 ≤ code && code ≤ range.2

def union (a b : CharSet) : CharSet := ⟨a.ranges ++ b.ranges⟩

/-- Joins neighbours of a list of ranges in ascending order. -/
def join : List (Nat × Nat) → List (Nat × Nat)
  | [] => []
  | range :: rest =>
      match join rest with
      | [] => [range]
      | next :: more =>
          if next.1 ≤ range.2 + 1 then (range.1, max range.2 next.2) :: more
          else range :: next :: more

def normal (set : CharSet) : CharSet :=
  ⟨join (set.ranges.mergeSort fun a b => a.1 ≤ b.1)⟩

/-- The gaps from a code point on, between ranges in ascending order. -/
def gaps (last : Nat) : Nat → List (Nat × Nat) → List (Nat × Nat)
  | start, [] => if start ≤ last then [(start, last)] else []
  | start, range :: rest =>
      if start < range.1 then (start, range.1 - 1) :: gaps last (range.2 + 1) rest
      else gaps last (range.2 + 1) rest

/-- The code points up to a last one that are not in the set. -/
def complement (set : CharSet) (last : Nat) : CharSet :=
  ⟨gaps last 0 set.normal.ranges⟩

def inter (a b : CharSet) : CharSet :=
  ⟨a.ranges.flatMap fun x => b.ranges.filterMap fun y =>
    let first := max x.1 y.1
    let last := min x.2 y.2
    if first ≤ last then some (first, last) else none⟩

def diff (a b : CharSet) (last : Nat) : CharSet := a.inter (b.complement last)

def symmDiff (a b : CharSet) (last : Nat) : CharSet := (a.diff b last).union (b.diff a last)

/-- Adds every character that differs from a member in case only. -/
def closeCase (set : CharSet) : CharSet :=
  let folded := foldRuns.flatMap fun (first, last, step, distance) =>
    (List.range ((last - first) / step + 1)).flatMap fun i =>
      let code := first + i * step
      [code, code - distance]
  let touched := folded.filter set.contains
  (set.union ⟨(touched.flatMap caseVariants).map fun code => (code, code)⟩).normal

def isAscii (set : CharSet) : Bool := set.ranges.all fun range => range.2 < 128

def word : CharSet := ⟨wordRanges⟩
def digit : CharSet := ⟨digitRanges⟩
def space : CharSet := ⟨spaceRanges⟩

end CharSet

/-- Whether a character counts as part of a word. -/
def isWord (c : Char) : Bool := CharSet.word.contains c.toNat

/-- White space between the parts of a pattern. -/
def isBlank (c : Char) : Bool := CharSet.space.contains c.toNat

end BuildFlow.Pattern
