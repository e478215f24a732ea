import BuildFlow.Pattern.Term
/-!
Reading a pattern. Open groups and brackets are kept on stacks; every step
takes at least one character, so the length of the text bounds their number.
A pattern that breaks a rule is refused without a reason.
-/
namespace BuildFlow.Pattern

/-! ## Blanks, numbers and escapes -/

/-- Drops blanks, and comments from `#` to the end of the line. -/
def dropBlanks : Bool → List Char → List Char
  | _, [] => []
  | true, c :: rest => dropBlanks (c != '\n') rest
  | false, c :: rest =>
      if isBlank c then dropBlanks false rest
      else if c = '#' then dropBlanks true rest
      else c :: rest

/-- What follows once blanks are skipped, if the pattern allows them. -/
def onward (blanks : Bool) (rest : List Char) : List Char :=
  if blanks then dropBlanks false rest else rest

def hexDigit? (c : Char) : Option Nat :=
  if c.isDigit then some (c.toNat - '0'.toNat)
  else if 'a' ≤ c ∧ c ≤ 'f' then some (c.toNat - 'a'.toNat + 10)
  else if 'A' ≤ c ∧ c ≤ 'F' then some (c.toNat - 'A'.toNat + 10)
  else none

/-- Digits for as long as there are any. -/
def readDigits (blanks : Bool) : Nat → List Char → List Nat × List Char
  | 0, rest => ([], rest)
  | _, [] => ([], [])
  | fuel + 1, c :: rest =>
      if c.isDigit then
        let (digits, after) := readDigits blanks fuel (onward blanks rest)
        ((c.toNat - '0'.toNat) :: digits, after)
      else ([], c :: rest)

def decimal? (blanks : Bool) (text : List Char) : Option (Nat × List Char) :=
  let start := text.dropWhile isBlank
  let (digits, after) := readDigits blanks start.length start
  let value := digits.foldl (fun n digit => n * 10 + digit) 0
  let after := after.dropWhile isBlank
  if digits ≠ [] ∧ value < 4294967296 then
    some (value, if blanks then onward blanks after else after)
  else none

def charOf? (code : Nat) : Option Char :=
  if code.isValidChar then some (Char.ofNat code) else none

def hexFixed? (blanks : Bool) : Nat → Nat → List Char → Option (Nat × List Char)
  | 0, value, rest => some (value, rest)
  | _ + 1, _, [] => none
  | count + 1, value, c :: rest => do
      let digit ← hexDigit? c
      hexFixed? blanks count (value * 16 + digit) (onward blanks rest)

/-- Hexadecimal digits up to a closing brace. -/
def hexBraced? (blanks : Bool) : Nat → List Nat → List Char → Option (List Nat × List Char)
  | 0, _, _ => none
  | _, _, [] => none
  | fuel + 1, digits, c :: rest =>
      if c = '\x7d' then some (digits.reverse, onward blanks rest)
      else do
        let digit ← hexDigit? c
        hexBraced? blanks fuel (digit :: digits) (onward blanks rest)

def hexEscape? (blanks : Bool) (count : Nat) (text : List Char) : Option (Term × List Char) := do
  match onward blanks text with
  | '\x7b' :: rest =>
      let (digits, after) ← hexBraced? blanks (rest.length + 1) [] (onward blanks rest)
      guard (digits ≠ [])
      let c ← charOf? (digits.foldl (fun n digit => n * 16 + digit) 0)
      return (.literal ⟨c, false⟩, after)
  | rest =>
      let (value, after) ← hexFixed? blanks count 0 rest
      let c ← charOf? value
      return (.literal ⟨c, count == 2⟩, after)

def isMeta (c : Char) : Bool :=
  "\\.+*?()|[]\x7b\x7d^$#&-~".toList.contains c

/-- Punctuation may carry a backslash without need, angle brackets may not. -/
def isEscapable (c : Char) : Bool :=
  isMeta c || (c.toNat < 128 && !c.isAlphanum && c != '<' && c != '>')

def inBoundaryName (c : Char) : Bool := c.isAlpha || c = '-'

def readBoundaryName (blanks : Bool) : Nat → List Char → List Char × List Char
  | 0, rest => ([], rest)
  | _, [] => ([], [])
  | fuel + 1, c :: rest =>
      if inBoundaryName c then
        let (name, after) := readBoundaryName blanks fuel (onward blanks rest)
        (c :: name, after)
      else ([], c :: rest)

/-- A word boundary, perhaps with a name in braces. Braces that do not begin
with a letter are left to a repetition. -/
def boundary? (blanks : Bool) (text : List Char) : Option (Assertion × List Char) :=
  match text with
  | '\x7b' :: rest =>
      match onward blanks rest with
      | [] => none
      | c :: more =>
          if inBoundaryName c then
            match readBoundaryName blanks (more.length + 1) (c :: more) with
            | (name, '\x7d' :: after) =>
                match String.ofList name with
                | "start" => some (.wordStart, after)
                | "end" => some (.wordEnd, after)
                | "start-half" => some (.wordStartHalf, after)
                | "end-half" => some (.wordEndHalf, after)
                | _ => none
            | _ => none
          else some (.boundary, text)
  | _ => some (.boundary, text)

/-- What follows a backslash. -/
def escape? (blanks : Bool) : List Char → Option (Term × List Char)
  | [] => none
  | c :: rest =>
      let plain (c : Char) : Option (Term × List Char) := some (.literal ⟨c, false⟩, rest)
      let assertion (a : Assertion) : Option (Term × List Char) := some (.assertion a, rest)
      match c with
      | 'x' => hexEscape? blanks 2 rest
      | 'u' => hexEscape? blanks 4 rest
      | 'U' => hexEscape? blanks 8 rest
      | 'd' => some (.named .digit false, rest)
      | 'D' => some (.named .digit true, rest)
      | 's' => some (.named .space false, rest)
      | 'S' => some (.named .space true, rest)
      | 'w' => some (.named .word false, rest)
      | 'W' => some (.named .word true, rest)
      | 'a' => plain '\x07'
      | 'f' => plain '\x0c'
      | 't' => plain '\t'
      | 'n' => plain '\n'
      | 'r' => plain '\r'
      | 'v' => plain '\x0b'
      | 'A' => assertion .startText
      | 'z' => assertion .endText
      | 'B' => assertion .notBoundary
      | '<' => assertion .wordStart
      | '>' => assertion .wordEnd
      | 'b' => (boundary? blanks rest).map fun (a, after) => (.assertion a, after)
      | c => if isEscapable c then plain c else none

/-! ## Brackets -/

inductive ClassFrame where
  | bracket (outer : List ClassTerm) (negated : Bool)
  | op (op : SetOp) (left : ClassTerm)

/-- The items read so far, newest first, with the brackets and operators that
wait for more. -/
structure ClassReading where
  rest : List Char
  items : List ClassTerm
  stack : List ClassFrame

def ClassTerm.unionOf : List ClassTerm → ClassTerm
  | [item] => item
  | items => .union items

/-- The operand on the right joins an operator that waits for it. -/
def ClassFrame.fold (right : ClassTerm) : List ClassFrame → ClassTerm × List ClassFrame
  | .op which left :: rest => (.combine which left right, rest)
  | stack => (right, stack)

def posixRanges? (name : String) : Option (List (Nat × Nat)) :=
  match name with
  | "alnum" => some [(0x30, 0x39), (0x41, 0x5a), (0x61, 0x7a)]
  | "alpha" => some [(0x41, 0x5a), (0x61, 0x7a)]
  | "ascii" => some [(0, 0x7f)]
  | "blank" => some [(0x09, 0x09), (0x20, 0x20)]
  | "cntrl" => some [(0, 0x1f), (0x7f, 0x7f)]
  | "digit" => some [(0x30, 0x39)]
  | "graph" => some [(0x21, 0x7e)]
  | "lower" => some [(0x61, 0x7a)]
  | "print" => some [(0x20, 0x7e)]
  | "punct" => some [(0x21, 0x2f), (0x3a, 0x40), (0x5b, 0x60), (0x7b, 0x7e)]
  | "space" => some [(0x09, 0x0d), (0x20, 0x20)]
  | "upper" => some [(0x41, 0x5a)]
  | "word" => some [(0x30, 0x39), (0x41, 0x5a), (0x5f, 0x5f), (0x61, 0x7a)]
  | "xdigit" => some [(0x30, 0x39), (0x41, 0x46), (0x61, 0x66)]
  | _ => none

/-- A class such as `[:alpha:]`; the text starts behind its bracket. -/
def posix? (text : List Char) : Option (ClassTerm × List Char) := do
  match text with
  | ':' :: rest =>
      let (negated, named) := match rest with
        | '^' :: named => (true, named)
        | named => (false, named)
      match named.dropWhile (· != ':') with
      | ':' :: ']' :: after =>
          let ranges ← posixRanges? (String.ofList (named.takeWhile (· != ':')))
          return (.posix ranges negated, after)
      | _ => none
  | _ => none

/-- Hyphens at the front stand for themselves. -/
def leadingHyphens (blanks : Bool) : Nat → List Char → List ClassTerm × List Char
  | fuel + 1, '-' :: rest =>
      let (items, after) := leadingHyphens blanks fuel (onward blanks rest)
      (.literal ⟨'-', false⟩ :: items, after)
  | _, rest => ([], rest)

/-- Opens a bracket; the text starts behind it. -/
def ClassReading.openBracket (reading : ClassReading) (blanks : Bool) (text : List Char) :
    Option ClassReading :=
  let start := onward blanks text
  let (negated, start) := match start with
    | '^' :: rest => (true, onward blanks rest)
    | start => (false, start)
  let (hyphens, start) := leadingHyphens blanks start.length start
  -- At the front a closing bracket stands for itself.
  let (items, start) := match hyphens, start with
    | [], ']' :: rest => ([.literal ⟨']', false⟩], onward blanks rest)
    | hyphens, start => (hyphens, start)
  if start = [] then none
  else some ⟨start, items, .bracket reading.items negated :: reading.stack⟩

/-- Closes the innermost bracket. The outermost one ends the class. -/
def ClassReading.closeBracket (reading : ClassReading) (after : List Char) :
    Option (ClassReading ⊕ (Term × List Char)) :=
  let (body, stack) := ClassFrame.fold (.unionOf reading.items.reverse) reading.stack
  match stack with
  | [.bracket _ negated] => some (.inr (.bracket negated body, after))
  | .bracket outer negated :: stack =>
      some (.inl ⟨after, .bracket negated body :: outer, stack⟩)
  | _ => none

def ClassReading.operator (reading : ClassReading) (op : SetOp) (after : List Char) :
    ClassReading :=
  let (left, stack) := ClassFrame.fold (.unionOf reading.items.reverse) reading.stack
  ⟨after, [], .op op left :: stack⟩

/-- One member of a class: a character or an escape. -/
def member? (blanks : Bool) : List Char → Option (Term × List Char)
  | [] => none
  | '\\' :: rest => escape? blanks rest
  | c :: rest => some (.literal ⟨c, false⟩, rest)

def ClassTerm.ofTerm? : Term → Option ClassTerm
  | .literal char => some (.literal char)
  | .named name negated => some (.named name negated)
  | _ => none

def Term.literal? : Term → Option Literal
  | .literal char => some char
  | _ => none

/-- A member, or a range when a hyphen follows that is neither the last
character of the class nor doubled. -/
def ClassReading.member (reading : ClassReading) (blanks : Bool) : Option ClassReading := do
  let (first, after) ← member? blanks reading.rest
  let after := onward blanks after
  guard (after ≠ [])
  let isRange := match after with
    | '-' :: rest =>
        let next := (onward blanks rest).head?
        next != some ']' && next != some '-'
    | _ => false
  if isRange then
    let (last, after) ← member? blanks (onward blanks (after.drop 1))
    let first ← first.literal?
    let last ← last.literal?
    guard (first.char ≤ last.char)
    return { reading with rest := after, items := .range first last :: reading.items }
  else
    let item ← ClassTerm.ofTerm? first
    return { reading with rest := after, items := item :: reading.items }

def ClassReading.step (reading : ClassReading) (blanks : Bool) :
    Option (ClassReading ⊕ (Term × List Char)) :=
  match onward blanks reading.rest with
  | [] => none
  | '[' :: rest =>
      match posix? rest with
      | some (item, after) =>
          some (.inl { reading with rest := after, items := item :: reading.items })
      | none => (reading.openBracket blanks rest).map .inl
  | ']' :: rest => reading.closeBracket rest
  | '&' :: '&' :: rest => some (.inl (reading.operator .intersection rest))
  | '-' :: '-' :: rest => some (.inl (reading.operator .difference rest))
  | '~' :: '~' :: rest => some (.inl (reading.operator .symmetricDifference rest))
  | rest => (({ reading with rest := rest } : ClassReading).member blanks).map .inl

def ClassReading.finish (blanks : Bool) : Nat → ClassReading → Option (Term × List Char)
  | 0, _ => none
  | fuel + 1, reading =>
      match reading.step blanks with
      | none => none
      | some (.inr result) => some result
      | some (.inl reading) => reading.finish blanks fuel

/-- A class in brackets; the text starts behind the opening one. -/
def bracket? (blanks : Bool) (text : List Char) : Option (Term × List Char) := do
  let reading ← (ClassReading.mk text [] []).openBracket blanks text
  reading.finish blanks (text.length + 1)

/-! ## Groups and repetitions -/

inductive Frame where
  | group (outer : List Term) (change : FlagChange) (blanks : Bool)
  | alternation (branches : List Term)

/-- The parts of the sequence in hand, newest first, with the groups and
alternatives that wait for it. -/
structure Reading where
  rest : List Char
  blanks : Bool
  names : List (List Char)
  parts : List Term
  stack : List Frame

namespace Reading

def start (text : List Char) : Reading := ⟨text, false, [], [], []⟩

def sequence (reading : Reading) : Term := Term.concatOf reading.parts.reverse

def push (reading : Reading) (term : Term) (after : List Char) : Reading :=
  { reading with rest := after, parts := term :: reading.parts }

/-- A dangling or doubled minus and a flag given twice are refused. -/
def flags? : Bool → Bool → FlagChange → List Char → Option (FlagChange × Char × List Char)
  | _, _, _, [] => none
  | negated, dangling, change, c :: rest =>
      if c = ':' ∨ c = ')' then
        if dangling then none else some (change.reverse, c, rest)
      else if c = '-' then
        if negated then none else flags? true true change rest
      else
        match Flag.ofChar? c with
        | some flag =>
            if change.any fun entry => entry.1 = flag then none
            else flags? negated false ((flag, !negated) :: change) rest
        | none => none

def nameStart (c : Char) : Bool := c = '_' || (isWord c && !CharSet.digit.contains c.toNat)

def nameChar (c : Char) : Bool := isWord c || c = '.' || c = '[' || c = ']'

/-- The name of a group up to `>`. -/
def groupName? (text : List Char) : Option (List Char × List Char) :=
  let name := text.takeWhile (· != '>')
  match name, text.dropWhile (· != '>') with
  | first :: more, '>' :: after =>
      if nameStart first ∧ more.all nameChar then some (name, after) else none
  | _, _ => none

def openGroup (reading : Reading) (change : FlagChange) (after : List Char) : Reading :=
  { reading with
    rest := after
    blanks := (change.value? .blanks).getD reading.blanks
    parts := []
    stack := .group reading.parts change reading.blanks :: reading.stack }

def namedGroup (reading : Reading) (text : List Char) : Option Reading := do
  let (name, after) ← groupName? text
  guard (!reading.names.contains name)
  return { reading with names := name :: reading.names }.openGroup [] after

/-- What follows an opening parenthesis. Look-around is refused. -/
def group (reading : Reading) (text : List Char) : Option Reading :=
  match onward reading.blanks text with
  | '?' :: '=' :: _ | '?' :: '!' :: _ => none
  | '?' :: '<' :: '=' :: _ | '?' :: '<' :: '!' :: _ => none
  | '?' :: 'P' :: '<' :: rest | '?' :: '<' :: rest => reading.namedGroup rest
  | '?' :: rest =>
      match flags? false false [] rest with
      | some (change, ':', after) => some (reading.openGroup change after)
      -- Flags without a colon hold up to the end of the group around them.
      | some (change, _, after) =>
          if change = [] then none
          else some { reading.push (.flags change) after with
            blanks := (change.value? .blanks).getD reading.blanks }
      | none => none
  | rest => some (reading.openGroup [] rest)

def closeGroup (reading : Reading) (after : List Char) : Option Reading :=
  let close (body : Term) : List Frame → Option Reading
    | .group outer change blanks :: stack =>
        some { reading with
          rest := after
          blanks := blanks
          parts := .group change body :: outer
          stack := stack }
    | _ => none
  match reading.stack with
  | .alternation branches :: stack =>
      close (.alternation (reading.sequence :: branches).reverse) stack
  | stack => close reading.sequence stack

def alternate (reading : Reading) (after : List Char) : Reading :=
  let branch := reading.sequence
  let stack := match reading.stack with
    | .alternation branches :: stack => .alternation (branch :: branches) :: stack
    | stack => .alternation [branch] :: stack
  { reading with rest := after, parts := [], stack := stack }

/-- A question mark behind a repetition only changes which match is found first. -/
def dropLazy : List Char → List Char
  | '?' :: rest => rest
  | rest => rest

def repetition (reading : Reading) (least : Nat) (most : Option Nat) (after : List Char) :
    Option Reading :=
  match reading.parts with
  | part :: parts =>
      if part.repeatable then
        some { reading with rest := dropLazy after, parts := .repeated part least most :: parts }
      else none
  | [] => none

/-- A repetition in braces: `n`, `n,` or `n,m`. -/
def counted (reading : Reading) (text : List Char) : Option Reading := do
  let blanks := reading.blanks
  let (least, after) ← decimal? blanks (onward blanks text)
  match after with
  | '\x7d' :: after => reading.repetition least (some least) (onward blanks after)
  | ',' :: after =>
      match onward blanks after with
      | '\x7d' :: after => reading.repetition least none (onward blanks after)
      | after =>
          match ← decimal? blanks after with
          | (most, '\x7d' :: after) =>
              guard (least ≤ most)
              reading.repetition least (some most) (onward blanks after)
          | _ => none
  | _ => none

/-- Takes the next character and what belongs to it. -/
def step (reading : Reading) : List Char → Option Reading
  | [] => none
  | c :: rest =>
      match c with
      | '(' => reading.group rest
      | ')' => reading.closeGroup rest
      | '|' => some (reading.alternate rest)
      | '[' => (bracket? reading.blanks rest).map fun (term, after) => reading.push term after
      | '?' => reading.repetition 0 (some 1) rest
      | '*' => reading.repetition 0 none rest
      | '+' => reading.repetition 1 none rest
      | '\x7b' => reading.counted rest
      | '\\' => (escape? reading.blanks rest).map fun (term, after) => reading.push term after
      | '.' => some (reading.push .dot rest)
      | '^' => some (reading.push (.assertion .startLine) rest)
      | '$' => some (reading.push (.assertion .endLine) rest)
      | c => some (reading.push (.literal ⟨c, false⟩) rest)

def finish (reading : Reading) : Option Term :=
  match reading.stack with
  | [] => some reading.sequence
  | [.alternation branches] => some (.alternation (reading.sequence :: branches).reverse)
  | _ => none

def run : Nat → Reading → Option Term
  | 0, _ => none
  | fuel + 1, reading =>
      match onward reading.blanks reading.rest with
      | [] => reading.finish
      | rest => (reading.step rest).bind (run fuel)

end Reading

/-- Patterns that nest deeper than this are refused. -/
def nestLimit : Nat := 250

def Term.read? (text : String) : Option Term := do
  let term ← (Reading.start text.toList).run (text.length + 1)
  guard (term.depth ≤ nestLimit)
  return term

end BuildFlow.Pattern
