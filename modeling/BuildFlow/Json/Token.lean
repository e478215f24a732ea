import BuildFlow.Decimal.Literal
import BuildFlow.Json.Value
/-!
The tokens of a JSON text. The scanner takes one character at a time and needs
no look-ahead: a word or a number ends at the first character that cannot
belong to it, and that character is then read anew.
-/
namespace BuildFlow.Json

inductive Token where
  | openList
  | closeList
  | openObject
  | closeObject
  | colon
  | comma
  /-- A string; none if it holds half a surrogate pair. -/
  | text (content : Option String)
  | atom (value : Json)

/-! ## Numbers -/

def digitValue (c : Char) : Nat := c.toNat - '0'.toNat

def digitValues (digits : List Char) : List Nat := digits.map digitValue

def naturalOf (digits : List Char) : Nat :=
  digits.foldl (fun n c => n * 10 + digitValue c) 0

/-- The exponent mark with its digits, or nothing. -/
def exponentOf? : List Char → Option Int
  | [] => some 0
  | mark :: rest =>
      if mark = 'e' ∨ mark = 'E' then
        let (negative, digits) := match rest with
          | '-' :: digits => (true, digits)
          | '+' :: digits => (false, digits)
          | digits => (false, digits)
        if digits ≠ [] ∧ digits.all Char.isDigit then
          some (if negative then -(naturalOf digits : Int) else naturalOf digits)
        else none
      else none

/-- The digits after a point, and what follows them. -/
def fractionOf? : List Char → Option (List Char × List Char)
  | '.' :: rest =>
      let digits := rest.takeWhile Char.isDigit
      if digits = [] then none else some (digits, rest.dropWhile Char.isDigit)
  | rest => some ([], rest)

def floatOf (negative : Bool) (whole fraction : List Char) (exponent : Int) : Json :=
  let significand := ((Decimal.Significand.mk 0 0).whole (digitValues whole)).fraction
    (digitValues fraction)
  match significand.toFloat negative exponent with
  | some value => .float value
  | none => .valueless

/-- A number without point and exponent stays whole while it fits 64 bits, with
a sign or without. Zero with a sign is a float. -/
def integerOf (negative : Bool) (whole : List Char) : Json :=
  let n := naturalOf whole
  if negative then
    -- The bounds are those of a signed word below zero and of an unsigned one above it.
    if 0 < n ∧ n ≤ 9223372036854775808 then .int (-(n : Int)) else floatOf true whole [] 0
  else if n < 18446744073709551616 then .nat n
  else floatOf false whole [] 0

def numberOf? (chars : List Char) : Option Json := do
  let (negative, unsigned) := match chars with
    | '-' :: rest => (true, rest)
    | rest => (false, rest)
  let whole := unsigned.takeWhile Char.isDigit
  guard (whole ≠ [] ∧ (whole.head? ≠ some '0' ∨ whole.length = 1))
  let (fraction, rest) ← fractionOf? (unsigned.dropWhile Char.isDigit)
  let exponent ← exponentOf? rest
  return if fraction = [] ∧ rest = [] then integerOf negative whole
    else floatOf negative whole fraction exponent

/-! ## Words and strings -/

def wordOf? (letters : List Char) : Option Json :=
  match String.ofList letters with
  | "null" => some .null
  | "true" => some (.bool true)
  | "false" => some (.bool false)
  | _ => none

/-- A string while it is read: its characters, newest first, a high surrogate
that waits for its partner, and whether all pairs so far were whole. -/
structure Passage where
  chars : List Char
  high : Option Nat
  whole : Bool

namespace Passage

def start : Passage := ⟨[], none, true⟩

def push (passage : Passage) (c : Char) : Passage :=
  ⟨c :: passage.chars, none, passage.whole && passage.high.isNone⟩

/-- Takes a code unit that was written as four hexadecimal digits. -/
def pushUnit (passage : Passage) (unit : Nat) : Passage :=
  -- A high surrogate waits; a second one before its partner leaves the first broken.
  if 0xd800 ≤ unit ∧ unit ≤ 0xdbff then
    ⟨passage.chars, some unit, passage.whole && passage.high.isNone⟩
  else if 0xdc00 ≤ unit ∧ unit ≤ 0xdfff then
    match passage.high with
    | some high =>
        let c := Char.ofNat (0x10000 + (high - 0xd800) * 0x400 + (unit - 0xdc00))
        ⟨c :: passage.chars, none, passage.whole⟩
    | none => ⟨passage.chars, none, false⟩
  else passage.push (Char.ofNat unit)

def finish (passage : Passage) : Option String :=
  if passage.whole && passage.high.isNone then some (String.ofList passage.chars.reverse) else none

end Passage

def hexValue? (c : Char) : Option Nat :=
  if c.isDigit then some (digitValue c)
  else if 'a' ≤ c ∧ c ≤ 'f' then some (c.toNat - 'a'.toNat + 10)
  else if 'A' ≤ c ∧ c ≤ 'F' then some (c.toNat - 'A'.toNat + 10)
  else none

/-! ## The scanner -/

inductive Mode where
  | between
  | word (letters : List Char)
  | number (chars : List Char)
  | text (passage : Passage)
  | escape (passage : Passage)
  | unit (passage : Passage) (digits value : Nat)

structure Scanner where
  tokens : List Token
  mode : Mode

namespace Scanner

def start : Scanner := ⟨[], .between⟩

def emit (scanner : Scanner) (token : Token) : Scanner :=
  ⟨token :: scanner.tokens, .between⟩

/-- Ends a word or a number. A string cannot end here. -/
def settle (scanner : Scanner) : Option Scanner :=
  match scanner.mode with
  | .between => some scanner
  | .word letters => (wordOf? letters.reverse).map fun value => scanner.emit (.atom value)
  | .number chars => (numberOf? chars.reverse).map fun value => scanner.emit (.atom value)
  | _ => none

/-- Reads a character that stands outside of all words, numbers and strings. -/
def begin (scanner : Scanner) (c : Char) : Option Scanner :=
  if c = ' ' ∨ c = '\n' ∨ c = '\r' ∨ c = '\t' then some scanner
  else if c = '[' then some (scanner.emit .openList)
  else if c = ']' then some (scanner.emit .closeList)
  else if c = '\x7b' then some (scanner.emit .openObject)
  else if c = '\x7d' then some (scanner.emit .closeObject)
  else if c = ':' then some (scanner.emit .colon)
  else if c = ',' then some (scanner.emit .comma)
  else if c = '"' then some { scanner with mode := .text .start }
  else if c = '-' ∨ c.isDigit then some { scanner with mode := .number [c] }
  else if c.isAlpha then some { scanner with mode := .word [c] }
  else none

def inNumber (c : Char) : Bool :=
  c.isDigit || c = '.' || c = 'e' || c = 'E' || c = '+' || c = '-'

def escaped? (c : Char) : Option Char :=
  match c with
  | '"' => some '"'
  | '\\' => some '\\'
  | '/' => some '/'
  | 'b' => some '\x08'
  | 'f' => some '\x0c'
  | 'n' => some '\n'
  | 'r' => some '\r'
  | 't' => some '\t'
  | _ => none

def step (scanner : Scanner) (c : Char) : Option Scanner :=
  match scanner.mode with
  | .between => scanner.begin c
  | .word letters =>
      if c.isAlpha then some { scanner with mode := .word (c :: letters) }
      else do (← scanner.settle).begin c
  | .number chars =>
      if inNumber c then some { scanner with mode := .number (c :: chars) }
      else do (← scanner.settle).begin c
  | .text passage =>
      if c = '"' then some (scanner.emit (.text passage.finish))
      else if c = '\\' then some { scanner with mode := .escape passage }
      else if c.toNat < 0x20 then none
      else some { scanner with mode := .text (passage.push c) }
  | .escape passage =>
      if c = 'u' then some { scanner with mode := .unit passage 0 0 }
      else (escaped? c).map fun c => { scanner with mode := .text (passage.push c) }
  | .unit passage digits value =>
      (hexValue? c).map fun digit =>
        let value := value * 16 + digit
        if digits = 3 then { scanner with mode := .text (passage.pushUnit value) }
        else { scanner with mode := .unit passage (digits + 1) value }

end Scanner

/-- The tokens of a text, if it consists of tokens and blanks. -/
def tokens? (text : String) : Option (List Token) := do
  let scanner ← text.toList.foldlM Scanner.step Scanner.start
  let scanner ← scanner.settle
  return scanner.tokens.reverse

end BuildFlow.Json
