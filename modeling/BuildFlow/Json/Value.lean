import BuildFlow.Decimal.Style
/-!
JSON values and their two written forms: compact, and with one entry a line
under an indentation of any width.
-/
namespace BuildFlow

/-- A whole number keeps all its digits; anything else is a float. -/
inductive Number where
  | int (value : Int)
  | float (value : Float)

/-- Floats that are no number are written as null. -/
def Number.render : Number → String
  | .int value => toString value
  | .float value => if value.isFinite then Decimal.Style.document.write value else "null"

/-- A JSON value. `valueless` is what a well formed text denotes that has no
value: a number beyond the floats, a string with half a surrogate pair, or an
object with such a string among its keys. It may be skipped but not read. -/
inductive Json where
  | null
  | bool (value : Bool)
  | number (value : Number)
  | text (value : String)
  | list (items : List Json)
  | object (fields : List (String × Json))
  | valueless

instance : Inhabited Json := ⟨.null⟩

namespace Json

def int (value : Int) : Json := .number (.int value)
def nat (value : Nat) : Json := .number (.int value)
def float (value : Float) : Json := .number (.float value)

def option {α : Type} (write : α → Json) : Option α → Json
  | none => .null
  | some value => write value

def texts (values : List String) : Json := .list (values.map .text)

/-! ## Text -/

def hexDigits (n : Nat) : List Char :=
  let digits := Nat.toDigits 16 n
  List.replicate (4 - digits.length) '0' ++ digits

def escapeChar (c : Char) : List Char :=
  match c with
  | '"' => ['\\', '"']
  | '\\' => ['\\', '\\']
  | '\x08' => ['\\', 'b']
  | '\x0c' => ['\\', 'f']
  | '\n' => ['\\', 'n']
  | '\r' => ['\\', 'r']
  | '\t' => ['\\', 't']
  | c => if c.toNat < 0x20 then ['\\', 'u'] ++ hexDigits c.toNat else [c]

def quoted (text : String) : String :=
  String.ofList ('"' :: (text.toList.flatMap escapeChar ++ ['"']))

mutual

/-- The compact form. -/
def compact : Json → String
  | null => "null"
  | bool value => if value then "true" else "false"
  | number value => value.render
  | text value => quoted value
  | list items => "[" ++ compactItems items ++ "]"
  | object fields => "\x7b" ++ compactFields fields ++ "\x7d"
  | valueless => "null"

def compactItems : List Json → String
  | [] => ""
  | [item] => item.compact
  | item :: rest => item.compact ++ "," ++ compactItems rest

def compactFields : List (String × Json) → String
  | [] => ""
  | [(key, value)] => quoted key ++ ":" ++ value.compact
  | (key, value) :: rest => quoted key ++ ":" ++ value.compact ++ "," ++ compactFields rest

end

/-- A line break and the indentation of a depth. -/
def lineBreak (width depth : Nat) : String :=
  String.ofList ('\n' :: List.replicate (width * depth) ' ')

mutual

/-- The form with one entry a line. An empty list or object stays on its line. -/
def indented (width depth : Nat) : Json → String
  | null => "null"
  | bool value => if value then "true" else "false"
  | number value => value.render
  | text value => quoted value
  | list [] => "[]"
  | list (item :: rest) =>
      "[" ++ lineBreak width (depth + 1) ++ item.indented width (depth + 1) ++
        indentedItems width (depth + 1) rest ++ lineBreak width depth ++ "]"
  | object [] => "\x7b\x7d"
  | object ((key, value) :: rest) =>
      "\x7b" ++ lineBreak width (depth + 1) ++ quoted key ++ ": " ++
        value.indented width (depth + 1) ++
        indentedFields width (depth + 1) rest ++ lineBreak width depth ++ "\x7d"
  | valueless => "null"

def indentedItems (width depth : Nat) : List Json → String
  | [] => ""
  | item :: rest =>
      "," ++ lineBreak width depth ++ item.indented width depth ++ indentedItems width depth rest

def indentedFields (width depth : Nat) : List (String × Json) → String
  | [] => ""
  | (key, value) :: rest =>
      "," ++ lineBreak width depth ++ quoted key ++ ": " ++ value.indented width depth ++
        indentedFields width depth rest

end

end Json

end BuildFlow
