import BuildFlow.Text.Quoted
/-!
One line that shows the inside of a value: records with their fields, lists,
sets and maps, and texts in quotes. A record can leave fields out, which two
dots show.
-/
namespace BuildFlow.Text

inductive Inspect where
  | word (content : String)
  | text (content : String)
  | list (items : List Inspect)
  | set (items : List Inspect)
  | map (entries : List (Inspect × Inspect))
  | tuple (name : String) (items : List Inspect)
  | record (name : String) (fields : List (String × Inspect)) (complete : Bool)

namespace Inspect

def nat (n : Nat) : Inspect := word (toString n)
def bool (b : Bool) : Inspect := word (if b then "true" else "false")

def option (value : Option Inspect) : Inspect :=
  match value with
  | none => word "None"
  | some value => tuple "Some" [value]

def optionText (value : Option String) : Inspect := option (value.map text)

mutual

def render : Inspect → String
  | word content => content
  | text content => quote content
  | list items => "[" ++ renderItems items ++ "]"
  | set items => "\x7b" ++ renderItems items ++ "\x7d"
  | map entries => "\x7b" ++ renderEntries entries ++ "\x7d"
  | tuple name items => name ++ "(" ++ renderItems items ++ ")"
  | record name fields complete =>
      if complete then name ++ " \x7b " ++ renderFields fields ++ " \x7d"
      else name ++ " \x7b " ++ renderFields fields ++ ", .. \x7d"

def renderItems : List Inspect → String
  | [] => ""
  | [item] => item.render
  | item :: rest => item.render ++ ", " ++ renderItems rest

def renderEntries : List (Inspect × Inspect) → String
  | [] => ""
  | [(key, value)] => key.render ++ ": " ++ value.render
  | (key, value) :: rest => key.render ++ ": " ++ value.render ++ ", " ++ renderEntries rest

def renderFields : List (String × Inspect) → String
  | [] => ""
  | [(name, value)] => name ++ ": " ++ value.render
  | (name, value) :: rest => name ++ ": " ++ value.render ++ ", " ++ renderFields rest

end

end Inspect

end BuildFlow.Text
