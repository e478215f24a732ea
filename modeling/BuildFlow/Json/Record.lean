import BuildFlow.Json.Reader
import BuildFlow.Status
import BuildFlow.Table
/-!
Reading typed values from JSON. A record is given by its field names or as a
list in the order of its fields. Unknown fields are skipped, a field given
twice is refused, and a whole number is accepted for a float but not the other
way round.
-/
namespace BuildFlow.Json

/-! ## Plain values -/

def bool? : Json → Option Bool
  | .bool value => some value
  | _ => none

def text? : Json → Option String
  | .text value => some value
  | _ => none

def float? : Json → Option Float
  | .number (.float value) => some value
  | .number (.int value) => some (Float.ofInt value)
  | _ => none

/-- A whole number between two bounds. -/
def intBetween? (least most : Int) : Json → Option Int
  | .number (.int value) => if least ≤ value ∧ value ≤ most then some value else none
  | _ => none

/-- A number of 32 bits. -/
def word32? (json : Json) : Option Nat := (json.intBetween? 0 4294967295).map Int.toNat

/-- A number of 64 bits. -/
def word64? (json : Json) : Option Nat :=
  (json.intBetween? 0 18446744073709551615).map Int.toNat

/-- A number of 32 bits with a sign. -/
def signed32? (json : Json) : Option Int := json.intBetween? (-2147483648) 2147483647

/-- Null stands for a value that is left out. -/
def option? {α : Type} (read : Json → Option α) : Json → Option (Option α)
  | .null => some none
  | json => (read json).map some

def list? {α : Type} (read : Json → Option α) : Json → Option (List α)
  | .list items => items.mapM read
  | _ => none

def pair? {α β : Type} (first : Json → Option α) (second : Json → Option β) :
    Json → Option (α × β)
  | .list [a, b] => do return (← first a, ← second b)
  | _ => none

/-- One of a list of names, alone or as the only key of an object with null. -/
def variant? {α : Type} (values : List α) (name : α → String) (json : Json) : Option α :=
  let find (given : String) := values.find? fun value => name value = given
  match json with
  | .text given => find given
  | .object [(given, .null)] => find given
  | _ => none

/-- An object of texts; the last value of a key wins. -/
def textTable? : Json → Option (Table String String)
  | .object fields => do
      let entries ← fields.mapM fun (key, value) => do return (key, ← value.text?)
      return Table.ofList entries
  | _ => none

/-! ## Records -/

/-- The fields of a record that are present, and whether they were given by position. -/
structure Fields where
  present : List (String × Json)
  positional : Bool

namespace Fields

def of? (names : List String) : Json → Option Fields
  | .object fields =>
      let known := fields.filter fun field => names.contains field.1
      if (known.map (·.1)).Nodup then some ⟨known, false⟩ else none
  | .list items =>
      if items.length ≤ names.length then some ⟨names.zip items, true⟩ else none
  | _ => none

def required {α : Type} (fields : Fields) (name : String) (read : Json → Option α) : Option α :=
  (fields.present.lookup name).bind read

/-- A field that may be left out or null. A list of fields has to hold it. -/
def optional {α : Type} (fields : Fields) (name : String) (read : Json → Option α) :
    Option (Option α) :=
  match fields.present.lookup name with
  | some json => json.option? read
  | none => if fields.positional then none else some none

/-- A field with a value of its own when it is left out. -/
def default {α : Type} (fields : Fields) (name : String) (read : Json → Option α) (value : α) :
    Option α :=
  match fields.present.lookup name with
  | some json => read json
  | none => some value

/-- A field that may be left out or null in both forms of a record. -/
def absent {α : Type} (fields : Fields) (name : String) (read : Json → Option α) :
    Option (Option α) :=
  fields.default name (option? read) none

end Fields

end BuildFlow.Json

namespace BuildFlow

/-! ## The words of a flow -/

def BuildResult.read? (json : Json) : Option BuildResult := json.variant? all name
def Propagation.read? (json : Json) : Option Propagation := json.variant? all name
def Checking.read? (json : Json) : Option Checking := json.variant? all name
def Progress.read? (json : Json) : Option Progress := json.variant? all name
def KillKind.read? (json : Json) : Option KillKind := json.variant? kinds name

end BuildFlow
