import BuildFlow.Json.Token
/-!
Reading a JSON text. Open lists and objects are kept on a stack, so the depth
of a text is not bounded. Nothing but blanks may follow the value.
-/
namespace BuildFlow.Json

/-- A list or an object that is still open, with its entries newest first.
`whole` is lost by a key that has no value. -/
inductive Frame where
  | list (items : List Json)
  | object (fields : List (String × Json)) (whole : Bool) (key : String)

/-- What the next token may be. -/
inductive Stage where
  /-- A value, or the end of a list that has no item yet. -/
  | value (first : Bool)
  /-- A key, or the end of an object that has no field yet. -/
  | key (first : Bool)
  | colon
  /-- A comma or the end of the innermost list or object. -/
  | next
  | finished (value : Json)

structure Assembly where
  stack : List Frame
  stage : Stage

namespace Assembly

def start : Assembly := ⟨[], .value false⟩

def place (value : Json) : List Frame → Assembly
  | [] => ⟨[], .finished value⟩
  | .list items :: rest => ⟨.list (value :: items) :: rest, .next⟩
  | .object fields whole key :: rest => ⟨.object ((key, value) :: fields) whole "" :: rest, .next⟩

def closeList : List Frame → Option Assembly
  | .list items :: rest => some (place (.list items.reverse) rest)
  | _ => none

def closeObject : List Frame → Option Assembly
  | .object fields whole _ :: rest =>
      some (place (if whole then .object fields.reverse else .valueless) rest)
  | _ => none

def step (assembly : Assembly) (token : Token) : Option Assembly :=
  let stack := assembly.stack
  match assembly.stage, token with
  | .value _, .atom value => some (place value stack)
  | .value _, .text (some content) => some (place (.text content) stack)
  | .value _, .text none => some (place .valueless stack)
  | .value _, .openList => some ⟨.list [] :: stack, .value true⟩
  | .value _, .openObject => some ⟨.object [] true "" :: stack, .key true⟩
  | .value true, .closeList => closeList stack
  | .key _, .text content =>
      match stack with
      | .object fields whole _ :: rest =>
          some ⟨.object fields (whole && content.isSome) (content.getD "") :: rest, .colon⟩
      | _ => none
  | .key true, .closeObject => closeObject stack
  | .colon, .colon => some ⟨stack, .value false⟩
  | .next, .comma =>
      match stack with
      | .list _ :: _ => some ⟨stack, .value false⟩
      | .object .. :: _ => some ⟨stack, .key false⟩
      | [] => none
  | .next, .closeList => closeList stack
  | .next, .closeObject => closeObject stack
  | _, _ => none

end Assembly

/-- The value of a JSON text. -/
def read? (text : String) : Option Json := do
  let assembly ← (← tokens? text).foldlM Assembly.step Assembly.start
  match assembly.stage with
  | .finished value => some value
  | _ => none

end BuildFlow.Json
