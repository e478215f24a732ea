import BuildFlow.Json.Record
/-!
The document of an exported flow graph: the invocations, and the links between
those of them that wait for each other.
-/
namespace BuildFlow.Graph

/-- Names an invocation: by its id, or by the name of its job. -/
inductive Key where
  | id (id : Nat)
  | name (name : String)
  deriving DecidableEq, Repr

structure Node where
  key : Key
  /-- The job name without the prefix of the root. -/
  name : String
  url : Option String
  maxTries : Nat
  tried : Nat
  totalMaxTries : Nat
  totalTried : Nat
  level : Int
  propagation : Propagation
  checking : Checking
  result : BuildResult
  /-- The start of the current attempt in seconds. -/
  invokedAt : Float
  /-- Names with quoted values; secret ones are hidden. -/
  params : List (String × String)

/-- The source has to end before the target starts. -/
structure Link where
  source : Key
  target : Key
  deriving DecidableEq, Repr

end Graph

structure Graph where
  nodes : List Graph.Node
  links : List Graph.Link

namespace Graph

namespace Key

def toJson : Key → Json
  | id n => .nat n
  | name text => .text text

def read? (json : Json) : Option Key :=
  match json.word64? with
  | some n => some (.id n)
  | none => json.text?.map .name

end Key

namespace Node

def fieldNames : List String :=
  ["id", "name", "url", "tr", "nl", "pr", "cs", "res", "it", "params"]

def toJson (node : Node) : Json :=
  .object [
    ("id", node.key.toJson),
    ("name", .text node.name),
    ("url", .option .text node.url),
    ("tr", .list ([node.maxTries, node.tried, node.totalMaxTries, node.totalTried].map .nat)),
    ("nl", .int node.level),
    ("pr", .text node.propagation.name),
    ("cs", .text node.checking.name),
    ("res", .text node.result.name),
    ("it", .float node.invokedAt),
    ("params", .list (node.params.map fun (name, value) => .list [.text name, .text value]))]

def read? (json : Json) : Option Node := do
  let fields ← Json.Fields.of? fieldNames json
  let tries ← fields.required "tr" (Json.list? Json.word32?)
  let [maxTries, tried, totalMaxTries, totalTried] := tries | none
  return {
    key := ← fields.required "id" Key.read?
    name := ← fields.required "name" Json.text?
    url := ← fields.optional "url" Json.text?
    maxTries, tried, totalMaxTries, totalTried
    level := ← fields.required "nl" Json.signed32?
    propagation := ← fields.required "pr" Propagation.read?
    checking := ← fields.required "cs" Checking.read?
    result := ← fields.required "res" BuildResult.read?
    invokedAt := ← fields.required "it" Json.float?
    params := ← fields.required "params" (Json.list? (Json.pair? Json.text? Json.text?)) }

end Node

namespace Link

def toJson (link : Link) : Json :=
  .object [("source", link.source.toJson), ("target", link.target.toJson)]

def read? (json : Json) : Option Link := do
  let fields ← Json.Fields.of? ["source", "target"] json
  return {
    source := ← fields.required "source" Key.read?
    target := ← fields.required "target" Key.read? }

end Link

def toJson (graph : Graph) : Json :=
  .object [
    ("nodes", .list (graph.nodes.map Node.toJson)),
    ("links", .list (graph.links.map Link.toJson))]

def read? (json : Json) : Option Graph := do
  let fields ← Json.Fields.of? ["nodes", "links"] json
  return {
    nodes := ← fields.required "nodes" (Json.list? Node.read?)
    links := ← fields.required "links" (Json.list? Link.read?) }

end Graph

end BuildFlow
