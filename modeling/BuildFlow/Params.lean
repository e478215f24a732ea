import BuildFlow.Pattern.Matcher
import BuildFlow.Table
/-!
Parameters of a job: values as the runner gets them, values as they may be
shown, and the order in which they are shown.
-/
namespace BuildFlow

/-- A parameter value as a flow gives it. -/
inductive ParamValue where
  | text (value : String)
  | flag (value : Bool)
  | int (value : Int)
  deriving DecidableEq, Repr

/-- The text that the runner gets: flags are in lower case. -/
def ParamValue.render : ParamValue → String
  | .text value => value
  | .flag value => if value then "true" else "false"
  | .int value => toString value

abbrev Params := Table String String

namespace Params

/-- A later value of a name wins. -/
def ofValues (values : List (String × ParamValue)) : Params :=
  Table.ofList (values.map fun (name, value) => (name, value.render))

/-- What is shown in place of a secret value. -/
def secretMask : String := "******"

/-- The names whose values are secret unless a flow says otherwise. -/
def defaultSecretPattern : String := ".*passw.*|.*PASSW.*"

/-- Hides the values whose names match. -/
def mask (secret : Pattern) (params : Params) : Params :=
  params.mapValues fun name value => if secret.occursIn name then secretMask else value

/-! ## Display order -/

/-- Parameters on their way into display order, picked ones newest first. -/
structure Arrangement where
  remaining : Params
  front : List (String × String)
  back : List (String × String)
  pastStar : Bool

namespace Arrangement

/-- Picks a name. From the first star on, picked names go behind the rest. -/
def pick (arrangement : Arrangement) (name : String) : Arrangement :=
  let pastStar := arrangement.pastStar || name = "*"
  match arrangement.remaining.get? name with
  | none => { arrangement with pastStar }
  | some value =>
      let remaining := arrangement.remaining.erase name
      if pastStar then
        { arrangement with remaining, back := (name, value) :: arrangement.back, pastStar }
      else { arrangement with remaining, front := (name, value) :: arrangement.front, pastStar }

def entries (arrangement : Arrangement) : List (String × String) :=
  arrangement.front.reverse ++ arrangement.remaining.entries ++ arrangement.back.reverse

end Arrangement

/-- The order has the form `first…, "*", last…`. Names that it leaves out stand
at the star in their own order, and at the end if there is no star. -/
def displayOrder (params : Params) (order : List String) : List (String × String) :=
  (order.foldl Arrangement.pick ⟨params, [], [], false⟩).entries

end Params

end BuildFlow
