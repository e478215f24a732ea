import BuildFlow.Config.Group
import BuildFlow.Config.Run
import BuildFlow.Sweep.Focus
/-!
A flow while it is declared. Groups are opened and closed in a stack; only the
innermost open one takes children. The root is always open, so the innermost
group exists and the nesting level is the number of groups around it.
-/
namespace BuildFlow

/-- A group that still takes children. -/
structure OpenGroup where
  group : Group
  children : List Tree
  securityToken : Option String
  secret : Pattern
  allowMissing : Bool

def OpenGroup.toTree (opened : OpenGroup) : Tree := .branch opened.group opened.children

/-- A handle to a declared group. -/
structure GroupRef where
  id : Nat
  level : Nat
  deriving DecidableEq, Repr

def GroupRef.root : GroupRef := ⟨0, 0⟩

structure Draft where
  config : RunConfig
  innermost : OpenGroup
  /-- The groups around the innermost one, from the inside out. -/
  outer : List OpenGroup
  nextId : Nat
  /-- Messages by the ids of their nodes. -/
  messages : Table Nat String
  /-- Invocations declared so far, by job name. -/
  counts : Table String Nat
  /-- The bytes of the prefix of the root, if the graph leaves it out. -/
  strip : Nat

namespace Draft

open NodeAct

/-- An action on a draft. -/
abbrev Step (α : Type) := NodeAct Draft α

/-- The nesting level of the innermost open group. -/
def level (draft : Draft) : Nat := draft.outer.length

def fail {α : Type} (error : FlowError) : Step α := throw (.error error)

/-! ## The root -/

def legend : List String :=
  ["=== Jobflow ===",
   "Legend:",
   "Serial builds: []",
   "Parallel builds: ()",
   "Invoking (w/x,y/z): w=current invocation in current flow scope, x=max in scope, " ++
     "y=total number of invocations, z=total max invocations",
   "Elapsed time: 'after: x/y': x=time spent during current run of job, " ++
     "y=time elapsed since start of outermost flow",
   "--- Calculating flow graph ---"]

/-- A group without children that has not been invoked. -/
def freshGroup (standing : Standing) (options : GroupOptions) (reportInterval : Float)
    (jobPrefix : String) (discipline : Discipline) : Group :=
  { standing, reportInterval, jobPrefix, discipline
    timeout := options.timeout
    lastReport := .none
    aborted := false }

/-- A fresh discipline of either kind. -/
def freshDiscipline (serial : Bool) : Discipline :=
  if serial then .serial 0 else .parallel ∅

def rootGroup (config : RunConfig) (options : GroupOptions) (serial : Bool) (secret : Pattern) :
    OpenGroup :=
  { group := freshGroup
      (.fresh 0 0 options.maxTries options.maxTries (options.propagation.getD .normal))
      options (options.reportInterval.getD config.reportInterval) options.jobPrefix
      (freshDiscipline serial)
    children := []
    securityToken := options.securityToken.or config.securityToken
    secret
    allowMissing := options.allowMissingJobs.getD config.allowMissingJobs }

/-- Begins a flow. The configuration is judged before the pattern of the root. -/
def start (config : RunConfig) (options : GroupOptions) (serial : Bool) : Act Host Draft := do
  match config.fault? with
  | some fault => Host.fail (.config fault)
  | none =>
      match Pattern.ofString? (options.secretPattern.getD config.secretPattern) with
      | none => Host.fail (.config .pattern)
      | some secret =>
          let root := rootGroup config options serial secret
          legend.forM fun line => Host.log .info line []
          Host.log .info root.group.opening []
          return {
            config
            innermost := root
            outer := []
            nextId := 1
            messages := ∅
            counts := ∅
            strip := if config.stripRootPrefix then options.jobPrefix.utf8ByteSize else 0 }

/-! ## Scopes -/

def outOfScope : String := "Flow used out of scope"

def failScope {α : Type} (reason : String) (level : Nat) : Step α := do
  fail (.scope reason level (← node).level)

/-- Passes only if the group is the innermost open one. -/
def checkInnermost (ref : GroupRef) : Step Unit := do
  if (← node).innermost.group.standing.id = ref.id then pure ()
  else failScope outOfScope ref.level

/-- Passes only if a child may be declared in the group now. -/
def checkScope (ref : GroupRef) : Step Unit := do
  if ref.level = (← node).level then checkInnermost ref
  else failScope outOfScope (ref.level + 1)

/-! ## Groups -/

def nestedGroup (draft : Draft) (options : GroupOptions) (serial : Bool) (secret : Pattern)
    (totalMaxTries : Nat) : OpenGroup :=
  let parent := draft.innermost
  { group := freshGroup
      (.fresh draft.nextId (draft.level + 1) options.maxTries totalMaxTries
        (options.propagation.getD parent.group.standing.propagation))
      options (options.reportInterval.getD parent.group.reportInterval)
      (parent.group.jobPrefix ++ options.jobPrefix) (freshDiscipline serial)
    children := []
    securityToken := options.securityToken.or parent.securityToken
    secret
    allowMissing := options.allowMissingJobs.getD parent.allowMissing }

/-- The pattern of a nested group, which is that of its parent if it has none. -/
def nestedSecret? (draft : Draft) (options : GroupOptions) : Option Pattern :=
  match options.secretPattern with
  | none => some draft.innermost.secret
  | some source => Pattern.ofString? source

/-- Opens a group in a parent. What it leaves open is taken from the parent. -/
def openGroup (parent : GroupRef) (options : GroupOptions) (serial : Bool) : Step GroupRef := do
  checkScope parent
  let draft ← node
  match draft.nestedSecret? options with
  | none => fail (.config .pattern)
  | some secret =>
      let parentTotal := draft.innermost.group.standing.totalMaxTries
      let total := options.maxTries * parentTotal
      -- The product is judged before anything is told or changed.
      if triesBound ≤ total then fail (.config (.tries options.maxTries parentTotal))
      else
        let opened := draft.nestedGroup options serial secret total
        log .info (opened.group.standing.indentation ++ opened.group.opening) []
        setNode { draft with
          innermost := opened
          outer := draft.innermost :: draft.outer
          nextId := draft.nextId + 1 }
        return ⟨draft.nextId, draft.level + 1⟩

/-- Closes a group. One without children leaves no trace in the tree. -/
def close (ref : GroupRef) : Step Unit := do
  if ref = .root then failScope "The top level flow is closed by finish" ref.level
  else
    checkInnermost ref
    let draft ← node
    match draft.outer with
    | [] => failScope outOfScope ref.level
    | parent :: outer =>
        let closed := draft.innermost
        let indentation := closed.group.standing.indentation
        log .info (indentation ++ closed.group.brackets.2) []
        if closed.children.isEmpty then
          -- Its id is not given out again.
          log .info (indentation ++ "INFO: Ignoring empty flow") []
          setNode { draft with innermost := parent, outer }
        else
          let parent := { parent with children := parent.children ++ [closed.toTree] }
          setNode { draft with innermost := parent, outer }

/-- Drops a group and all that was declared in it, if it is the innermost one. -/
def drop (ref : GroupRef) : Step Unit :=
  modifyNode fun draft =>
    match draft.outer with
    | [] => draft
    | parent :: outer =>
        if draft.innermost.group.standing.id = ref.id then
          { draft with innermost := parent, outer }
        else draft

/-! ## Invocations and messages -/

def newTask (draft : Draft) (job : String) (params : List (String × ParamValue))
    (unchecked : Bool) : Task :=
  let parent := draft.innermost
  let standing := parent.group.standing
  let name := parent.group.jobPrefix ++ job
  { standing := .fresh draft.nextId (draft.level + 1) standing.maxTries standing.totalMaxTries
      (if unchecked then .unchecked else standing.propagation)
    name
    params := Params.ofValues params
    securityToken := parent.securityToken
    allowMissing := parent.allowMissing
    secret := parent.secret
    -- Counted by the full name, so two prefixes that add up to one name share a count.
    number := (draft.counts.get? name).getD 0 + 1
    resolved := false
    build := none
    oldBuild := none
    stopSent := false }

/-- Declares an invocation; answers its id. -/
def invoke (parent : GroupRef) (job : String) (params : List (String × ParamValue))
    (unchecked : Bool) : Step Nat := do
  checkScope parent
  let draft ← node
  let task := draft.newTask job params unchecked
  log .debug (task.standing.indentation ++ task.name) task.jobField
  setNode { draft with
    innermost :=
      { draft.innermost with children := draft.innermost.children ++ [.task task] }
    nextId := draft.nextId + 1
    counts := draft.counts.insert task.name task.number }
  return draft.nextId

/-- Sets the message of a node, which can be done once. -/
def setMessage (id : Nat) (message : String) : Step Unit := do
  let draft ← node
  match draft.messages.get? id with
  | some existing => fail (.messageTwice existing message)
  | none => setNode { draft with messages := draft.messages.insert id message }

mutual

/-- Gives the nodes of a tree their messages. -/
def withMessages (messages : Table Nat String) : Tree → Tree
  | .task leaf =>
      .task { leaf with standing :=
        { leaf.standing with message := messages.get? leaf.standing.id } }
  | .branch group children =>
      .branch
        { group with standing :=
          { group.standing with message := messages.get? group.standing.id } }
        (allWithMessages messages children)

def allWithMessages (messages : Table Nat String) : List Tree → List Tree
  | [] => []
  | child :: rest => withMessages messages child :: allWithMessages messages rest

end

/-- Closes the root. All groups in it have to be closed. -/
def finish : Step Tree := do
  let draft ← node
  match draft.outer with
  | _ :: _ => failScope "Flow finished with unclosed groups" draft.level
  | [] =>
      log .info draft.innermost.group.brackets.2 []
      return withMessages draft.messages draft.innermost.toTree

open Text.Inspect in
def inspect (draft : Draft) : Text.Inspect :=
  .record "FlowBuilder" [
    ("open", nat (draft.outer.length + 1)),
    ("current_nesting_level", nat draft.level),
    ("next_node_id", nat draft.nextId)] false

end Draft

end BuildFlow
