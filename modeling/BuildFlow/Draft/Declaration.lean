import BuildFlow.Draft.Basic
/-!
A flow declared step by step, with labels for groups and invocations. A scoped
group runs its own steps and is closed behind them; it is dropped when one of
them fails that may not.
-/
namespace BuildFlow

namespace Declaration

/-- How a group is opened; options that could not be read are missing. -/
structure Opening where
  serial : Bool
  parent : String
  label : Option String
  options : Option GroupOptions

inductive Step where
  | begin (opening : Opening)
  | finish (group : String)
  | invoke (unchecked : Bool) (parent job : String) (params : List (String × ParamValue))
      (label : Option String)
  | message (node text : String)
  | fail (text : String)
  /-- A group with its own steps; those that are marked may fail. -/
  | scoped (opening : Opening) (body : List (Bool × Step))

inductive Answer where
  | group (ref : GroupRef)
  | level (level : Nat)
  | job (id : Nat)
  | done
  | error (error : FlowError)
  /-- A label that stands for nothing. -/
  | noGroup
  | noNode
  | scoped (outcome : Answer) (body : List Answer)

end Declaration

/-- A draft with the labels given so far. -/
structure Declaration where
  draft : Draft
  groups : Table String GroupRef
  jobs : Table String Nat

namespace Declaration

open NodeAct

def start (draft : Draft) : Declaration :=
  ⟨draft, (∅ : Table String GroupRef).insert "root" .root, ∅⟩

/-- Works on the draft and takes an error as an answer. -/
def onDraft {α : Type} (action : Draft.Step α) : NodeAct Declaration (Except FlowError α) :=
  fun state =>
    match action.run (state.1.draft, state.2) with
    | (answer, draft, host) =>
        let state := ({ state.1 with draft }, host)
        match answer with
        | .ok value => (.ok (.ok value), state)
        | .error (.error error) => (.ok (.error error), state)
        | .error halt => (.error halt, state)

def bindGroup (label : Option String) (ref : GroupRef) : NodeAct Declaration Unit :=
  match label with
  | none => pure ()
  | some label => modifyNode fun declaration =>
      { declaration with groups := declaration.groups.insert label ref }

def bindJob (label : Option String) (id : Nat) : NodeAct Declaration Unit :=
  match label with
  | none => pure ()
  | some label => modifyNode fun declaration =>
      { declaration with jobs := declaration.jobs.insert label id }

/-- Opens a group and gives it its label. The answer is the group or what went
wrong. -/
def beginGroup (opening : Opening) : NodeAct Declaration (Except Answer GroupRef) := do
  match (← node).groups.get? opening.parent, opening.options with
  | none, _ => return .error .noGroup
  | some _, none => return .error (.error .document)
  | some parent, some options =>
      match ← onDraft (Draft.openGroup parent options opening.serial) with
      | .error error => return .error (.error error)
      | .ok ref =>
          bindGroup opening.label ref
          return .ok ref

def finishGroup (ref : GroupRef) : NodeAct Declaration (Except FlowError Unit) :=
  onDraft (Draft.close ref)

def Answer.error? : Answer → Option FlowError
  | .error cause => some cause
  | .scoped outcome _ => outcome.error?
  | _ => none

def nodeId? (declaration : Declaration) (label : String) : Option Nat :=
  ((declaration.groups.get? label).map GroupRef.id).or (declaration.jobs.get? label)

mutual

def Step.run : Step → NodeAct Declaration Answer
  | .begin opening => do
      match ← beginGroup opening with
      | .ok ref => return .group ref
      | .error answer => return answer
  | .finish label => do
      match (← node).groups.get? label with
      | none => return .noGroup
      | some ref =>
          match ← finishGroup ref with
          | .ok () => return .level (← node).draft.level
          | .error error => return .error error
  | .invoke unchecked parent job params label => do
      match (← node).groups.get? parent with
      | none => return .noGroup
      | some ref =>
          match ← onDraft (Draft.invoke ref job params unchecked) with
          | .ok id =>
              bindJob label id
              return .job id
          | .error error => return .error error
  | .message label text => do
      match (← node).nodeId? label with
      | none => return .noNode
      | some id =>
          match ← onDraft (Draft.setMessage id text) with
          | .ok () => return .done
          | .error error => return .error error
  | .fail text => return .error (.config (.other text))
  | .scoped opening body => do
      match ← beginGroup opening with
      | .error answer => return .scoped answer []
      | .ok ref =>
          let (answers, failure) ← runBody body
          match failure with
          | some error =>
              discard <| onDraft (Draft.drop ref)
              return .scoped (.error error) answers
          | none =>
              match ← finishGroup ref with
              | .ok () => return .scoped (.group ref) answers
              | .error error => return .scoped (.error error) answers

/-- The steps of a scoped group, up to the first error of a step that may not
fail. -/
def runBody : List (Bool × Step) → NodeAct Declaration (List Answer × Option FlowError)
  | [] => return ([], none)
  | (mayFail, step) :: rest => do
      let answer ← step.run
      match answer.error?, mayFail with
      | some error, false => return ([answer], some error)
      | _, _ =>
          let (answers, failure) ← runBody rest
          return (answer :: answers, failure)

end

/-- Runs steps in turn; a failed one does not stop the others. -/
def runAll (steps : List Step) : NodeAct Declaration (List Answer) :=
  steps.mapM Step.run

end Declaration

end BuildFlow
