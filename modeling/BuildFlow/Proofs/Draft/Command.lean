import BuildFlow.Draft.Basic
import BuildFlow.Proofs.Act
/-!
What one command does to a draft. A command that fails changes nothing. The others open a group or
close the innermost one, or put down an invocation or a message.
-/
namespace BuildFlow

/-- The handle of a group that is open. -/
def OpenGroup.ref (opened : OpenGroup) : GroupRef :=
  ⟨opened.group.standing.id, opened.group.standing.level⟩

namespace Draft

open NodeAct Act

/-- What can be asked of a draft until it is finished. A group with steps of its own is begun, and
it is closed after them, or dropped if one of them has failed. -/
inductive Command where
  | begin (parent : GroupRef) (options : GroupOptions) (serial : Bool)
  | close (group : GroupRef)
  | drop (group : GroupRef)
  | invoke (parent : GroupRef) (job : String) (params : List (String × ParamValue))
      (unchecked : Bool)
  | message (id : Nat) (text : String)

inductive Reply where
  | group (ref : GroupRef)
  | job (id : Nat)
  | done

def Command.perform : Command → Step Reply
  | .begin parent options serial => do return .group (← openGroup parent options serial)
  | .close group => do
      Draft.close group
      return .done
  | .drop group => do
      Draft.drop group
      return .done
  | .invoke parent job params unchecked => do
      return .job (← Draft.invoke parent job params unchecked)
  | .message id text => do
      setMessage id text
      return .done

/-! ## Drafts after a command -/

/-- A child can be declared in the group now. -/
def Admits (draft : Draft) (ref : GroupRef) : Prop :=
  ref.level = draft.level ∧ draft.innermost.group.standing.id = ref.id

/-- The group is the innermost one and lies in another one. -/
def Leaves (draft : Draft) (ref : GroupRef) : Prop :=
  draft.outer ≠ [] ∧ draft.innermost.group.standing.id = ref.id

instance (draft : Draft) (ref : GroupRef) : Decidable (draft.Leaves ref) :=
  inferInstanceAs (Decidable (_ ∧ _))

/-- The draft with another group inside. -/
def within (draft : Draft) (opened : OpenGroup) : Draft :=
  { draft with
    innermost := opened
    outer := draft.innermost :: draft.outer
    nextId := draft.nextId + 1 }

/-- The draft without its innermost group. -/
def outside (draft : Draft) : Draft :=
  match draft.outer with
  | [] => draft
  | parent :: outer => { draft with innermost := parent, outer }

/-- The draft with another child of the innermost group. -/
def adding (draft : Draft) (child : Tree) : Draft :=
  { draft with
    innermost := { draft.innermost with children := draft.innermost.children ++ [child] } }

/-- The draft with its innermost group put into the one around it. -/
def folded (draft : Draft) : Draft :=
  if draft.innermost.children.isEmpty then draft.outside
  else draft.outside.adding draft.innermost.toTree

/-- The draft with another invocation. -/
def taking (draft : Draft) (task : Task) : Draft :=
  { draft.adding (.task task) with
    nextId := draft.nextId + 1
    counts := draft.counts.insert task.name task.number }

/-- The total number of tries of a group that is opened now. -/
def nestedTotal (draft : Draft) (options : GroupOptions) : Nat :=
  options.maxTries * draft.innermost.group.standing.totalMaxTries

/-- What a command answers and leaves behind where it does not fail. -/
inductive Performs (draft : Draft) : Command → Reply → Draft → Prop where
  | begins {parent : GroupRef} {options : GroupOptions} {serial : Bool} {secret : Pattern}
      (admits : draft.Admits parent) (bounded : draft.nestedTotal options < triesBound)
      (read : draft.nestedSecret? options = some secret) :
      Performs draft (.begin parent options serial) (.group ⟨draft.nextId, draft.level + 1⟩)
        (draft.within (draft.nestedGroup options serial secret (draft.nestedTotal options)))
  | closes {group : GroupRef} (leaves : draft.Leaves group) :
      Performs draft (.close group) .done draft.folded
  | drops {group : GroupRef} (leaves : draft.Leaves group) :
      Performs draft (.drop group) .done draft.outside
  | keeps {group : GroupRef} (stays : ¬ draft.Leaves group) :
      Performs draft (.drop group) .done draft
  | invokes {parent : GroupRef} {job : String} {params : List (String × ParamValue)}
      {unchecked : Bool} (admits : draft.Admits parent) :
      Performs draft (.invoke parent job params unchecked) (.job draft.nextId)
        (draft.taking (draft.newTask job params unchecked))
  | tells {id : Nat} {text : String} (silent : draft.messages.get? id = none) :
      Performs draft (.message id text) .done
        { draft with messages := draft.messages.insert id text }

/-! ## Commands one by one -/

/-- A command was refused because of the groups that are open. -/
def OutOfScope : FlowError → Prop
  | .scope .. => True
  | _ => False

variable {α : Type} {draft : Draft} {host : Host}

/-- How a command ends. Where the open groups do not allow it, it is out of scope; where what it was
given is not sound, it fails for that reason. It changes nothing then. -/
inductive Settles (draft : Draft) (host : Host) (allowed sound : Prop)
    (does : α → Draft × Host → Prop) : Except Halt α → Draft × Host → Prop where
  | done {value : α} {after : Draft × Host} (fits : allowed) (passes : sound)
      (did : does value after) : Settles draft host allowed sound does (.ok value) after
  | refused {error : FlowError} (strays : ¬ allowed) (told : OutOfScope error) :
      Settles draft host allowed sound does (.error (.error error)) (draft, host)
  | failed {error : FlowError} (fits : allowed) (unsound : ¬ sound) (told : ¬ OutOfScope error) :
      Settles draft host allowed sound does (.error (.error error)) (draft, host)

/-- A command did not fail because of the groups that are open. -/
def InScope (answer : Except Halt α) : Prop :=
  ∀ error, answer = .error (.error error) → ¬ OutOfScope error

variable {allowed sound : Prop} {does : α → Draft × Host → Prop} {action : Step α}

theorem Settles.inScope_iff
    (leads : action.Leads (draft, host) (Settles draft host allowed sound does)) :
    InScope (action.run (draft, host)).1 ↔ allowed := by
  unfold Leads at leads
  generalize action.run (draft, host) = out at leads
  obtain ⟨answer, after⟩ := out
  cases leads with
  | done fits => exact iff_of_true nofun fits
  | refused strays told => exact iff_of_false (fun inScope => inScope _ rfl told) strays
  | failed fits _ told => exact iff_of_true (by rintro _ ⟨⟩; exact told) fits

theorem Settles.ok_iff
    (leads : action.Leads (draft, host) (Settles draft host allowed True does)) :
    (∃ value, (action.run (draft, host)).1 = .ok value) ↔ allowed := by
  unfold Leads at leads
  generalize action.run (draft, host) = out at leads
  obtain ⟨answer, after⟩ := out
  cases leads with
  | done fits => exact iff_of_true ⟨_, rfl⟩ fits
  | refused strays => exact iff_of_false nofun strays
  | failed _ unsound => exact (unsound trivial).elim

theorem leads_checkInnermost (ref : GroupRef) :
    (checkInnermost ref).Leads (draft, host)
      (Settles draft host (draft.innermost.group.standing.id = ref.id) True
        fun _ after => after = (draft, host)) := by
  unfold checkInnermost
  rw [leads_bind, leads_node]
  dsimp only
  split
  · next same => exact .done same trivial rfl
  · next other => exact .refused other trivial

theorem leads_checkScope (ref : GroupRef) :
    (checkScope ref).Leads (draft, host)
      (Settles draft host (draft.Admits ref) True fun _ after => after = (draft, host)) := by
  unfold checkScope
  rw [leads_bind, leads_node]
  dsimp only
  split
  · next level =>
      refine (leads_checkInnermost ref).mono fun answer after settles => ?_
      cases settles with
      | done same _ did => exact .done ⟨level, same⟩ trivial did
      | refused other told => exact .refused (fun admits => other admits.2) told
      | failed _ unsound => exact (unsound trivial).elim
  · next level => exact .refused (fun admits => level admits.1) trivial

/-- A command that begins with a look at the open groups. -/
theorem leads_scoped {look : Step Unit} {next : Unit → Step α}
    (looks : look.Leads (draft, host)
      (Settles draft host allowed True fun _ after => after = (draft, host)))
    (goes : allowed → (next ()).Leads (draft, host) (Settles draft host allowed sound does)) :
    (look >>= next).Leads (draft, host) (Settles draft host allowed sound does) := by
  rw [leads_bind]
  refine looks.mono fun answer after settles => ?_
  cases settles with
  | done fits _ did => exact did ▸ goes fits
  | refused strays told => exact .refused strays told
  | failed _ unsound => exact (unsound trivial).elim

theorem leads_openGroup (parent : GroupRef) (options : GroupOptions) (serial : Bool) :
    (openGroup parent options serial).Leads (draft, host)
      (Settles draft host (draft.Admits parent)
        ((draft.nestedSecret? options).isSome ∧ draft.nestedTotal options < triesBound)
        fun ref after => Performs draft (.begin parent options serial) (.group ref) after.1) := by
  refine leads_scoped (leads_checkScope parent) fun admits => ?_
  rw [leads_bind, leads_node]
  dsimp only
  split
  · next unread =>
      exact .failed admits (fun sound => by rw [unread] at sound; cases sound.1) id
  · next secret read =>
      split
      · next exceeds => exact .failed admits (fun sound => Nat.not_le.mpr sound.2 exceeds) id
      · next bounded =>
          have bounded := Nat.not_le.mp bounded
          exact .done admits ⟨Option.isSome_of_eq_some read, bounded⟩ (.begins admits bounded read)

theorem leads_invoke (parent : GroupRef) (job : String) (params : List (String × ParamValue))
    (unchecked : Bool) :
    (invoke parent job params unchecked).Leads (draft, host)
      (Settles draft host (draft.Admits parent) True
        fun id after => Performs draft (.invoke parent job params unchecked) (.job id) after.1) :=
  leads_scoped (leads_checkScope parent) fun admits => .done admits trivial (.invokes admits)

/-- The root cannot be closed, and it is the only group that lies in no other one. -/
theorem leads_close (ref : GroupRef) :
    (close ref).Leads (draft, host)
      (Settles draft host (ref ≠ .root ∧ draft.Leaves ref) True
        fun _ after => Performs draft (.close ref) .done after.1) := by
  unfold close
  split
  · next root => exact .refused (fun allowed => allowed.1 root) trivial
  next nested =>
  have looks : (checkInnermost ref).Leads (draft, host) _ := leads_checkInnermost ref
  rw [leads_bind]
  refine looks.mono fun answer after settles => ?_
  cases settles with
  | refused strays told => exact .refused (fun allowed => strays allowed.2.2) told
  | failed _ unsound => exact (unsound trivial).elim
  | done same _ did =>
      subst did
      obtain ⟨config, innermost, outer, nextId, messages, counts, strip⟩ := draft
      -- A group other than the root has an outer one, so the first case is refused.
      cases outer with
      | nil => exact .refused (fun allowed => allowed.2.1 rfl) trivial
      | cons parent outer =>
          have leaves : Leaves ⟨config, innermost, parent :: outer, nextId, messages, counts, strip⟩
            ref := ⟨nofun, same⟩
          have closes := Performs.closes leaves
          unfold folded at closes
          dsimp only at closes ⊢
          rw [leads_bind, leads_node]
          dsimp only
          rw [leads_bind]
          split at closes
          · next empty =>
              simp only [empty, if_true]
              exact .done ⟨nested, leaves⟩ trivial closes
          · next inhabited =>
              simp only [inhabited]
              exact .done ⟨nested, leaves⟩ trivial closes

theorem leads_drop (ref : GroupRef) :
    (drop ref).Leads (draft, host) fun answer after =>
      answer = .ok () ∧ Performs draft (.drop ref) .done after.1 := by
  unfold drop
  rw [leads_modifyNode]
  refine ⟨rfl, ?_⟩
  obtain ⟨config, innermost, outer, nextId, messages, counts, strip⟩ := draft
  cases outer with
  | nil => exact .keeps fun leaves => leaves.1 rfl
  | cons parent outer =>
      dsimp only
      split
      · next same => exact .drops ⟨nofun, same⟩
      · next other => exact .keeps fun leaves => other leaves.2

theorem leads_setMessage (id : Nat) (text : String) :
    (setMessage id text).Leads (draft, host)
      (Settles draft host True (draft.messages.get? id = none)
        fun _ after => Performs draft (.message id text) .done after.1) := by
  unfold setMessage
  rw [leads_bind, leads_node]
  dsimp only
  split
  · next told => exact .failed trivial (fun silent => by cases told.symm.trans silent) nofun
  · next silent => exact .done trivial silent (.tells silent)

/-- What a command comes to as a whole: it is performed, or it fails and changes nothing. -/
def Comes (draft : Draft) (host : Host) (command : Command) (answer : Except Halt Reply)
    (after : Draft × Host) : Prop :=
  match answer with
  | .ok reply => Performs draft command reply after.1
  | .error (.error _) => after = (draft, host)
  | .error (.broken _) => False

theorem Settles.comes {command : Command} {reply : α → Reply}
    (leads : action.Leads (draft, host) (Settles draft host allowed sound does))
    (performs : ∀ value after, does value after → Performs draft command (reply value) after.1) :
    (do return reply (← action) : Step Reply).Leads (draft, host) (Comes draft host command) := by
  rw [leads_bind]
  refine leads.mono fun answer after settles => ?_
  cases settles with
  | done _ _ did => exact performs _ _ did
  | refused => rfl
  | failed => rfl

theorem leads_perform (command : Command) :
    command.perform.Leads (draft, host) (Comes draft host command) := by
  cases command with
  | begin parent options serial =>
      exact Settles.comes (leads_openGroup parent options serial) fun _ _ => id
  | close group => exact Settles.comes (leads_close group) fun _ _ => id
  | drop group =>
      refine (leads_bind ..).mpr ((leads_drop group).mono ?_)
      rintro _ _ ⟨rfl, did⟩
      exact did
  | invoke parent job params unchecked =>
      exact Settles.comes (leads_invoke parent job params unchecked) fun _ _ => id
  | message id text => exact Settles.comes (leads_setMessage id text) fun _ _ => fun did => did

/-- A flow is finished once its root is the only group that is open. -/
theorem leads_finish :
    finish.Leads (draft, host) (Settles draft host (draft.outer = []) True
      fun tree after => after.1 = draft ∧
        tree = withMessages draft.messages draft.innermost.toTree) := by
  unfold finish
  rw [leads_bind, leads_node]
  dsimp only
  split
  · next outer => exact .refused (fun closed => by cases outer.symm.trans closed) trivial
  · next closed => exact .done closed trivial ⟨rfl, rfl⟩

theorem finish_inv {tree : Tree} {after : Draft × Host}
    (finished : finish.run (draft, host) = (.ok tree, after)) :
    draft.outer = [] ∧ tree = withMessages draft.messages draft.innermost.toTree := by
  have settles := leads_finish.ran finished
  cases settles with
  | done closed _ did => exact ⟨closed, did.2⟩

end Draft

end BuildFlow
