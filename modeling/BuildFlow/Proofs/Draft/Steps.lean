import BuildFlow.Draft.Declaration
import BuildFlow.Proofs.Draft.Session
/-!
What the steps of a declaration do to its draft. All they do is to give it commands. So a step has
an answer, and it keeps whatever all commands keep.
-/
namespace BuildFlow.Declaration

open NodeAct Act Draft

variable {α β : Type} {p : Draft → Prop}

/-- Every command keeps what is said about a draft. -/
def Kept (p : Draft → Prop) : Prop :=
  ∀ draft host command, p draft → p ((Command.perform command).run (draft, host)).2.1

/-- The action answers, and it keeps what is said about the draft. -/
def Answers (p : Draft → Prop) (action : NodeAct Declaration α) : Prop :=
  ∀ declared host, p declared.draft → action.Leads (declared, host) fun answer after =>
    (∃ value, answer = .ok value) ∧ p after.1.draft

theorem answers_pure (value : α) : Answers p (pure value) :=
  fun _ _ holds => ⟨⟨value, rfl⟩, holds⟩

theorem answers_node : Answers p node := fun declared _ holds => ⟨⟨declared, rfl⟩, holds⟩

theorem Answers.bind {action : NodeAct Declaration α} {next : α → NodeAct Declaration β}
    (answers : Answers p action) (onward : ∀ value, Answers p (next value)) :
    Answers p (action >>= next) := by
  intro declared host holds
  rw [leads_bind]
  refine (answers declared host holds).mono ?_
  rintro _ ⟨after, host'⟩ ⟨⟨value, rfl⟩, holds⟩
  exact onward value after host' holds

theorem Answers.discard {action : NodeAct Declaration α} (answers : Answers p action) :
    Answers p (discard action) := by
  intro declared host holds
  rw [leads_discard]
  refine (answers declared host holds).mono ?_
  rintro _ _ ⟨⟨value, rfl⟩, holds⟩
  exact ⟨⟨_, rfl⟩, holds⟩

theorem answers_bindGroup (label : Option String) (ref : GroupRef) :
    Answers p (bindGroup label ref) := by
  cases label <;> exact fun _ _ holds => ⟨⟨_, rfl⟩, holds⟩

theorem answers_bindJob (label : Option String) (id : Nat) : Answers p (bindJob label id) := by
  cases label <;> exact fun _ _ holds => ⟨⟨_, rfl⟩, holds⟩

/-- A command that is given to the draft. Any error is an answer here. -/
theorem leads_onDraft (action : Draft.Step α) {declared : Declaration} {host : Host}
    (post : Except Halt (Except FlowError α) → Declaration × Host → Prop) :
    (onDraft action).Leads (declared, host) post ↔
      action.Leads (declared.draft, host) fun answer after =>
        match answer with
        | .ok value => post (.ok (.ok value)) ({ declared with draft := after.1 }, after.2)
        | .error (.error error) =>
            post (.ok (.error error)) ({ declared with draft := after.1 }, after.2)
        | .error halt => post (.error halt) ({ declared with draft := after.1 }, after.2) := by
  change post (onDraft action (declared, host)).1 (onDraft action (declared, host)).2 ↔ _
  unfold onDraft Leads
  dsimp only
  obtain ⟨answer, draft, host'⟩ := action.run (declared.draft, host)
  match answer with
  | .ok _ => exact Iff.rfl
  | .error (.error _) => exact Iff.rfl
  | .error (.broken _) => exact Iff.rfl

theorem answers_onDraft {action : Draft.Step α} (command : Command) {reply : α → Reply}
    (performs : command.perform = do return reply (← action)) (kept : Kept p) :
    Answers p (onDraft action) := by
  intro declared host holds
  have comes : command.perform.Leads (declared.draft, host) _ := leads_perform command
  have holds := kept _ host command holds
  rw [leads_onDraft]
  unfold Leads at comes ⊢
  rw [performs, run_bind] at comes holds
  generalize action.run (declared.draft, host) = out at comes holds
  obtain ⟨answer, draft, host'⟩ := out
  match answer, comes with
  | .ok value, _ => exact ⟨⟨_, rfl⟩, holds⟩
  | .error (.error _), _ => exact ⟨⟨_, rfl⟩, holds⟩

theorem answers_beginGroup (kept : Kept p) (opening : Opening) : Answers p (beginGroup opening) := by
  unfold beginGroup
  refine answers_node.bind fun declared => ?_
  split
  · exact answers_pure _
  · exact answers_pure _
  · next parent options _ _ =>
      refine (answers_onDraft (.begin parent options opening.serial) rfl kept).bind ?_
      rintro (error | ref)
      · exact answers_pure _
      · exact (answers_bindGroup _ _).bind fun _ => answers_pure _

theorem answers_finishGroup (kept : Kept p) (ref : GroupRef) : Answers p (finishGroup ref) :=
  answers_onDraft (.close ref) rfl kept

mutual

theorem Step.answers (kept : Kept p) : ∀ step : Step, Answers p step.run
  | .begin opening => by
      rw [Step.run]
      refine (answers_beginGroup kept opening).bind ?_
      rintro (answer | ref) <;> exact answers_pure _
  | .finish label => by
      rw [Step.run]
      refine answers_node.bind fun declared => ?_
      split
      · exact answers_pure _
      · refine (answers_finishGroup kept _).bind ?_
        rintro (error | _)
        · exact answers_pure _
        · exact answers_node.bind fun _ => answers_pure _
  | .invoke unchecked parent job params label => by
      rw [Step.run]
      refine answers_node.bind fun declared => ?_
      split
      · exact answers_pure _
      · next ref _ =>
          refine (answers_onDraft (.invoke ref job params unchecked) rfl kept).bind ?_
          rintro (error | id)
          · exact answers_pure _
          · exact (answers_bindJob _ _).bind fun _ => answers_pure _
  | .message label text => by
      rw [Step.run]
      refine answers_node.bind fun declared => ?_
      split
      · exact answers_pure _
      · next id _ =>
          refine (answers_onDraft (.message id text) rfl kept).bind ?_
          rintro (error | _) <;> exact answers_pure _
  | .fail text => by
      rw [Step.run]
      exact answers_pure _
  | .scoped opening body => by
      rw [Step.run]
      refine (answers_beginGroup kept opening).bind ?_
      rintro (answer | ref)
      · exact answers_pure _
      -- A body that came through is followed by closing the group, one that failed by dropping it.
      refine (answers_runBody kept body).bind ?_
      rintro ⟨answers, _ | error⟩
      · refine (answers_finishGroup kept _).bind ?_
        rintro (error | _) <;> exact answers_pure _
      · exact (answers_onDraft (.drop ref) rfl kept).discard.bind fun _ => answers_pure _

theorem answers_runBody (kept : Kept p) : ∀ body : List (Bool × Step), Answers p (runBody body)
  | [] => by
      rw [runBody]
      exact answers_pure _
  | (mayFail, step) :: rest => by
      rw [runBody]
      refine (Step.answers kept step).bind fun answer => ?_
      split
      · exact answers_pure _
      · exact (answers_runBody kept rest).bind fun _ => answers_pure _

end

theorem answers_runAll (kept : Kept p) (steps : List Step) : Answers p (runAll steps) := by
  unfold runAll
  induction steps with
  | nil => exact answers_pure []
  | cons step rest ih =>
      rw [List.mapM_cons]
      exact (Step.answers kept step).bind fun _ => ih.bind fun _ => answers_pure _

variable {config : RunConfig} {options : GroupOptions} {serial : Bool} {log : Log}

theorem kept_session (log : Log) :
    Kept fun draft => ∃ since, Session config options serial (since ++ log) draft :=
  fun _ _ _ ⟨since, session⟩ => ⟨_ :: since, session.next rfl⟩

/-- Also where groups have steps of their own, the steps of a declaration only go on with the
log. -/
theorem session_runAll {declared : Declaration}
    (session : Session config options serial log declared.draft) (steps : List Step) (host : Host) :
    ∃ answers after later since, (runAll steps).run (declared, host) = (.ok answers, after, later) ∧
      Session config options serial (since ++ log) after.draft := by
  have ran : (runAll steps).Leads (declared, host) _ :=
    answers_runAll (kept_session log) steps declared host ⟨[], session⟩
  unfold Leads at ran
  generalize (runAll steps).run (declared, host) = out at ran ⊢
  obtain ⟨answer, after, later⟩ := out
  obtain ⟨⟨answers, rfl⟩, since, session⟩ := ran
  exact ⟨answers, after, later, since, rfl, session⟩

end BuildFlow.Declaration
