import BuildFlow.Proofs.Draft.Session
import BuildFlow.Proofs.Draft.Steps
import BuildFlow.Proofs.Flow.Start
/-!
Groups with steps of their own. Such a group is closed after its steps, whether they fail or not, if
it is the innermost one that is open by then. If a group that was opened in it is still open, both
stay open.
-/
namespace BuildFlow

open NodeAct Act

namespace Draft

variable {config : RunConfig} {options : GroupOptions} {serial : Bool} {draft inner after : Draft}
  {command : Command} {reply : Reply}

/-! ## The open groups of a later draft -/

theorem Performs.scope (performs : Performs draft command reply after) :
    (∃ level, after.scope = ⟨draft.nextId, level⟩ :: draft.scope ∧
      after.nextId = draft.nextId + 1) ∨
    (after.scope = draft.scope.tail ∨ after.scope = draft.scope) ∧ draft.nextId ≤ after.nextId := by
  cases performs with
  | begins => exact .inl ⟨_, rfl, rfl⟩
  | closes leaves =>
      exact .inr ⟨.inl (scope_folded leaves.1), Nat.le_of_eq (nextId_folded draft).symm⟩
  | drops leaves =>
      exact .inr ⟨.inl (scope_outside leaves.1), Nat.le_of_eq (nextId_outside draft).symm⟩
  | keeps => exact .inr ⟨.inr rfl, Nat.le_refl _⟩
  | invokes => exact .inr ⟨.inr rfl, Nat.le_succ _⟩
  | tells => exact .inr ⟨.inr rfl, Nat.le_refl _⟩

/-- Of the open groups, the inner ones were opened since, and the others were open before. -/
structure Extends (inner draft : Draft) : Prop where
  nextId : inner.nextId ≤ draft.nextId
  scope : ∃ opened kept, draft.scope = opened ++ kept ∧ kept <:+ inner.scope ∧
    ∀ ref ∈ opened, inner.nextId ≤ ref.id

theorem Extends.refl (draft : Draft) : Extends draft draft :=
  ⟨Nat.le_refl _, [], draft.scope, rfl, List.suffix_refl _, nofun⟩

theorem Extends.performs (extends' : Extends inner draft)
    (performs : Performs draft command reply after) : Extends inner after := by
  obtain ⟨nextId, opened, kept, scope, suffix, fresh⟩ := extends'
  rcases performs.scope with ⟨level, begun, next⟩ | ⟨left | same, later⟩
  · refine ⟨by omega, _ :: opened, kept, begun.trans (congrArg _ scope), suffix, ?_⟩
    rintro ref (_ | ⟨_, member⟩)
    · exact nextId
    · exact fresh ref member
  · refine ⟨Nat.le_trans nextId later, ?_⟩
    rw [scope] at left
    cases opened with
    | nil => exact ⟨[], kept.tail, left, (List.tail_suffix kept).trans suffix, nofun⟩
    | cons ref opened =>
        refine ⟨opened, kept, left, suffix, fun ref member => ?_⟩
        exact fresh ref (List.mem_cons_of_mem _ member)
  · exact ⟨Nat.le_trans nextId later, opened, kept, same.trans scope, suffix, fresh⟩

/-- Where none of the groups has been closed, other ones may be open inside of them. -/
theorem Extends.opened (extends' : Extends inner draft)
    (fresh : ∀ ref ∈ inner.scope, ref.id < inner.nextId) (distinct : inner.scope.Nodup)
    (kept : inner.scope ⊆ draft.scope) :
    ∃ opened, draft.scope = opened ++ inner.scope ∧ ∀ ref ∈ opened, inner.nextId ≤ ref.id := by
  obtain ⟨-, opened, rest, scope, ⟨missing, whole⟩, new⟩ := extends'
  have none : missing = [] := by
    refine List.eq_nil_iff_forall_not_mem.mpr fun ref member => ?_
    rw [← whole] at fresh distinct kept
    have old := fresh ref (List.mem_append_left _ member)
    rcases List.mem_append.mp (scope ▸ kept (List.mem_append_left _ member)) with opened | rest
    · exact Nat.not_lt.mpr (new ref opened) old
    · exact (List.nodup_append.mp distinct).2.2 ref member ref rest rfl
  rw [none, List.nil_append] at whole
  exact ⟨opened, whole ▸ scope, new⟩

theorem kept_extends (inner : Draft) : Declaration.Kept (Extends inner) := by
  intro draft host command extends'
  have comes : command.perform.Leads (draft, host) _ := leads_perform command
  unfold Leads at comes
  generalize (Command.perform command).run (draft, host) = out at comes
  obtain ⟨answer, after, host'⟩ := out
  match answer, comes with
  | .ok _, performs => exact extends'.performs performs
  | .error (.error _), same =>
      cases same
      exact extends'

/-! ## The end of a group with steps of its own -/

/-- The group is gone if it was the innermost one; otherwise nothing has happened. -/
structure Departs (ref : GroupRef) (left after : Draft) : Prop where
  innermost : left.Leaves ref → after.scope = left.scope.tail
  otherwise : ¬ left.Leaves ref → after = left

theorem Performs.departs {ref : GroupRef}
    (performs : Performs draft (.drop ref) reply after) : Departs ref draft after := by
  cases performs with
  | drops leaves => exact ⟨fun _ => scope_outside leaves.1, fun stays => (stays leaves).elim⟩
  | keeps stays => exact ⟨fun leaves => (stays leaves).elim, fun _ => rfl⟩

theorem Performs.begun {parent ref : GroupRef} {options : GroupOptions} {serial : Bool}
    (performs : Performs draft (.begin parent options serial) (.group ref) after) :
    after.scope = ref :: draft.scope ∧ ref ≠ .root := by
  generalize replied : Reply.group ref = reply at performs
  cases performs with
  | begins =>
      cases replied
      exact ⟨rfl, fun root => nomatch congrArg GroupRef.level root⟩

theorem Settles.departs {ref : GroupRef} {host : Host} {answer : Except Halt Unit}
    {state : Draft × Host} (nested : ref ≠ .root)
    (settles : Settles draft host (ref ≠ .root ∧ draft.Leaves ref) True
      (fun _ after => Performs draft (.close ref) .done after.1) answer state) :
    Departs ref draft state.1 := by
  obtain ⟨after, host'⟩ := state
  cases settles with
  | done _ _ did =>
      cases did with
      | closes leaves => exact ⟨fun _ => scope_folded leaves.1, fun stays => (stays leaves).elim⟩
  | refused strays => exact ⟨fun leaves => (strays ⟨nested, leaves⟩).elim, fun _ => rfl⟩
  | failed _ unsound => exact (unsound trivial).elim

/-- A group was begun, and then its steps were taken. Whether it goes with the last of them depends
on what they left open. -/
theorem Departs.restores {left : Draft} {ref : GroupRef} (departs : Departs ref left after)
    (begun : inner.scope = ref :: draft.scope) (extends' : Extends inner left)
    (fresh : ∀ ref ∈ inner.scope, ref.id < inner.nextId) (distinct : inner.scope.Nodup)
    (kept : inner.scope ⊆ left.scope) :
    (left.scope = inner.scope → after.scope = draft.scope) ∧
      (left.scope ≠ inner.scope → after.scope = left.scope ∧ draft.level + 1 < after.level) := by
  obtain ⟨opened, scope, new⟩ := extends'.opened fresh distinct kept
  constructor
  · intro same
    have split := same.trans begun
    obtain ⟨inside, around⟩ := List.cons_eq_cons.mp split
    rw [departs.innermost ⟨?_, congrArg GroupRef.id inside⟩, split, List.tail_cons]
    intro outer
    rw [outer] at around
    cases around
  · intro other
    cases opened with
    | nil => exact (other scope).elim
    | cons latest opened =>
        -- The innermost group was opened by the steps, so it is not the one that is to go.
        have inside := (List.cons_eq_cons.mp scope).1
        have old := fresh ref (begun ▸ List.mem_cons_self)
        have later := new latest List.mem_cons_self
        have stays : ¬ left.Leaves ref := by
          intro leaves
          have same : latest.id = ref.id := (congrArg GroupRef.id inside).symm.trans leaves.2
          omega
        rw [departs.otherwise stays]
        have deeper := congrArg List.length scope
        rw [length_scope, List.cons_append, List.length_cons, List.length_append, length_scope]
          at deeper
        have deep := congrArg List.length begun
        rw [length_scope, List.length_cons, length_scope] at deep
        exact ⟨rfl, by omega⟩

end Draft

namespace Declaration

open Draft

variable {config : RunConfig} {options : GroupOptions} {serial : Bool} {declared : Declaration}
  {host : Host} {log : Log}

/-- A group that cannot be begun leaves the draft alone. -/
theorem leads_beginGroup (opening : Opening) :
    (beginGroup opening).Leads (declared, host) fun answer after =>
      match answer with
      | .ok (.ok ref) => ∃ parent options,
          Performs declared.draft (.begin parent options opening.serial) (.group ref) after.1.draft
      | .ok (.error _) => after.1.draft = declared.draft
      | .error _ => False := by
  unfold beginGroup
  rw [leads_bind, leads_node]
  dsimp only
  split
  · rfl
  · rfl
  · next parent options _ _ =>
      rw [leads_bind, leads_onDraft]
      refine (leads_openGroup parent options opening.serial).mono fun answer after settles => ?_
      cases settles with
      | done _ _ did =>
          dsimp only
          rw [leads_bind]
          unfold bindGroup
          split
          · exact ⟨parent, options, did⟩
          · exact ⟨parent, options, did⟩
      | refused => rfl
      | failed => rfl

/-- The end of a group with steps of its own, after them. -/
def conclude (ref : GroupRef) (answers : List Answer) (failure : Option FlowError) :
    NodeAct Declaration Answer := do
  match failure with
  | some error =>
      discard <| onDraft (Draft.drop ref)
      return .scoped (.error error) answers
  | none =>
      match ← finishGroup ref with
      | .ok () => return .scoped (.group ref) answers
      | .error error => return .scoped (.error error) answers

theorem run_scoped (opening : Opening) (body : List (Bool × Step)) :
    (Step.scoped opening body).run =
      (beginGroup opening >>= fun begun =>
        match begun with
        | .error answer => pure (.scoped answer [])
        | .ok ref => runBody body >>= fun ended => conclude ref ended.1 ended.2) := by
  rw [Step.run]
  rfl

theorem leads_conclude {ref : GroupRef} (nested : ref ≠ .root) (answers : List Answer)
    (failure : Option FlowError) :
    (conclude ref answers failure).Leads (declared, host) fun answer after =>
      (∃ value, answer = .ok value) ∧ Departs ref declared.draft after.1.draft := by
  cases failure with
  | some error =>
      refine (leads_bind ..).mpr ((leads_discard ..).mpr ((leads_onDraft ..).mpr ?_))
      refine (leads_drop ref).mono ?_
      rintro _ after ⟨rfl, performs⟩
      exact ⟨⟨_, rfl⟩, performs.departs⟩
  | none =>
      refine (leads_bind ..).mpr ((leads_onDraft ..).mpr ?_)
      refine (leads_close ref).mono fun answer after settles => ?_
      have departs := settles.departs nested
      cases settles with
      | done => exact ⟨⟨_, rfl⟩, departs⟩
      | refused => exact ⟨⟨_, rfl⟩, departs⟩
      | failed => exact ⟨⟨_, rfl⟩, departs⟩

/-- Whether its steps fail or not, a group with steps of its own leaves the open groups behind as
they were before it, if its steps close neither this group nor one around it and close all groups
that they open. If one of those is still open in the end, this group stays open around it. -/
theorem scoped_restores (session : Session config options serial log declared.draft)
    (opening : Opening) (body : List (Bool × Step)) (host : Host) :
    ∃ answer after later,
      (Step.scoped opening body).run.run (declared, host) = (.ok answer, after, later) ∧
      (after.draft = declared.draft ∨
        ∃ ref inner entered answers failure left exited,
          (beginGroup opening).run (declared, host) = (.ok (.ok ref), inner, entered) ∧
          (runBody body).run (inner, entered) = (.ok (answers, failure), left, exited) ∧
          (inner.draft.scope ⊆ left.draft.scope →
            (left.draft.scope = inner.draft.scope → after.draft.scope = declared.draft.scope) ∧
            (left.draft.scope ≠ inner.draft.scope →
              after.draft.scope = left.draft.scope ∧
                declared.draft.level + 1 < after.draft.level))) := by
  have begins : (beginGroup opening).Leads (declared, host) _ := leads_beginGroup opening
  -- The group that is begun is new, so no group that is open already can be taken for it.
  have sessions := answers_beginGroup (kept_session log) opening declared host ⟨[], session⟩
  rw [run_scoped, run_bind]
  unfold Leads at begins sessions
  generalize (beginGroup opening).run (declared, host) = out at begins sessions
  obtain ⟨begun, inner, entered⟩ := out
  match begun, begins with
  | .ok (.error refused), same => exact ⟨_, inner, entered, rfl, .inl same⟩
  | .ok (.ok ref), ⟨parent, options', performs⟩ =>
      obtain ⟨-, since, session'⟩ := sessions
      have tracks := session'.tracks
      have ran := answers_runBody (kept_extends inner.draft) body inner entered (.refl _)
      dsimp only
      rw [run_bind]
      unfold Leads at ran
      generalize done : (runBody body).run (inner, entered) = out at ran
      obtain ⟨answered, left, exited⟩ := out
      obtain ⟨⟨⟨answers, failure⟩, rfl⟩, extends'⟩ := ran
      obtain ⟨begun, nested⟩ : inner.draft.scope = ref :: declared.draft.scope ∧ ref ≠ .root :=
        performs.begun
      have concludes : (conclude ref answers failure).Leads (left, exited) _ :=
        leads_conclude nested answers failure
      unfold Leads at concludes
      dsimp only
      generalize (conclude ref answers failure).run (left, exited) = out at concludes
      obtain ⟨answer, after, later⟩ := out
      obtain ⟨⟨value, rfl⟩, departs⟩ := concludes
      refine ⟨value, after, later, rfl, .inr ⟨ref, inner, entered, answers, failure, left, exited,
        rfl, done, departs.restores begun extends' ?_ ?_⟩⟩
      · exact fun other open' => tracks.fresh other (tracks.obtained (tracks.scope ▸ open'))
      · exact tracks.scope ▸ tracks.ranked.nodup

/-- A stage with a gate in it that may be closed at the end. -/
def gated (closes : Bool) : Step :=
  .scoped ⟨true, "root", some "stage", some {}⟩ <|
    [(false, .begin ⟨false, "stage", some "gate", some {}⟩)] ++
      (if closes then [(false, .finish "gate")] else []) ++ [(false, .fail "no gatekeeper")]

/-- The last of its steps fails, and the stage is gone after it. -/
theorem scoped_restores_gated :
    ∃ draft : Draft, Session {} {} true [] draft ∧ draft.scope = [.root] ∧
      ∃ answer after later,
        (gated true).run.run (.start draft, .ofPlans []) = (.ok answer, after, later) ∧
        after.draft.scope = draft.scope ∧
        (after.draft = draft ∨
          ∃ ref inner entered answers failure left exited,
            (beginGroup ⟨true, "root", some "stage", some {}⟩).run (.start draft, .ofPlans []) =
              (.ok (.ok ref), inner, entered) ∧
            (runBody [(false, .begin ⟨false, "stage", some "gate", some {}⟩),
              (false, .finish "gate"), (false, .fail "no gatekeeper")]).run (inner, entered) =
                (.ok (answers, failure), left, exited) ∧
            (inner.draft.scope ⊆ left.draft.scope →
              (left.draft.scope = inner.draft.scope → after.draft.scope = draft.scope) ∧
              (left.draft.scope ≠ inner.draft.scope →
                after.draft.scope = left.draft.scope ∧ draft.level + 1 < after.draft.level))) := by
  have session : Session {} {} true [] (Declaration.start plain).draft := session_plain
  obtain ⟨answer, after, later, ran, restores⟩ := scoped_restores session
    ⟨true, "root", some "stage", some {}⟩
    [(false, .begin ⟨false, "stage", some "gate", some {}⟩), (false, .finish "gate"),
      (false, .fail "no gatekeeper")] (.ofPlans [])
  refine ⟨plain, session_plain, rfl, answer, after, later, ran, ?_, restores⟩
  exact (congrArg (fun out => out.2.1.draft.scope) ran).symm.trans rfl

/-- The same stage without the end of the gate. Both are open when the stage has failed, so the root
takes no invocation any more. -/
theorem scoped_leaves_open :
    ∃ draft : Draft, Session {} {} true [] draft ∧ draft.scope = [.root] ∧
      ∃ answer after later,
        (gated false).run.run (.start draft, .ofPlans []) = (.ok answer, after, later) ∧
        after.draft.scope = [⟨2, 2⟩, ⟨1, 1⟩, .root] ∧ after.draft.level = 2 ∧
        ∃ refused, ((Draft.invoke .root "deploy" [] false).run (after.draft, later)).1 =
          .error (.error refused) ∧ Draft.OutOfScope refused :=
  ⟨plain, session_plain, rfl, _, _, _, rfl, rfl, rfl, _, rfl, trivial⟩

end Declaration

end BuildFlow
