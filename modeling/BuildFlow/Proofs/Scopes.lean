import BuildFlow.Proofs.Draft.Session
import BuildFlow.Proofs.Flow.Start
/-!
Which groups take children while a flow is declared. Of all groups whose handles were given out,
only the one that was opened last and is still open does; no other can be closed, and the flow can be
finished once none but the root is left. A command that fails leaves the draft as it was.
-/
namespace BuildFlow.Draft

variable {config : RunConfig} {options : GroupOptions} {serial : Bool} {draft : Draft} {log : Log}
  {ref : GroupRef}

theorem Tracks.head_iff (tracks : Tracks log draft) (obtained : ref ∈ log.refs) :
    log.scope.head? = some ref ↔ draft.innermost.group.standing.id = ref.id := by
  have inner : draft.innermost.ref ∈ log.refs :=
    tracks.obtained (tracks.scope_eq ▸ List.mem_cons_self)
  rw [tracks.scope_eq, List.head?_cons, Option.some_inj]
  exact ⟨congrArg GroupRef.id, tracks.distinct _ inner _ obtained⟩

/-- The level of a handle says nothing that its id does not. -/
theorem Tracks.admits_iff (tracks : Tracks log draft) (obtained : ref ∈ log.refs) :
    draft.Admits ref ↔ log.scope.head? = some ref := by
  rw [tracks.head_iff obtained]
  refine ⟨And.right, fun same => ⟨?_, same⟩⟩
  have head := (tracks.head_iff obtained).mpr same
  rw [tracks.scope_eq] at head
  cases head
  exact tracks.level

theorem Tracks.closes_iff (tracks : Tracks log draft) (obtained : ref ∈ log.refs) :
    ref ≠ .root ∧ draft.Leaves ref ↔ log.scope.head? = some ref ∧ ref ≠ .root := by
  rw [and_comm, and_congr_left_iff]
  intro nested
  rw [tracks.head_iff obtained]
  refine ⟨And.right, fun same => ⟨fun outer => nested ?_, same⟩⟩
  have head := (tracks.head_iff obtained).mpr same
  have ranked := tracks.ranked
  rw [tracks.scope_eq, outer] at head ranked
  cases head
  exact ranked

/-- Only the root lies in no other group. -/
theorem Tracks.finishes_iff (tracks : Tracks log draft) :
    draft.outer = [] ↔ ∀ ref ∈ log.refs, ref ≠ .root → ref ∉ log.scope := by
  have ranked := tracks.ranked
  rw [tracks.scope_eq] at ranked ⊢
  cases outer : draft.outer with
  | nil =>
      rw [outer] at ranked
      refine iff_of_true rfl fun ref _ nested open' => nested ?_
      exact (List.mem_singleton.mp open').trans ranked
  | cons parent rest =>
      rw [outer] at ranked
      refine iff_of_false nofun fun closed => closed draft.innermost.ref ?_ ?_ List.mem_cons_self
      · exact tracks.obtained (tracks.scope_eq ▸ List.mem_cons_self)
      · intro root
        have inside := ranked.2.1
        rw [root] at inside
        cases inside

/-- Let a draft be given any commands. Of the groups whose handles were given out, the one that was
opened last and is still open takes groups and invocations, and no other group does. It is also the
only one that can be closed, unless it is the root. The flow can be finished if and only if all groups
but the root have been closed. A command that fails changes nothing. -/
theorem session_scopes (session : Session config options serial log draft) :
    (∀ ref ∈ log.refs, ∀ host,
      (∀ options serial, InScope ((openGroup ref options serial).run (draft, host)).1 ↔
        log.scope.head? = some ref) ∧
      (∀ job params unchecked, (∃ id, ((invoke ref job params unchecked).run (draft, host)).1 =
        .ok id) ↔ log.scope.head? = some ref) ∧
      ((∃ done, ((close ref).run (draft, host)).1 = .ok done) ↔
        log.scope.head? = some ref ∧ ref ≠ .root)) ∧
      (∀ host, (∃ tree, (finish.run (draft, host)).1 = .ok tree) ↔
        ∀ ref ∈ log.refs, ref ≠ .root → ref ∉ log.scope) ∧
      ∀ command host halt after, (Command.perform command).run (draft, host) = (.error halt, after) →
        after = (draft, host) := by
  have tracks := session.tracks
  refine ⟨fun ref obtained host => ⟨fun options serial => ?_, fun job params unchecked => ?_, ?_⟩,
    fun host => ?_, fun command host halt after ran => ?_⟩
  · rw [Settles.inScope_iff (leads_openGroup ref options serial), tracks.admits_iff obtained]
  · rw [Settles.ok_iff (leads_invoke ref job params unchecked), tracks.admits_iff obtained]
  · rw [Settles.ok_iff (leads_close ref), tracks.closes_iff obtained]
  · rw [Settles.ok_iff leads_finish, tracks.finishes_iff]
  · cases halt with
    | error => exact (leads_perform command).ran ran
    | broken => exact ((leads_perform command).ran ran).elim

/-- Two groups, one in the other. The outer one cannot be closed before the inner one, and neither
takes an invocation after it was closed. -/
def nestedCommands : List Command := [
  .begin .root {} false,
  .begin ⟨1, 1⟩ {} true,
  .invoke ⟨2, 2⟩ "build" [] false,
  .close ⟨1, 1⟩,
  .close ⟨2, 2⟩,
  .invoke ⟨2, 2⟩ "deploy" [] false]

theorem session_scopes_nested : ∃ log draft, Session {} {} true log draft ∧
    log.refs = [⟨2, 2⟩, ⟨1, 1⟩, .root] ∧ log.scope = [⟨1, 1⟩, .root] ∧
    (∀ ref ∈ log.refs, ∀ host,
      (∀ options serial, InScope ((openGroup ref options serial).run (draft, host)).1 ↔
        log.scope.head? = some ref) ∧
      (∀ job params unchecked, (∃ id, ((invoke ref job params unchecked).run (draft, host)).1 =
        .ok id) ↔ log.scope.head? = some ref) ∧
      ((∃ done, ((close ref).run (draft, host)).1 = .ok done) ↔
        log.scope.head? = some ref ∧ ref ≠ .root)) ∧
      (∀ host, (∃ tree, (finish.run (draft, host)).1 = .ok tree) ↔
        ∀ ref ∈ log.refs, ref ≠ .root → ref ∉ log.scope) ∧
      ∀ command host halt after, (Command.perform command).run (draft, host) = (.error halt, after) →
        after = (draft, host) := by
  have session := session_plain.performAll nestedCommands (.ofPlans [])
  exact ⟨_, _, session, rfl, rfl, session_scopes session⟩

end BuildFlow.Draft
