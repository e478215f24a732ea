import BuildFlow.Proofs.Draft.Command
/-!
The commands that a draft has been given since it was started. Which groups are open can be read
off the answers to them, without a look at the draft.
-/
namespace BuildFlow.Draft

open Act

/-- Commands with what they were answered, the newest first. -/
abbrev Log := List (Command × Except Halt Reply)

namespace Log

/-- The groups whose handles were given out. That of the root is known from the beginning. -/
def refs : Log → List GroupRef
  | [] => [.root]
  | (.begin .., .ok (.group ref)) :: log => ref :: refs log
  | _ :: log => refs log

/-- Whether a group is dropped on request: if no group is open in it, and it is not the root. -/
def dropsFrom (scope : List GroupRef) (group : GroupRef) : Bool :=
  group.id ≠ 0 && scope.head?.any fun inner => inner.id = group.id

/-- The groups that were opened and not closed or dropped yet, from the one that was opened last to
the root. -/
def scope : Log → List GroupRef
  | [] => [.root]
  | (.begin .., .ok (.group ref)) :: log => ref :: scope log
  | (.close group, .ok _) :: log => (scope log).eraseP fun inner => inner.id = group.id
  | (.drop group, .ok _) :: log =>
      if dropsFrom (scope log) group then (scope log).eraseP fun inner => inner.id = group.id
      else scope log
  | _ :: log => scope log

@[simp] theorem refs_error (command : Command) (halt : Halt) (log : Log) :
    refs ((command, .error halt) :: log) = log.refs := by
  cases command <;> rfl

@[simp] theorem scope_error (command : Command) (halt : Halt) (log : Log) :
    scope ((command, .error halt) :: log) = log.scope := by
  cases command <;> rfl

end Log

/-- A draft that was started and then given the commands of a log. -/
inductive Session (config : RunConfig) (options : GroupOptions) (serial : Bool) :
    Log → Draft → Prop where
  | start {host after : Host} {draft : Draft}
      (started : (Draft.start config options serial).run host = (.ok draft, after)) :
      Session config options serial [] draft
  | next {log : Log} {draft after : Draft} {host host' : Host} {command : Command}
      {answer : Except Halt Reply} (session : Session config options serial log draft)
      (ran : command.perform.run (draft, host) = (answer, after, host')) :
      Session config options serial ((command, answer) :: log) after

/-- The log and the draft after some more commands. -/
def performAll : List Command → Log → Draft × Host → Log × Draft × Host
  | [], log, state => (log, state)
  | command :: rest, log, state =>
      match command.perform.run state with
      | (answer, next) => performAll rest ((command, answer) :: log) next

theorem Session.performAll {config : RunConfig} {options : GroupOptions} {serial : Bool} {log : Log}
    {draft : Draft} (session : Session config options serial log draft) (commands : List Command)
    (host : Host) :
    Session config options serial (Draft.performAll commands log (draft, host)).1
      (Draft.performAll commands log (draft, host)).2.1 := by
  induction commands generalizing log draft host with
  | nil => exact session
  | cons command rest ih => exact ih (session.next rfl) _

/-- The draft before anything is declared in it. -/
def initial (config : RunConfig) (options : GroupOptions) (serial : Bool) (secret : Pattern) :
    Draft where
  config
  innermost := rootGroup config options serial secret
  outer := []
  nextId := 1
  messages := ∅
  counts := ∅
  strip := if config.stripRootPrefix then options.jobPrefix.utf8ByteSize else 0

theorem start_eq {config : RunConfig} {options : GroupOptions} {serial : Bool} {host after : Host}
    {draft : Draft} (started : (Draft.start config options serial).run host = (.ok draft, after)) :
    ∃ secret, Pattern.ofString? (options.secretPattern.getD config.secretPattern) = some secret ∧
      draft = initial config options serial secret := by
  unfold start at started
  split at started
  · cases started
  · split at started
    · cases started
    · next read =>
        cases started
        exact ⟨_, read, rfl⟩

variable {config : RunConfig} {options : GroupOptions} {serial : Bool} {draft after : Draft}
  {log : Log} {command : Command} {reply : Reply}

/-- A flow of which nothing is configured. -/
def plain : Draft :=
  initial {} {} true ((Pattern.ofString? ({} : RunConfig).secretPattern).getD ⟨"", .nothing⟩)

/-- A flow of either kind of which nothing is configured can be started. -/
theorem session_bare (serial : Bool) : Session {} {} serial []
    (initial {} {} serial
      ((Pattern.ofString? ({} : RunConfig).secretPattern).getD ⟨"", .nothing⟩)) := by
  have faultless : ({} : RunConfig).fault?.isNone := by decide +kernel
  have readable : (Pattern.ofString? ({} : RunConfig).secretPattern).isSome := by decide +kernel
  obtain ⟨secret, read⟩ := Option.isSome_iff_exists.mp readable
  rw [read]
  have started : ∃ after, (Draft.start {} {} serial).run (.start {} {} ⟨0⟩ .usable) =
      (.ok (initial {} {} serial secret), after) := by
    unfold Draft.start initial
    rw [Option.isNone_iff_eq_none.mp faultless]
    dsimp only [Option.getD_none]
    rw [read]
    exact ⟨_, rfl⟩
  exact .start started.choose_spec

theorem session_plain : Session {} {} true [] plain := session_bare true

/-- A command is performed, or it fails and the draft stays as it is. -/
theorem performs_or_fails {host host' : Host} {answer : Except Halt Reply}
    (ran : command.perform.run (draft, host) = (answer, after, host')) :
    (∃ reply, answer = .ok reply ∧ Performs draft command reply after) ∨
      ∃ halt, answer = .error halt ∧ after = draft := by
  have comes := (leads_perform command).ran ran
  match answer, comes with
  | .ok reply, performs => exact .inl ⟨reply, rfl, performs⟩
  | .error (.error error), same => exact .inr ⟨.error error, rfl, congrArg Prod.fst same⟩

/-- What holds at the start and is kept by every command that is performed holds in all sessions.
What is known of sessions may be used for it, and the pattern of the root was read at the start. -/
theorem Session.keeps_read {p : Log → Draft → Prop}
    (session : Session config options serial log draft)
    (starts : ∀ secret,
      Pattern.ofString? (options.secretPattern.getD config.secretPattern) = some secret →
      p [] (initial config options serial secret))
    (performs : ∀ {log draft command reply after},
      Session config options serial log draft → p log draft →
      Performs draft command reply after → p ((command, .ok reply) :: log) after)
    (fails : ∀ {log draft command halt}, p log draft → p ((command, .error halt) :: log) draft) :
    p log draft := by
  induction session with
  | start started =>
      obtain ⟨secret, read, rfl⟩ := start_eq started
      exact starts secret read
  | next session ran ih =>
      obtain ⟨_, rfl, performed⟩ | ⟨_, rfl, rfl⟩ := performs_or_fails ran
      · exact performs session ih performed
      · exact fails ih

/-- The pattern of the root may not matter. -/
theorem Session.keeps {p : Log → Draft → Prop} (session : Session config options serial log draft)
    (starts : ∀ secret, p [] (initial config options serial secret))
    (performs : ∀ {log draft command reply after},
      Session config options serial log draft → p log draft →
      Performs draft command reply after → p ((command, .ok reply) :: log) after)
    (fails : ∀ {log draft command halt}, p log draft → p ((command, .error halt) :: log) draft) :
    p log draft :=
  session.keeps_read (fun secret _ => starts secret) performs fails

/-! ## Open groups -/

/-- The groups that are open, from the inside out. -/
def groups (draft : Draft) : List OpenGroup := draft.innermost :: draft.outer

/-- Their handles. The first one is that of the innermost group, whose level is the number of the
others. -/
def scope (draft : Draft) : List GroupRef := draft.groups.map OpenGroup.ref

theorem length_scope (draft : Draft) : draft.scope.length = draft.level + 1 :=
  List.length_map _

/-- The groups around each group were opened before it, and their number is its level. -/
def Ranked : List GroupRef → Prop
  | [] => False
  | [ref] => ref = .root
  | ref :: outer :: rest => ref.level = rest.length + 1 ∧ outer.id < ref.id ∧ Ranked (outer :: rest)

theorem Ranked.level {ref : GroupRef} {rest : List GroupRef} (ranked : Ranked (ref :: rest)) :
    ref.level = rest.length := by
  cases rest with
  | nil => exact congrArg GroupRef.level ranked
  | cons => exact ranked.1

theorem Ranked.tail {ref outer : GroupRef} {rest : List GroupRef}
    (ranked : Ranked (ref :: outer :: rest)) : Ranked (outer :: rest) := ranked.2.2

theorem Ranked.below {ref outer : GroupRef} {rest : List GroupRef} (ranked : Ranked (ref :: rest))
    (member : outer ∈ rest) : outer.id < ref.id := by
  induction rest generalizing ref with
  | nil => cases member
  | cons next rest ih =>
      rcases List.mem_cons.mp member with same | deeper
      · exact same ▸ ranked.2.1
      · exact Nat.lt_trans (ih ranked.tail deeper) ranked.2.1

theorem Ranked.nodup {scope : List GroupRef} (ranked : Ranked scope) : scope.Nodup := by
  induction scope with
  | nil => exact ranked.elim
  | cons ref rest ih =>
      refine List.nodup_cons.mpr ⟨fun member => Nat.lt_irrefl _ (ranked.below member), ?_⟩
      cases rest with
      | nil => exact List.nodup_nil
      | cons => exact ih ranked.tail

/-- The draft has the groups open that the log says, under the handles that it gave out. -/
structure Tracks (log : Log) (draft : Draft) : Prop where
  scope : draft.scope = log.scope
  ranked : Ranked log.scope
  obtained : log.scope ⊆ log.refs
  fresh : ∀ ref ∈ log.refs, ref.id < draft.nextId
  distinct : ∀ ref ∈ log.refs, ∀ other ∈ log.refs, ref.id = other.id → ref = other

theorem Tracks.scope_eq (tracks : Tracks log draft) :
    log.scope = draft.innermost.ref :: draft.outer.map OpenGroup.ref :=
  tracks.scope.symm

theorem Tracks.level (tracks : Tracks log draft) : draft.innermost.ref.level = draft.level := by
  have ranked := tracks.ranked
  rw [tracks.scope_eq] at ranked
  exact ranked.level.trans (List.length_map _)

/-- A group that takes children is the innermost one. -/
theorem Tracks.admitted (tracks : Tracks log draft) {ref : GroupRef} (admits : draft.Admits ref) :
    draft.innermost.ref = ref := by
  obtain ⟨id, depth⟩ := ref
  obtain ⟨rfl, rfl⟩ := admits
  exact congrArg (GroupRef.mk _) tracks.level

theorem Tracks.erased (tracks : Tracks log draft) {group : GroupRef} (leaves : draft.Leaves group) :
    (log.scope.eraseP fun inner => inner.id = group.id) = draft.outer.map OpenGroup.ref := by
  rw [tracks.scope_eq]
  exact List.eraseP_cons_of_pos (decide_eq_true leaves.2)

/-- An open group that is not the root lies in another one. -/
theorem Tracks.leaves_iff (tracks : Tracks log draft) {ref : GroupRef} :
    draft.Leaves ref ↔ Log.dropsFrom log.scope ref := by
  have ranked := tracks.ranked
  rw [tracks.scope_eq] at ranked ⊢
  unfold Leaves Log.dropsFrom
  cases outer : draft.outer with
  | nil =>
      rw [outer] at ranked
      have root : draft.innermost.ref.id = 0 := congrArg GroupRef.id ranked
      simp [root, eq_comm]
  | cons parent rest =>
      rw [outer] at ranked
      have nested : 0 < draft.innermost.ref.id := Nat.lt_of_le_of_lt (Nat.zero_le _) ranked.2.1
      have same : draft.innermost.ref.id = draft.innermost.group.standing.id := rfl
      simp only [ne_eq, reduceCtorEq, not_false_eq_true, true_and, List.head?_cons, Option.any_some,
        Bool.and_eq_true, decide_eq_true_eq]
      constructor
      · intro inside
        exact ⟨by omega, inside⟩
      · exact fun inside => inside.2

theorem scope_outside (leaves : draft.outer ≠ []) : draft.outside.scope = draft.scope.tail := by
  unfold outside
  cases outer : draft.outer with
  | nil => exact (leaves outer).elim
  | cons => exact congrArg (List.map OpenGroup.ref) outer.symm

theorem nextId_outside (draft : Draft) : draft.outside.nextId = draft.nextId := by
  unfold outside
  split <;> rfl

theorem scope_folded (leaves : draft.outer ≠ []) : draft.folded.scope = draft.scope.tail := by
  unfold folded
  split
  · exact scope_outside leaves
  · exact scope_outside leaves

theorem nextId_folded (draft : Draft) : draft.folded.nextId = draft.nextId := by
  unfold folded
  split
  · exact nextId_outside draft
  · exact nextId_outside draft

/-- The innermost group is gone, and nothing else has changed about the open ones. -/
theorem Tracks.left (tracks : Tracks log draft) {group : GroupRef} {log' : Log}
    (leaves : draft.Leaves group) (left : after.scope = draft.scope.tail)
    (nextId : after.nextId = draft.nextId) (same : log'.refs = log.refs)
    (scope : log'.scope = log.scope.eraseP fun inner => inner.id = group.id) :
    Tracks log' after := by
  have erased := scope.trans (tracks.erased leaves)
  have ranked := tracks.ranked
  have obtained := tracks.obtained
  rw [tracks.scope_eq] at ranked obtained
  refine ⟨left.trans erased.symm, ?_, ?_, ?_, ?_⟩
  · rw [erased]
    cases outer : draft.outer with
    | nil => exact (leaves.1 outer).elim
    | cons parent rest =>
        rw [outer] at ranked
        exact ranked.tail
  · rw [erased, same]
    exact fun ref member => obtained (List.mem_cons_of_mem _ member)
  · rw [same, nextId]
    exact tracks.fresh
  · rw [same]
    exact tracks.distinct

theorem Tracks.performs (tracks : Tracks log draft)
    (performs : Performs draft command reply after) : Tracks ((command, .ok reply) :: log) after := by
  cases performs with
  | @begins parent options serial secret admits =>
      have outer : log.scope.length = draft.level + 1 := by
        rw [tracks.scope_eq, List.length_cons, List.length_map]
        rfl
      have inner : draft.innermost.ref ∈ log.refs :=
        tracks.obtained (tracks.scope_eq ▸ List.mem_cons_self)
      -- The new handle takes the next id, which lies above those of all handles given out so far.
      refine ⟨congrArg _ tracks.scope, ?_, ?_, ?_, ?_⟩
      · have ranked := tracks.ranked
        change Ranked (_ :: log.scope)
        rw [tracks.scope_eq] at ranked ⊢
        exact ⟨congrArg (· + 1) (List.length_map _).symm, tracks.fresh _ inner, ranked⟩
      · exact List.cons_subset_cons _ tracks.obtained
      · rintro ref (_ | ⟨_, known⟩)
        · exact Nat.lt_succ_self _
        · exact Nat.lt_succ_of_lt (tracks.fresh ref known)
      · rintro ref (_ | ⟨_, known⟩) other (_ | ⟨_, known'⟩) same
        · rfl
        · exact (Nat.ne_of_gt (tracks.fresh other known') same).elim
        · exact (Nat.ne_of_lt (tracks.fresh ref known) same).elim
        · exact tracks.distinct ref known other known' same
  | closes leaves => exact tracks.left leaves (scope_folded leaves.1) (nextId_folded draft) rfl rfl
  | drops leaves =>
      refine tracks.left leaves (scope_outside leaves.1) (nextId_outside draft) rfl ?_
      exact if_pos (tracks.leaves_iff.mp leaves)
  | @keeps group stays =>
      have scope : Log.scope ((.drop group, .ok .done) :: log) = log.scope :=
        if_neg fun drops => stays (tracks.leaves_iff.mpr drops)
      obtain ⟨same, ranked, obtained, fresh, distinct⟩ := tracks
      exact ⟨same.trans scope.symm, scope ▸ ranked, scope ▸ obtained, fresh, distinct⟩
  | invokes =>
      obtain ⟨same, ranked, obtained, fresh, distinct⟩ := tracks
      exact ⟨same, ranked, obtained, fun ref known => Nat.lt_succ_of_lt (fresh ref known), distinct⟩
  | tells => exact ⟨tracks.scope, tracks.ranked, tracks.obtained, tracks.fresh, tracks.distinct⟩

theorem Session.tracks (session : Session config options serial log draft) : Tracks log draft := by
  refine session.keeps (fun secret => ?_) (fun _ => Tracks.performs) fun tracks => ?_
  · refine ⟨rfl, rfl, fun _ => id, ?_, ?_⟩
    · rintro ref (_ | ⟨_, ⟨⟩⟩)
      exact Nat.one_pos
    · rintro ref (_ | ⟨_, ⟨⟩⟩) other (_ | ⟨_, ⟨⟩⟩) _
      rfl
  · obtain ⟨same, ranked, obtained, fresh, distinct⟩ := tracks
    constructor <;> simpa

end BuildFlow.Draft
