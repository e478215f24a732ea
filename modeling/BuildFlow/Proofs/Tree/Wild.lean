import BuildFlow.Proofs.Flow.Prepare
import BuildFlow.Proofs.Safe
import BuildFlow.Proofs.Tree.Ceiling
import BuildFlow.Sweep.Kill
/-!
Visits to invocations and trees on any host. An invocation fails only where it comes to a result,
and it counts no attempt; passes that prepare first attempts or stop builds never overdraw a count.
-/
namespace BuildFlow

open NodeAct Act

/-- Any end but that of a count of tries which is out of range. -/
def Halt.Counted (halt : Halt) : Prop := halt ≠ .broken .tries

theorem Halt.Foreign.counted {halt : Halt} (foreign : halt.Foreign) : halt.Counted := by
  rintro rfl
  exact foreign

/-- A run may end so before its first sweep: with a job that is missing, or for a reason that has
nothing to do with the tree. -/
def Halt.Early (halt : Halt) : Prop :=
  halt.Foreign ∨ ∃ name, halt = .error (.failed (.missing name))

theorem Halt.Foreign.early {halt : Halt} (foreign : halt.Foreign) : halt.Early := .inl foreign

theorem Halt.Early.counted {halt : Halt} (early : halt.Early) : halt.Counted := by
  rcases early with foreign | ⟨name, rfl⟩
  · exact foreign.counted
  · exact nofun

/-! ## Following an invocation -/

namespace Task

variable {leaf : Task} {sweep : Sweep} {ledger : Ledger}

/-- The record allows that a build is requested for the invocation once its attempt was announced. -/
def Welcome (ledger : Ledger) (settings : Settings) (leaf : Task) : Prop :=
  ∀ message {trace}, ledger.holds trace →
    ledger.holds (.invoke leaf.name (leaf.request settings) ::
      .log .info message [("node_id", .nat leaf.standing.id)] :: trace)

theorem welcome_any (settings : Settings) (leaf : Task) : leaf.Welcome .any settings :=
  fun _ _ _ => trivial

theorem Attempted.welcome {settings : Settings} {task : Task} (attempted : Attempted leaf task)
    (welcome : leaf.Welcome ledger settings) : task.Welcome ledger settings := by
  obtain ⟨_, _, _, _, rfl⟩ := attempted
  exact welcome

/-- Where a step of following an invocation leads on any host: it goes on or ends for a reason that
has nothing to do with the job, or it comes to a result. -/
inductive Reaches (leaf : Task) : Except Halt Unit → Task → Prop
  | goesOn {next : Task} {answer : Except Halt Unit} (attempted : Attempted leaf next)
      (foreign : Ends Halt.Foreign answer) : Reaches leaf answer next
  | ends {found : Task} {result : BuildResult} {answer : Except Halt Unit}
      (attempted : Attempted leaf found) (known : result ≠ .unknown) (answered : Answered answer) :
      Reaches leaf answer (found.ended result)

/-- The step only finds the job, or begins the attempt. -/
abbrev Minor {α : Type} (ledger : Ledger) (leaf : Task) (action : Step α) : Prop :=
  SafeFor ledger (Attempted leaf) Halt.Foreign action

/-- Finding the job keeps what holds whether or not it was found. -/
theorem safe_attach {holds : Task → Prop} (keeps : ∀ task oldBuild, holds task →
    holds { task with resolved := true, oldBuild }) :
    SafeFor ledger holds Halt.Foreign attach := by
  apply safe_node_bind
  intro task start
  apply (safe_onHost (Host.apart_jobPoll _)).bind
  intro _
  apply (safe_onHost (Host.apart_jobStatus _)).bind
  intro status
  apply (safe_setNode _).bind
  · exact fun _ => safe_pure _
  · exact keeps task status.lastBuild start

theorem minor_attach : Minor ledger leaf attach :=
  safe_attach fun _ _ attempted => attempted.trans ⟨_, _, _, _, rfl⟩

theorem minor_checkpoint : Minor ledger leaf checkpoint := by
  apply safe_host.bind
  intro host
  split
  · exact safe_throw trivial
  · exact safe_pure _

theorem leads_announce_last {standing : Standing} {host : Host} (kept : ledger.holds host.trace)
    (kind shown : String) :
    (standing.announce kind shown).Leads host fun answer after =>
      answer = .ok () ∧ ∃ message trace, ledger.holds trace ∧
        after.trace = .log .info message [("node_id", .nat standing.id)] :: trace := by
  unfold Standing.announce
  cases standing.message with
  | none => exact ⟨rfl, _, _, kept, rfl⟩
  | some message => exact ⟨rfl, _, _, ledger.adds rfl kept, rfl⟩

theorem minor_startBuild (welcome : leaf.Welcome ledger sweep.settings) :
    Minor ledger leaf (startBuild sweep) := by
  apply safe_node_bind
  rintro task attempted state ⟨here, kept⟩
  rw [leads_bind, leads_onHost]
  apply (leads_announce_last kept _ _).mono
  rintro answer announced ⟨rfl, message, trace, kept, last⟩
  have kept := attempted.welcome welcome message kept
  rw [← last] at kept
  dsimp only
  rw [leads_bind, leads_onHost]
  apply (Host.leads_invoke_apart kept).mono
  rintro answer after ⟨kept, foreign⟩
  cases answer with
  | error halt => exact ⟨⟨here, kept⟩, foreign.halts⟩
  | ok ref =>
      have follows : Minor ledger leaf (setNode { task with build := some ref }) :=
        safe_setNode (attempted.trans ⟨_, _, _, _, rfl⟩)
      refine (safe_host.bind fun host => ?_ : Minor ledger leaf _) (state.1, after) ⟨here, kept⟩
      split
      · exact (safe_log _ _ _).bind fun _ => follows
      · exact follows

theorem minor_invoke (welcome : leaf.Welcome ledger sweep.settings) :
    Minor ledger leaf (invoke sweep) := by
  apply safe_node_bind
  intro task attempted
  apply safe_ite
  · apply (safe_onHost (Host.apart_jobStatus _)).bind
    intro status
    exact safe_ite (minor_startBuild welcome) (safe_log _ _ _)
  · exact minor_startBuild welcome

theorem minor_observe : Minor ledger leaf observe := by
  apply safe_node_bind
  intro task attempted
  split
  · exact safe_onHost (Host.apart_status _)
  · exact (safe_onHost (Host.apart_jobStatus _)).bind fun _ => safe_pure _

/-- Looking for the job finds it, or fails the invocation for good. -/
theorem leads_require_wild {host : Host} (kept : ledger.holds host.trace) :
    (require : Step Unit).Leads (leaf, host) fun answer state =>
      ledger.holds state.2.trace ∧ ((Attempted leaf state.1 ∧ Ends Halt.Foreign answer) ∨
        ∃ failure, answer = failedBy failure ∧ state.1 = leaf.ended .failure) := by
  unfold require
  rw [leads_bind, leads_node]
  dsimp only
  split
  · exact ⟨kept, .inl ⟨.refl leaf, ends_ok _⟩⟩
  · rw [leads_bind, leads_onHost]
    apply ((Host.apart_attempt (Host.apart_resolve leaf.name)) host kept).mono
    rintro answer there ⟨kept, foreign⟩
    cases answer with
    | error halt => exact ⟨kept, .inl ⟨.refl leaf, foreign.halts⟩⟩
    | ok found =>
        dsimp only
        split
        · apply (minor_attach.discard (leaf, there) ⟨.refl leaf, kept⟩).mono
          rintro answer state ⟨⟨attempted, kept⟩, foreign⟩
          exact ⟨kept, .inl ⟨attempted, foreign⟩⟩
        · exact ⟨kept, .inr ⟨_, rfl, rfl⟩⟩
        · exact ⟨kept, .inl ⟨.refl leaf, ends_error trivial⟩⟩

/-- Where a step leads, and what it keeps of the record. -/
abbrev Reached (ledger : Ledger) (leaf : Task) (answer : Except Halt Unit) (state : Task × Host) :
    Prop :=
  Reaches leaf answer state.1 ∧ ledger.holds state.2.trace

theorem Reached.of_minor {answer : Except Halt Unit} {state : Task × Host}
    (minor : (Attempted leaf state.1 ∧ ledger.holds state.2.trace) ∧ Ends Halt.Foreign answer) :
    Reached ledger leaf answer state := ⟨.goesOn minor.1.1 minor.2, minor.1.2⟩

theorem leads_conclude_wild {result : BuildResult} (known : result ≠ .unknown) {task : Task}
    (attempted : Attempted leaf task) {host : Host} (kept : ledger.holds host.trace) :
    (conclude sweep result : Step Unit).Leads (task, host) (Reached ledger leaf) := by
  unfold conclude
  rw [leads_bind, leads_setStanding]
  dsimp only
  rw [leads_bind, leads_node]
  dsimp only
  rw [leads_bind, leads_log]
  dsimp only
  rw [leads_bind, leads_host]
  dsimp only
  rw [leads_bind, leads_log]
  dsimp only
  split
  · exact ⟨.ends attempted known (.failed _), ledger.adds rfl (ledger.adds rfl kept)⟩
  · exact ⟨.ends attempted known .ok, ledger.adds rfl (ledger.adds rfl kept)⟩

theorem leads_track_wild {task : Task} (attempted : Attempted leaf task) (report : Bool)
    {host : Host} (kept : ledger.holds host.trace) :
    (track sweep report : Step Unit).Leads (task, host) (Reached ledger leaf) := by
  unfold track
  rw [leads_bind, leads_node]
  dsimp only
  rw [leads_bind]
  have polls : Minor ledger leaf (onHost (Host.jobPoll task.name)) :=
    safe_onHost (Host.apart_jobPoll _)
  apply (polls (task, host) ⟨attempted, kept⟩).mono
  rintro answer polled ⟨start, foreign⟩
  cases answer with
  | error halt => exact .of_minor ⟨start, foreign.halts⟩
  | ok =>
      dsimp only
      rw [leads_bind]
      apply (minor_observe polled start).mono
      rintro answer seen ⟨start, foreign⟩
      cases answer with
      | error halt => exact .of_minor ⟨start, foreign.halts⟩
      | ok status =>
          obtain ⟨result, progress⟩ := status
          dsimp only
          split
          · have reports : Minor ledger leaf (if report then
                log .info (task.statusLine progress task.oldBuild)
                  (task.jobField ++ [("progress", .text progress.name)])
              else pure () : Step Unit) := safe_ite (safe_log _ _ _) (safe_pure _)
            exact (reports seen start).mono fun _ _ minor => .of_minor minor
          -- What is told is a result, so the invocation comes to its end with it.
          · next told =>
              have known : result ≠ .unknown := by
                rintro rfl
                simp at told
              exact leads_conclude_wild known start.1 start.2

/-- A step of following an invocation, on any host. -/
theorem leads_check_wild (report : Bool) {host : Host}
    (welcome : leaf.Welcome ledger sweep.settings) (kept : ledger.holds host.trace) :
    (check sweep report : Step Unit).Leads (leaf, host) (Reached ledger leaf) := by
  rw [check_eq, leads_bind]
  apply (leads_require_wild kept).mono
  rintro answer ⟨found, there⟩ ⟨kept, led⟩
  rcases led with ⟨attempted, foreign⟩ | ⟨failure, rfl, rfl⟩
  · cases answer with
    | error halt => exact .of_minor ⟨⟨attempted, kept⟩, foreign.halts⟩
    | ok =>
        dsimp only at attempted ⊢
        rw [leads_bind, leads_node]
        dsimp only
        split
        · exact leads_track_wild attempted report kept
        · rw [leads_bind]
          -- The attempt begins, unless a kill was requested.
          apply (minor_checkpoint (found, there) ⟨attempted, kept⟩).mono
          rintro answer ⟨passed, after⟩ ⟨⟨attempted, kept⟩, foreign⟩
          cases answer with
          | error halt => exact .of_minor ⟨⟨attempted, kept⟩, foreign.halts⟩
          | ok =>
              dsimp only at attempted ⊢
              rw [leads_bind, leads_setStanding]
              dsimp only
              rw [leads_bind]
              have begun : Attempted leaf (passed.begun sweep.now) :=
                attempted.trans (attempted_begun passed sweep.now)
              apply (minor_invoke welcome (passed.begun sweep.now, after) ⟨begun, kept⟩).mono
              rintro answer ⟨invoked, last⟩ ⟨⟨attempted, kept⟩, foreign⟩
              cases answer with
              | error halt => exact .of_minor ⟨⟨attempted, kept⟩, foreign.halts⟩
              | ok => exact leads_track_wild attempted report kept
  · exact ⟨.ends (.refl leaf) BuildResult.noConfusion (.failed failure), kept⟩

/-- Where a step of following an invocation leads, whatever is on record. -/
theorem reaches_check (leaf : Task) (sweep : Sweep) (report : Bool) (host : Host) :
    (check sweep report : Step Unit).Leads (leaf, host) fun answer state =>
      Reaches leaf answer state.1 :=
  (leads_check_wild report (welcome_any sweep.settings leaf) trivial).mono fun _ _ led => led.1

theorem Reaches.counted {answer : Except Halt Unit} {next : Task}
    (reaches : Reaches leaf answer next) : Ends Halt.Counted answer := by
  cases reaches with
  | goesOn attempted foreign => exact foreign.widen fun _ => Halt.Foreign.counted
  | ends attempted known answered =>
      cases answered with
      | ok => exact ends_ok _
      | failed failure => exact ends_error nofun

/-! ## Preparing the first attempt -/

/-- The invocation was prepared for its first attempt. -/
def Primed (leaf next : Task) : Prop :=
  ∃ resolved oldBuild, next = { leaf.prepare false with resolved, oldBuild }

theorem safe_attach_primed : SafeFor .any (Primed leaf) Halt.Foreign attach := by
  apply safe_attach
  rintro task oldBuild ⟨resolved, old, rfl⟩
  exact ⟨_, _, rfl⟩

/-- A declared invocation is prepared on any host, or the run ends. -/
theorem leads_prepareFirst_wild (fresh : leaf.blank = leaf) (sweep : Sweep) (host : Host) :
    (prepareFirst sweep : Step Unit).Leads (leaf, host) fun answer state =>
      Ends Halt.Early answer ∧ (answer = .ok () → Primed leaf state.1) := by
  have fits : leaf.standing.canPrepare false :=
    fresh ▸ Standing.canPrepare_blank leaf.standing false
  have primed : Primed leaf { leaf with standing := leaf.standing.prepare false } :=
    ⟨leaf.resolved, leaf.oldBuild, prepared_eq fresh⟩
  have finds : Host.Apart .any (Host.attempt (Host.resolve leaf.name)) :=
    Host.apart_attempt (Host.apart_resolve leaf.name)
  unfold prepareFirst
  rw [leads_bind, leads_node]
  dsimp only
  rw [leads_bind, leads_onHost]
  apply (finds host trivial).mono
  rintro answer there ⟨-, foreign⟩
  cases answer with
  | error halt => exact ⟨foreign.halts.widen fun _ => Halt.Foreign.early, nofun⟩
  | ok found =>
      dsimp only
      split
      · split
        · rw [leads_bind, leads_log]
          dsimp only
          rw [leads_bind, leads_onHost, Host.leads_breakUnless, if_pos fits]
          dsimp only
          rw [leads_setStanding]
          exact ⟨ends_ok _, fun _ => primed⟩
        · exact ⟨ends_error (.inr ⟨_, rfl⟩), nofun⟩
      · exact ⟨ends_error (.inl trivial), nofun⟩
      · rw [leads_bind, leads_onHost, Host.leads_breakUnless, if_pos fits]
        dsimp only
        rw [leads_bind, leads_setStanding]
        -- The standing is prepared by now, and nothing that follows changes it.
        have rest : SafeFor .any (Primed leaf) Halt.Foreign (do
            let status ← attach
            if sweep.settings.requireIdle && !sweep.killMode && !status.progress.isIdle then
              fail (.notIdle leaf.name status.progress)
            else
              log .info (leaf.standing.indentation ++ leaf.statusLine status.progress status.lastBuild)
                leaf.jobField : Step Unit) :=
          safe_attach_primed.bind fun _ => safe_ite (safe_throw trivial) (safe_log _ _ _)
        apply (rest _ ⟨primed, trivial⟩).mono
        rintro answer state ⟨⟨primed, -⟩, ends⟩
        exact ⟨ends.widen fun _ => Halt.Foreign.early, fun _ => primed⟩

/-! ## Stopping builds -/

/-- The invocation was declared as this one was. -/
def OfLayout (leaf task : Task) : Prop := task.blank = leaf.blank

/-- Stopping an invocation changes nothing that was declared, requests no build, and ends early for
no reason that lies in the tree. -/
abbrev Withdraws {α : Type} (ledger : Ledger) (leaf : Task) (action : Step α) : Prop :=
  SafeFor ledger (OfLayout leaf) Halt.Foreign action

theorem safe_setStanding {allows : Halt → Prop} {f : Standing → Standing}
    (same : ∀ standing, (f standing).blank = standing.blank) :
    SafeFor ledger (OfLayout leaf) allows (setStanding f) := by
  apply safe_modifyNode
  intro task layout
  unfold OfLayout Task.blank at layout ⊢
  rw [same]
  exact layout

theorem withdraws_finish : Withdraws ledger leaf finish := safe_setStanding fun _ => rfl

theorem withdraws_concludeKilled (result : BuildResult) :
    Withdraws ledger leaf (concludeKilled result) := by
  have takes : Withdraws ledger leaf (setStanding fun standing =>
      { standing with checking := .finished, result }) := safe_setStanding fun _ => rfl
  apply takes.bind
  intro _
  apply safe_node_bind
  intro task _
  exact (safe_log _ _ _).bind fun _ => safe_log _ _ _

theorem withdraws_stopAll : Withdraws ledger leaf stopAll := by
  apply safe_node_bind
  intro task layout
  apply safe_ite
  · apply (safe_onHost (Host.apart_markStopped _)).bind
    intro fresh
    apply safe_ite
    · exact (safe_log _ _ _).bind fun _ => safe_onHost (Host.apart_stopAll _)
    · exact safe_pure _
  · exact safe_pure _

theorem withdraws_awaitIdle : Withdraws ledger leaf awaitIdle := by
  apply safe_node_bind
  intro task layout
  apply (safe_onHost (Host.apart_jobPoll _)).bind
  intro _
  apply (safe_onHost (Host.apart_jobStatus _)).bind
  intro status
  exact safe_ite (withdraws_concludeKilled _) (safe_pure _)

theorem withdraws_stopBuild (ref : BuildRef) (dequeue : Bool) :
    Withdraws ledger leaf (stopBuild ref dequeue) := by
  apply safe_node_bind
  intro task layout
  apply (safe_onHost (Host.apart_status _)).bind
  intro seen
  apply safe_ite
  · exact withdraws_concludeKilled _
  apply safe_ite
  · exact safe_pure _
  · have sent : Withdraws ledger leaf (modifyNode fun task : Task =>
        { task with stopSent := true }) := safe_modifyNode fun _ layout => layout
    exact (safe_log _ _ _).bind fun _ => (safe_onHost (Host.apart_stop _ _)).bind fun _ => sent

theorem withdraws_quit (dequeue : Bool) (kind : KillKind) :
    Withdraws ledger leaf (quit dequeue kind) := by
  apply safe_node_bind
  intro task layout
  apply safe_ite (safe_pure _)
  apply safe_ite withdraws_finish
  apply safe_ite withdraws_awaitIdle
  split
  · exact withdraws_stopBuild _ _
  · exact withdraws_finish

theorem withdraws_kill (dequeue : Bool) : Withdraws ledger leaf (kill dequeue) := by
  rw [kill_eq]
  apply safe_host.bind
  intro host
  apply safe_ite
  · exact withdraws_stopAll.bind fun _ => withdraws_quit _ _
  · exact withdraws_quit _ _

end Task

/-- Taking over what the children came to leaves what was declared. -/
theorem Group.blank_settle (group : Group) (children : List Tree) :
    (group.settle children).blank = group.blank := by
  unfold settle
  dsimp only
  split <;> rfl

namespace Tree

/-! ## Whole trees -/

theorem primed_task {leaf next : Task} (fresh : leaf.blank = leaf) (primed : leaf.Primed next) :
    (Tree.task next).blank = .task leaf ∧ (Tree.task next).Primed := by
  obtain ⟨resolved, oldBuild, rfl⟩ := primed
  have layout : ({ leaf.prepare false with resolved, oldBuild } : Task).blank = leaf := fresh
  constructor
  · exact congrArg Tree.task layout
  · unfold Primed
    rw [blank, layout]
    rfl

/-- Where preparing some declared trees leads on any host. -/
def Primes (trees : List Tree) (answer : Except Halt Unit) (next : List Tree) : Prop :=
  Ends Halt.Early answer ∧
    (answer = .ok () → next.map blank = trees ∧ ∀ tree ∈ next, tree.Every Primed)

theorem prepareChildren_wild {sweep : Sweep} {children : List Tree}
    (each : ∀ child ∈ children, ∀ host,
      Primes [child] (prepareFirst sweep child host).1 [(prepareFirst sweep child host).2.1])
    (host : Host) :
    Primes children (prepareChildren sweep children host).1
      (prepareChildren sweep children host).2.1 := by
  induction children generalizing host with
  | nil => exact ⟨ends_ok _, fun _ => ⟨rfl, fun _ member => (List.not_mem_nil member).elim⟩⟩
  | cons child rest ih =>
      obtain ⟨ends, primed⟩ := each child List.mem_cons_self host
      unfold prepareChildren
      generalize prepareFirst sweep child host = out at ends primed ⊢
      obtain ⟨answer, next, there⟩ := out
      cases answer with
      | error halt => exact ⟨ends, fun ended => by cases ended⟩
      | ok =>
          obtain ⟨layout, first⟩ := primed rfl
          -- The first child came through; the others are prepared on the host it left.
          obtain ⟨ends', primed'⟩ :=
            ih (fun other member => each other (List.mem_cons_of_mem _ member)) there
          dsimp only
          generalize prepareChildren sweep rest there = out at ends' primed' ⊢
          obtain ⟨answer, others, after⟩ := out
          refine ⟨ends', fun ended => ?_⟩
          obtain ⟨layouts, later⟩ := primed' ended
          constructor
          · exact List.map_cons.trans (congr (congrArg List.cons (List.cons.inj layout).1) layouts)
          · intro tree member
            rcases List.mem_cons.mp member with same | member
            · exact first tree (same ▸ List.mem_singleton_self next)
            · exact later tree member

/-- The pass before the first sweep prepares every node once, or the run ends. -/
theorem prepareFirst_wild (sweep : Sweep) {tree : Tree} (fresh : tree.IsFresh) (host : Host) :
    Primes [tree] (prepareFirst sweep tree host).1 [(prepareFirst sweep tree host).2.1] := by
  induction tree using childrenInduction generalizing host with
  | leaf leaf =>
      have fresh : leaf.blank = leaf := by simpa [IsFresh, blank] using fresh
      obtain ⟨ends, primed⟩ := Task.leads_prepareFirst_wild fresh sweep host
      unfold prepareFirst
      rw [visit_eq]
      refine ⟨ends, fun ended => ?_⟩
      obtain ⟨layout, node⟩ := primed_task fresh (primed ended)
      constructor
      · exact congrArg (fun tree => [tree]) layout
      · intro tree member
        rw [List.mem_singleton.mp member]
        exact every_task.mpr node
  | branch group children ih =>
      obtain ⟨freshGroup, freshChildren⟩ := fresh_branch.mp fresh
      unfold prepareFirst
      -- A fresh group has all its tries, so opening it cannot break down.
      rw [run_openGroup freshGroup]
      dsimp only
      obtain ⟨ends, primed⟩ := prepareChildren_wild
        (fun child member host => ih child member (freshChildren child member) host)
        (host.after (.log .info (group.standing.indentation ++ group.opening) []))
      generalize prepareChildren sweep children _ = out at ends primed ⊢
      obtain ⟨answer, next, there⟩ := out
      cases answer with
      | error halt => exact ⟨ends, fun ended => by cases ended⟩
      | ok =>
          obtain ⟨layouts, below⟩ := primed rfl
          have layout : (group.prepare false).blank = group := by
            rw [Group.blank_prepare, freshGroup]
          have whole : (Tree.branch (group.prepare false) next).blank = .branch group children := by
            rw [blank, blanks_eq, layout, layouts]
          refine ⟨ends_ok _, fun _ => ⟨congrArg (fun tree => [tree]) whole, fun tree member => ?_⟩⟩
          rw [List.mem_singleton.mp member]
          refine every_branch.mpr ⟨?_, below⟩
          change (group.prepare false).standing = (Tree.branch (group.prepare false) next).blank.standing.prepare false
          rw [whole]
          rfl

/-- However preparing a declared group ends, the group has no result. -/
theorem result_prepareFirst (sweep : Sweep) {group : Group} {children : List Tree}
    (fresh : (Tree.branch group children).IsFresh) (host : Host) :
    (prepareFirst sweep (.branch group children) host).2.1.result = .unknown := by
  unfold prepareFirst
  rw [run_openGroup (fresh_branch.mp fresh).1]
  dsimp only
  generalize prepareChildren sweep children _ = out
  obtain ⟨answer, next, there⟩ := out
  cases answer with
  | error halt => rfl
  | ok => rfl

section

variable {ledger : Ledger} {dequeue : Bool}

/-- Where stopping the builds of some trees leads. -/
def Withdrawn (ledger : Ledger) (trees : List Tree) (answer : Except Halt Unit) (next : List Tree)
    (after : Host) : Prop :=
  Ends Halt.Foreign answer ∧ next.map blank = trees.map blank ∧ ledger.holds after.trace

theorem killChildren_wild {children : List Tree}
    (each : ∀ child ∈ children, ∀ host : Host, ledger.holds host.trace →
      Withdrawn ledger [child] (kill dequeue child host).1 [(kill dequeue child host).2.1]
        (kill dequeue child host).2.2) (all : Bool) {host : Host} (kept : ledger.holds host.trace) :
    Withdrawn ledger children (killChildren dequeue all children host).1
      (killChildren dequeue all children host).2.1 (killChildren dequeue all children host).2.2 := by
  induction children generalizing host with
  | nil => exact ⟨ends_ok _, rfl, kept⟩
  | cons child rest ih =>
      have onward := @ih fun other member => each other (List.mem_cons_of_mem _ member)
      have first := each child List.mem_cons_self host kept
      unfold killChildren
      split
      · generalize kill dequeue child host = out at first ⊢
        obtain ⟨answer, next, there⟩ := out
        obtain ⟨ends, layout, kept⟩ := first
        have same : next.blank = child.blank := (List.cons.inj layout).1
        cases answer with
        | error halt => exact ⟨ends, congrArg (· :: rest.map blank) same, kept⟩
        | ok =>
            obtain ⟨ends, layouts, kept⟩ := onward kept
            exact ⟨ends, List.cons_eq_cons.mpr ⟨same, layouts⟩, kept⟩
      · obtain ⟨ends, layouts, kept⟩ := onward kept
        exact ⟨ends, congrArg (child.blank :: ·) layouts, kept⟩

/-- A pass that stops builds counts no attempts, requests no builds, and leaves what was declared. -/
theorem kill_wild (dequeue : Bool) (tree : Tree) {host : Host} (kept : ledger.holds host.trace) :
    Withdrawn ledger [tree] (kill dequeue tree host).1 [(kill dequeue tree host).2.1]
      (kill dequeue tree host).2.2 := by
  induction tree using childrenInduction generalizing host with
  | leaf leaf =>
      unfold kill
      have withdraws : Task.Withdraws ledger leaf (Task.kill dequeue) := Task.withdraws_kill dequeue
      obtain ⟨⟨layout, kept⟩, ends⟩ := withdraws (leaf, host) ⟨rfl, kept⟩
      exact ⟨ends, congrArg (fun task => [Tree.task task]) layout, kept⟩
  | branch group children ih =>
      unfold kill
      dsimp only
      split
      · exact ⟨ends_ok _, rfl, kept⟩
      · have below := killChildren_wild (fun child member _ kept => ih child member kept)
          (decide (host.kill.kind = .all)) kept
        generalize killChildren dequeue (decide (host.kill.kind = .all)) children host = out
          at below ⊢
        obtain ⟨answer, next, there⟩ := out
        obtain ⟨ends, layouts, kept⟩ := below
        -- Whatever the group itself comes to, its children are laid out as before.
        have whole : ∀ group', group'.blank = group.blank →
            (Tree.branch group' next).blank = (Tree.branch group children).blank := by
          intro group' same
          rw [blank, blank, blanks_eq, blanks_eq, same, layouts]
        cases answer with
        | error halt => exact ⟨ends, congrArg (fun tree => [tree]) (whole group rfl), kept⟩
        | ok =>
            refine ⟨ends_ok _, congrArg (fun tree => [tree]) (whole _ ?_), kept⟩
            split
            · rfl
            · exact Group.blank_settle group next

end

end Tree

end BuildFlow
