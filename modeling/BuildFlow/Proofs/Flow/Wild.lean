import BuildFlow.Proofs.Kill.Entry
import BuildFlow.Proofs.Tree.Wild
/-!
Runs on any host. A run goes through phases: it prepares its tree, follows builds, and comes to rest
once it stops builds or ends early. What holds of the tree in each phase, what holds of the record all
along, and what an early end is blamed on carry over from single visits to whole runs.
-/
namespace BuildFlow.Flow

open NodeAct Act

variable {ledger : Ledger}

theorem safe_writeGraph {holds : Flow → Prop} : SafeFor ledger holds Halt.Foreign writeGraph := by
  apply safe_node_bind
  intro flow kept
  apply safe_ite
  · exact safe_onHost (Host.apart_writeGraph _)
  · exact safe_pure _

theorem safe_reportGraph {holds : Flow → Prop} (now : Instant)
    (stamps : ∀ flow, holds flow → holds { flow with lastGraph := now }) :
    SafeFor ledger holds Halt.Foreign (reportGraph now) := by
  apply safe_node_bind
  intro flow kept
  apply safe_ite
  · exact (safe_setNode (stamps flow kept)).bind fun _ => safe_writeGraph
  · exact safe_pure _

theorem apart_define (tree : Tree) (order : List String) :
    Host.Apart ledger (tree.define order) := by
  apply safe_forM
  intro task _
  unfold Task.define
  dsimp only
  split
  · exact (Host.apart_log _ _ _).bind fun _ => safe_forM fun _ _ => Host.apart_log _ _ _
  · exact (Host.apart_log _ _ _).bind fun _ => safe_forM fun _ _ => Host.apart_log _ _ _

theorem apart_finalTask (task : Task) : Host.Apart ledger task.finalStatus := by
  have progress : Host.Apart ledger task.finalProgress := by
    apply (Host.apart_attempt (Host.apart_jobStatus _)).bind
    intro status
    split
    · exact safe_pure _
    · exact (Host.apart_log _ _ _).bind fun _ => safe_pure _
  apply safe_ite (Host.apart_log _ _ _)
  apply safe_ite (Host.apart_log _ _ _)
  exact progress.bind fun _ => safe_get.bind fun _ => Host.apart_log _ _ _

theorem apart_finalStatus (tree : Tree) : Host.Apart ledger tree.finalStatus := by
  induction tree using Tree.childrenInduction with
  | leaf leaf => exact apart_finalTask leaf
  | branch group children ih =>
      have below : Host.Apart ledger (Tree.finalStatuses children) := by
        induction children with
        | nil => exact safe_pure ()
        | cons child rest ihRest =>
            apply (ih child List.mem_cons_self).bind
            exact fun _ => ihRest fun other member => ih other (List.mem_cons_of_mem _ member)
      exact (Host.apart_log _ _ _).bind fun _ => below.bind fun _ => Host.apart_log _ _ _

theorem apart_setListener {holds : Flow → Prop} (listener : Listener) :
    SafeFor ledger holds Halt.Foreign (setListener listener) :=
  safe_onHost (Host.apart_modify fun _ => rfl)

theorem safe_outcome {α β : Type} {holds : Flow → Prop} {allows : Halt → Prop} {action : Step α}
    {next : Except Halt α → Step β} (first : SafeFor ledger holds allows action)
    (second : ∀ ended, Ends allows ended → SafeFor ledger holds allows (next ended)) :
    SafeFor ledger holds allows (outcome action >>= next) := by
  intro state start
  rw [leads_bind, leads_outcome]
  apply (first state start).mono
  rintro answer there ⟨kept, ends⟩
  exact second answer ends there kept

/-! ## Before the loop -/

/-- Launching does not look at the nodes of the tree. -/
theorem safe_launch {holds : Flow → Prop} (stamps : ∀ flow start lastGraph, holds flow →
    holds { flow with start, lastGraph }) : SafeFor ledger holds Halt.Foreign launch := by
  apply safe_host.bind
  intro host
  apply (safe_log _ _ _).bind
  intro _
  apply safe_node_bind
  intro flow _
  apply (safe_onHost (apart_define _ _)).bind
  intro _
  apply safe_writeGraph.bind
  intro _
  apply safe_host.bind
  intro host
  dsimp only
  apply (safe_modifyNode fun flow => stamps flow host.clock host.clock).bind
  intro _
  apply (safe_log _ _ _).bind
  intro _
  split
  · exact safe_throw trivial
  · exact safe_pure _

/-! ## After the loop -/

/-- What ends a run after some part of it: the end of that part, or something foreign. -/
def Told {α : Type} (ended : Except Halt α) (halt : Halt) : Prop :=
  halt.Foreign ∨ ended = .error halt

/-- What is told of a loop ends a run as the loop ended, if at all. -/
theorem safe_tell {holds : Flow → Prop} (looped : Except Halt Unit) :
    SafeFor ledger holds (Told looped) (tell looped) := by
  apply (safe_log _ _ _).bind
  intro _
  apply safe_node_bind
  intro flow _
  apply ((safe_onHost (apart_finalStatus _)).widen fun _ => .inl).bind
  intro _
  apply safe_outcome (safe_writeGraph.widen fun _ => .inl)
  intro written wrote
  split
  · exact safe_throw (.inr rfl)
  · exact safe_throw (wrote _ rfl)
  · exact safe_node_bind fun _ _ => safe_pure _

/-- A run ends as its main part did, if not with a result that counts as a failure. -/
theorem safe_conclude {holds : Flow → Prop} (flow : Flow) (ended : Except Halt BuildResult) :
    SafeFor ledger holds (Told ended) (conclude flow ended) := by
  apply ((apart_setListener _).widen fun _ => .inl).bind
  intro _
  apply (safe_log _ _ _).bind
  intro _
  split
  · exact (safe_log _ _ _).bind fun _ => safe_throw (.inr rfl)
  · exact safe_throw (.inr rfl)
  · exact safe_host.bind fun _ => safe_ite (safe_throw (.inl trivial)) (safe_pure _)

/-! ## Phases -/

/-- What a run relies on until its first sweep: what holds of its tree before it is prepared, once it
is, and in any case; and what early ends are blamed on, given the tree that they leave. -/
structure Starts (ledger : Ledger) (settings : Settings) (begins follows rests : Tree → Prop)
    (blames : Tree → Halt → Prop) : Prop where
  prepares : ∀ {sweep : Sweep} {tree : Tree} {host : Host}, sweep.settings = settings →
    begins tree → ledger.holds host.trace →
    ledger.holds (Tree.prepareFirst sweep tree host).2.2.trace ∧
      Ends (fun halt => rests (Tree.prepareFirst sweep tree host).2.1 ∧
        blames (Tree.prepareFirst sweep tree host).2.1 halt)
        (Tree.prepareFirst sweep tree host).1 ∧
      ((Tree.prepareFirst sweep tree host).1 = .ok () →
        follows (Tree.prepareFirst sweep tree host).2.1)
  begun : ∀ {tree : Tree}, begins tree → rests tree
  followed : ∀ {tree : Tree}, follows tree → rests tree
  foreign : ∀ {tree : Tree} {halt : Halt}, halt.Foreign → blames tree halt

/-- What a run relies on: what holds of its tree while builds are followed outlasts sweeps, and what
holds in any case lies in what was declared. -/
structure Phases (ledger : Ledger) (settings : Settings) (begins follows rests : Tree → Prop)
    (blames : Tree → Halt → Prop) : Prop
    extends Starts ledger settings begins follows rests blames where
  sweeps : ∀ {sweep : Sweep} {tree : Tree} {host : Host}, sweep.settings = settings →
    tree.checking = .mustCheck → follows tree → ledger.holds host.trace →
    ledger.holds (Tree.check sweep false tree host).2.2.trace ∧
      follows (Tree.check sweep false tree host).2.1 ∧
      Ends (blames (Tree.check sweep false tree host).2.1) (Tree.check sweep false tree host).1
  outlasts : ∀ {tree next : Tree}, next.blank = tree.blank → rests tree → rests next

/-- Something holds of the tree of a flow with these settings. -/
structure Rooted (settings : Settings) (p : Tree → Prop) (flow : Flow) : Prop where
  settings : flow.settings = settings
  root : p flow.root

section

variable {settings : Settings} {begins follows rests : Tree → Prop} {blames : Tree → Halt → Prop}

/-- Looking the jobs up prepares the tree, or ends the run. -/
theorem Starts.leads_setUp (starts : Starts ledger settings begins follows rests blames)
    {flow : Flow} {host : Host} (begun : Rooted settings begins flow)
    (kept : ledger.holds host.trace) :
    (setUp : Step Duration).Leads (flow, host) fun answer state =>
      ledger.holds state.2.trace ∧ Rooted settings rests state.1 ∧
        Ends (blames state.1.root) answer ∧
        ∀ sleep, answer = .ok sleep → Rooted settings follows state.1 := by
  have rested : Rooted settings rests flow := ⟨begun.settings, starts.begun begun.root⟩
  rw [setUp_eq, leads_bind, leads_log]
  dsimp only
  rw [leads_bind, leads_onHost]
  apply (Host.apart_poll _ (ledger.adds rfl kept)).mono
  rintro answer polled ⟨kept, foreign⟩
  cases answer with
  | error halt =>
      exact ⟨kept, rested, foreign.halts.widen fun _ => starts.foreign, nofun⟩
  | ok =>
      dsimp only
      rw [leads_bind, leads_host]
      dsimp only
      rw [leads_bind, leads_node]
      dsimp only
      have same : (flow.sweepAt polled.clock polled.kill.isRequested).settings = settings :=
        begun.settings
      generalize flow.sweepAt polled.clock polled.kill.isRequested = sweep at same
      rw [leads_bind]
      unfold visitRoot
      rw [leads_bind, leads_node]
      dsimp only
      rw [leads_onPart]
      -- Preparing the tree takes it from its beginning to where builds are followed, or ends the
      -- run.
      have prepares := starts.prepares same begun.root kept
      generalize Tree.prepareFirst sweep flow.root polled = out at prepares
      obtain ⟨answer, first, there⟩ := out
      obtain ⟨kept, ends, prepared⟩ := prepares
      cases answer with
      | error halt =>
          obtain ⟨rests, blamed⟩ := ends halt rfl
          exact ⟨kept, ⟨begun.settings, rests⟩, ends_error blamed, nofun⟩
      | ok =>
          have launches : SafeFor ledger (Rooted settings follows) Halt.Foreign launch :=
            safe_launch fun _ _ _ rooted => ⟨rooted.settings, rooted.root⟩
          apply (launches ({ flow with root := first }, there)
            ⟨⟨begun.settings, prepared rfl⟩, kept⟩).mono
          rintro answer state ⟨⟨rooted, kept⟩, ends⟩
          exact ⟨kept, ⟨rooted.settings, starts.followed rooted.root⟩,
            ends.widen fun _ => starts.foreign, fun _ _ => rooted⟩

variable (phases : Phases ledger settings begins follows rests blames)
include phases

theorem Phases.safe_killOnce :
    SafeFor ledger (Rooted settings rests) Halt.Foreign (killOnce : Step Unit) := by
  rintro ⟨flow, host⟩ ⟨rooted, kept⟩
  unfold killOnce visitRoot
  rw [leads_bind, leads_node]
  dsimp only
  rw [leads_onPart]
  obtain ⟨ends, layout, kept⟩ := Tree.kill_wild true flow.root kept
  have layout : (Tree.kill true flow.root host).2.1.blank = flow.root.blank := (List.cons.inj layout).1
  exact ⟨⟨⟨rooted.settings, phases.outlasts layout rooted.root⟩, kept⟩, ends⟩

theorem Phases.safe_killLoop (sleep : Duration) (ticks : Nat) :
    SafeFor ledger (Rooted settings rests) Halt.Foreign (killLoop sleep ticks) := by
  induction ticks with
  | zero => exact safe_onHost (Host.apart_refuse _)
  | succ ticks ih =>
      apply (safe_onHost Host.apart_quickPoll).bind
      intro _
      apply (safe_onHost Host.apart_queuePoll).bind
      intro _
      apply phases.safe_killOnce.bind
      intro _
      apply safe_node_bind
      intro flow _
      apply safe_ite
      · exact safe_pure _
      · exact (safe_onHost (Host.apart_sleep _)).bind fun _ => ih

theorem Phases.leads_checkOnce {flow : Flow} {host : Host} (rooted : Rooted settings follows flow)
    (kept : ledger.holds host.trace) (unsettled : flow.root.checking = .mustCheck) (now : Instant) :
    (checkOnce now : Step (Except Halt Unit)).Leads (flow, host) fun answer state =>
      ledger.holds state.2.trace ∧ Rooted settings follows state.1 ∧
        ∃ ended, answer = .ok ended ∧ Ends (blames state.1.root) ended := by
  have same : (flow.sweepAt now false).settings = settings := rooted.settings
  obtain ⟨kept, follows, ends⟩ := @Phases.sweeps _ _ _ _ _ _ phases (flow.sweepAt now false) _
    { host with kill := host.kill.openWindow } same unsettled rooted.root kept
  exact leads_checkOnce_of ⟨kept, ⟨rooted.settings, follows⟩, _, rfl, ends⟩

/-- One round. It leaves the tree as builds are followed, also where it ends the loop. -/
theorem Phases.leads_turn (sleep : Duration) {flow : Flow} {host : Host}
    (rooted : Rooted settings follows flow) (kept : ledger.holds host.trace)
    (unsettled : flow.root.checking = .mustCheck) :
    (turn sleep).Leads (flow, host) fun answer state =>
      ledger.holds state.2.trace ∧ Rooted settings follows state.1 ∧
        Ends (blames state.1.root) answer := by
  unfold turn
  rw [leads_bind, leads_onHost]
  apply (Host.apart_quickPoll _ kept).mono
  rintro answer ticked ⟨kept, foreign⟩
  cases answer with
  | error halt => exact ⟨kept, rooted, foreign.halts.widen fun _ => phases.foreign⟩
  | ok =>
      dsimp only
      rw [leads_bind, leads_host]
      dsimp only
      rw [leads_bind]
      apply (phases.leads_checkOnce rooted kept unsettled _).mono
      rintro answer ⟨swept, after⟩ ⟨kept, rooted, ended, rfl, ends⟩
      dsimp only at kept rooted ⊢
      split
      -- Nothing after the sweep touches the root, and what may fail there is not of the flow.
      · have rests : SafeFor ledger (Rooted settings follows) Halt.Foreign (pause sleep ticked.clock) :=
          (safe_reportGraph _ fun _ rooted => ⟨rooted.settings, rooted.root⟩).bind
            fun _ => safe_onHost (Host.apart_sleep _)
        apply (rests (swept, after) ⟨rooted, kept⟩).mono
        rintro answer ⟨rested, last⟩ ⟨⟨rooted, kept⟩, ends⟩
        exact ⟨kept, rooted, ends.widen fun _ => phases.foreign⟩
      · rw [leads_log]
        exact ⟨ledger.adds rfl kept, rooted, ends_ok _⟩
      · exact ⟨kept, rooted, ends_error (ends _ rfl)⟩

/-- The loop of a run, whether it goes on to stop builds or not. -/
theorem Phases.leads_pollLoop (sleep : Duration) (ticks : Nat) {flow : Flow} {host : Host}
    (rooted : Rooted settings follows flow) (kept : ledger.holds host.trace) :
    (pollLoop sleep ticks : Step Unit).Leads (flow, host) fun answer state =>
      ledger.holds state.2.trace ∧ Rooted settings rests state.1 ∧
        Ends (blames state.1.root) answer := by
  -- By induction on the rounds left; what holds of the tree is kept from one round to the next.
  have rest : ∀ {flow : Flow}, Rooted settings follows flow → Rooted settings rests flow :=
    fun rooted => ⟨rooted.settings, phases.followed rooted.root⟩
  induction ticks generalizing flow host with
  | zero => exact ⟨kept, rest rooted, ends_error (phases.foreign trivial)⟩
  | succ ticks ih =>
      rw [pollLoop_succ, leads_bind, leads_host]
      dsimp only
      split
      · have stops : SafeFor ledger (Rooted settings rests) Halt.Foreign (do
            announceKill
            killLoop sleep (ticks + 1) : Step Unit) :=
          (safe_host.bind fun _ => safe_log _ _ _).bind fun _ => phases.safe_killLoop sleep (ticks + 1)
        apply (stops (flow, host) ⟨rest rooted, kept⟩).mono
        rintro answer state ⟨⟨rested, kept⟩, ends⟩
        exact ⟨kept, rested, ends.widen fun _ => phases.foreign⟩
      rw [leads_bind, leads_node]
      dsimp only
      split
      · exact ⟨kept, rest rooted, ends_ok _⟩
      next unsettled =>
      rw [leads_bind]
      apply (phases.leads_turn sleep rooted kept (Decidable.not_not.mp unsettled)).mono
      rintro answer ⟨turned, there⟩ ⟨kept, rooted, ends⟩
      cases answer with
      | error halt => exact ⟨kept, rest rooted, ends_error (ends halt rfl)⟩
      | ok => exact ih rooted kept

theorem Phases.leads_drive {flow : Flow} {host : Host} (begun : Rooted settings begins flow)
    (kept : ledger.holds host.trace) :
    (drive : Step BuildResult).Leads (flow, host) fun answer state =>
      ledger.holds state.2.trace ∧ Rooted settings rests state.1 ∧
        Ends (blames state.1.root) answer := by
  rw [drive_eq, leads_bind]
  apply (phases.leads_setUp begun kept).mono
  rintro answer ⟨prepared, there⟩ ⟨kept, rested, ends, follows⟩
  cases answer with
  | error halt => exact ⟨kept, rested, ends.halts⟩
  | ok sleep =>
      dsimp only
      rw [leads_bind, leads_host]
      dsimp only
      rw [leads_bind, leads_outcome]
      apply (phases.leads_pollLoop sleep _ (follows sleep rfl) kept).mono
      rintro looped ⟨last, final⟩ ⟨kept, rested, ends⟩
      have telling : SafeFor ledger (· = last) (Told looped) (tell looped) := safe_tell looped
      apply (telling (last, final) ⟨rfl, kept⟩).mono
      rintro answer ⟨told, after⟩ ⟨⟨same, kept'⟩, tells⟩
      cases same
      refine ⟨kept', rested, fun halt same => ?_⟩
      rcases tells halt same with foreign | rfl
      · exact phases.foreign foreign
      · exact ends halt rfl

theorem Phases.leads_mainRun {flow : Flow} {host : Host} (begun : Rooted settings begins flow)
    (kept : ledger.holds host.trace) :
    (mainRun flow).Leads (flow, host) fun answer state =>
      ledger.holds state.2.trace ∧ Rooted settings rests state.1 ∧
        Ends (blames state.1.root) answer := by
  rw [mainRun_eq, leads_bind, leads_outcome]
  apply (phases.leads_drive begun kept).mono
  rintro ended ⟨driven, there⟩ ⟨kept, rested, ends⟩
  have concluding : SafeFor ledger (· = driven) (Told ended) (conclude flow ended) :=
    safe_conclude flow ended
  apply (concluding (driven, there) ⟨rfl, kept⟩).mono
  rintro answer ⟨last, after⟩ ⟨⟨same, kept'⟩, tells⟩
  cases same
  refine ⟨kept', rested, fun halt same => ?_⟩
  rcases tells halt same with foreign | rfl
  · exact phases.foreign foreign
  · exact ends halt rfl

theorem Phases.leads_proceed {flow : Flow} {host : Host} (begun : Rooted settings begins flow)
    (kept : ledger.holds host.trace) :
    (proceed flow).Leads (flow, host) fun answer state =>
      ledger.holds state.2.trace ∧ Rooted settings rests state.1 ∧
        Ends (blames state.1.root) answer := by
  unfold proceed
  split
  · rw [leads_bind, leads_setListener]
    exact phases.leads_mainRun begun kept
  · exact phases.leads_mainRun begun kept

/-- What a run keeps, and what its early ends are blamed on. -/
theorem Phases.leads_run {flow : Flow} {host : Host} (begun : Rooted settings begins flow)
    (kept : ledger.holds host.trace) :
    (run : Step BuildResult).Leads (flow, host) fun answer state =>
      ledger.holds state.2.trace ∧ Rooted settings rests state.1 ∧
        Ends (blames state.1.root) answer := by
  have rested : Rooted settings rests flow := ⟨begun.settings, phases.begun begun.root⟩
  rw [run_eq, leads_bind]
  have writes : SafeFor ledger (· = flow) Halt.Foreign writeGraph := safe_writeGraph
  apply (writes (flow, host) ⟨rfl, kept⟩).mono
  rintro answer ⟨flow', written⟩ ⟨⟨same, kept⟩, ends⟩
  dsimp only at same kept
  subst same
  cases answer with
  | error halt => exact ⟨kept, rested, ends.halts.widen fun _ => phases.foreign⟩
  | ok =>
      dsimp only
      rw [leads_bind, leads_node]
      dsimp only
      split
      · exact ⟨kept, rested, ends_ok _⟩
      split
      · rw [leads_bind, leads_log]
        exact ⟨ledger.adds rfl kept, rested, ends_ok _⟩
      split
      · rw [leads_bind, leads_onHost]
        -- A run that kills everything asks for it before it begins.
        apply (Host.apart_requestKill _ _ _ kept).mono
        rintro answer asked ⟨kept, foreign⟩
        cases answer with
        | error halt => exact ⟨kept, rested, foreign.halts.widen fun _ => phases.foreign⟩
        | ok => exact phases.leads_proceed begun kept
      · exact phases.leads_proceed begun kept

end

end BuildFlow.Flow
