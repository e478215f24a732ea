import BuildFlow.Proofs.Branch.Safe
import BuildFlow.Proofs.Draft.Fresh
import BuildFlow.Proofs.Draft.Inherit
import BuildFlow.Proofs.Flow.Wild
/-!
What is requested in the runs of a flow. However its builds go and however often it is run, each
request for a build is made for an invocation that was declared, which is announced just before, and
carries what was declared for it.
-/
namespace BuildFlow

open NodeAct Act

variable {leaves : List Task} {settings : Settings} {start : List Event}

/-! ## Requests on record -/

/-- The request is for one of these invocations. The last thing on record is that it was
announced. -/
def Requested (leaves : List Task) (settings : Settings) (name : String) (request : InvokeRequest)
    (earlier : List Event) : Prop :=
  ∃ leaf ∈ leaves, ∃ message rest,
    earlier = .log .info message [("node_id", .nat leaf.standing.id)] :: rest ∧
    name = leaf.name ∧ request = leaf.request settings

/-- Since some record, builds have been requested only for these invocations. -/
def requestsSince (leaves : List Task) (settings : Settings) (start : List Event) : Ledger where
  holds trace := ∃ events, trace = events ++ start ∧ ∀ name request earlier,
    .invoke name request :: earlier <:+ events → Requested leaves settings name request earlier
  adds := by
    rintro event trace mute ⟨events, rfl, each⟩
    refine ⟨event :: events, rfl, fun name request earlier recorded => ?_⟩
    rcases List.suffix_cons_iff.mp recorded with same | before
    · cases same
      cases mute
    · exact each name request earlier before

theorem requestsSince_refl (leaves : List Task) (settings : Settings) (start : List Event) :
    (requestsSince leaves settings start).holds start :=
  ⟨[], rfl, fun _ _ _ recorded => absurd (List.suffix_nil.mp recorded) nofun⟩

/-- An invocation may be requested if it was declared as one of these. -/
theorem Task.welcome_requestsSince {leaf : Task} (among : leaf.blank ∈ leaves) :
    leaf.Welcome (requestsSince leaves settings start) settings := by
  rintro message trace ⟨events, rfl, each⟩
  refine ⟨_ :: _ :: events, rfl, fun name request earlier recorded => ?_⟩
  -- The request is the latest event, the announcement is the one before it.
  rcases List.suffix_cons_iff.mp recorded with same | before
  · cases same
    exact ⟨leaf.blank, among, message, events, rfl, rfl, rfl⟩
  rcases List.suffix_cons_iff.mp before with same | before
  · cases same
  · exact each name request earlier before

/-! ## Visits -/

/-- However a step of an invocation ends, the invocation is the one that was declared. -/
theorem Task.Reaches.layout {leaf next : Task} {answer : Except Halt Unit}
    (reaches : leaf.Reaches answer next) : next.blank = leaf.blank := by
  cases reaches with
  | goesOn attempted =>
      obtain ⟨_, _, _, _, rfl⟩ := attempted
      rfl
  | ends attempted =>
      obtain ⟨_, _, _, _, rfl⟩ := attempted
      rfl

section

variable {ledger : Ledger} {sweep : Sweep}

/-- Preparing the first attempt of an invocation changes nothing that was declared. -/
theorem Task.safe_prepareFirst (leaf : Task) :
    SafeFor ledger (OfLayout leaf) Branch.Anyhow (prepareFirst sweep) := by
  have prepares : SafeFor ledger (OfLayout leaf) Branch.Anyhow
      (setStanding fun standing => standing.prepare false) := safe_setStanding fun _ => rfl
  have counts : ∀ fits, SafeFor ledger (OfLayout leaf) Branch.Anyhow
      (onHost (Host.breakUnless fits .tries)) := fun fits =>
    safe_onHost ((Branch.hard_breakUnless fits .tries).widen fun _ _ => trivial)
  have attaches : SafeFor ledger (OfLayout leaf) Branch.Anyhow attach :=
    (safe_attach fun _ _ layout => layout).widen fun _ _ => trivial
  have finds : ∀ name, SafeFor ledger (OfLayout leaf) Branch.Anyhow
      (onHost (Host.attempt (Host.resolve name))) := fun name =>
    (safe_onHost (Host.apart_attempt (Host.apart_resolve name))).widen fun _ _ => trivial
  -- With the parts put together, each end of the preparation is safe because its last part is.
  apply safe_node_bind
  intro task _
  apply (finds task.name).bind
  intro found
  split
  · apply safe_ite
    · exact (safe_log _ _ _).bind fun _ => (counts _).bind fun _ => prepares
    · have fails : SafeFor ledger (OfLayout leaf) Branch.Anyhow (setStanding fun standing =>
          { standing with checking := .finished, result := .failure }) :=
        safe_setStanding fun _ => rfl
      exact safe_node_bind fun _ _ => fails.bind fun _ => safe_throw trivial
  · exact safe_throw trivial
  · exact (counts _).bind fun _ => prepares.bind fun _ => attaches.bind fun _ =>
      safe_ite (safe_throw trivial) (safe_log _ _ _)

end

namespace Tree

/-- All invocations in the tree are among these, as they were declared. -/
def Among (leaves : List Task) (tree : Tree) : Prop := tree.blank.tasks ⊆ leaves

theorem among_task {leaf : Task} : (Tree.task leaf).Among leaves ↔ leaf.blank ∈ leaves :=
  List.cons_subset.trans (and_iff_left (List.nil_subset _))

theorem among_branch {group : Group} {children : List Tree} :
    (Tree.branch group children).Among leaves ↔ ∀ child ∈ children, child.Among leaves := by
  unfold Among
  rw [blank, blanks_eq, tasks]
  constructor
  · intro whole child member leaf inside
    exact whole (mem_tasksOf.mpr ⟨_, List.mem_map_of_mem member, inside⟩)
  · intro each leaf inside
    obtain ⟨_, listed, inside⟩ := mem_tasksOf.mp inside
    obtain ⟨child, member, rfl⟩ := List.mem_map.mp listed
    exact each child member inside

theorem Among.of_layout {tree next : Tree} (among : tree.Among leaves)
    (layout : next.blank = tree.blank) : next.Among leaves := by
  unfold Among
  rw [layout]
  exact among

theorem outlasts_among : Outlasts (Among leaves) where
  prepares scope among := among.of_layout (blank_prepare scope _)
  finishes among := among.of_layout (blank_finish _)

section

variable {ledger : Ledger} {sweep : Sweep}

theorem safe_openGroup (group : Group) :
    Safe (fun host : Host => ledger.holds host.trace) Halt.Hard (openGroup group) :=
  (Branch.hard_breakUnless _ _).bind fun _ => (Host.safe_log _ _ _).bind fun _ => safe_pure _

theorem keeps_prepareChildren {children : List Tree}
    (each : ∀ child ∈ children, ∀ host : Host, ledger.holds host.trace →
      (prepareFirst sweep child host).2.1.Among leaves ∧
        ledger.holds (prepareFirst sweep child host).2.2.trace)
    (among : ∀ child ∈ children, child.Among leaves) {host : Host}
    (kept : ledger.holds host.trace) :
    (∀ child ∈ (prepareChildren sweep children host).2.1, child.Among leaves) ∧
      ledger.holds (prepareChildren sweep children host).2.2.trace := by
  induction children generalizing host with
  | nil => exact ⟨among, kept⟩
  | cons child rest ih =>
      obtain ⟨first, others⟩ := List.forall_mem_cons.mp among
      obtain ⟨next, kept⟩ := each child List.mem_cons_self host kept
      unfold prepareChildren
      generalize prepareFirst sweep child host = out at next kept ⊢
      obtain ⟨answer, child, there⟩ := out
      cases answer with
      | error halt => exact ⟨List.forall_mem_cons.mpr ⟨next, others⟩, kept⟩
      | ok =>
          obtain ⟨later, kept⟩ :=
            ih (fun other member => each other (List.mem_cons_of_mem _ member)) others kept
          exact ⟨List.forall_mem_cons.mpr ⟨next, later⟩, kept⟩

/-- Looking for the jobs requests no builds. -/
theorem keeps_prepareFirst : (prepareFirst sweep).Keeps ledger (Among leaves) := by
  intro tree
  induction tree using childrenInduction with
  | leaf leaf =>
      intro host among kept
      unfold prepareFirst
      have safe : SafeFor ledger (Task.OfLayout leaf) Branch.Anyhow (Task.prepareFirst sweep) :=
        Task.safe_prepareFirst leaf
      obtain ⟨⟨layout, kept⟩, -⟩ := safe (leaf, host) ⟨rfl, kept⟩
      exact ⟨among.of_layout (congrArg Tree.task layout), kept⟩
  | branch group children ih =>
      intro host among kept
      have below := among_branch.mp among
      unfold prepareFirst
      -- The group that is opened has another count of tries, but what lies in it is the same.
      obtain ⟨kept, -⟩ := safe_openGroup group host kept
      generalize (openGroup group).run host = out at kept ⊢
      obtain ⟨answer, opened⟩ := out
      cases answer with
      | error halt => exact ⟨among, kept⟩
      | ok group =>
          obtain ⟨later, kept⟩ := keeps_prepareChildren
            (fun child member host kept => ih child member host (below child member) kept) below kept
          dsimp only
          generalize prepareChildren sweep children opened = out at later kept ⊢
          obtain ⟨answer, children, there⟩ := out
          cases answer with
          | error halt => exact ⟨among_branch.mpr later, kept⟩
          | ok =>
              obtain ⟨kept, -⟩ : ledger.holds _ ∧ _ := Host.apart_log _ _ _ there kept
              exact ⟨among_branch.mpr later, kept⟩

/-- Following builds requests some only for invocations that are welcome. -/
theorem keeps_checkWithin (welcome : ∀ leaf : Task, leaf.blank ∈ leaves →
      leaf.Welcome ledger sweep.settings) (levels : Nat) (report : Bool) :
    (checkWithin sweep levels report).Keeps ledger (Among leaves) := by
  have followed : ∀ (report : Bool) (leaf : Task) (host : Host), (Tree.task leaf).Among leaves →
      ledger.holds host.trace →
      (Tree.task (NodeAct.visit (Task.check sweep report) leaf host).2.1).Among leaves ∧
        ledger.holds (NodeAct.visit (Task.check sweep report) leaf host).2.2.trace := by
    intro report leaf host among kept
    obtain ⟨reaches, kept⟩ :=
      Task.leads_check_wild report (welcome leaf (among_task.mp among)) kept
    exact ⟨among.of_layout (congrArg Tree.task reaches.layout), kept⟩
  -- By induction on the levels: all children of a group are visited at the level below.
  induction levels generalizing report with
  | zero =>
      intro tree host among kept
      cases tree with
      | task leaf => exact followed report leaf host among kept
      | branch => exact ⟨among, kept⟩
  | succ levels ih =>
      intro tree host among kept
      cases tree with
      | task leaf => exact followed report leaf host among kept
      | branch group children =>
          have safe : SafeFor ledger (Branch.Each (Among leaves)) Branch.Anyhow
              (if group.isSerial then Branch.checkSerial sweep (checkWithin sweep levels)
                else Branch.checkParallel sweep (checkWithin sweep levels)) :=
            safe_ite (Branch.safe_checkSerial outlasts_among ih)
              (Branch.safe_checkParallel outlasts_among ih)
          obtain ⟨each, kept⟩ := keeps_visit safe (group, children) host (among_branch.mp among) kept
          exact ⟨among_branch.mpr each, kept⟩

end

end Tree

/-! ## Runs -/

namespace Flow

/-- In all phases of a run the invocations are those that were declared. -/
theorem phases_requests (leaves : List Task) (settings : Settings) (start : List Event) :
    Phases (requestsSince leaves settings start) settings (Tree.Among leaves) (Tree.Among leaves)
      (Tree.Among leaves) (fun _ _ => True) where
  prepares := by
    rintro sweep tree host - among kept
    obtain ⟨among, kept⟩ := Tree.keeps_prepareFirst tree host among kept
    exact ⟨kept, fun _ _ => ⟨among, trivial⟩, fun _ => among⟩
  sweeps := by
    rintro sweep tree host rfl - among kept
    obtain ⟨among, kept⟩ := Tree.keeps_checkWithin
      (fun _ among => Task.welcome_requestsSince among) tree.height false tree host among kept
    exact ⟨kept, among, fun _ _ => trivial⟩
  outlasts := fun layout among => among.of_layout layout
  begun := id
  followed := id
  foreign := fun _ => trivial

/-- The flow, or what has become of it by some runs. -/
inductive Since (first : Flow) : Flow → Prop
  | first : Since first first
  | again {flow : Flow} (since : Since first flow) (host : Host) :
      Since first (run.run (flow, host)).2.1

/-- However often a flow was run, its invocations are those that were declared. -/
theorem Since.among {first flow : Flow} (since : Since first flow)
    (fresh : first.root.IsFresh) :
    Rooted first.settings (Tree.Among first.root.tasks) flow := by
  induction since with
  | first =>
      have own : first.root.Among first.root.tasks := by
        unfold Tree.Among
        rw [fresh]
        exact List.Subset.refl _
      exact ⟨rfl, own⟩
  | again _ host ih =>
      exact ((phases_requests _ _ host.trace).leads_run ih (requestsSince_refl ..)).2.1

/-- In every run of a declared flow, builds are requested for its invocations only. -/
theorem Since.requests {first flow : Flow} (since : Since first flow) (fresh : first.root.IsFresh)
    (host : Host) :
    (requestsSince first.root.tasks first.settings host.trace).holds
      (run.run (flow, host)).2.2.trace :=
  ((phases_requests _ _ _).leads_run (since.among fresh) (requestsSince_refl ..)).1

/-- A group with a token, and in it a scope of two tries where jobs may be missing. -/
def signedCommands : List Draft.Command := [
  .begin .root { securityToken := some "deploy" } true,
  .begin ⟨1, 1⟩
    { maxTries := 2, allowMissingJobs := some true, propagation := some .failureToUnstable } false,
  .invoke ⟨2, 2⟩ "build" [("clean", .flag false), ("level", .int 2), ("clean", .flag true)] false,
  .invoke ⟨2, 2⟩ "lint" [] true,
  .close ⟨2, 2⟩,
  .close ⟨1, 1⟩]

/-- The draft that these commands make of one without configuration. -/
def signedDraft : Draft :=
  (Draft.performAll signedCommands [] (Draft.plain, .ofPlans [])).2.1

def signedTree : Tree :=
  Draft.withMessages signedDraft.messages signedDraft.innermost.toTree

theorem exists_signed : ∃ log after, Draft.Session {} {} true log signedDraft ∧
    Draft.finish.run (signedDraft, .ofPlans []) = (.ok signedTree, after) := by
  have closed : signedDraft.outer.length = 0 := by decide +kernel
  exact Draft.session_plain.exists_finished signedCommands (.ofPlans []) closed

/-- The first build fails. -/
def signedHost : Host := .ofPlans [{ name := "build", maxFails := 1 }, { name := "lint" }]

end Flow

end BuildFlow
