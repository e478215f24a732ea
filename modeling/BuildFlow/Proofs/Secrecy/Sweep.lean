import BuildFlow.Proofs.Branch.Check
import BuildFlow.Proofs.Secrecy.Tree
import BuildFlow.Sweep.Kill
import BuildFlow.Sweep.Prepare
/-!
Sweeps over a tree with its secret values hidden. They go as the sweeps over the
tree itself go, whether builds are followed or stopped.
-/
namespace BuildFlow

namespace Branch

open NodeAct Act

/-- The group with the secret values of its children hidden. -/
def veil (branch : Branch) : Branch := (branch.1, branch.2.map Tree.veil)

theorem sequence_veil (branch : Branch) : branch.veil.sequence = branch.sequence := by
  have same := Tree.sequence_repaint (fun secret params => params.mask secret)
    (.branch branch.1 branch.2)
  rw [Tree.repaint_branch] at same
  exact same

theorem reach_veil (branch : Branch) : branch.veil.reach = branch.reach := by
  simp [reach, veil, group, children]

theorem aggregate_veil (branch : Branch) (count : Nat) :
    branch.veil.aggregate count = branch.aggregate count := by
  simp [aggregate, veil, children, group, ← List.map_take, Function.comp_def, Tree.veil]

theorem unfinished_veil (branch : Branch) : unfinished branch.veil = unfinished branch := by
  simp [unfinished, veil, children, List.filter_map, Function.comp_def, Tree.veil]

theorem worstOf_veil (children : List Tree) :
    worstOf (children.map Tree.veil) = (worstOf children).map Tree.veil := by
  induction children with
  | nil => rfl
  | cons child rest ih =>
      rw [List.map_cons, worstOf, worstOf, ih]
      cases worstOf rest with
      | none => rfl
      | some other =>
          simp only [Option.map_some, Tree.veil, Tree.standing_repaint]
          split <;> rfl

theorem worstChild_veil (branch : Branch) (count : Nat) :
    (branch.veil.worstChild count).map Tree.sequence =
      (branch.worstChild count).map Tree.sequence := by
  simp [worstChild, veil, children, ← List.map_take, worstOf_veil, Tree.veil, Function.comp_def]

theorem isPending_veil (status : Checking) (branch : Branch) :
    isPending status branch.veil = isPending status branch := rfl

theorem veiled_setGroup (f : Group → Group) : Veiled veil (setGroup f) :=
  veiled_modifyNode fun _ => rfl

theorem veiled_setStanding (f : Standing → Standing) : Veiled veil (setStanding f) :=
  veiled_setGroup _

theorem veiled_setChild (index : Nat) (child : Tree) :
    Mirrors (Seen veil) Eq (setChild index child) (setChild index child.veil) :=
  veiled_modifyNode fun branch => by simp [veil, List.map_set]

theorem veiled_fail {α : Type} (error : FlowError) : Veiled veil (fail error : Step α) :=
  mirrors_throw _

theorem veiled_visitChild {visit : Visit Tree} (veiled : VeiledVisit Tree.veil visit)
    (index : Nat) (child : Tree) :
    Mirrors (Seen veil) Eq (visitChild visit index child) (visitChild visit index child.veil) := by
  refine mirrors_node_bind fun branch => ?_
  exact veiled_failure? (veiled_onPart veiled child fun part => by simp [veil, List.map_set])

/-! ## What groups share -/

variable (sweep : Sweep)

theorem veiled_beginSweep : Veiled veil (beginSweep sweep) := by
  refine mirrors_node_bind fun branch => ?_
  rw [sequence_veil]
  have reports : Veiled veil
      (if branch.group.reportInterval ≤ sweep.now.secondsSince branch.group.lastReport then do
        setGroup fun group => { group with lastReport := sweep.now }
        return true
      else return false : Step Bool) :=
    mirrors_ite ((veiled_setGroup _).next fun _ => mirrors_pure rfl) (mirrors_pure rfl)
  refine mirrors_ite reports ((veiled_setStanding _).next fun _ => ?_)
  exact (mirrors_onHost (Task.blind_announce _ _ _)).next fun _ => reports

theorem veiled_reportResult : Veiled veil (reportResult sweep) := by
  refine mirrors_node_bind fun branch => ?_
  rw [sequence_veil]
  exact veiled_log _ _ _

theorem veiled_checkTimeout : Veiled veil (checkTimeout sweep) := by
  refine mirrors_node_bind fun branch => ?_
  rw [sequence_veil, unfinished_veil]
  exact mirrors_ite (veiled_fail _) (mirrors_pure rfl)

/-! ## Parallel groups -/

theorem veiled_setFailed (f : Table Nat String → Table Nat String) :
    Veiled veil (setFailed f) :=
  veiled_setGroup _

theorem veiled_prepareChild (index : Nat) (child : Tree) (newScope : Bool) :
    Mirrors (Seen veil) Eq (prepareChild index child newScope)
      (prepareChild index child.veil newScope) := by
  unfold prepareChild Tree.veil
  rw [Tree.canPrepare_repaint, Tree.prepare_repaint]
  exact (mirrors_onHost (Host.blind_breakUnless _ _)).next fun _ => veiled_setChild _ _

theorem veiled_answerInPlace (index : Nat) (child : Tree) (failure : JobFailure) :
    Mirrors (Seen veil) Eq (answerInPlace index child failure)
      (answerInPlace index child.veil failure) := by
  unfold answerInPlace retryInPlace
  rw [Tree.standing_veil, Tree.sequence_veil, Tree.finish_veil]
  refine (veiled_setFailed _).next fun _ => mirrors_ite ?aborted (mirrors_ite ?again
    (mirrors_ite ?outer ?spent))
  case aborted =>
    refine (veiled_log _ _ _).next fun _ => (veiled_setChild _ _).next fun _ => ?_
    exact mirrors_ite (mirrors_pure rfl) ((veiled_setGroup _).next fun _ => mirrors_pure rfl)
  case again =>
    refine (veiled_log _ _ _).next fun _ => ?_
    exact (veiled_prepareChild _ _ _).next fun _ => mirrors_pure rfl
  case outer =>
    refine (veiled_log _ _ _).next fun _ => ?_
    exact (veiled_prepareChild _ _ _).next fun _ => mirrors_pure rfl
  case spent => exact (veiled_setChild _ _).next fun _ => mirrors_pure rfl

theorem veiled_clearFailed (child : Tree) :
    Mirrors (Seen veil) Eq (clearFailed child) (clearFailed child.veil) := by
  unfold clearFailed
  rw [Tree.standing_veil]
  exact veiled_setFailed _

theorem veiled_settle : Veiled veil (settle sweep) := by
  refine mirrors_node_bind fun branch => ?_
  rw [aggregate_veil, sequence_veil, show branch.veil.children.length = branch.children.length from
    List.length_map _]
  refine (veiled_setStanding _).next fun _ => (veiled_reportResult sweep).next fun _ => ?_
  exact mirrors_ite (veiled_fail _) (mirrors_pure rfl)

/-! ## Serial groups -/

theorem veiled_restart (newScope : Bool) : Veiled veil (restart newScope) := by
  refine mirrors_node_bind fun branch => ?_
  rw [reach_veil]
  have fits : (branch.veil.children.take branch.reach).all (fun child => child.canPrepare newScope) =
      (branch.children.take branch.reach).all fun child => child.canPrepare newScope := by
    simp [veil, children, ← List.map_take, Function.comp_def, Tree.veil]
  dsimp only
  rw [fits]
  refine (mirrors_onHost (Host.blind_breakUnless _ _)).next fun _ => veiled_setNode ?_
  simp [veil, children, group, ← List.map_take, ← List.map_drop, Function.comp_def, Tree.veil]

theorem veiled_leave : Veiled veil leave :=
  veiled_modifyNode fun branch => by simp [veil]

theorem veiled_answerFailure (index : Nat) (child : Tree) (failure : JobFailure) :
    Mirrors (Seen veil) Eq (answerFailure index child failure)
      (answerFailure index child.veil failure) := by
  unfold answerFailure mayRetry willRetry
  rw [Tree.standing_veil, Tree.sequence_veil, Tree.finish_veil]
  refine mirrors_ite ?aborted (mirrors_ite ?again (mirrors_ite ?outer ?spent))
  case aborted =>
    refine (veiled_log _ _ _).next fun _ => (veiled_setChild _ _).next fun _ => ?_
    refine mirrors_ite (mirrors_pure rfl) ((veiled_setGroup _).next fun _ => ?_)
    exact veiled_leave.next fun _ => mirrors_pure rfl
  case again =>
    refine mirrors_ite ((veiled_log _ _ _).next fun _ => mirrors_pure rfl) ?_
    refine (veiled_log _ _ _).next fun _ => ?_
    exact (veiled_restart false).next fun _ => mirrors_pure rfl
  case outer =>
    refine mirrors_ite ((veiled_log _ _ _).next fun _ => mirrors_pure rfl) ?_
    refine (veiled_log _ _ _).next fun _ => ?_
    exact (veiled_restart true).next fun _ => mirrors_pure rfl
  case spent =>
    refine (veiled_setChild _ _).next fun _ => ?_
    exact mirrors_ite (mirrors_pure rfl) (veiled_leave.next fun _ => mirrors_pure rfl)

theorem veiled_advance : Veiled veil (advance sweep) := by
  refine mirrors_node_bind fun branch => ?_
  rw [reach_veil, aggregate_veil, sequence_veil, worstChild_veil,
    show branch.veil.children.length = branch.children.length from List.length_map _]
  refine (veiled_setStanding _).next fun _ => mirrors_ite ?_ ?_
  · exact (veiled_reportResult sweep).next fun _ => veiled_fail _
  · refine (veiled_setGroup _).next fun _ => ?_
    exact mirrors_ite (veiled_setStanding _) (veiled_reportResult sweep)

/-! ## Passes -/

theorem veiled_passWith {clear : Tree → Step Unit} {answer : Nat → Tree → JobFailure → Step Bool}
    {visit : Visit Tree}
    (clears : ∀ child, Mirrors (Seen veil) Eq (clear child) (clear child.veil))
    (answers : ∀ index child failure,
      Mirrors (Seen veil) Eq (answer index child failure) (answer index child.veil failure))
    (visits : VeiledVisit Tree.veil visit) (indices : List Nat) (status : Checking) :
    Veiled veil (passWith clear answer visit indices status) := by
  induction indices generalizing status with
  | nil => exact mirrors_pure rfl
  | cons index rest ih =>
      refine mirrors_node_bind fun branch => ?_
      rw [show branch.veil.children[index]? = (branch.children[index]?).map Tree.veil from
        List.getElem?_map]
      cases branch.children[index]? with
      | none => exact ih status
      | some child =>
          simp only [Option.map_some]
          rw [Tree.standing_veil]
          refine mirrors_ite (ih status) ((veiled_visitChild visits index child).next fun failed => ?_)
          refine mirrors_node_bind fun branch => ?_
          -- The child is read again after its visit, from a node that is veiled by now.
          have visited : (branch.veil.children[index]?).getD child.veil =
              ((branch.children[index]?).getD child).veil := by
            rw [← Option.getD_map Tree.veil]
            congr 1
            exact List.getElem?_map
          rw [visited, Tree.standing_veil]
          generalize (branch.children[index]?).getD child = visited
          cases failed with
          | none => exact (clears visited).next fun _ => ih _
          | some failure =>
              exact (answers index visited failure).next fun again => mirrors_ite (ih _) (ih _)

theorem veiled_checkParallel {visit : Bool → Visit Tree}
    (visits : ∀ report, VeiledVisit Tree.veil (visit report)) :
    Veiled veil (checkParallel sweep visit) := by
  refine (veiled_beginSweep sweep).next fun report => mirrors_node_bind fun branch => ?_
  rw [show branch.veil.children.length = branch.children.length from List.length_map _,
    parallelPass_eq]
  refine (veiled_passWith veiled_clearFailed veiled_answerInPlace (visits report) _ _).next
    fun status => (veiled_setGroup _).next fun _ => mirrors_node_bind fun branch => ?_
  rw [isPending_veil]
  exact mirrors_ite (veiled_checkTimeout sweep) (veiled_settle sweep)

theorem veiled_checkSerial {visit : Bool → Visit Tree}
    (visits : ∀ report, VeiledVisit Tree.veil (visit report)) :
    Veiled veil (checkSerial sweep visit) := by
  refine (veiled_beginSweep sweep).next fun report => mirrors_node_bind fun branch => ?_
  rw [reach_veil, serialPass_eq]
  refine (veiled_passWith (fun _ => mirrors_pure rfl) veiled_answerFailure (visits report) _ _).next
    fun status => (veiled_setStanding _).next fun _ => mirrors_node_bind fun branch => ?_
  rw [isPending_veil]
  exact mirrors_ite (veiled_checkTimeout sweep) (veiled_advance sweep)

end Branch

namespace Tree

open NodeAct Act

/-! ## Whole trees -/

/-- A visit to an invocation or a group through its action. -/
theorem veiled_through {ν : Type} {view : ν → ν} {action : NodeAct ν Unit}
    (veiled : Veiled view action) (wrap : ν → Tree)
    (same : ∀ node, wrap (view node) = (wrap node).veil) (node : ν) {host other : Host}
    (alike : host.Alike other) :
    Act.Alike (Seen veil) Eq
      (match NodeAct.visit action node host with
        | (answer, node, host) => (answer, wrap node, host))
      (match NodeAct.visit action (view node) other with
        | (answer, node, host) => (answer, wrap node, host)) := by
  have ran := veiled.visit node host other alike
  generalize NodeAct.visit action node host = here at ran
  generalize NodeAct.visit action (view node) other = there at ran
  cases ran with
  | passed seen hosts => exact .passed seen ⟨by rw [hosts.1, same], hosts.2⟩
  | halted hosts => exact .halted ⟨by rw [hosts.1, same], hosts.2⟩

theorem veil_task (leaf : Task) : (task leaf).veil = task leaf.veil := repaint_task _ leaf

theorem veil_branch (group : Group) (children : List Tree) :
    (branch group children).veil = branch group (children.map veil) := repaint_branch _ group children

theorem veiled_leaf {action : Task.Step Unit} (veiled : Veiled Task.veil action) (leaf : Task)
    {host other : Host} (alike : host.Alike other) :
    Act.Alike (Seen veil) Eq
      (match NodeAct.visit action leaf host with
        | (answer, leaf, host) => (answer, task leaf, host))
      (match NodeAct.visit action leaf.veil other with
        | (answer, leaf, host) => (answer, task leaf, host)) :=
  veiled_through veiled task (fun leaf => (veil_task leaf).symm) leaf alike

theorem veiled_checkWithin (sweep : Sweep) (levels : Nat) (report : Bool) :
    VeiledVisit veil (checkWithin sweep levels report) := by
  induction levels generalizing report with
  | zero =>
      intro tree host other alike
      cases tree with
      | task leaf =>
          rw [veil_task]
          exact veiled_leaf (Task.veiled_check sweep report) leaf alike
      | branch group children => exact .passed rfl ⟨rfl, alike⟩
  | succ levels ih =>
      intro tree host other alike
      cases tree with
      | task leaf =>
          rw [veil_task]
          exact veiled_leaf (Task.veiled_check sweep report) leaf alike
      | branch group children =>
          rw [veil_branch]
          have veiled : Veiled Branch.veil
              (if group.isSerial then Branch.checkSerial sweep (checkWithin sweep levels)
                else Branch.checkParallel sweep (checkWithin sweep levels)) :=
            mirrors_ite (Branch.veiled_checkSerial sweep ih) (Branch.veiled_checkParallel sweep ih)
          exact veiled_through veiled (fun branch => .branch branch.1 branch.2)
            (fun branch => (veil_branch branch.1 branch.2).symm) (group, children) alike

theorem veiled_check (sweep : Sweep) (report : Bool) : VeiledVisit veil (check sweep report) := by
  intro tree host other alike
  unfold check
  rw [height_veil]
  exact veiled_checkWithin sweep _ report tree host other alike

theorem veiled_prepareChildren {sweep : Sweep} {children : List Tree}
    (each : ∀ child ∈ children, VeiledAt veil (prepareFirst sweep) child) :
    VeiledAt (List.map veil) (prepareChildren sweep) children := by
  induction children with
  | nil => exact fun host other alike => .passed rfl ⟨rfl, alike⟩
  | cons child rest ih =>
      intro host other alike
      have here := each child List.mem_cons_self host other alike
      rw [List.map_cons, prepareChildren, prepareChildren]
      generalize prepareFirst sweep child host = ran at here
      generalize prepareFirst sweep child.veil other = ran' at here
      cases here with
      | halted seen => exact .halted ⟨congrArg (· :: rest.map veil) seen.1, seen.2⟩
      | @passed _ _ state state' _ seen =>
          have behind := ih (fun other member => each other (List.mem_cons_of_mem _ member)) _ _ seen.2
          dsimp only
          generalize prepareChildren sweep rest state.2 = ran at behind
          generalize prepareChildren sweep (rest.map veil) state'.2 = ran' at behind
          cases behind with
          | passed _ seen' => exact .passed rfl ⟨by rw [seen.1, seen'.1, List.map_cons], seen'.2⟩
          | halted seen' => exact .halted ⟨by rw [seen.1, seen'.1, List.map_cons], seen'.2⟩

theorem blind_openGroup (group : Group) : Host.Blind (openGroup group) :=
  (Host.blind_breakUnless _ _).next fun _ => (Host.blind_log _ _ _).next fun _ => mirrors_pure rfl

theorem veiled_prepareFirst (sweep : Sweep) : VeiledVisit veil (prepareFirst sweep) := by
  intro tree
  induction tree using childrenInduction with
  | leaf leaf =>
      intro host other alike
      rw [veil_task]
      exact veiled_leaf (Task.veiled_prepareFirst sweep) leaf alike
  | branch group children ih =>
      intro host other alike
      -- Three parts in a row: opening, the children, closing. Each may end the pass early.
      have opened := blind_openGroup group host other alike
      rw [veil_branch, prepareFirst, prepareFirst]
      generalize (openGroup group).run host = ran at opened
      generalize (openGroup group).run other = ran' at opened
      cases opened with
      | halted hosts => exact .halted ⟨(veil_branch _ _).symm, hosts⟩
      | @passed group' _ _ _ same hosts =>
          subst same
          have below := veiled_prepareChildren ih _ _ hosts
          dsimp only
          generalize prepareChildren sweep children _ = ran at below
          generalize prepareChildren sweep (children.map veil) _ = ran' at below
          cases below with
          | halted seen => exact .halted ⟨by rw [seen.1, veil_branch], seen.2⟩
          | @passed _ _ state state' _ seen =>
              have closed := Host.blind_log .info
                (group'.standing.indentation ++ group'.brackets.2) [] _ _ seen.2
              dsimp only
              unfold closeGroup
              generalize (Host.log _ _ _).run state.2 = ran at closed
              generalize (Host.log _ _ _).run state'.2 = ran' at closed
              cases closed with
              | halted hosts => exact .halted ⟨by rw [seen.1, veil_branch], hosts⟩
              | passed _ hosts => exact .passed rfl ⟨by rw [seen.1, veil_branch], hosts⟩

theorem veiled_killChildren (dequeue all : Bool) {children : List Tree}
    (each : ∀ child ∈ children, VeiledAt veil (kill dequeue) child) :
    VeiledAt (List.map veil) (killChildren dequeue all) children := by
  induction children with
  | nil => exact fun host other alike => .passed rfl ⟨rfl, alike⟩
  | cons child rest ih =>
      intro host other alike
      -- The hypothesis holds from any two hosts, so it serves behind a visit and without one.
      have behind := ih fun other member => each other (List.mem_cons_of_mem _ member)
      rw [List.map_cons, killChildren, killChildren, standing_veil]
      split
      · have here := each child List.mem_cons_self host other alike
        generalize kill dequeue child host = ran at here
        generalize kill dequeue child.veil other = ran' at here
        cases here with
        | halted seen => exact .halted ⟨congrArg (· :: rest.map veil) seen.1, seen.2⟩
        | @passed _ _ state state' _ seen =>
            have behind := behind _ _ seen.2
            dsimp only
            generalize killChildren dequeue all rest state.2 = ran at behind
            generalize killChildren dequeue all (rest.map veil) state'.2 = ran' at behind
            cases behind with
            | passed _ seen' => exact .passed rfl ⟨by rw [seen.1, seen'.1, List.map_cons], seen'.2⟩
            | halted seen' => exact .halted ⟨by rw [seen.1, seen'.1, List.map_cons], seen'.2⟩
      · have behind := behind _ _ alike
        generalize killChildren dequeue all rest host = ran at behind
        generalize killChildren dequeue all (rest.map veil) other = ran' at behind
        cases behind with
        | passed _ seen' => exact .passed rfl ⟨by rw [seen'.1, List.map_cons], seen'.2⟩
        | halted seen' => exact .halted ⟨by rw [seen'.1, List.map_cons], seen'.2⟩

theorem settle_veil (group : Group) (children : List Tree) :
    group.settle (children.map veil) = group.settle children := by
  have checkings : (children.map veil).map checking = children.map checking := by
    simp [checking, Function.comp_def]
  have results : ∀ (group : Group) (count : Nat), Branch.aggregate (group, children.map veil) count =
      Branch.aggregate (group, children) count :=
    fun group => Branch.aggregate_veil (group, children)
  unfold Group.settle
  rw [checkings, List.length_map]
  simp only [results]

theorem veiled_kill (dequeue : Bool) : VeiledVisit veil (kill dequeue) := by
  intro tree
  induction tree using childrenInduction with
  | leaf leaf =>
      intro host other alike
      rw [veil_task, kill, kill]
      exact veiled_leaf (Task.veiled_kill dequeue) leaf alike
  | branch group children ih =>
      intro host other alike
      rw [veil_branch, kill, kill]
      dsimp only
      rw [alike.kill]
      split
      · exact .passed rfl ⟨(veil_branch _ _).symm, alike⟩
      · have below := veiled_killChildren dequeue (other.kill.kind = .all) ih host other alike
        generalize killChildren _ _ children host = ran at below
        generalize killChildren _ _ (children.map veil) other = ran' at below
        cases below with
        | halted seen => exact .halted ⟨by rw [seen.1, veil_branch], seen.2⟩
        | passed _ seen =>
            refine .passed rfl ⟨?_, seen.2⟩
            dsimp only
            rw [seen.1, settle_veil, veil_branch]

/-! ## Reports -/

theorem mirrors_define (tree : Tree) (order : List String) :
    Mirrors Host.Alike Eq (tree.define order) (tree.veil.define order) := by
  unfold define
  rw [show tree.veil.tasks = tree.tasks.map Task.veil from tasks_repaint _ tree]
  induction tree.tasks with
  | nil => exact mirrors_pure rfl
  | cons leaf rest ih => exact (Task.mirrors_define leaf order).next fun _ => ih

theorem mirrors_finalStatus (tree : Tree) :
    Mirrors Host.Alike Eq tree.finalStatus tree.veil.finalStatus := by
  induction tree using childrenInduction with
  | leaf leaf =>
      rw [veil_task]
      exact Task.mirrors_finalStatus leaf
  | branch group children ih =>
      have below : Mirrors Host.Alike Eq (finalStatuses children)
          (finalStatuses (children.map veil)) := by
        induction children with
        | nil => exact mirrors_pure rfl
        | cons child rest ihRest =>
            exact (ih child List.mem_cons_self).next fun _ =>
              ihRest fun other member => ih other (List.mem_cons_of_mem _ member)
      rw [veil_branch]
      exact (Host.blind_log _ _ _).next fun _ => below.next fun _ => Host.blind_log _ _ _

end Tree

end BuildFlow
