import Mathlib.Logic.Relation
import BuildFlow.Proofs.Flow.Run
import BuildFlow.Proofs.Tree.Charge
/-!
The states that a run goes through. Each comes from the one before by a tick and a sweep
that comes to its end, so what such cycles keep holds of all states of the run. The run
is left from one of them, perhaps by a sweep that is broken off.
-/
namespace BuildFlow.Flow

open Relation

/-- A tick passes, and a sweep over a tree that waits for results comes to its end. -/
inductive Cycle (reads : Instant → Prop) (state next : Tree × World) : Prop
  | intro {now : Instant} {answer : Except Halt Unit} (unsettled : state.1.checking = .mustCheck)
      (read : reads now) (answered : Answered answer)
      (sweep : Tree.Sweeps now state.1 state.2.next answer next.1 next.2) : Cycle reads state next

/-- How a loop is left that has come to a state: the tree waits for nothing or failed, no
more ticks are answered, or the next sweep is broken off. -/
inductive Left (reads : Instant → Prop) (state : Tree × World) :
    Except Halt Unit → Tree → World → Prop
  | rests (answer : Except Halt Unit) : Left reads state answer state.1 state.2
  | refused : Left reads state (.error Host.tickLimit) state.1 state.2.next
  | broken {now : Instant} {halt : Halt} {tree : Tree} {world : World}
      (unsettled : state.1.checking = .mustCheck) (read : reads now)
      (sweep : Tree.Sweeps now state.1 state.2.next (.error halt) tree world)
      (hard : ∀ failure, halt ≠ .error (.failed failure)) :
      Left reads state (.error halt) tree world

/-- The states that a run may go through: the prepared tree, and what cycles make of it. -/
def Passes (flow : Flow) (reads : Instant → Prop) (world : World) (state : Tree × World) : Prop :=
  ∃ start : Tree × World,
    flow.root.Prepared flow.settings.requireIdle world (.ok ()) start.1 start.2 ∧
      ReflTransGen (Cycle reads) start state

theorem Passes.trans {flow : Flow} {reads : Instant → Prop} {world : World}
    {state next : Tree × World} (passes : flow.Passes reads world state)
    (onward : ReflTransGen (Cycle reads) state next) : flow.Passes reads world next := by
  obtain ⟨start, prepared, reaches⟩ := passes
  exact ⟨start, prepared, reaches.trans onward⟩

/-- What holds of the prepared tree and is kept by cycles holds of all states of a run. -/
theorem Passes.keeps {flow : Flow} {reads : Instant → Prop} {world : World}
    {p : Tree × World → Prop}
    (starts : ∀ {first there}, flow.root.Prepared flow.settings.requireIdle world (.ok ()) first there →
      p (first, there))
    (cycles : ∀ {state next}, flow.Passes reads world state → p state → Cycle reads state next →
      p next)
    {state : Tree × World} (passes : flow.Passes reads world state) : p state := by
  obtain ⟨start, prepared, reaches⟩ := passes
  induction reaches with
  | refl => exact starts prepared
  | tail reached cycle ih => exact cycles ⟨start, prepared, reached⟩ ih cycle

theorem Passes.blank {flow : Flow} {reads : Instant → Prop} {world : World} {state : Tree × World}
    (passes : flow.Passes reads world state) : state.1.blank = flow.root := by
  refine passes.keeps (p := fun state => state.1.blank = flow.root)
    (fun prepared => prepared.2.1) ?_
  rintro state next - same ⟨-, -, -, sweep⟩
  exact sweep.blank.trans same

/-- In all states of a run results are what they stand for. -/
theorem Passes.sound {flow : Flow} {reads : Instant → Prop} {world : World} {state : Tree × World}
    (passes : flow.Passes reads world state) : state.1.Sound state.2.runner := by
  refine passes.keeps (p := fun state => state.1.Sound state.2.runner)
    (fun prepared => Tree.sound_of_ready prepared.2.2) ?_
  rintro state next - sound ⟨unsettled, -, answered, sweep⟩
  exact (sweep.sound answered (Standing.unfinished unsettled)
    (sound.grows (Runner.grows_next state.2.runner))).sound

/-- A loop goes on by cycles until it is left. -/
theorem Looped.trail {dir : Bool} {limit : Nat} {reads : Instant → Prop} {tree last : Tree}
    {world after : World} {answer : Except Halt Unit}
    (looped : Looped dir limit reads tree world answer last after) :
    ∃ state, ReflTransGen (Cycle reads) (tree, world) state ∧ Left reads state answer last after := by
  have once : ∀ {tree next : Tree} {world after : World} {now : Instant} {answer : Except Halt Unit},
      tree.checking = .mustCheck → reads now → Answered answer →
      Tree.Sweeps now tree world.next answer next after →
      Cycle reads (tree, world) (next, after) :=
    fun unsettled read answered sweep => .intro unsettled read answered sweep
  induction looped with
  | settled => exact ⟨_, .refl, .rests _⟩
  | again unsettled read _ sweep _ ih =>
      obtain ⟨state, reaches, left⟩ := ih
      exact ⟨state, reaches.head (once unsettled read .ok sweep), left⟩
  | @broke _ _ _ _ _ halt unsettled read _ sweep =>
      by_cases failed : ∃ failure, halt = .error (.failed failure)
      · obtain ⟨failure, rfl⟩ := failed
        exact ⟨_, .single (once unsettled read (.failed failure) sweep), .rests _⟩
      · exact ⟨_, .refl, .broken unsettled read sweep fun failure same => failed ⟨failure, same⟩⟩
  | refused => exact ⟨_, .refl, .refused⟩
  | overrun => exact ⟨_, .refl, .rests _⟩
  | unwritten _ unsettled read _ sweep => exact ⟨_, .single (once unsettled read .ok sweep), .rests _⟩

/-- Where a run is left: before its loop, which has built nothing, or from a state of its
loop. -/
inductive Halted (flow : Flow) (reads : Instant → Prop) (world : World)
    (answer : Except Halt BuildResult) (last : Tree) (after : World) : Prop
  | early (layout : last.blank = flow.root) (same : world.Same after)
  | later {state : Tree × World} {ended : Except Halt Unit} (passes : flow.Passes reads world state)
      (left : Left reads state ended last after) (direct : Direct answer → Direct ended)

/-- The tree that a run leaves behind is the one that was declared, but for how it stands. -/
theorem Halted.blank {flow : Flow} {reads : Instant → Prop} {world after : World} {last : Tree}
    {answer : Except Halt BuildResult} (halted : flow.Halted reads world answer last after) :
    last.blank = flow.root := by
  cases halted with
  | early layout => exact layout
  | later passes left =>
      cases left with
      | rests => exact passes.blank
      | refused => exact passes.blank
      | broken _ _ sweep => exact sweep.blank.trans passes.blank

theorem Driven.halts {flow : Flow} {limit : Nat} {reads : Instant → Prop} {last : Tree}
    {world after : World} {answer : Except Halt BuildResult}
    (driven : Driven flow.config flow.settings.requireIdle limit reads flow.root world answer last after) :
    flow.Halted reads world answer last after := by
  cases driven with
  | unprepared prepared => exact .early prepared.2.1 prepared.1
  | unwritten prepared => exact .early prepared.2.1 prepared.1
  | unslept prepared => exact .early prepared.2.1 prepared.1
  | @looped first _ there _ ended _ prepared looped concluded =>
      obtain ⟨state, reaches, left⟩ := looped.trail
      refine .later ⟨_, prepared, reaches⟩ left fun direct => ?_
      rintro halt rfl
      cases concluded with
      | halted => exact direct halt rfl
      | overrun => exact absurd trivial (direct _ rfl)

/-- Every run goes through states of its flow until it is left. -/
theorem Ran.halts {flow : Flow} {limit : Nat} {reads : Instant → Prop} {last : Tree}
    {world after : World} {answer : Except Halt BuildResult} (fresh : flow.root.IsFresh)
    (ran : Ran flow limit reads world answer last after) :
    flow.Halted reads world answer last after := by
  cases ran with
  | unwritten => exact .early fresh (.refl _)
  | idle => exact .early fresh (.refl _)
  | halted driven => exact driven.halts
  | finished driven => exact driven.halts
  | raised driven =>
      cases driven.halts with
      | early layout same => exact .early layout same
      | later passes left direct => exact .later passes left fun _ => direct nofun

end BuildFlow.Flow
