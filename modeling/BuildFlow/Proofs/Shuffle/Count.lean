import BuildFlow.Proofs.Shuffle.Abreast
/-!
The sweeps of a run. Each tick that is answered is followed by one sweep, which goes by what the
clock shows then, so they can be read off the record.
-/
namespace BuildFlow

open Act NodeAct

theorem Around.ticks_ticked (around : Around) (script : Script) (tick : Nat) :
    (around.ticked script tick).ticks =
      (tick, (around.ticked script tick).clock) :: around.ticks := by
  have acts : ∀ (actions : List (Nat × Action)) (around : Around),
      (actions.foldl (fun around action => around.perform action.2) around).ticks = around.ticks := by
    intro actions
    induction actions with
    | nil => exact fun _ => rfl
    | cons action rest ih =>
        intro around
        refine (ih (around.perform action.2)).trans ?_
        unfold perform
        split
        · rfl
        · split <;> rfl
        · rfl
  exact congrArg (List.cons _) (acts _ around)

/-- The sweeps of a run, the latest first: one for each tick that was answered, going by the
clock at that tick. -/
def Host.sweeps (host : Host) : List (Nat × Instant) :=
  host.around.ticks.filter fun sweep => sweep.1 ≤ host.script.maxTicks

theorem Host.Rests.sweeps {host after : Host} (rests : host.Rests after) :
    after.sweeps = host.sweeps := by
  unfold Host.sweeps
  rw [rests.around, rests.stays.script]

namespace Flow

/-- Sweeps one after another, a tick before each, while the tree waits for results. The readings of
the clock are listed with the latest first. -/
inductive Rounds : List Instant → Tree × World → Tree × World → Prop
  | none (state : Tree × World) : Rounds [] state state
  | more {now : Instant} {later : List Instant} {answer : Except Halt Unit}
      {state next last : Tree × World} (unsettled : state.1.checking = .mustCheck)
      (sweep : Tree.Sweeps now state.1 state.2.next answer next.1 next.2)
      (onward : Rounds later next last) : Rounds (later ++ [now]) state last

/-- The sweeps that were added to the record are those that were made. -/
def Sweeping (tree : Tree) (host : Host) (next : Tree) (after : Host) : Prop :=
  ∃ (added : List (Nat × Instant)) (reached : World), after.sweeps = added ++ host.sweeps ∧
    Rounds (added.map Prod.snd) (tree, host.world) (next, reached) ∧
      (after.world = reached ∨ after.world = reached.next)

theorem sweeping_refl (tree : Tree) (host : Host) : Sweeping tree host tree host :=
  ⟨[], host.world, rfl, .none _, .inl rfl⟩

theorem Sweeping.more {tree middle next : Tree} {host there after : Host} {tick : Nat} {now : Instant}
    {answer : Except Halt Unit} (unsettled : tree.checking = .mustCheck)
    (sweep : Tree.Sweeps now tree host.world.next answer middle there.world)
    (counted : there.sweeps = (tick, now) :: host.sweeps)
    (onward : Sweeping middle there next after) : Sweeping tree host next after := by
  obtain ⟨added, reached, record, rounds, ends⟩ := onward
  refine ⟨added ++ [(tick, now)], reached, ?_, ?_, ends⟩
  · rw [record, counted, List.append_assoc, List.singleton_append]
  · rw [List.map_append]
    exact .more unsettled sweep rounds

/-- What changes neither the jobs nor the record of sweeps may come before. -/
theorem Sweeping.after {tree next : Tree} {host there last : Host}
    (onward : Sweeping tree there next last) (world : there.world = host.world)
    (counted : there.sweeps = host.sweeps) : Sweeping tree host next last := by
  obtain ⟨added, reached, record, rounds, ends⟩ := onward
  exact ⟨added, reached, counted ▸ record, world ▸ rounds, ends⟩

/-- A tick that is answered is on record as a sweep, one that is refused is not. -/
theorem counted_quickPoll {host : Host} (quiet : host.Quiet) :
    Leads Host.quickPoll host fun answer there => Host.Stays host there ∧
      (Breaks answer ∨ there.world = host.world.next ∧
        (answer = .error Host.tickLimit ∧ there.sweeps = host.sweeps ∨
          answer = .ok () ∧ there.sweeps = (host.runner.tick + 1, there.clock) :: host.sweeps)) := by
  have polls : Leads Host.quickPoll host fun answer there =>
      (Host.Stays host there ∧ Host.Ticked host answer there) ∧
        (answer = .error (.broken .ticks) ∨
          there.around = host.around.ticked host.script (host.runner.tick + 1)) :=
    ⟨Host.leads_quickPoll quiet, Host.around_quickPoll quiet⟩
  refine polls.mono ?_
  rintro answer there ⟨⟨stays, ticked⟩, around⟩
  -- What a tick leaves on record follows from what it leaves around the jobs.
  have record : answer ≠ .error (.broken .ticks) → there.around.ticks =
      (host.runner.tick + 1, there.clock) :: host.around.ticks := by
    intro unbroken
    have same := around.resolve_left unbroken
    rw [same, Around.ticks_ticked, ← same]
    rfl
  cases ticked with
  | overrun => exact ⟨stays, .inl ⟨_, rfl⟩⟩
  | refused world beyond =>
      refine ⟨stays, .inr ⟨world, .inl ⟨rfl, ?_⟩⟩⟩
      unfold Host.sweeps
      rw [record nofun, stays.script, List.filter_cons_of_neg]
      simpa using beyond
  | passed world _ within =>
      refine ⟨stays, .inr ⟨world, .inr ⟨rfl, ?_⟩⟩⟩
      unfold Host.sweeps
      rw [record nofun, stays.script, List.filter_cons_of_pos]
      simpa using within

theorem counted_sleep {host : Host} (quiet : host.Quiet) (duration : Duration) :
    (Host.sleep duration).Leads host fun answer slept => answer = .ok () ∧ Host.Stays host slept ∧
      slept.world = host.world ∧ slept.sweeps = host.sweeps := by
  have sleeps : (Host.sleep duration).Leads host fun answer slept =>
      (answer = .ok () ∧ Host.Stays host slept ∧ slept.world = host.world) ∧
        slept.around = host.around.slept duration :=
    ⟨Host.leads_sleep quiet.unsignalled duration, Host.around_sleep quiet.unsignalled duration⟩
  refine sleeps.mono ?_
  rintro answer slept ⟨⟨rfl, stays, world⟩, around⟩
  refine ⟨rfl, stays, world, ?_⟩
  unfold Host.sweeps
  rw [around, stays.script]
  rfl

/-- A pause is not on record as a sweep. -/
theorem sweeping_pause (sleep : Duration) (now : Instant) {flow : Flow} {host : Host}
    (quiet : host.Quiet) : (pause sleep now).Leads (flow, host) fun _ state =>
      state.2.Quiet ∧ ∀ {next : Tree} {last : Host},
        Sweeping state.1.root state.2 next last → Sweeping flow.root host next last := by
  unfold pause
  rw [leads_bind]
  refine (ends_reportGraph flow host _).mono ?_
  rintro answer ⟨drawn, written⟩ ⟨-, drew, rests⟩
  have root : drawn.root = flow.root := by
    dsimp only at drew
    rw [drew]
    split <;> rfl
  have quiet' : written.Quiet := quiet.stays rests.stays
  have drawn_more : ∀ {next : Tree} {last : Host}, Sweeping drawn.root written next last →
      Sweeping flow.root host next last := fun onward =>
    root ▸ onward.after rests.world rests.sweeps
  cases answer with
  | error halt => exact ⟨quiet', drawn_more⟩
  | ok =>
      dsimp only
      rw [leads_onHost]
      refine (counted_sleep quiet' sleep).mono ?_
      rintro answer slept ⟨rfl, stays, world, counted⟩
      exact ⟨quiet'.stays stays, fun further => drawn_more (further.after world counted)⟩

/-- One round makes one sweep if its tick is answered, and none otherwise. Further rounds add to the
record only if it came to its end. -/
theorem sweeping_turn (sleep : Duration) {flow : Flow} {host : Host} (quiet : host.Quiet)
    (unsettled : flow.root.checking = .mustCheck) :
    (turn sleep).Leads (flow, host) fun answer state =>
      (∀ halt, answer = .error halt → ¬ Breaks answer →
        Sweeping flow.root host state.1.root state.2) ∧
      (answer = .ok () → state.2.Quiet ∧ ∀ {next : Tree} {last : Host},
        Sweeping state.1.root state.2 next last → Sweeping flow.root host next last) := by
  unfold turn
  rw [leads_bind, leads_onHost]
  refine (counted_quickPoll quiet).mono ?_
  rintro answer there ⟨stays, ⟨breakdown, rfl⟩ | ⟨world, ⟨rfl, same⟩ | ⟨rfl, counted⟩⟩⟩
  · exact ⟨fun _ _ unbroken => absurd ⟨breakdown, rfl⟩ unbroken, nofun⟩
  · exact ⟨fun _ _ _ => ⟨[], host.world, same, .none _, .inr world⟩, nofun⟩
  dsimp only
  rw [leads_bind, leads_host]
  dsimp only
  rw [leads_bind]
  refine (swept_checkOnce flow (quiet.stays stays) _).mono ?_
  rintro answer ⟨swept, after⟩ ⟨⟨ended, rfl, onward, sweep⟩, -, around⟩
  dsimp only at onward sweep around ⊢
  rw [world] at sweep
  replace counted : after.sweeps = (host.runner.tick + 1, there.clock) :: host.sweeps := by
    unfold Host.sweeps at counted ⊢
    rw [around, onward.script, counted]
  -- However the sweep ends, it is the one that goes with the tick.
  have swept_more : ∀ {next : Tree} {last : Host}, Sweeping swept.root after next last →
      Sweeping flow.root host next last := .more unsettled sweep counted
  cases ended with
  | error halt =>
      cases halt with
      | broken breakdown => exact ⟨fun _ _ unbroken => absurd ⟨breakdown, rfl⟩ unbroken, nofun⟩
      | error error =>
          cases error with
          | killed => cases sweep.ofSweep
          | _ => exact ⟨fun _ _ _ => swept_more (sweeping_refl _ _), nofun⟩
  | ok =>
      refine (sweeping_pause sleep _ ((quiet.stays stays).stays onward)).mono ?_
      rintro answer ⟨rested, slept⟩ ⟨quiet', rests⟩
      exact ⟨fun _ _ _ => swept_more (rests (sweeping_refl _ _)),
        fun _ => ⟨quiet', fun further => swept_more (rests further)⟩⟩

/-- The loop of a run makes one sweep for each tick that is answered. -/
theorem sweeping_pollLoop (sleep : Duration) (ticks : Nat) {flow : Flow} {host : Host}
    (quiet : host.Quiet) : (pollLoop sleep ticks : Step Unit).Leads (flow, host) fun answer state =>
      ¬ Breaks answer → Sweeping flow.root host state.1.root state.2 := by
  induction ticks generalizing flow host with
  | zero => exact fun _ => sweeping_refl _ _
  | succ ticks ih =>
      rw [pollLoop_succ, leads_bind, leads_host]
      dsimp only
      rw [quiet.unrequested, if_neg Bool.false_ne_true, leads_bind, leads_node]
      dsimp only
      split
      · exact fun _ => sweeping_refl _ _
      next unsettled =>
      rw [leads_bind]
      refine (sweeping_turn sleep quiet (Decidable.not_not.mp unsettled)).mono ?_
      rintro answer ⟨turned, there⟩ ⟨halted, passed⟩
      cases answer with
      | error halt => exact halted halt rfl
      | ok =>
          obtain ⟨quiet, adds⟩ := passed rfl
          refine (ih quiet).mono ?_
          exact fun _ _ further unbroken => adds (further unbroken)

end Flow

end BuildFlow
