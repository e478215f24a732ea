import BuildFlow.Proofs.Kill.Settle
/-!
No build is told to stop twice. A stop on record names the console of the build, which
tells builds apart, and a build that was told to stop is over from then on.
-/
namespace BuildFlow

/-! ## Consoles -/

/-- What stands behind the last mark tells where the mark is. -/
theorem append_cons_inj_of_last {α : Type} {mark : α} {front front' back back' : List α}
    (unmarked : mark ∉ back) (unmarked' : mark ∉ back')
    (same : front ++ mark :: back = front' ++ mark :: back') : front = front' ∧ back = back' := by
  have nil_of_split : ∀ {middle back back' : List α}, mark ∉ back →
      mark :: back = middle ++ mark :: back' → middle = [] ∧ back = back' := by
    intro middle back back' unmarked same
    cases middle with
    | nil => exact ⟨rfl, (List.cons.inj same).2⟩
    | cons first middle =>
        refine absurd ?_ unmarked
        rw [(List.cons.inj same).2]
        exact List.mem_append_right _ List.mem_cons_self
  rcases List.append_eq_append_iff.mp same with ⟨middle, rfl, split⟩ | ⟨middle, rfl, split⟩
  · obtain ⟨rfl, rfl⟩ := nil_of_split unmarked split
    exact ⟨(List.append_nil _).symm, rfl⟩
  · obtain ⟨rfl, rfl⟩ := nil_of_split unmarked' split
    exact ⟨List.append_nil _, rfl⟩

theorem slash_notMem_repr (n : Nat) : '/' ∉ n.repr.toList := by
  intro member
  rw [Nat.repr, String.toList_ofList] at member
  have digit := Nat.isDigit_of_mem_toDigits (by decide) (by decide) member
  revert digit
  decide

namespace Runner

/-- Builds with the same console have the same job and the same number. -/
theorem consoleUrl_inj {ref other : BuildRef} (same : consoleUrl ref = consoleUrl other) :
    ref.job = other.job ∧ ref.number = other.number := by
  have lists := congrArg String.toList same
  simp only [consoleUrl, jobUrl, String.toList_append, List.append_assoc,
    List.append_cancel_left_eq] at lists
  simp only [← List.append_assoc, List.append_cancel_right_eq] at lists
  have slash : ("/" : String).toList = ['/'] := rfl
  rw [slash, List.append_assoc, List.append_assoc] at lists
  obtain ⟨job, number⟩ := append_cons_inj_of_last (slash_notMem_repr ref.number)
    (slash_notMem_repr other.number) lists
  have digits : Nat.toDigits 10 ref.number = Nat.toDigits 10 other.number := by
    simpa [Nat.toString_eq_ofList_toDigits] using number
  have value := congrArg (fun digits => Nat.ofDigitChars 10 digits 0) digits
  exact ⟨String.toList_inj.mp job, by simpa using value⟩

/-- The build with a console is over. -/
def Ended (runner : Runner) (url : String) : Prop :=
  ∀ (name : String) (index : Nat) (build : Build), (runner.buildsOf name)[index]? = some build →
    consoleUrl ⟨name, index, build.number⟩ = url → (build.progress runner.tick).isIdle

variable {runner before after : Runner}

theorem Halts.builds (halts : Halts before after) {name : String} {index : Nat} {build : Build}
    (held : (after.buildsOf name)[index]? = some build) :
    ∃ old, (before.buildsOf name)[index]? = some old ∧ Build.Halts before.tick old build := by
  cases listed : after.jobs.get? name with
  | none =>
      rw [buildsOf, listed] at held
      cases held
  | some next =>
      obtain ⟨job, listed', halts'⟩ := halts.listed listed
      rw [buildsOf_of_get? listed] at held
      rw [buildsOf_of_get? listed']
      exact halts'.held held

theorem idle_of_grows {tick later : Nat} {build next : Build} (grows : Build.Grows tick later build next)
    (idle : (build.progress tick).isIdle) : (next.progress later).isIdle := by
  have status : build.status tick = (build.result tick, .idle) :=
    Prod.ext rfl (Progress.eq_idle idle)
  rw [Build.progress, grows.idle _ status]
  rfl

theorem Halts.ended (halts : Halts before after) {url : String} (ended : before.Ended url) :
    after.Ended url := by
  intro name index build held same
  obtain ⟨old, held, halted⟩ := halts.builds held
  rw [halts.tick]
  rw [halted.grows.number] at same
  exact idle_of_grows halted.grows (ended name index old held same)

theorem Rests.ended (rests : Rests before after) {url : String} (ended : before.Ended url) :
    after.Ended url := by
  intro name index build held same
  rw [rests.builds] at held
  exact idle_of_grows (.later build rests.grows.tick) (ended name index build held same)

/-- The numbers of a job tell its builds apart. -/
theorem Numbered.inj (numbered : runner.Numbered) {name : String} {index index' : Nat}
    {build build' : Build} (held : (runner.buildsOf name)[index]? = some build)
    (held' : (runner.buildsOf name)[index']? = some build') (same : build.number = build'.number) :
    index = index' := by
  cases listed : runner.jobs.get? name with
  | none =>
      rw [buildsOf, listed] at held
      cases held
  | some job =>
      rw [buildsOf_of_get? listed] at held held'
      have sorted : (job.builds.map Build.number).Pairwise (· < ·) := numbered name job listed
      have distinct : (job.builds.map Build.number).Nodup := sorted.imp Nat.ne_of_lt
      have inside : index < (job.builds.map Build.number).length := by
        rw [List.length_map]
        exact (List.getElem?_eq_some_iff.mp held).1
      refine (List.getElem?_inj inside distinct).mp ?_
      rw [List.getElem?_map, List.getElem?_map, held, held']
      exact congrArg some same

end Runner

/-! ## Stops on record -/

/-- The console of a build that is told to stop. -/
def Event.stopUrl? : Event → Option String
  | .stop url _ => some url
  | _ => none

/-- The consoles of builds that were told to stop. -/
def stopUrls (events : List Event) : List String := events.filterMap Event.stopUrl?

/-- Since `start` no build was told to stop twice, and those that were are over. -/
structure Scene.Once (start : List Event) (scene : Scene) : Prop where
  numbered : scene.runner.Numbered
  since : ∃ new, scene.stops = new ++ start ∧ (stopUrls new).Nodup ∧
    ∀ url ∈ stopUrls new, scene.runner.Ended url

namespace Task

variable {all : Bool} {base : Runner} {task next : Task} {before after : Scene} {start : List Event}

theorem Silences.once (silences : task.Silences before after) (once : before.Once start) :
    after.Once start := by
  have numbered := silences.halts.numbered once.numbered
  obtain ⟨new, stops, distinct, ended⟩ := once.since
  cases silences with
  | spares => exact once
  | stops resolved unstopped found =>
      refine ⟨numbered, .stopAll task.name :: new, congrArg (List.cons _) stops, distinct, ?_⟩
      exact fun url member => (Silences.stops resolved unstopped found).halts.ended (ended url member)

theorem Hushes.once (hushes : task.Hushes all before after) (once : before.Once start) :
    after.Once start := by
  unfold Hushes at hushes
  split at hushes
  · exact hushes.once once
  · exact hushes ▸ once

theorem Quits.once (quits : task.Quits all before next after) (tied : task.Tied base before.runner)
    (once : before.Once start) : after.Once start := by
  have halts := quits.onward.halts
  cases quits with
  | settled _ hushes => exact hushes.once once
  | missing _ _ hushes => exact hushes.once once
  | silenced _ _ _ silences => exact silences.once once
  | waits _ _ _ silences => exact silences.once once
  | unstarted => exact once
  | ended => exact once
  | told => exact once
  | @tells ref job build _ _ _ followed _ found held busy _ dequeue asked =>
      obtain ⟨new, stops, distinct, ended⟩ := once.since
      obtain ⟨-, -, build', held', number⟩ := tied.held ref followed
      have held? : before.runner.build? ref = some build :=
        Option.bind_eq_some_iff.mpr ⟨job, found, held⟩
      cases held?.symm.trans held'
      have there : (before.runner.buildsOf ref.job)[ref.index]? = some build := by
        rw [Runner.buildsOf_of_job? found]
        exact held
      refine ⟨halts.numbered once.numbered, .stop (Runner.consoleUrl ref) dequeue :: new,
        congrArg (List.cons _) stops, List.nodup_cons.mpr ⟨fun told => ?_, distinct⟩, ?_⟩
      · -- A build that was told to stop would be over.
        have idle := ended _ told ref.job ref.index build there (by rw [number])
        cases idle.symm.trans busy
      · intro url member
        rcases List.mem_cons.mp member with rfl | earlier
        · intro name index other held same
          obtain ⟨named, numbers⟩ := Runner.consoleUrl_inj same
          dsimp only at named numbers
          subst named
          obtain ⟨old, held', halted⟩ := halts.builds held
          have index' : index = ref.index := once.numbered.inj held' there
            (halted.grows.number.symm.trans (numbers.trans number.symm))
          subst index'
          have stopped := Task.build?_stopBuild found ‹job.builds[ref.index]? = some build› dequeue
          obtain ⟨next, listed, at'⟩ := Option.bind_eq_some_iff.mp stopped
          rw [Runner.buildsOf_of_job? listed] at held
          cases held.symm.trans at'
          exact Build.stop_idle asked
        · exact halts.ended (ended url earlier)

end Task

theorem Tree.Quits.once {all : Bool} {base : Runner} {tree next : Tree} {before after : Scene}
    {start : List Event} (quits : Tree.Quits all tree before next after)
    (tied : ∀ leaf ∈ tree.tasks, leaf.Tied base before.runner) (once : before.Once start) :
    after.Once start :=
  quits.keeps (q := fun runner leaf => leaf.Tied base runner) (fun tied grows => tied.grows grows)
    Task.Quits.once tied once

end BuildFlow
