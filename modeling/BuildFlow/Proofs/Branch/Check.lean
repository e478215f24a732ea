import BuildFlow.Proofs.Branch.Basic
/-!
Sweeps over groups lead where the relations of `Branch` say and nowhere else.
Both disciplines run one kind of pass, which differs in how it answers.
-/
namespace BuildFlow.Branch

open NodeAct Act

variable {branch : Branch} {host : Host} {sweep : Sweep}

theorem leads_setGroup (f : Group → Group) (state : Branch × Host)
    (post : Except Halt Unit → Branch × Host → Prop) :
    (setGroup f : Step Unit).Leads state post ↔
      post (.ok ()) ((f state.1.1, state.1.2), state.2) := Iff.rfl

theorem leads_setStanding (f : Standing → Standing) (state : Branch × Host)
    (post : Except Halt Unit → Branch × Host → Prop) :
    (setStanding f : Step Unit).Leads state post ↔
      post (.ok ()) (({ state.1.1 with standing := f state.1.1.standing }, state.1.2), state.2) :=
  Iff.rfl

theorem leads_setChild (index : Nat) (child : Tree) (state : Branch × Host)
    (post : Except Halt Unit → Branch × Host → Prop) :
    (setChild index child : Step Unit).Leads state post ↔
      post (.ok ()) (state.1.put index child, state.2) := Iff.rfl

theorem leads_beginSweep :
    (beginSweep sweep : Step Bool).Leads (branch, host) fun answer state =>
      Host.Stays host state.2 ∧ state.2.world = host.world ∧
        state.1 = branch.begun sweep.now ∧ ∃ report, answer = .ok report := by
  -- Whether the attempt starts now or had started, the report comes after it.
  have reports : ∀ (started : Group) (after : Host), Host.Stays host after →
      after.world = host.world → started = branch.1.started sweep.now →
      Leads (if branch.group.reportInterval ≤ sweep.now.secondsSince branch.group.lastReport then do
          setGroup fun group => { group with lastReport := sweep.now }
          return true
        else return false : Step Bool) ((started, branch.2), after) fun answer state =>
          Host.Stays host state.2 ∧ state.2.world = host.world ∧
            state.1 = branch.begun sweep.now ∧ ∃ report, answer = .ok report := by
    intro started after stays same eq
    subst eq
    unfold Branch.begun Group.begun Branch.group
    split
    · exact ⟨stays, same, rfl, true, rfl⟩
    · exact ⟨stays, same, rfl, false, rfl⟩
  unfold beginSweep
  rw [leads_bind, leads_node]
  dsimp only
  split
  · next invoked => exact reports _ host (.refl host) rfl (if_pos invoked).symm
  · next uninvoked =>
      rw [leads_bind, leads_setStanding]
      dsimp only
      rw [leads_bind, leads_onHost]
      refine Task.stays_announce _ _ _ host fun announced stays same => ?_
      exact reports _ announced stays same (if_neg uninvoked).symm

/-- A visit to a child passes, or fails in a way that the group answers, or ends the sweep. -/
theorem leads_visitChild {visit : Visit Tree} {index : Nat} {child next : Tree} {there : Host}
    {ending : Except Halt Unit} (visited : visit child host = (ending, next, there))
    {post : Except Halt (Option JobFailure) → Branch × Host → Prop}
    (passes : ending = .ok () → post (.ok none) (branch.put index next, there))
    (fails : ∀ failure, ending = failedBy failure →
      post (.ok (some failure)) (branch.put index next, there))
    (halts : ∀ halt, ending = .error halt → (∀ failure, halt ≠ .error (.failed failure)) →
      post (.error halt) (branch.put index next, there)) :
    (visitChild visit index child : Step (Option JobFailure)).Leads (branch, host) post := by
  unfold visitChild
  rw [leads_bind, leads_node]
  dsimp only
  rw [leads_failure?, leads_onPart, visited]
  cases ending with
  | ok => exact passes rfl
  | error halt =>
      cases halt with
      | broken => exact halts _ rfl nofun
      | error error =>
          cases error with
          | failed failure => exact fails failure rfl
          | _ => exact halts _ rfl nofun

theorem noted_serial (serial : branch.group.isSerial) (child : Tree) :
    branch.noted child = branch := by
  obtain ⟨group, children⟩ := branch
  unfold noted Group.setFailed
  cases discipline : group.discipline with
  | serial => rfl
  | parallel => simp [Branch.group, Group.isSerial, discipline] at serial

theorem cleared_serial (serial : branch.group.isSerial) (child : Tree) :
    branch.cleared child = branch := by
  obtain ⟨group, children⟩ := branch
  unfold cleared Group.setFailed
  cases discipline : group.discipline with
  | serial => rfl
  | parallel => simp [Branch.group, Group.isSerial, discipline] at serial

theorem leaving_parallel (parallel : branch.group.isSerial = false) :
    branch.leaving = branch := by
  obtain ⟨group, children⟩ := branch
  unfold leaving Group.setCursor
  cases discipline : group.discipline with
  | serial => simp [Branch.group, Group.isSerial, discipline] at parallel
  | parallel => rfl

theorem leads_restart (scope : Bool) (post : Except Halt Unit → Branch × Host → Prop) :
    (restart scope : Step Unit).Leads (branch, host) post ↔
      if (branch.2.take branch.reach).all fun child => child.canPrepare scope then
        post (.ok ()) ((branch.1.setCursor 0,
          (branch.2.take branch.reach).map (Tree.prepare scope) ++ branch.2.drop branch.reach), host)
      else post (.error (.broken .tries)) (branch, host) := by
  unfold restart
  rw [leads_bind, leads_node]
  dsimp only
  rw [leads_bind, leads_onHost, Host.leads_breakUnless]
  split
  · next fits => exact (if_pos fits).symm ▸ Iff.rfl
  · next overdrawn => exact (if_neg overdrawn).symm ▸ Iff.rfl

/-- A failure is answered in the retry scope that has tries left, if there is one. -/
theorem leads_byTries {standing : Standing} {within beyond out : Step Bool} {state : Branch × Host}
    {post : Except Halt Bool → Branch × Host → Prop}
    (retries : standing.mayTry → standing.newScope = false → within.Leads state post)
    (restarts : standing.mayTry → standing.newScope = true → beyond.Leads state post)
    (ends : standing.mayTry = false → out.Leads state post) :
    (if 0 < standing.remainingTries then within
      else if 0 < standing.remainingTotalTries then beyond else out).Leads state post := by
  split
  · next tries =>
      exact retries (Standing.mayTry_eq_true.mpr (.inl tries)) (Standing.newScope_eq_false.mpr tries)
  · next none =>
      have none : standing.remainingTries = 0 := Nat.eq_zero_of_not_pos none
      split
      · next total =>
          exact restarts (Standing.mayTry_eq_true.mpr (.inr total)) (Standing.newScope_eq_true.mpr none)
      · next spent =>
          exact ends (Standing.mayTry_eq_false.mpr ⟨none, Nat.eq_zero_of_not_pos spent⟩)

/-- Both retry scopes of a serial group are answered alike. -/
theorem leads_serialRetry (serial : branch.group.isSerial) (index : Nat) {child : Tree}
    {failure : JobFailure} {scope : Bool} (unaborted : failure.isAborted = false)
    (may : child.standing.mayTry) (same : child.standing.newScope = scope) (stay again : String)
    (fields : List (String × Json)) :
    (if child.standing.propagation ≠ .normal then do
        log .info stay fields
        return false
      else do
        log .info again fields
        restart scope
        return !scope : Step Bool).Leads (branch, host) fun answer state =>
      Host.Stays host state.2 ∧ state.2.world = host.world ∧
        Answers branch index child failure answer state.1 := by
  subst same
  have noted := noted_serial serial child
  have logged := Host.stays_log host
  split
  · next abnormal =>
      have answered := @Answers.stays branch index child failure unaborted may serial
        abnormal
      rw [noted] at answered
      exact ⟨logged _ _ _, rfl, answered⟩
  · next normal =>
      rw [Decidable.not_not] at normal
      have retries := @Answers.retries branch index child failure unaborted may
        fun _ => normal
      have overdraws := @Answers.overdraws branch index child failure unaborted may
        fun _ => normal
      simp only [noted, retried, retriable, serial, ↓reduceIte] at retries overdraws
      rw [leads_bind, leads_log]
      dsimp only
      rw [leads_bind, leads_restart]
      split
      · next fits => exact ⟨logged _ _ _, rfl, retries fits⟩
      · next overdrawn => exact ⟨logged _ _ _, rfl, overdraws (by rwa [← Bool.not_eq_true])⟩

theorem leads_answerFailure (serial : branch.group.isSerial) (index : Nat) (child : Tree)
    (failure : JobFailure) :
    (answerFailure index child failure : Step Bool).Leads (branch, host) fun answer state =>
      Host.Stays host state.2 ∧ state.2.world = host.world ∧
        Answers branch index child failure answer state.1 := by
  have noted := noted_serial serial child
  have logged := Host.stays_log host
  have serial' : (branch.put index child.finish).group.isSerial := serial
  unfold answerFailure
  dsimp only
  split
  · next aborted =>
      rw [leads_bind, leads_log]
      dsimp only
      rw [leads_bind, leads_setChild]
      dsimp only
      split
      · next unchecked =>
          have answered := @Answers.abortsUnchecked branch index child failure aborted
            unchecked
          rw [noted] at answered
          exact ⟨logged _ _ _, rfl, answered⟩
      · next checked =>
          rw [Bool.not_eq_true] at checked
          have answered := @Answers.aborts branch index child failure aborted checked
          simp only [noted, aborting, serial', ↓reduceIte] at answered
          exact ⟨logged _ _ _, rfl, answered⟩
  · next unaborted =>
      rw [Bool.not_eq_true] at unaborted
      -- A retry in the own scope, one that is up to an outer scope, or the end of the child.
      apply leads_byTries
      · exact fun tries own => leads_serialRetry serial index unaborted tries own _ _ _
      · exact fun tries outer => leads_serialRetry serial index unaborted tries outer _ _ _
      · intro spent
        rw [leads_bind, leads_setChild]
        dsimp only
        split
        · next unchecked =>
            have answered := @Answers.endsUnchecked branch index child failure unaborted spent
              unchecked
            rw [noted] at answered
            exact ⟨.refl host, rfl, answered⟩
        · next checked =>
            rw [Bool.not_eq_true] at checked
            have answered := @Answers.ends branch index child failure unaborted spent checked
            rw [noted] at answered
            exact ⟨.refl host, rfl, answered⟩

theorem leads_prepareChild (index : Nat) (child : Tree) (scope : Bool)
    (post : Except Halt Unit → Branch × Host → Prop) :
    (prepareChild index child scope : Step Unit).Leads (branch, host) post ↔
      if child.canPrepare scope then post (.ok ()) (branch.put index (child.prepare scope), host)
      else post (.error (.broken .tries)) (branch, host) := by
  unfold prepareChild
  rw [leads_bind, leads_onHost, Host.leads_breakUnless]
  split <;> exact Iff.rfl

/-- Both retry scopes of a parallel group are answered alike. -/
theorem leads_parallelRetry (parallel : branch.group.isSerial = false) (index : Nat) {child : Tree}
    {failure : JobFailure} {scope : Bool} (unaborted : failure.isAborted = false)
    (may : child.standing.mayTry) (same : child.standing.newScope = scope) (again : String)
    (fields : List (String × Json)) :
    (do
        log .info again fields
        prepareChild index child scope
        return !scope : Step Bool).Leads (branch.noted child, host) fun answer state =>
      Host.Stays host state.2 ∧ state.2.world = host.world ∧
        Answers branch index child failure answer state.1 := by
  subst same
  have parallel' : (branch.noted child).group.isSerial = false := by
    rw [← parallel]
    exact Group.isSerial_setFailed _ _
  have logged := Host.stays_log host
  have retries := @Answers.retries branch index child failure unaborted may
    fun serial => absurd serial (by simp [parallel])
  have overdraws := @Answers.overdraws branch index child failure unaborted may
    fun serial => absurd serial (by simp [parallel])
  simp only [retried, retriable, parallel', Bool.false_eq_true, ↓reduceIte] at retries overdraws
  rw [leads_bind, leads_log]
  dsimp only
  rw [leads_bind, leads_prepareChild]
  split
  · next fits => exact ⟨logged _ _ _, rfl, retries fits⟩
  · next overdrawn => exact ⟨logged _ _ _, rfl, overdraws (by rwa [← Bool.not_eq_true])⟩

theorem leads_setFailed (f : Table Nat String → Table Nat String) (state : Branch × Host)
    (post : Except Halt Unit → Branch × Host → Prop) :
    (setFailed f : Step Unit).Leads state post ↔
      post (.ok ()) ((state.1.1.setFailed (f state.1.1.failed), state.1.2), state.2) := Iff.rfl

theorem leads_answerInPlace (parallel : branch.group.isSerial = false) (index : Nat)
    (child : Tree) (failure : JobFailure) :
    (answerInPlace index child failure : Step Bool).Leads (branch, host) fun answer state =>
      Host.Stays host state.2 ∧ state.2.world = host.world ∧
        Answers branch index child failure answer state.1 := by
  have parallel' : ((branch.noted child).put index child.finish).group.isSerial = false := by
    rw [← parallel]
    exact Group.isSerial_setFailed _ _
  have logged := Host.stays_log host
  unfold answerInPlace
  dsimp only
  rw [leads_bind, leads_setFailed]
  -- The name is noted before the failure is looked at, so every answer starts from here.
  change Leads _ (branch.noted child, host) _
  split
  · next aborted =>
      rw [leads_bind, leads_log]
      dsimp only
      rw [leads_bind, leads_setChild]
      dsimp only
      split
      · next unchecked => exact ⟨logged _ _ _, rfl, .abortsUnchecked aborted unchecked⟩
      · next checked =>
          rw [Bool.not_eq_true] at checked
          have answered := @Answers.aborts branch index child failure aborted checked
          simp only [aborting, parallel', Bool.false_eq_true, ↓reduceIte] at answered
          exact ⟨logged _ _ _, rfl, answered⟩
  · next unaborted =>
      rw [Bool.not_eq_true] at unaborted
      apply leads_byTries
      · exact fun tries own => leads_parallelRetry parallel index unaborted tries own _ _
      · exact fun tries outer => leads_parallelRetry parallel index unaborted tries outer _ _
      · intro spent
        cases unchecked : child.standing.isUnchecked with
        | true => exact ⟨.refl host, rfl, .endsUnchecked unaborted spent unchecked⟩
        | false =>
            have answered := @Answers.ends branch index child failure unaborted spent unchecked
            rw [leaving_parallel parallel'] at answered
            exact ⟨.refl host, rfl, answered⟩

/-- Visits the children at some places, in the way of either discipline. -/
def passWith (clear : Tree → Step Unit) (answer : Nat → Tree → JobFailure → Step Bool)
    (visit : Visit Tree) : List Nat → Checking → Step Checking
  | [], status => return status
  | index :: rest, status => do
      match (← node).children[index]? with
      | none => passWith clear answer visit rest status
      | some child =>
          if child.standing.isFinished then passWith clear answer visit rest status
          else
            let failure ← visitChild visit index child
            let child := ((← node).children[index]?).getD child
            match failure with
            | none =>
                clear child
                passWith clear answer visit rest (min status child.standing.propagatedChecking)
            | some failure =>
                if ← answer index child failure then
                  passWith clear answer visit rest .mustCheck
                else passWith clear answer visit rest status

def clearFailed (child : Tree) : Step Unit :=
  setFailed fun failed => failed.erase child.standing.id

theorem parallelPass_eq (visit : Visit Tree) (indices : List Nat) (status : Checking) :
    parallelPass visit indices status =
      passWith clearFailed answerInPlace visit indices status := by
  induction indices generalizing status with
  | nil => rfl
  | cons index rest ih =>
      simp only [parallelPass, passWith, ih]
      rfl

theorem serialPass_eq (visit : Visit Tree) (indices : List Nat) (status : Checking) :
    serialPass visit indices status =
      passWith (fun _ => pure ()) answerFailure visit indices status := by
  induction indices generalizing status with
  | nil => rfl
  | cons index rest ih =>
      simp only [serialPass, passWith, ih]
      rfl

/-- Visits to children of a limited height lead where `course` says, on hosts of a kind. -/
def SoundFor (manner : Host.Manner) (course : Course Tree) (levels : Nat) (visit : Visit Tree) :
    Prop :=
  ∀ child (host : Host), child.height ≤ levels → manner.fit host →
    manner.goes host (visit child host).2.2 ∧
      course child host.world (visit child host).1 (visit child host).2.1
        (visit child host).2.2.world ∧
      (visit child host).2.1.height ≤ levels

/-- Visits to children of a limited height lead where `course` says. -/
def Sound (conduct : Host.Conduct) (course : Course Tree) (levels : Nat) (visit : Visit Tree) :
    Prop :=
  ∀ child (host : Host), child.height ≤ levels → conduct.fit host →
    conduct.goes host (visit child host).2.2 ∧
      course child host.world (visit child host).1 (visit child host).2.1
        (visit child host).2.2.world ∧
      (visit child host).2.1.height ≤ levels

def Low (levels : Nat) (branch : Branch) : Prop := ∀ child ∈ branch.2, child.height ≤ levels

theorem Low.put {levels : Nat} {branch : Branch} (low : Low levels branch) (index : Nat)
    {child : Tree} (height : child.height ≤ levels) : Low levels (branch.put index child) := by
  intro other member
  rcases List.mem_or_eq_of_mem_set member with old | new
  · exact low other old
  · exact new ▸ height

theorem Answers.low {levels : Nat} {branch next : Branch} {index : Nat} {child : Tree}
    {failure : JobFailure} {answer : Except Halt Bool}
    (answers : Answers branch index child failure answer next) (low : Low levels branch)
    (height : child.height ≤ levels) : Low levels next :=
  answers.all (p := fun other => other.height ≤ levels) low height
    (by rwa [Tree.height_finish]) fun _ _ low => by rwa [Tree.height_prepare]

theorem Answers.isSerial {branch next : Branch} {index : Nat} {child : Tree}
    {failure : JobFailure} {answer : Except Halt Bool}
    (answers : Answers branch index child failure answer next) :
    next.group.isSerial = branch.group.isSerial := by
  have noted : (branch.noted child).group.isSerial = branch.group.isSerial :=
    Group.isSerial_setFailed _ _
  cases answers with
  | aborts =>
      unfold aborting
      split
      · exact (Group.isSerial_setCursor _ _).trans noted
      · exact noted
  | abortsUnchecked => exact noted
  | stays => exact noted
  | retries => exact (isSerial_retried _ _ _).trans noted
  | overdraws => exact noted
  | ends => exact (Group.isSerial_setCursor _ _).trans noted
  | endsUnchecked => exact noted

theorem leads_passWith {manner : Host.Manner} {course : Course Tree} {levels : Nat}
    {visit : Visit Tree} {serial : Bool} (sound : SoundFor manner course levels visit)
    {clear : Tree → Step Unit}
    {answer' : Nat → Tree → JobFailure → Step Bool}
    (clears : ∀ (branch : Branch) (host : Host) child, branch.group.isSerial = serial →
      (clear child).run (branch, host) = (.ok (), branch.cleared child, host))
    (answers : ∀ (branch : Branch) (host : Host) index child failure,
      branch.group.isSerial = serial →
      (answer' index child failure).Leads (branch, host) fun answer state =>
        Host.Stays host state.2 ∧ state.2.world = host.world ∧
          Answers branch index child failure answer state.1)
    (indices : List Nat) {branch : Branch} {host : Host} (kind : branch.group.isSerial = serial)
    (low : Low levels branch) (fit : manner.fit host) (status : Checking) :
    (passWith clear answer' visit indices status).Leads (branch, host) fun answer state =>
      manner.goes host state.2 ∧ state.1.group.isSerial = serial ∧ Low levels state.1 ∧
        Pass course indices branch host.world status answer state.1 state.2.world := by
  induction indices generalizing branch host status with
  | nil => exact ⟨manner.stays (.refl host), kind, low, .done⟩
  | cons index rest ih =>
      rw [passWith, leads_bind, leads_node]
      dsimp only
      cases here : branch.children[index]? with
      | none =>
          refine (ih kind low fit status).mono ?_
          rintro answer state ⟨goes, kind, low, pass⟩
          exact ⟨goes, kind, low, .skips (fun child found => by cases here.symm.trans found) pass⟩
      | some child =>
          dsimp only
          cases unfinished : child.standing.isFinished with
          | true =>
              refine (ih kind low fit status).mono ?_
              rintro answer state ⟨goes, kind, low, pass⟩
              refine ⟨goes, kind, low, .skips (fun other found => ?_) pass⟩
              cases here.symm.trans found
              exact unfinished
          | false =>
              -- The course says what the visit does to the child; the induction covers the rest of
              -- the pass.
              obtain ⟨goes, led, height⟩ :=
                sound child host (low child (List.mem_of_getElem? here)) fit
              obtain ⟨⟨ending, next, there⟩, visited⟩ : ∃ out, visit child host = out := ⟨_, rfl⟩
              rw [visited] at goes led height
              have low' := low.put index height
              have kind' : (branch.put index next).group.isSerial = serial := kind
              have found : (branch.put index next).children[index]? = some next :=
                getElem?_put_self here next
              rw [if_neg Bool.false_ne_true, leads_bind]
              refine leads_visitChild visited ?passes ?fails ?halts
              case passes =>
                rintro rfl
                dsimp only
                rw [leads_bind, leads_node]
                dsimp only
                rw [found, leads_bind, leads_of_run (clears _ there _ kind')]
                have kind'' : ((branch.put index next).cleared next).group.isSerial = serial :=
                  (Group.isSerial_setFailed _ _).trans kind'
                refine (ih kind'' low' (manner.kept fit goes) _).mono ?_
                rintro answer state ⟨onward, kind, low, pass⟩
                exact ⟨manner.trans goes onward, kind, low, .passes here unfinished led pass⟩
              case fails =>
                rintro failure rfl
                dsimp only
                rw [leads_bind, leads_node]
                dsimp only
                rw [found, leads_bind]
                refine (answers _ there index next failure kind').mono ?_
                rintro answer ⟨answered, after⟩ ⟨onward, same, answers⟩
                dsimp only at onward same answers ⊢
                have goes' := manner.trans goes (manner.stays onward)
                -- The answer may put other children in place, but none of them is higher.
                have low'' := answers.low low' height
                have kind'' := answers.isSerial.trans kind'
                cases answer with
                | error halt =>
                    refine ⟨goes', kind'', low'', ?_⟩
                    rw [same]
                    exact .breaks here unfinished led answers
                | ok again =>
                    have onwards := (ih kind'' low'' (manner.kept fit goes')
                      (if again then .mustCheck else status)).mono fun _ _ ⟨onward, kind, low, pass⟩ =>
                        And.intro (manner.trans goes' onward) <| And.intro kind <| And.intro low <|
                          Pass.fails here unfinished led answers (same ▸ pass)
                    cases again <;> exact onwards
              case halts =>
                rintro halt rfl hard
                exact ⟨goes, kind', low', .halts here unfinished led hard⟩

theorem leads_reportResult (post : Except Halt Unit → Branch × Host → Prop)
    (led : ∀ after, Host.Stays host after → after.world = host.world → post (.ok ()) (branch, after)) :
    (reportResult sweep : Step Unit).Leads (branch, host) post :=
  led _ (Host.stays_after host rfl) rfl

theorem leads_advance {status : Checking} (serial : branch.group.isSerial)
    (settled : isPending status branch = false) :
    (advance sweep : Step Unit).Leads (branch, host) fun answer state =>
      Host.Stays host state.2 ∧ state.2.world = host.world ∧
        Closes sweep.now branch status answer state.1 := by
  have span : branch.span = branch.reach := by rw [Branch.span, if_pos serial]
  unfold advance
  rw [leads_bind, leads_node]
  dsimp only
  rw [leads_bind, leads_setStanding, ← span]
  dsimp only
  split
  · next failure =>
      rw [leads_bind]
      refine leads_reportResult _ fun after stays same => ⟨stays, same, ?_⟩
      exact .fails settled failure rfl
  · next fine =>
      rw [Bool.not_eq_true] at fine
      rw [leads_bind, leads_setGroup]
      dsimp only
      split
      · next more =>
          refine ⟨.refl host, rfl, ?_⟩
          -- Moving the cursor leaves the standing alone, so the order of the two changes is free.
          have moves := @Closes.moves sweep.now branch status settled fine serial more
          simp only [waiting, moved, Group.standing_setCursor] at moves
          simp only [Group.setCursor_standing]
          exact moves
      · next last =>
          refine leads_reportResult _ fun after stays same => ⟨stays, same, ?_⟩
          exact .ends settled fine fun _ => Nat.le_of_not_lt last

theorem moved_parallel (parallel : branch.group.isSerial = false) : branch.moved = branch := by
  obtain ⟨group, children⟩ := branch
  unfold moved Group.setCursor
  cases discipline : group.discipline with
  | serial => simp [Branch.group, Group.isSerial, discipline] at parallel
  | parallel => rfl

theorem leads_settle {status : Checking} (parallel : branch.group.isSerial = false)
    (settled : isPending status branch = false) :
    (settle sweep : Step Unit).Leads (branch, host) fun answer state =>
      Host.Stays host state.2 ∧ state.2.world = host.world ∧
        Closes sweep.now branch status answer state.1 := by
  have span : branch.span = branch.children.length := span_parallel parallel
  unfold settle
  rw [leads_bind, leads_node]
  dsimp only
  rw [leads_bind, leads_setStanding, ← span]
  dsimp only
  rw [leads_bind]
  refine leads_reportResult _ fun after stays same => ?_
  dsimp only
  split
  · next failure => exact ⟨stays, same, .fails settled failure rfl⟩
  · next fine =>
      rw [Bool.not_eq_true] at fine
      have ends := @Closes.ends sweep.now branch status settled fine fun serial => by simp [parallel] at serial
      refine ⟨stays, same, ?_⟩
      rw [show branch.summed.moved = branch.summed from moved_parallel parallel] at ends
      exact ends

theorem leads_checkTimeout {status : Checking} (pending : isPending status branch) :
    (checkTimeout sweep : Step Unit).Leads (branch, host) fun answer state =>
      Host.Stays host state.2 ∧ state.2.world = host.world ∧
        Closes sweep.now branch status answer state.1 := by
  unfold checkTimeout
  rw [leads_bind, leads_node]
  dsimp only
  split
  · next overdue => exact ⟨.refl host, rfl, .overdue pending overdue⟩
  · next inTime => exact ⟨.refl host, rfl, .pending pending (by simpa using inTime)⟩

/-- How a sweep ends that its pass has not ended. -/
def close (sweep : Sweep) (settling : Step Unit) (status : Checking) (passed : Branch) : Step Unit :=
  if isPending status (passed.closed status) then checkTimeout sweep else settling

/-- The action takes over what the children come to. -/
def Settles (sweep : Sweep) (settling : Step Unit) (status : Checking) (passed : Branch)
    (host : Host) : Prop :=
  isPending status (passed.closed status) = false →
    settling.Leads (passed.closed status, host) fun answer state =>
      Host.Stays host state.2 ∧ state.2.world = host.world ∧
        Closes sweep.now (passed.closed status) status answer state.1

theorem leads_close {status : Checking} {passed : Branch} {settling : Step Unit}
    (settles : Settles sweep settling status passed host) :
    (close sweep settling status passed).Leads (passed.closed status, host) fun answer state =>
      Host.Stays host state.2 ∧ state.2.world = host.world ∧
        Closes sweep.now (passed.closed status) status answer state.1 := by
  unfold close
  cases pending : isPending status (passed.closed status) with
  | true => exact leads_checkTimeout pending
  | false => exact settles pending

section

variable {manner : Host.Manner} {course : Course Tree} {levels : Nat} {visit : Bool → Visit Tree}
  {post : Except Halt Unit → Branch × Host → Prop}
  (sound : ∀ report, SoundFor manner course levels (visit report)) (low : Low levels branch)
  (fit : manner.fit host)
  (halts : ∀ halt passed after, manner.goes host after → Low levels passed →
    Pass course (List.range (branch.begun sweep.now).span) (branch.begun sweep.now) host.world
      .finished (.error halt) passed after.world → post (.error halt) (passed, after))
  (closes : ∀ settling status passed after, manner.goes host after → Low levels passed →
    Pass course (List.range (branch.begun sweep.now).span) (branch.begun sweep.now) host.world
      .finished (.ok status) passed after.world → Settles sweep settling status passed after →
    (close sweep settling status passed).Leads (passed.closed status, after) post)
include sound low fit halts closes

/-- A sweep over a serial group is a pass and what comes after it. -/
theorem leads_checkSerialWith (serial : branch.group.isSerial) :
    (checkSerial sweep visit : Step Unit).Leads (branch, host) post := by
  unfold checkSerial
  rw [leads_bind]
  refine leads_beginSweep.mono ?_
  rintro answer ⟨begun, there⟩ ⟨stays, same, rfl, report, rfl⟩
  have fit' := manner.kept fit (manner.stays stays)
  have begun : (branch.begun sweep.now).group.isSerial := (Group.isSerial_begun _ _).trans serial
  have span : (branch.begun sweep.now).span = (branch.begun sweep.now).reach := if_pos begun
  dsimp only at stays same ⊢
  rw [leads_bind, leads_node]
  dsimp only
  rw [← span, leads_bind, serialPass_eq]
  refine (leads_passWith (sound report) (fun _ _ _ serial => ?_)
    (fun _ _ _ _ _ serial => leads_answerFailure serial _ _ _) _ begun low fit' _).mono ?_
  · rw [cleared_serial serial]
    rfl
  · rintro answer ⟨passed, after⟩ ⟨onward, serial, low, pass⟩
    rw [same] at pass
    cases answer with
    | error halt => exact halts halt passed after (manner.trans (manner.stays stays) onward) low pass
    | ok status =>
        -- The exhaustion of a group with an aborted child is not part of closing a serial pass.
        have closed : passed.closed status =
            ({ passed.1 with standing := { passed.1.standing with checking := status } },
              passed.2) := by
          have serial : passed.group.isSerial = true := serial
          simp only [Branch.closed, serial, Bool.true_eq_false, false_and, ↓reduceIte]
          rfl
        have settles := closes (advance sweep) status passed after
          (manner.trans (manner.stays stays) onward) low pass
          fun settled => leads_advance ((congrArg (·.1.isSerial) closed).trans serial) settled
        unfold close at settles
        rw [closed] at settles
        exact settles

/-- A sweep over a parallel group is a pass and what comes after it. -/
theorem leads_checkParallelWith (parallel : branch.group.isSerial = false) :
    (checkParallel sweep visit : Step Unit).Leads (branch, host) post := by
  unfold checkParallel
  rw [leads_bind]
  refine leads_beginSweep.mono ?_
  rintro answer ⟨begun, there⟩ ⟨stays, same, rfl, report, rfl⟩
  have fit' := manner.kept fit (manner.stays stays)
  have begun : (branch.begun sweep.now).group.isSerial = false :=
    (Group.isSerial_begun _ _).trans parallel
  have span : (branch.begun sweep.now).span = (branch.begun sweep.now).children.length :=
    span_parallel begun
  dsimp only at stays same ⊢
  rw [leads_bind, leads_node]
  dsimp only
  rw [← span, leads_bind, parallelPass_eq]
  refine (leads_passWith (sound report) (fun _ _ _ _ => rfl)
    (fun _ _ _ _ _ parallel => leads_answerInPlace parallel _ _ _) _ begun low fit' _).mono ?_
  rintro answer ⟨passed, after⟩ ⟨onward, parallel, low, pass⟩
  rw [same] at pass
  cases answer with
  | error halt => exact halts halt passed after (manner.trans (manner.stays stays) onward) low pass
  | ok status =>
      -- A parallel group is exhausted here if one of its children was aborted.
      have closed : passed.closed status = ({ passed.1 with standing :=
          { if passed.1.aborted then passed.1.standing.exhaust else passed.1.standing with
            checking := status } }, passed.2) := by
        have parallel : passed.group.isSerial = false := parallel
        simp only [Branch.closed, parallel, true_and]
        rfl
      have settles := closes (settle sweep) status passed after
        (manner.trans (manner.stays stays) onward) low pass
        fun settled => leads_settle ((congrArg (·.1.isSerial) closed).trans parallel) settled
      unfold close at settles
      rw [closed] at settles
      exact settles

/-- A sweep over a group of either discipline is a pass and what comes after it. -/
theorem leads_checkWith :
    (if branch.1.isSerial then checkSerial sweep visit
      else checkParallel sweep visit : Step Unit).Leads (branch, host) post := by
  cases serial : branch.1.isSerial with
  | true => exact leads_checkSerialWith sound low fit halts closes serial
  | false => exact leads_checkParallelWith sound low fit halts closes serial

end

section

variable {manner : Host.Manner} {course : Course Tree} {levels : Nat} {visit : Bool → Visit Tree}

/-- A group after its pass. -/
theorem leads_closed {status : Checking} {world : World} {start passed : Branch} {first : Host}
    (settling : Step Unit) (goes : manner.goes first host) (low : Low levels passed)
    (pass : Pass course (List.range (start.begun sweep.now).span) (start.begun sweep.now) world
      .finished (.ok status) passed host.world)
    (settles : Settles sweep settling status passed host) :
    (close sweep settling status passed).Leads (passed.closed status, host) fun answer state =>
      manner.goes first state.2 ∧ Low levels state.1 ∧
        Sweeps sweep.now course start world answer state.1 state.2.world := by
  refine (leads_close settles).mono fun answer state led => ?_
  obtain ⟨onward, same, closes⟩ := led
  refine ⟨manner.trans goes (manner.stays onward), fun child member => ?_, ?_⟩
  · exact low child (closes.children ▸ member)
  rw [same]
  exact .closes pass closes

/-- A sweep over a group leads where visits to its children and what comes after them may lead. -/
theorem leads_checkFor (sound : ∀ report, SoundFor manner course levels (visit report))
    (low : Low levels branch) (fit : manner.fit host) :
    (if branch.1.isSerial then checkSerial sweep visit
      else checkParallel sweep visit : Step Unit).Leads (branch, host) fun answer state =>
      manner.goes host state.2 ∧ Low levels state.1 ∧
        Sweeps sweep.now course branch host.world answer state.1 state.2.world :=
  leads_checkWith sound low fit (fun _ _ _ goes low pass => ⟨goes, low, .halts pass⟩)
    fun settling _ _ _ goes low pass settles => leads_closed settling goes low pass settles

end

end BuildFlow.Branch
