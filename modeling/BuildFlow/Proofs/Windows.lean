import BuildFlow.Proofs.Kill.Heed
/-!
All that can be done with a kill switch on which any number of windows are held open. What is
requested is kept as documented. There is a single flag for all windows, though: it tells whether the
latest thing done with a window was to open one, so letting go of one of two windows closes both.
-/
namespace BuildFlow

namespace KillDesk

/-- What was done with a switch. Windows are numbered from 0 in the order in which they are opened,
and each is let go of by its number. -/
inductive History where
  | start
  | request (earlier : History) (kind : KillKind) (reason : String)
  | openWindow (earlier : History)
  | closeWindow (earlier : History) (window : Nat)
  deriving DecidableEq, Repr

namespace History

def desk : History → KillDesk
  | start => .start
  | request earlier kind reason => earlier.desk.request kind reason
  | openWindow earlier => earlier.desk.openWindow
  | closeWindow earlier _ => earlier.desk.closeWindow

/-- How many windows were opened, which is the number of the next one. -/
def opened : History → Nat
  | start => 0
  | request earlier _ _ | closeWindow earlier _ => earlier.opened
  | openWindow earlier => earlier.opened + 1

/-- The windows that are open still. -/
def held : History → List Nat
  | start => []
  | request earlier _ _ => earlier.held
  | openWindow earlier => earlier.opened :: earlier.held
  | closeWindow earlier window => earlier.held.erase window

/-- Only windows that are held are let go of. -/
def Lawful : History → Prop
  | start => True
  | request earlier _ _ | openWindow earlier => earlier.Lawful
  | closeWindow earlier window => window ∈ earlier.held ∧ earlier.Lawful

instance decidableLawful : DecidablePred Lawful
  | start => inferInstanceAs (Decidable True)
  | request earlier _ _ | openWindow earlier => decidableLawful earlier
  | closeWindow earlier window =>
      have := decidableLawful earlier
      inferInstanceAs (Decidable (window ∈ earlier.held ∧ earlier.Lawful))

/-- No window is opened while another one is held. -/
def Apart : History → Prop
  | start => True
  | request earlier _ _ | closeWindow earlier _ => earlier.Apart
  | openWindow earlier => earlier.held = [] ∧ earlier.Apart

/-- Whether the latest thing done with a window was to open one. -/
def lastOpened : History → Bool
  | start | closeWindow .. => false
  | request earlier _ _ => earlier.lastOpened
  | openWindow _ => true

/-- The requests in the order in which they were made. -/
def requests : History → List (KillKind × String)
  | start => []
  | request earlier kind reason => earlier.requests ++ [(kind, reason)]
  | openWindow earlier | closeWindow earlier _ => earlier.requests

/-- The highest kind that was requested. -/
def highest (history : History) : KillKind := (history.requests.map Prod.fst).foldl max .none

/-- The reason of the first request that asks for a kill. -/
def firstReason (history : History) : Option String :=
  (history.requests.find? fun request => request.1.isRequested).map Prod.snd

variable {history : History} {reason : String}

/-! ## Requests -/

theorem highest_request (earlier : History) (kind : KillKind) (reason : String) :
    (earlier.request kind reason).highest = max earlier.highest kind := by
  simp [highest, requests]

theorem firstReason_request (earlier : History) (kind : KillKind) (reason : String) :
    (earlier.request kind reason).firstReason =
      earlier.firstReason.or (if kind.isRequested then some reason else none) := by
  unfold firstReason
  rw [requests, List.find?_append]
  cases earlier.requests.find? fun request => request.1.isRequested with
  | some request => rfl
  | none => cases requested : kind.isRequested <;> simp [requested]

/-- A kill was requested if a request has raised the kind. -/
theorem isSome_firstReason (history : History) :
    history.firstReason.isSome = history.highest.isRequested := by
  have isRequested_max (first second : KillKind) :
      (max first second).isRequested = (first.isRequested || second.isRequested) := by
    cases first <;> cases second <;> rfl
  induction history with
  | start => rfl
  | request earlier kind reason ih =>
      rw [firstReason_request, highest_request, isRequested_max, ← ih, Option.isSome_or]
      cases kind.isRequested <;> rfl
  | openWindow earlier ih => exact ih
  | closeWindow earlier window ih => exact ih

theorem kind_request (switch : KillSwitch) (kind : KillKind) (reason : String) :
    (switch.request kind reason).kind = max switch.kind kind := by
  rcases switch with ⟨held, first, interruptible⟩
  cases held <;> cases kind <;> rfl

/-- A reason is told exactly if a kill was requested, so the first request for one tells it. -/
theorem reason_request {switch : KillSwitch} (told : switch.reason.isSome = switch.isRequested)
    (kind : KillKind) (reason : String) :
    (switch.request kind reason).reason =
      switch.reason.or (if kind.isRequested then some reason else none) := by
  rcases switch with ⟨held, first, interruptible⟩
  cases held <;> cases first <;> cases kind <;> first | rfl | cases told

theorem switch_closeWindow (desk : KillDesk) :
    desk.closeWindow.switch.kind = desk.switch.kind ∧
      desk.closeWindow.switch.reason = desk.switch.reason := by
  unfold KillDesk.closeWindow
  split <;> exact ⟨rfl, rfl⟩

theorem desk_kind (history : History) : history.desk.switch.kind = history.highest := by
  induction history with
  | start => rfl
  | request earlier kind reason ih =>
      rw [highest_request, ← ih]
      exact kind_request _ kind reason
  | openWindow earlier ih => exact ih
  | closeWindow earlier window ih => exact (switch_closeWindow _).1.trans ih

theorem desk_reason (history : History) : history.desk.switch.reason = history.firstReason := by
  induction history with
  | start => rfl
  | request earlier kind reason ih =>
      have told : earlier.desk.switch.reason.isSome = earlier.desk.switch.isRequested := by
        rw [ih, isSome_firstReason, ← desk_kind, KillSwitch.isRequested]
      rw [firstReason_request, ← ih]
      exact reason_request told kind reason
  | openWindow earlier ih => exact ih
  | closeWindow earlier window ih => exact (switch_closeWindow _).2.trans ih

/-! ## Windows -/

/-- The desk counts the windows that are held. The flag tells what was done last, not whether there
are any. -/
theorem desk_windows (lawful : history.Lawful) :
    history.desk.held = history.held.length ∧
      history.desk.switch.interruptible = history.lastOpened := by
  induction history with
  | start => exact ⟨rfl, rfl⟩
  | request earlier kind reason ih =>
      obtain ⟨count, flag⟩ := ih lawful
      exact ⟨count, (Host.interruptible_request _ _ _).trans flag⟩
  | openWindow earlier ih => exact ⟨congrArg (· + 1) (ih lawful).1, rfl⟩
  | closeWindow earlier window ih =>
      obtain ⟨member, lawful⟩ := lawful
      have count := (ih lawful).1
      have busy : earlier.desk.held ≠ 0 := by
        rw [count]
        exact Nat.ne_of_gt (List.length_pos_of_mem member)
      rw [desk, KillDesk.closeWindow, if_neg busy, held, List.length_erase_of_mem member, count]
      exact ⟨rfl, rfl⟩

theorem held_of_lastOpened (latest : history.lastOpened) : history.held ≠ [] := by
  induction history with
  | start => cases latest
  | request earlier kind reason ih => exact ih latest
  | openWindow earlier ih => exact List.cons_ne_nil _ _
  | closeWindow earlier window ih => cases latest

/-- As long as windows do not overlap, letting go of one leaves none. -/
theorem lastOpened_of_apart (lawful : history.Lawful) (apart : history.Apart) :
    history.held.length ≤ 1 ∧ (history.held ≠ [] → history.lastOpened) := by
  induction history with
  | start => exact ⟨Nat.zero_le 1, fun some => absurd rfl some⟩
  | request earlier kind reason ih => exact ih lawful apart
  | openWindow earlier ih =>
      rw [held, apart.1]
      exact ⟨Nat.le_refl 1, fun _ => rfl⟩
  | closeWindow earlier window ih =>
      obtain ⟨member, lawful⟩ := lawful
      have none : earlier.held.erase window = [] := by
        apply List.eq_nil_of_length_eq_zero
        rw [List.length_erase_of_mem member]
        exact Nat.sub_eq_zero_of_le (ih lawful apart).1
      rw [held, none]
      exact ⟨Nat.zero_le 1, fun some => absurd rfl some⟩

/-! ## Checkpoints -/

theorem checkpoint_eq_some (lawful : history.Lawful) :
    history.desk.switch.checkpoint = some reason ↔
      history.lastOpened ∧ history.firstReason = some reason := by
  rw [KillSwitch.checkpoint, KillSwitch.isRequested, (desk_windows lawful).2, desk_kind,
    ← isSome_firstReason, desk_reason]
  cases history.firstReason with
  | none => simp
  | some first => cases history.lastOpened <;> simp

end History

/-- However a switch is used, with any number of windows that are let go of in any order: its kind is
the highest that was requested, and a request tells whether it raised that. A checkpoint fails if a
kill was requested and the latest thing done with a window was to open one, which is held then, and it
fails with the reason of the first request for a kill. If windows do not overlap, it fails whenever a
kill was requested and a window is held. -/
theorem checkpoint_lawful (history : History) (lawful : history.Lawful) :
    history.desk.held = history.held.length ∧ history.desk.switch.kind = history.highest ∧
      (∀ kind reason, history.desk.switch.raises kind ↔
        history.highest < (history.request kind reason).highest) ∧
      (∀ reason, history.desk.switch.checkpoint = some reason ↔
        history.lastOpened ∧ history.firstReason = some reason) ∧
      (history.lastOpened → history.held ≠ []) ∧
      (history.Apart → ∀ reason, history.desk.switch.checkpoint = some reason ↔
        history.held ≠ [] ∧ history.firstReason = some reason) := by
  refine ⟨(History.desk_windows lawful).1, history.desk_kind, fun kind reason => ?_,
    fun reason => History.checkpoint_eq_some lawful, History.held_of_lastOpened,
    fun apart reason => ?_⟩
  · rw [History.highest_request, ← History.desk_kind, KillSwitch.raises]
    cases history.desk.switch.kind <;> cases kind <;> decide
  · rw [History.checkpoint_eq_some lawful]
    exact and_congr_left fun _ =>
      ⟨History.held_of_lastOpened, (History.lastOpened_of_apart lawful apart).2⟩

/-- A kill is requested between two windows and raised in the second one. -/
def raised : History :=
  .request (.openWindow (.request (.closeWindow (.openWindow .start) 0) .current "SIGTERM"))
    .all "operator"

theorem checkpoint_lawful_raised :
    raised.Lawful ∧ raised.Apart ∧ raised.held = [1] ∧ raised.desk.switch.kind = .all ∧
      raised.desk.switch.checkpoint = some "SIGTERM" := by
  have lawful : raised.Lawful := by decide
  have apart : raised.Apart := ⟨rfl, rfl, trivial⟩
  obtain ⟨-, kind, -, -, -, fails⟩ := checkpoint_lawful raised lawful
  refine ⟨lawful, apart, by decide, kind.trans (by decide), (fails apart _).mpr ⟨?_, ?_⟩⟩
  · exact List.cons_ne_nil _ _
  · decide

/-- A kill is requested, two windows are opened, and one of them is let go of. -/
def overlapping : History :=
  .closeWindow (.openWindow (.openWindow (.request .start .current "SIGTERM"))) 1

/-- The other window is held, but a checkpoint passes. -/
theorem checkpoint_passes_held :
    overlapping.Lawful ∧ overlapping.held = [0] ∧ overlapping.firstReason = some "SIGTERM" ∧
      overlapping.desk.switch.checkpoint = none := by
  decide

end KillDesk

end BuildFlow
