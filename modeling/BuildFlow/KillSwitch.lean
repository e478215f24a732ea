import BuildFlow.Failure
import BuildFlow.Text.Inspect
/-!
The kill request of a run. Requests only escalate and the first reason is kept.
A sweep brackets itself with a window, and a checkpoint fails only while one is
open: outside of it a request is recorded and acted on later.
-/
namespace BuildFlow

structure KillSwitch where
  kind : KillKind
  reason : Option String
  interruptible : Bool
  deriving DecidableEq, Repr

namespace KillSwitch

def off : KillSwitch := ⟨.none, none, false⟩

instance : Inhabited KillSwitch := ⟨off⟩

def isRequested (switch : KillSwitch) : Bool := switch.kind.isRequested

/-- Whether a request would raise the kind. -/
def raises (switch : KillSwitch) (kind : KillKind) : Bool := switch.kind < kind

def request (switch : KillSwitch) (kind : KillKind) (reason : String) : KillSwitch :=
  if switch.raises kind then
    { switch with kind, reason := switch.reason.or (some reason) }
  else switch

def openWindow (switch : KillSwitch) : KillSwitch := { switch with interruptible := true }
def closeWindow (switch : KillSwitch) : KillSwitch := { switch with interruptible := false }

/-- The reason why a sweep has to stop here, if it has to. -/
def checkpoint (switch : KillSwitch) : Option String :=
  if switch.isRequested && switch.interruptible then
    some (switch.reason.getD switch.kind.name)
  else none

open Text.Inspect in
def inspect (switch : KillSwitch) : Text.Inspect :=
  .record "KillSwitch" [
    ("kill_type", word switch.kind.label),
    ("reason", optionText switch.reason),
    ("interruptible", bool switch.interruptible)] true

end KillSwitch

/-! ## Windows held -/

/-- A switch with the number of windows that are held open on it. -/
structure KillDesk where
  switch : KillSwitch
  held : Nat
  deriving DecidableEq, Repr

namespace KillDesk

def start : KillDesk := ⟨.off, 0⟩

def request (desk : KillDesk) (kind : KillKind) (reason : String) : KillDesk :=
  { desk with switch := desk.switch.request kind reason }

def openWindow (desk : KillDesk) : KillDesk :=
  ⟨desk.switch.openWindow, desk.held + 1⟩

/-- Lets go of one window. Letting go of any window closes the switch. -/
def closeWindow (desk : KillDesk) : KillDesk :=
  if desk.held = 0 then desk else ⟨desk.switch.closeWindow, desk.held - 1⟩

end KillDesk

end BuildFlow
