/-!
The words a flow speaks in: what became of a build, how a node reports to its
parent, what is left to observe, what a runner says of a job, and how far a
kill reaches. Every scale is ordered by rank, and a group takes the least of
its children.
-/
namespace BuildFlow

/-! ## Build results -/

/-- What became of a build. The order is that of aggregation: a failure wins
over everything, no result yet loses to everything. -/
inductive BuildResult where
  | failure
  | aborted
  | unstable
  | success
  | superseded
  | dequeued
  | unknown
  deriving DecidableEq, Repr, Inhabited

namespace BuildResult

def rank : BuildResult → Nat
  | failure => 0
  | aborted => 1
  | unstable => 2
  | success => 3
  | superseded => 4
  | dequeued => 5
  | unknown => 6

instance : LE BuildResult := ⟨fun a b => a.rank ≤ b.rank⟩
instance : LT BuildResult := ⟨fun a b => a.rank < b.rank⟩
instance : DecidableLE BuildResult := fun a b => inferInstanceAs (Decidable (a.rank ≤ b.rank))
instance : DecidableLT BuildResult := fun a b => inferInstanceAs (Decidable (a.rank < b.rank))
instance : Min BuildResult := ⟨fun a b => if a ≤ b then a else b⟩
instance : Ord BuildResult := ⟨fun a b => compare a.rank b.rank⟩

def all : List BuildResult :=
  [failure, aborted, unstable, success, superseded, dequeued, unknown]

def name : BuildResult → String
  | failure => "FAILURE"
  | aborted => "ABORTED"
  | unstable => "UNSTABLE"
  | success => "SUCCESS"
  | superseded => "SUPERSEDED"
  | dequeued => "DEQUEUED"
  | unknown => "UNKNOWN"

/-- The name in mixed case, as inspections show it. -/
def label : BuildResult → String
  | failure => "Failure"
  | aborted => "Aborted"
  | unstable => "Unstable"
  | success => "Success"
  | superseded => "Superseded"
  | dequeued => "Dequeued"
  | unknown => "Unknown"

/-- The results that make a flow fail. -/
def isFailure : BuildResult → Bool
  | failure | aborted => true
  | _ => false

/-- The least of the results, `unknown` if there are none. -/
def worst (results : List BuildResult) : BuildResult :=
  results.foldl min unknown

end BuildResult

/-! ## Propagation -/

/-- How a node's own result is reported to its parent. -/
inductive Propagation where
  | normal
  | failureToUnstable
  | unchecked
  deriving DecidableEq, Repr, Inhabited

namespace Propagation

def rank : Propagation → Nat
  | normal => 0
  | failureToUnstable => 1
  | unchecked => 2

instance : Ord Propagation := ⟨fun a b => compare a.rank b.rank⟩

def all : List Propagation := [normal, failureToUnstable, unchecked]

def name : Propagation → String
  | normal => "NORMAL"
  | failureToUnstable => "FAILURE_TO_UNSTABLE"
  | unchecked => "UNCHECKED"

def label : Propagation → String
  | normal => "Normal"
  | failureToUnstable => "FailureToUnstable"
  | unchecked => "Unchecked"

end Propagation

/-! ## Checking -/

/-- What is left to observe below a node: checked work, unchecked work only,
or nothing. -/
inductive Checking where
  | mustCheck
  | hasUnchecked
  | finished
  deriving DecidableEq, Repr, Inhabited

namespace Checking

def rank : Checking → Nat
  | mustCheck => 0
  | hasUnchecked => 1
  | finished => 2

instance : LE Checking := ⟨fun a b => a.rank ≤ b.rank⟩
instance : LT Checking := ⟨fun a b => a.rank < b.rank⟩
instance : DecidableLE Checking := fun a b => inferInstanceAs (Decidable (a.rank ≤ b.rank))
instance : DecidableLT Checking := fun a b => inferInstanceAs (Decidable (a.rank < b.rank))
instance : Min Checking := ⟨fun a b => if a ≤ b then a else b⟩
instance : Max Checking := ⟨fun a b => if a ≤ b then b else a⟩
instance : Ord Checking := ⟨fun a b => compare a.rank b.rank⟩

def all : List Checking := [mustCheck, hasUnchecked, finished]

def name : Checking → String
  | mustCheck => "MUST_CHECK"
  | hasUnchecked => "HAS_UNCHECKED"
  | finished => "FINISHED"

def label : Checking → String
  | mustCheck => "MustCheck"
  | hasUnchecked => "HasUnchecked"
  | finished => "Finished"

end Checking

/-! ## Progress -/

/-- What a runner says of a job or of a build. -/
inductive Progress where
  | running
  | queued
  | idle
  deriving DecidableEq, Repr, Inhabited

namespace Progress

def all : List Progress := [running, queued, idle]

def name : Progress → String
  | running => "RUNNING"
  | queued => "QUEUED"
  | idle => "IDLE"

/-- Nothing is running or queued. -/
def isIdle : Progress → Bool
  | idle => true
  | _ => false

end Progress

/-! ## Reach of a kill -/

/-- How far a requested kill reaches: nowhere, the builds that this run
started, or every build of every job of the flow. -/
inductive KillKind where
  | none
  | current
  | all
  deriving DecidableEq, Repr, Inhabited

namespace KillKind

def rank : KillKind → Nat
  | none => 0
  | current => 1
  | all => 2

instance : LE KillKind := ⟨fun a b => a.rank ≤ b.rank⟩
instance : LT KillKind := ⟨fun a b => a.rank < b.rank⟩
instance : DecidableLE KillKind := fun a b => inferInstanceAs (Decidable (a.rank ≤ b.rank))
instance : DecidableLT KillKind := fun a b => inferInstanceAs (Decidable (a.rank < b.rank))
instance : Max KillKind := ⟨fun a b => if a ≤ b then b else a⟩
instance : Ord KillKind := ⟨fun a b => compare a.rank b.rank⟩

def kinds : List KillKind := [none, current, all]

def name : KillKind → String
  | none => "NONE"
  | current => "CURRENT"
  | all => "ALL"

def label : KillKind → String
  | none => "None"
  | current => "Current"
  | all => "All"

def isRequested : KillKind → Bool
  | none => false
  | _ => true

end KillKind

end BuildFlow
