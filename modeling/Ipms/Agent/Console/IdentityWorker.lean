import Ipms.Lib.Run

/-
  Ipms.Agent.Console.IdentityWorker

  The worker that validates the identity of a virtual machine behind a console.
  Owners submit and retire validations and ask whether one is fresh; one thread
  runs the current validation again and again and publishes what it returned.
  Every critical section, every load of a flag and `fresh` is one step.  The
  generation is a counter of 64 bits, which no run of the worker exhausts.
-/

namespace Ipms.Agent.Console

open Ipms.Lib

/-! ## The state the threads share -/

/-- `native_identity_worker::state`.  A validation is known by its name alone. -/
structure Shared (Op : Type) where
  stopped : Bool := false
  generation : Nat := 0
  successGeneration : Nat := 0
  failedGeneration : Nat := 0
  lastSuccess : Nat := 0
  operation : Option Op := none
  deriving DecidableEq

variable {Op : Type}

/-- `ticks`: the milliseconds of a point in time in nanoseconds. -/
def ticks (value : Nat) : Nat := value / 1000000

/-- `cancelled`, of a generation. -/
def Shared.cancelled (s : Shared Op) (generation : Nat) : Bool :=
  s.stopped || s.generation != generation

/-- `submit`: the ticket, or zero once the worker is stopped. -/
def Shared.submit (s : Shared Op) (operation : Option Op) : Shared Op × Nat :=
  if s.stopped then (s, 0)
  else ({ s with operation, generation := s.generation + 1 }, s.generation + 1)

def Shared.retire (s : Shared Op) (ticket : Nat) : Shared Op :=
  if s.generation ≠ ticket then s
  else { s with operation := none, generation := s.generation + 1 }

def Shared.fresh (s : Shared Op) (ticket now : Nat) : Bool :=
  if ticket == 0 || s.stopped || s.generation != ticket || s.failedGeneration == ticket ||
      s.successGeneration != ticket then false
  else decide ((ticks now : Int) - s.lastSuccess < 10000)

def Shared.failed (s : Shared Op) (ticket : Nat) : Bool :=
  ticket == 0 || s.stopped || s.generation != ticket || s.failedGeneration == ticket

/-- The critical section that publishes a result. -/
def Shared.publish (s : Shared Op) (generation observedAt : Nat) (succeeded : Bool) : Shared Op :=
  if s.cancelled generation then s
  else if succeeded then
    { s with lastSuccess := ticks observedAt, successGeneration := generation, failedGeneration := 0 }
  else { s with failedGeneration := generation }

/-! ## The worker -/

/-- A run of a validation that has returned or thrown. -/
structure Validation (Op : Type) where
  ticket : Nat
  operation : Op
  began : Nat
  succeeded : Bool
  deriving DecidableEq

/-- Where the worker's thread is, with its local variables. -/
inductive Phase (Op : Type) where
  | idle
  | taken (generation : Nat) (operation : Op)
  | observed (generation : Nat) (operation : Op) (observedAt : Nat)
  | running (generation : Nat) (operation : Op) (observedAt began : Nat)
  /-- the validation that was run, when it was not cancelled before -/
  | returned (generation observedAt : Nat) (validation : Option (Validation Op))
  | exited
  deriving DecidableEq

/-- The generation the worker is at work for. -/
def Phase.generation? : Phase Op → Option Nat
  | .taken generation _ | .observed generation _ _ | .running generation _ _ _
  | .returned generation _ _ => some generation
  | .idle | .exited => none

/-- What has happened to the validations, as an observer writes it down. -/
inductive Entry (Op : Type) where
  | submitted (ticket : Nat) (operation : Option Op)
  | retired (ticket : Nat)
  | completed (validation : Validation Op)
  | published (validation : Validation Op)
  deriving DecidableEq

/-- The worker, its clock and what was written down, the latest first. -/
structure World (Op : Type) where
  shared : Shared Op := {}
  phase : Phase Op := .idle
  now : Nat := 0
  log : List (Entry Op) := []
  deriving DecidableEq

/-- What happens: a call, a step of the worker's thread, or time that passes. -/
inductive Happening (Op : Type) where
  | submit (operation : Option Op)
  | retire (ticket : Nat)
  | stop
  | wake
  | observe
  | begin
  | finish (succeeded : Bool)
  | publish
  | advance (later : Nat)

/-- The worker wakes, for a new generation or after five seconds, and takes the operation. -/
def World.wake (w : World Op) : World Op :=
  if w.shared.stopped then { w with phase := .exited }
  else
    match w.shared.operation with
    | none => w
    | some operation => { w with phase := .taken w.shared.generation operation }

/-- The operation is run unless it was cancelled. -/
def World.begin (w : World Op) (generation : Nat) (operation : Op) (observedAt : Nat) : World Op :=
  if w.shared.cancelled generation then { w with phase := .returned generation observedAt none }
  else { w with phase := .running generation operation observedAt w.now }

/-- The operation returns, or throws, which is no success. -/
def World.finish (w : World Op) (generation observedAt : Nat) (validation : Validation Op) : World Op :=
  { w with
    phase := .returned generation observedAt (some validation)
    log := .completed validation :: w.log }

/-- The result is published unless it was cancelled. -/
def World.publish (w : World Op) (generation observedAt : Nat) (validation : Option (Validation Op)) :
    World Op :=
  { w with
    shared := w.shared.publish generation observedAt (validation.any (·.succeeded))
    phase := .idle
    log :=
      match validation with
      | some v => if w.shared.cancelled generation then w.log else .published v :: w.log
      | none => w.log }

/-- A call of `submit`. -/
def World.submit (w : World Op) (operation : Option Op) : World Op :=
  let (shared, ticket) := w.shared.submit operation
  { w with shared, log := if ticket = 0 then w.log else .submitted ticket operation :: w.log }

/-- The state after something that can happen. -/
def World.step (w : World Op) : Happening Op → Option (World Op)
  | .submit operation => some (w.submit operation)
  | .retire ticket =>
    some { w with shared := w.shared.retire ticket, log := .retired ticket :: w.log }
  | .stop => some { w with shared := { w.shared with stopped := true } }
  | .advance later => some { w with now := w.now + later }
  | .wake =>
    match w.phase with
    | .idle => some w.wake
    | _ => none
  | .observe =>
    match w.phase with
    | .taken generation operation =>
      some { w with phase := .observed generation operation w.now }
    | _ => none
  | .begin =>
    match w.phase with
    | .observed generation operation observedAt => some (w.begin generation operation observedAt)
    | _ => none
  | .finish succeeded =>
    match w.phase with
    | .running generation operation observedAt began =>
      some (w.finish generation observedAt ⟨generation, operation, began, succeeded⟩)
    | _ => none
  | .publish =>
    match w.phase with
    | .returned generation observedAt validation =>
      some (w.publish generation observedAt validation)
    | _ => none

/-- One step of the worker or its owners. -/
def World.Step (w : World Op) (h : Happening Op) (w' : World Op) : Prop := w.step h = some w'

/-- A state that some order of calls and steps leads to. -/
def Reachable (w : World Op) : Prop := ∃ happenings, Run World.Step {} happenings w

/-! ## What was written down -/

/-- The ticket was handed out for the operation, and since then no other was and it was not retired. -/
def Current (log : List (Entry Op)) (ticket : Nat) (operation : Option Op) : Prop :=
  ∃ later earlier, log = later ++ .submitted ticket operation :: earlier ∧
    (∀ t o, .submitted t o ∉ later) ∧ .retired ticket ∉ later

/-- The validation of an entry that says one of a ticket was completed. -/
def completedOf (ticket : Nat) : Entry Op → Option (Validation Op)
  | .completed v => if v.ticket = ticket then some v else none
  | _ => none

/-- The validation of an entry that says one of a ticket was published. -/
def publishedOf (ticket : Nat) : Entry Op → Option (Validation Op)
  | .published v => if v.ticket = ticket then some v else none
  | _ => none

/-- The latest validation of a ticket that has returned. -/
def latestCompleted (log : List (Entry Op)) (ticket : Nat) : Option (Validation Op) :=
  log.findSome? (completedOf ticket)

/-- The latest validation of a ticket whose result was published. -/
def latestPublished (log : List (Entry Op)) (ticket : Nat) : Option (Validation Op) :=
  log.findSome? (publishedOf ticket)

end Ipms.Agent.Console
