import Mathlib.Data.List.Basic
import Mathlib.Data.List.Infix
import Mathlib.Data.List.Perm.Basic
import Ipms.Lib.Run

/-
  Ipms.Portal.InputQueue

  The queue between the console in the browser and its delivery function.  A call
  runs to completion and may leave a suspended `flush` behind, which resumes once
  the delivery it waits for is settled; suspended calls resume in any order.  The
  history of the pushes and of the batches handed to `deliver` is kept beside the
  fields of the class, so that what is said of a run is said of its last state.
-/

namespace Ipms.Portal.InputQueue

open Ipms.Lib

/-! ## Events -/

structure ConsoleInput (Payload : Type) where
  type : String
  payload : Payload

/-- A move of the mouse. -/
def ConsoleInput.isMove {Payload : Type} (event : ConsoleInput Payload) : Bool :=
  event.type == "mouse_move"

/-- A pushed event, with the number of pushes before its own. -/
structure Entry (Payload : Type) where
  seq : Nat
  event : ConsoleInput Payload

/-! ## The queue -/

/-- What has become of a promise of `deliver` and of the handler on its rejection. -/
inductive Delivery where
  | inFlight | fulfilled | rejected | settled
  deriving DecidableEq

/-- A call of `flush` that waits for a delivery: the call that made it, or another one. -/
inductive Suspended where
  | owner (delivery : Nat)
  | waiter (delivery : Nat)
  deriving DecidableEq

/-- `ConsoleInputQueue`, its promises and its history. -/
structure Queue (Payload : Type) where
  pending : List (Entry Payload) := []
  /-- the number of the delivery whose promise `sending` holds -/
  sending : Option Nat := none
  /-- `cancelTimer` is set -/
  timer : Bool := false
  stopped : Bool := false
  /-- the promises of the deliveries, in the order they were made -/
  deliveries : List Delivery := []
  suspended : List Suspended := []
  /-- the calls of `failed` -/
  failures : Nat := 0
  /-- every event pushed -/
  pushed : List (ConsoleInput Payload) := []
  /-- the pushes whose event the following push replaced -/
  replaced : List Nat := []
  /-- the arguments of `deliver` -/
  batches : List (List (Entry Payload)) := []

namespace Queue

variable {Payload : Type} (q : Queue Payload)

def dispose : Queue Payload := { q with stopped := true, pending := [], timer := false }

/-- `this.sending = this.deliver(this.pending.splice(0, 32))`, and the wait for it. -/
def deliverNext : Queue Payload :=
  { q with
    pending := q.pending.drop 32
    sending := some q.deliveries.length
    deliveries := q.deliveries ++ [.inFlight]
    suspended := q.suspended ++ [.owner q.deliveries.length]
    batches := q.batches ++ [q.pending.take 32] }

/-- `flush`, up to its first wait. -/
def flush : Queue Payload :=
  let q := { q with timer := false }
  match q.sending with
  | some k => { q with suspended := q.suspended ++ [.waiter k] }
  | none => if q.stopped || q.pending.isEmpty then q else q.deliverNext

/-- The events that a push overtakes: the one pushed just before, where it is still pending and
both are moves. -/
def overtaken (event : ConsoleInput Payload) : List (Entry Payload) :=
  q.pending.filter fun e => e.seq + 1 == q.pushed.length && e.event.isMove && event.isMove

/-- Enter a push into the history. -/
def record (event : ConsoleInput Payload) : Queue Payload :=
  { q with
    pushed := q.pushed ++ [event]
    replaced := q.replaced ++ (q.overtaken event).map Entry.seq }

/-- The pending events with a new one: it replaces a move at the end, or is put behind while there
is room. -/
def place (e : Entry Payload) : Option (List (Entry Payload)) :=
  if e.event.isMove && q.pending.getLast?.any (·.event.isMove) then
    some (q.pending.dropLast ++ [e])
  else if q.pending.length < 128 then some (q.pending ++ [e])
  else none

/-- What a push starts: nothing while a delivery is under way, a flush for anything but a move, and
else the timer. -/
def wake (event : ConsoleInput Payload) : Queue Payload :=
  if q.sending.isSome then q
  else if !event.isMove then q.flush
  else { q with timer := true }

def push (event : ConsoleInput Payload) : Queue Payload :=
  if q.stopped then q.record event
  else match q.place ⟨q.pushed.length, event⟩ with
    | none => { (q.record event).dispose with failures := q.failures + 1 }
    | some pending => ({ q.record event with pending } : Queue Payload).wake event

/-- The handler on a delivery's promise: an uncertain acknowledgement ends the queue. -/
def react (k : Nat) : Queue Payload :=
  let settled := q.deliveries.set k .settled
  if q.deliveries[k]? = some .rejected then
    { q.dispose with deliveries := settled, failures := q.failures + 1 }
  else { q with deliveries := settled }

/-- The rest of a `flush` after its wait. -/
def resume (i : Nat) : Suspended → Queue Payload
  | .owner _ =>
    let q := { q with suspended := q.suspended.eraseIdx i, sending := none }
    if !q.stopped && !q.pending.isEmpty then q.flush else q
  | .waiter _ => { q with suspended := q.suspended.eraseIdx i }.flush

end Queue

/-- What may happen next. -/
inductive Action (Payload : Type) where
  | push (event : ConsoleInput Payload)
  | flush
  | timer
  | dispose
  | fulfil (k : Nat)
  | reject (k : Nat)
  | react (k : Nat)
  | resume (i : Nat)

/-- One step of the queue and of the code around it, where it is possible. -/
inductive Step {Payload : Type} : Queue Payload → Action Payload → Queue Payload → Prop where
  | push (q : Queue Payload) (event : ConsoleInput Payload) : Step q (.push event) (q.push event)
  | flush (q : Queue Payload) : Step q .flush q.flush
  | timer {q : Queue Payload} : q.timer = true → Step q .timer { q with timer := false }.flush
  | dispose (q : Queue Payload) : Step q .dispose q.dispose
  | fulfil {q : Queue Payload} {k : Nat} : q.deliveries[k]? = some .inFlight →
      Step q (.fulfil k) { q with deliveries := q.deliveries.set k .fulfilled }
  | reject {q : Queue Payload} {k : Nat} : q.deliveries[k]? = some .inFlight →
      Step q (.reject k) { q with deliveries := q.deliveries.set k .rejected }
  | react {q : Queue Payload} {k : Nat} :
      q.deliveries[k]? = some .fulfilled ∨ q.deliveries[k]? = some .rejected →
      Step q (.react k) (q.react k)
  | owner {q : Queue Payload} {i k : Nat} : q.suspended[i]? = some (.owner k) →
      q.deliveries[k]? = some .settled → Step q (.resume i) (q.resume i (.owner k))
  | waiter {q : Queue Payload} {i k : Nat} : q.suspended[i]? = some (.waiter k) →
      q.deliveries[k]? = some .settled → Step q (.resume i) (q.resume i (.waiter k))

/-! ## What is said of a run -/

namespace Queue

variable {Payload : Type} (q : Queue Payload)

/-- The pushes with their numbers. -/
def entries (pushed : List (ConsoleInput Payload)) : List (Entry Payload) :=
  pushed.zipIdx.map fun (event, seq) => ⟨seq, event⟩

/-- The pushes without the moves that were replaced. -/
def survivors : List (Entry Payload) :=
  (entries q.pushed).filter fun e => decide (e.seq ∉ q.replaced)

/-- Everything handed to `deliver`. -/
def delivered : List (Entry Payload) := q.batches.flatten

/-- The deliveries whose handler has not run. -/
def outstanding : Nat := q.deliveries.countP fun d => d != .settled

/-- The queue is over: it was stopped, or a delivery was rejected. -/
def Over : Prop := q.stopped = true ∨ .rejected ∈ q.deliveries

/-- A step that ends the queue: a rejected delivery, an overflow or a `dispose`. -/
def Ends : Action Payload → Prop
  | .reject _ | .dispose => True
  | .push event => q.stopped = false ∧ q.place ⟨q.pushed.length, event⟩ = none
  | _ => False

/-- No promise is settled whose consequences have not run. -/
def Quiescent : Prop :=
  .fulfilled ∉ q.deliveries ∧ .rejected ∉ q.deliveries ∧
    ∀ k, .owner k ∈ q.suspended → q.deliveries[k]? ≠ some .settled

end Queue

end Ipms.Portal.InputQueue
