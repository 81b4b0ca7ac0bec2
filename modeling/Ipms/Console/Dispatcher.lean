import Ipms.Server.HyperV.SessionRuns
import Ipms.Server.HyperV.InputSteps

/-
  Ipms.Console.Dispatcher

  The agent's dispatcher of console input, joined with the control plane it polls.
  A cycle delivers the receipt that is pending, or polls a batch, installs a
  receipt that fails closed, applies the batch and delivers what came of it.  Any of
  its calls may throw, a delivery may be processed and its reply lost, and other
  requests of the control plane come in between.
-/

namespace Ipms.Console

open Ipms.Lib Ipms.ManagementJson
open Ipms.Server.HyperV (State InputEvent Enrollment Reply)
open Ipms.Server.HyperV.State (Assignment InputCycle)

/-! ## Batches and receipts -/

/-- The identifiers of a batch. -/
def ids (batch : Assignment) : List String := batch.inputs.map InputEvent.id

/-- `console_input_receipt`. -/
structure Receipt where
  sessionId : String
  acknowledgedIds : List String
  failureCode : String
  deriving DecidableEq

/-- What becomes of a call of `apply`: its result, or an exception.  Beside what the caller sees, the
events that were carried out on the machine. -/
inductive Applied where
  | returned (succeeded : Bool) (acknowledgedInputIds carriedOut : List String)
  | threw (carriedOut : List String)
  deriving DecidableEq

namespace Applied

/-- The events that were carried out. -/
def carriedOut : Applied → List String
  | returned _ _ carriedOut | threw carriedOut => carriedOut

/-- Success was reported. -/
def succeeded : Applied → Bool
  | returned succeeded _ _ => succeeded
  | threw _ => false

/-- A success acknowledges exactly what was carried out. -/
def Faithful : Applied → Prop
  | returned true acknowledged carriedOut => acknowledged = carriedOut
  | _ => True

instance (result : Applied) : Decidable result.Faithful := by
  unfold Faithful
  split <;> infer_instance

/-- A success is that of the whole batch. -/
def Complete (batch : Assignment) : Applied → Prop
  | returned true acknowledged carriedOut => acknowledged = carriedOut ∧ carriedOut = ids batch
  | _ => True

/-- The receipt that is pending after the call: the one installed before it, with what the result
says where there is one. -/
def receipt (batch : Assignment) : Applied → Receipt
  | threw _ => ⟨batch.sessionId, [], "console_input_failed"⟩
  | returned succeeded acknowledged _ =>
    ⟨batch.sessionId, acknowledged, if succeeded then "" else "console_input_failed"⟩

end Applied

/-! ### `execute_hyperv_console_inputs` -/

/-- What becomes of `apply_console_input`, and whether the machine took the event. -/
inductive InputOutcome where
  | done
  | failed (taken : Bool)
  | threw (taken : Bool)
  deriving DecidableEq

/-- The loop over a batch: an event after the other, until the first that does not succeed. -/
def executeInputs (cancelled : InputEvent → Bool) (input : InputEvent → InputOutcome) :
    List String → List InputEvent → Applied
  | acknowledged, [] => .returned true acknowledged acknowledged
  | acknowledged, event :: rest =>
    if cancelled event then .returned false acknowledged acknowledged
    else match input event with
      | .done => executeInputs cancelled input (acknowledged ++ [event.id]) rest
      | .failed taken =>
        .returned false acknowledged (acknowledged ++ if taken then [event.id] else [])
      | .threw taken => .threw (acknowledged ++ if taken then [event.id] else [])

/-- `execute_hyperv_console_inputs`; the machine is `available` when its identity is well formed, it
is found running, and nothing was cancelled before. -/
def executeConsoleInputs (available : Bool) (cancelled : InputEvent → Bool)
    (input : InputEvent → InputOutcome) (batch : Assignment) : Applied :=
  if available = false ∨ batch.inputs = [] ∨ 64 < batch.inputs.length then .returned false [] []
  else executeInputs cancelled input [] batch.inputs

theorem executeInputs_complete (cancelled : InputEvent → Bool) (input : InputEvent → InputOutcome)
    (batch : Assignment) (rest : List InputEvent) (acknowledged : List String)
    (h : acknowledged ++ rest.map InputEvent.id = ids batch) :
    (executeInputs cancelled input acknowledged rest).Complete batch ∧
      (executeInputs cancelled input acknowledged rest).carriedOut.Sublist (ids batch) := by
  have hprefix : acknowledged.Sublist (ids batch) := by
    rw [← h]
    exact List.sublist_append_left acknowledged _
  induction rest generalizing acknowledged with
  | nil =>
    rw [List.map_nil, List.append_nil] at h
    exact ⟨⟨rfl, h⟩, hprefix⟩
  | cons event rest ih =>
    have hone : ∀ taken : Bool,
        (acknowledged ++ if taken then [event.id] else []).Sublist (ids batch) := by
      intro taken
      rw [← h, List.map_cons]
      refine (List.Sublist.refl acknowledged).append ?_
      cases taken with
      | true => exact (List.nil_sublist _).cons_cons event.id
      | false => exact List.nil_sublist _
    unfold executeInputs
    split
    · exact ⟨trivial, hprefix⟩
    · split
      · have hnext : (acknowledged ++ [event.id]) ++ rest.map InputEvent.id = ids batch := by
          rw [List.append_assoc]
          exact h
        exact ih (acknowledged ++ [event.id]) hnext (hone true)
      · exact ⟨trivial, hone _⟩
      · exact ⟨trivial, hone _⟩

/-- A success of `execute_hyperv_console_inputs` is that of the whole batch, and it carries out no
event twice. -/
theorem executeConsoleInputs_complete (available : Bool) (cancelled : InputEvent → Bool)
    (input : InputEvent → InputOutcome) (batch : Assignment) :
    (executeConsoleInputs available cancelled input batch).Complete batch ∧
      (executeConsoleInputs available cancelled input batch).carriedOut.Sublist (ids batch) := by
  unfold executeConsoleInputs
  split
  · exact ⟨trivial, List.nil_sublist _⟩
  · exact executeInputs_complete cancelled input batch batch.inputs [] rfl

/-! ## The joined system -/

/-- Where a cycle is. -/
inductive Phase where
  | idle
  | polled (batch : Assignment)
  | delivering

/-- An exception or a cancellation ends the cycle, a result is delivered. -/
def afterApply (result : Applied) (cancelled : Bool) : Phase :=
  match result with
  | .threw _ => .idle
  | .returned .. => if cancelled then .idle else .delivering

theorem afterApply_ne (result : Applied) (cancelled : Bool) (batch : Assignment) :
    afterApply result cancelled ≠ .polled batch := by
  cases result with
  | threw => exact nofun
  | returned => cases cancelled <;> exact nofun

/-- The control plane, the identifiers of events given so far, and the dispatcher under one
identity. -/
structure System where
  server : State
  minted : List String
  pending : Option Receipt
  phase : Phase

/-- The steps of the joined system. -/
inductive Event where
  /-- another request of the control plane -/
  | server (event : Server.HyperV.Event) (reply : Reply)
  /-- a cycle begins with a pending receipt -/
  | resume
  /-- the control plane answers a poll; the batch is `taken` if the reply arrives, is valid, and
  the cycle is not cancelled and its identity is current -/
  | poll (offered : Option Assignment) (taken : Bool)
  /-- a batch is applied; a cancelled cycle leaves its receipt pending -/
  | apply (batch : Assignment) (result : Applied) (cancelled : Bool)
  /-- a receipt is sent; it may be processed without a reply, or not be processed -/
  | deliver (receipt : Receipt) (processed returned : Bool)

/-- The identifiers given after a request. -/
def mint (minted : List String) : Server.HyperV.Event → List String
  | .queueInput id .. => id :: minted
  | _ => minted

/-- A request does not give an identifier twice. -/
def Fresh (minted : List String) : Server.HyperV.Event → Prop
  | .queueInput id .. => id ∉ minted
  | _ => True

/-- A request is not the agent's input channel, which is the dispatcher's alone. -/
def Foreign (agent : String) : Server.HyperV.Event → Prop
  | .inputCycle e _ => e.id ≠ agent
  | _ => True

/-- The poll of an agent. -/
def pollCycle (expireStale : Bool) : InputCycle := ⟨"", [], true, "", expireStale⟩

/-- The delivery of a receipt. -/
def Receipt.cycle (receipt : Receipt) (expireStale : Bool) : InputCycle :=
  ⟨receipt.sessionId, receipt.acknowledgedIds, true, receipt.failureCode, expireStale⟩

/-- One step.  The agent is known by its enrollment; the row may change in between. -/
inductive Step (agent : String) : System → Event → System → Prop where
  | server {s : System} {event : Server.HyperV.Event} {reply : Reply} {server : State}
      (h : Server.HyperV.Step s.server (event, reply) server) (fresh : Fresh s.minted event)
      (foreign : Foreign agent event) :
      Step agent s (.server event reply) { s with server, minted := mint s.minted event }
  | resume {s : System} {receipt : Receipt} (idle : s.phase = .idle)
      (h : s.pending = some receipt) : Step agent s .resume { s with phase := .delivering }
  | poll {s : System} {e : Enrollment} {expireStale active : Bool} {offered : Option Assignment}
      {server : State} (he : e.id = agent) (idle : s.phase = .idle) (free : s.pending = none)
      (h : Server.HyperV.Step s.server
        (.inputCycle e (pollCycle expireStale), .assigned active offered) server) :
      Step agent s (.poll offered false) { s with server }
  | take {s : System} {e : Enrollment} {expireStale : Bool} {batch : Assignment} {server : State}
      (he : e.id = agent) (idle : s.phase = .idle) (free : s.pending = none)
      (h : Server.HyperV.Step s.server
        (.inputCycle e (pollCycle expireStale), .assigned true (some batch)) server)
      (valid : batch.transport = .thumbnail ∧ batch.inputs ≠ [] ∧ batch.sessionId ≠ "") :
      Step agent s (.poll (some batch) true) { s with server, phase := .polled batch }
  | apply {s : System} {batch : Assignment} (h : s.phase = .polled batch) (result : Applied)
      (once : result.carriedOut.Sublist (ids batch)) (cancelled : Bool) :
      Step agent s (.apply batch result cancelled)
        { s with pending := some (result.receipt batch), phase := afterApply result cancelled }
  | deliver {s : System} {e : Enrollment} {expireStale : Bool} {receipt : Receipt} {reply : Reply}
      {server : State} (he : e.id = agent) (delivering : s.phase = .delivering)
      (h : s.pending = some receipt)
      (processed : Server.HyperV.Step s.server
        (.inputCycle e (receipt.cycle expireStale), reply) server) (returned : Bool) :
      Step agent s (.deliver receipt true returned)
        { s with server, pending := if returned then none else some receipt, phase := .idle }
  | undelivered {s : System} {receipt : Receipt} (delivering : s.phase = .delivering)
      (h : s.pending = some receipt) :
      Step agent s (.deliver receipt false false) { s with phase := .idle }

/-- A process that starts: nothing is pending, and every event has its identifier. -/
def System.Started (s : System) : Prop :=
  s.phase = .idle ∧ s.pending = none ∧ ∀ event ∈ s.server.inputs.rows, event.id ∈ s.minted

/-! ## Concrete runs -/

instance (minted : List String) (event : Server.HyperV.Event) : Decidable (Fresh minted event) :=
  match event with
  | .queueInput id .. => (inferInstance : Decidable (id ∉ minted))
  | .change .. | .createJob .. | .withdrawJobs .. | .offerJob .. | .claimJob .. | .reportJob ..
  | .createSession .. | .renewSession .. | .closeSession .. | .frameCycle .. | .inputCycle ..
  | .authorizeBrowser .. | .nativeContact .. | .nativeReady .. | .nativeClose .. =>
    .isTrue trivial

instance (agent : String) (event : Server.HyperV.Event) : Decidable (Foreign agent event) :=
  match event with
  | .inputCycle e _ => (inferInstance : Decidable (e.id ≠ agent))
  | .change .. | .createJob .. | .withdrawJobs .. | .offerJob .. | .claimJob .. | .reportJob ..
  | .createSession .. | .renewSession .. | .closeSession .. | .queueInput .. | .frameCycle ..
  | .authorizeBrowser .. | .nativeContact .. | .nativeReady .. | .nativeClose .. =>
    .isTrue trivial

/-- What happens next: a request, or how the call of the dispatcher ends. -/
inductive Command where
  | server (event : Server.HyperV.Event)
  | resume
  | poll
  | apply (result : Applied) (cancelled : Bool)
  | deliver (processed returned : Bool)

/-- The step of a command, where it is possible. -/
def System.next (e : Enrollment) (s : System) : Command → Option (Event × System)
  | .server event =>
    match s.server.perform event with
    | .ok (server, reply) =>
      if event.Timely s.server ∧ Fresh s.minted event ∧ Foreign e.id event then
        some (.server event reply, { s with server, minted := mint s.minted event })
      else none
    | .error _ => none
  | .resume =>
    match s.phase, s.pending with
    | .idle, some _ => some (.resume, { s with phase := .delivering })
    | _, _ => none
  | .poll =>
    match s.phase, s.pending, s.server.perform (.inputCycle e (pollCycle true)) with
    | .idle, none, .ok (server, .assigned true (some batch)) =>
      if batch.transport = .thumbnail ∧ batch.inputs ≠ [] ∧ batch.sessionId ≠ "" then
        some (.poll (some batch) true, { s with server, phase := .polled batch })
      else none
    | _, _, _ => none
  | .apply result cancelled =>
    match s.phase with
    | .polled batch =>
      if result.carriedOut.Sublist (ids batch) then
        some (.apply batch result cancelled, { s with
          pending := some (result.receipt batch), phase := afterApply result cancelled })
      else none
    | _ => none
  | .deliver processed returned =>
    match s.phase, s.pending with
    | .delivering, some receipt =>
      if processed then
        match s.server.perform (.inputCycle e (receipt.cycle true)) with
        | .ok (server, _) => some (.deliver receipt true returned,
            { s with server, pending := if returned then none else some receipt, phase := .idle })
        | .error _ => none
      else some (.deliver receipt false false, { s with phase := .idle })
    | _, _ => none

theorem System.step_of_next {e : Enrollment} {s t : System} {l : Event} {command : Command}
    (h : s.next e command = some (l, t)) : Step e.id s l t := by
  cases command with
  | server event =>
    simp only [next] at h
    split at h
    · next server reply hperform =>
        split at h
        · next hcond =>
            cases h
            exact .server ⟨hperform, hcond.1⟩ hcond.2.1 hcond.2.2
        · cases h
    · cases h
  | resume =>
    simp only [next] at h
    split at h
    · next receipt hphase hpending =>
        cases h
        exact .resume hphase hpending
    · cases h
  | poll =>
    simp only [next] at h
    split at h
    · next server batch hphase hpending hperform =>
        split at h
        · next hvalid =>
            cases h
            exact .take rfl hphase hpending ⟨hperform, trivial⟩ hvalid
        · cases h
    · cases h
  | apply result cancelled =>
    simp only [next] at h
    split at h
    · next batch hphase =>
        split at h
        · next honce =>
            cases h
            exact .apply hphase result honce cancelled
        · cases h
    · cases h
  | deliver processed returned =>
    simp only [next] at h
    split at h
    · next receipt hphase hpending =>
        cases processed with
        | false =>
          cases h
          exact .undelivered hphase hpending
        | true =>
          rw [if_pos rfl] at h
          split at h
          · next server reply hperform =>
              cases h
              exact .deliver rfl hphase hpending ⟨hperform, trivial⟩ returned
          · cases h
    · cases h

/-- The steps of a list of commands. -/
def System.runAll (e : Enrollment) (s : System) : List Command → Option (List Event × System)
  | [] => some ([], s)
  | command :: commands =>
    (s.next e command).bind fun (l, t) => (t.runAll e commands).map fun (ls, u) => (l :: ls, u)

theorem System.run_of_runAll {e : Enrollment} {s t : System} {commands : List Command}
    {ls : List Event} (h : s.runAll e commands = some (ls, t)) : Run (Step e.id) s ls t := by
  induction commands generalizing s ls with
  | nil =>
    cases h
    exact .nil _
  | cons command commands ih =>
    obtain ⟨⟨l, u⟩, hnext, h⟩ := Option.bind_eq_some_iff.mp h
    obtain ⟨⟨ks, v⟩, hrest, hlabels⟩ := Option.map_eq_some_iff.mp h
    cases hlabels
    exact .cons (System.step_of_next hnext) (ih hrest)

end Ipms.Console
