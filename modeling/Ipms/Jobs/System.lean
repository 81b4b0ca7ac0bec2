import Ipms.Lib.Run
import Ipms.Jobs.Server

/-
  Ipms.Jobs.System

  The control plane and the agent together.  The agent's inventory and telemetry
  cycles report what waits in its two result files, poll, and carry out what the
  answer assigns; an updater, once launched, runs beside them.  Messages may be
  late, lost or repeated, and every process may stop at any point.
-/

namespace Ipms.Jobs

open Ipms.Lib Ipms.Server

/-! ## What the agent computes -/

/-- The constant codes with which `execute_hyperv_virtual_machine_action` fails. -/
def failureCodes : List String :=
  ["invalid_vm_identity", "invalid_action", "hyperv_unavailable", "com_initialization_failed",
   "com_security_failed", "wmi_locator_failed", "allocation_failed", "hyperv_provider_unavailable",
   "wmi_proxy_failed", "vm_lookup_failed", "vm_identity_conflict", "invalid_vm_state",
   "guest_shutdown_lookup_failed", "guest_shutdown_unavailable",
   "guest_shutdown_contract_unavailable", "guest_shutdown_input_failed", "guest_shutdown_rejected",
   "state_confirmation_timeout", "action_contract_unavailable", "action_input_failed",
   "action_execution_failed"]

/-- What `execute_hyperv_virtual_machine_action` comes to. -/
inductive VmOutcome where
  | alreadyInRequestedState
  | stateConfirmed
  | failed (code : { code : String // code ∈ failureCodes })
  /-- the lookup reads at most 129 rows -/
  | notFound (rows identifiers names : Fin 130)
  | guestShutdownFailed (result : UInt32)
  | rejected (value : UInt64)
  deriving DecidableEq

/-- `std::to_string` of a number. -/
def decimalText (n : Nat) : String := String.ofList (Nat.toDigits 10 n)

/-- `hyperv_action_result::succeeded`. -/
def VmOutcome.succeeded : VmOutcome → Bool
  | alreadyInRequestedState | stateConfirmed => true
  | _ => false

/-- `hyperv_action_result::result_code`. -/
def VmOutcome.resultCode : VmOutcome → String
  | alreadyInRequestedState => "already_in_requested_state"
  | stateConfirmed => "state_confirmed"
  | failed code => code.val
  | notFound rows identifiers names =>
    "vm_not_found_r" ++ decimalText rows.val ++ "_i" ++ decimalText identifiers.val ++ "_n" ++
      decimalText names.val
  | guestShutdownFailed result =>
    "guest_shutdown_execution_failed_" ++ decimalText result.toNat
  | rejected value => "action_rejected_" ++ decimalText value.toNat

/-- The final report of a VM action. -/
def VmOutcome.report (outcome : VmOutcome) (jobId : String) : Report :=
  ⟨jobId, if outcome.succeeded then .succeeded else .failed, outcome.resultCode⟩

/-- An assignment as the agent reads it from the answer. -/
structure Assignment where
  jobId : String
  action : Action
  deriving DecidableEq

/-- The job an assignment is about. -/
def Assignment.ref (a : Assignment) : Ref := ⟨a.action.kind, a.jobId⟩

/-- The assignment an offer answers with. -/
def Job.assignment (job : Job) : Assignment := ⟨job.id, job.action⟩

@[simp] theorem Job.ref_assignment (job : Job) : job.assignment.ref = job.ref := rfl

/-- What a request asks of the control plane.  Inventory and telemetry make the two offers one
after the other, so an inventory whose first offer found nothing is a message of its own. -/
inductive Message where
  | inventory
  | inventoryOffered
  | artifact (jobId : String)
  | result (kind : Kind) (report : Report)
  deriving DecidableEq

/-- A message under the number of its connection. -/
structure Request where
  connection : Nat
  message : Message
  deriving DecidableEq

/-- What comes back on the connection; anything but these is a failed exchange. -/
inductive Answer where
  | accepted
  | rejected
  | assigned (assignment : Option Assignment)
  | binary (sha256 : String)
  deriving DecidableEq

/-! ## The agent -/

/-- Why a cycle waits for an answer. -/
inductive Purpose where
  /-- `report_pending_result`, `report_pending_hyperv_action_result` -/
  | pending (kind : Kind) (report : Report)
  | poll
  | artifact (a : Assignment)
  /-- the report of the result `running` -/
  | running (a : Assignment)
  /-- the report of what the VM action came to -/
  | final (a : Assignment) (report : Report)
  deriving DecidableEq

/-- The report that a job is running. -/
def Assignment.runningReport (a : Assignment) : Report := ⟨a.jobId, .running, "accepted"⟩

/-- What a cycle sends for a purpose. -/
def Purpose.message : Purpose → Message
  | pending kind report => .result kind report
  | poll => .inventory
  | artifact a => .artifact a.jobId
  | running a => .result a.action.kind a.runningReport
  | final _ report => .result .vm report

/-- The messages whose answer a cycle with this purpose waits for. -/
def Purpose.awaits (p : Purpose) (m : Message) : Bool :=
  m == p.message || p == .poll && m == .inventoryOffered

/-- Where an inventory or telemetry cycle stands. -/
inductive Phase where
  | idle
  /-- about to look for the result file of a kind -/
  | checking (kind : Kind)
  | waiting (purpose : Purpose) (connection : Nat)
  | answered (purpose : Purpose) (answer : Answer)
  /-- the pending result was accepted, its file is about to be removed -/
  | removing (kind : Kind)
  /-- both files are gone -/
  | polling
  /-- in `process_lifecycle_assignment` or `process_hyperv_action_assignment` -/
  | assigned (a : Assignment)
  /-- the checks in front of the report `running` have passed -/
  | staged (a : Assignment)
  /-- the report `running` was accepted -/
  | started (a : Assignment)
  /-- the VM action is done -/
  | executed (a : Assignment) (report : Report)
  /-- the final report failed, its result is about to be filed -/
  | filing (report : Report)
  deriving DecidableEq

/-- Where `run_windows_updater` stands. -/
inductive Updater where
  | absent
  /-- the checks in front of the stop of the service, or the first steps of an uninstall -/
  | preparing (action : Action)
  /-- the service is stopped and its binary is replaced -/
  | replacing
  /-- the success is filed, the service starts again -/
  | restarting
  /-- a failure is about to be filed -/
  | failing (resultCode : String)
  /-- an uninstall reports its success itself -/
  | reporting
  deriving DecidableEq

/-- The result files of the agent. -/
abbrev Files := Kind → Option Report

/-! ## The joint state -/

/-- The control plane, the network and the agent. -/
structure System where
  server : Server
  /-- the requests that may still reach the control plane -/
  sent : List Request
  connections : Nat
  cycles : Nat → Phase
  updaters : String → Updater
  files : Files

/-- The steps that change the control plane beside the agent's messages. -/
inductive Admin where
  | createLifecycleJob (id actor : String) (uninstall : Bool)
  | createHypervActionJob (id actor virtualMachine : String) (action : VmAction)
  | environment (env : Environment)
  | machine (id : String) (vm : Option VirtualMachine)
  | tenant (status : TenantStatus) (now : Time)
  | withdrawIdentity (actor : String) (now : Time) (reason : String)
  | removeEnrollment

/-- A step of a cycle. -/
inductive CycleAct where
  | begin
  /-- reads the file it is about to look for, or goes on without -/
  | check
  /-- sends the next request of its phase -/
  | send
  /-- goes on with the answer it has -/
  | proceed
  /-- removes the file, where nothing keeps it from it -/
  | remove (removed : Bool)
  /-- executes the VM action -/
  | execute (outcome : VmOutcome)
  /-- launches the updater, where nothing keeps it from it -/
  | launch (launched : Bool)
  /-- writes the result file, where nothing keeps it from it -/
  | file (written : Bool)
  /-- an exception, a lost answer or a guard that ends the work at hand -/
  | fail
  | crash

/-- A step of an updater. -/
inductive UpdaterAct where
  /-- the next step succeeds -/
  | advance
  /-- the next step throws -/
  | throws
  | crash

/-- The steps of the system. -/
inductive Event where
  | admin (act : Admin)
  /-- the control plane processes a request, which may stay in the network; the answer may
  reach the cycle that waits for it -/
  | serve (request : Request) (kept : Bool) (answered : Option Nat) (now : Time)
  | lose (request : Request)
  | cycle (c : Nat) (act : CycleAct)
  | updater (jobId : String) (act : UpdaterAct)

/-- What a step makes happen to a job. -/
inductive Observation where
  /-- the result `running` was accepted -/
  | accepted (ref : Ref)
  /-- the agent started the action: the change of the VM or the updater -/
  | started (ref : Ref)
  deriving DecidableEq

/-! ## Steps -/

/-- A step beside the agent's messages. -/
def Server.administer (s : Server) : Admin → Option Server
  | .createLifecycleJob id actor uninstall => s.createLifecycleJob id actor uninstall
  | .createHypervActionJob id actor vm action => s.createHypervActionJob id actor vm action
  | .environment env => some { s with env }
  | .machine id vm =>
    some { s with machines := fun other => if other = id then vm else s.machines other }
  | .tenant status now => some (s.applyTenantStatusChange status now)
  | .withdrawIdentity actor now reason => some (s.withdrawIdentityOperations actor now reason)
  | .removeEnrollment => some s.removeEnrollment

/-- What one processed message comes to: the control plane after it, and the answer, or the
message that is still to be processed. -/
def Server.process (s : Server) (now : Time) : Message → Server × (Answer ⊕ Message)
  | .inventory =>
    match s.offerLifecycleJob now with
    | (s, some job) => (s, .inl (.assigned (some job.assignment)))
    | (s, none) => (s, .inr .inventoryOffered)
  | .inventoryOffered =>
    let (s, job?) := s.offerHypervActionJob now
    (s, .inl (.assigned (job?.map Job.assignment)))
  | .artifact jobId =>
    match s.lifecycleArtifact jobId with
    | some sha256 => (s, .inl (.binary sha256))
    | none => (s, .inl .rejected)
  | .result kind report =>
    match s.record kind report with
    | some t => (t, .inl .accepted)
    | none => (s, .inl .rejected)

/-- What an accepted message made happen. -/
def Message.observation : Message → Answer → Option Observation
  | .result kind report, .accepted =>
    if report.result = .running then some (.accepted ⟨kind, report.jobId⟩) else none
  | _, _ => none

/-- A cycle moves to another phase. -/
def System.setCycle (s : System) (c : Nat) (phase : Phase) : System :=
  { s with cycles := fun other => if other = c then phase else s.cycles other }

/-- An updater moves on. -/
def System.setUpdater (s : System) (jobId : String) (u : Updater) : System :=
  { s with updaters := fun other => if other = jobId then u else s.updaters other }

/-- A result file is written or removed. -/
def System.setFile (s : System) (kind : Kind) (content : Option Report) : System :=
  { s with files := fun other => if other = kind then content else s.files other }

/-- A cycle sends a request on a fresh connection and waits for its answer. -/
def System.send (s : System) (c : Nat) (purpose : Purpose) : System :=
  { s.setCycle c (.waiting purpose s.connections) with
    sent := ⟨s.connections, purpose.message⟩ :: s.sent
    connections := s.connections + 1 }

/-- The answer reaches a cycle that waits for it on its connection. -/
def System.answer (s : System) (request : Request) (answer : Answer) (c : Nat) : Option System :=
  match s.cycles c with
  | .waiting purpose connection =>
    if connection = request.connection ∧ purpose.awaits request.message then
      some (s.setCycle c (.answered purpose answer))
    else none
  | _ => none

/-- The control plane processes a request. -/
def System.serve (s : System) (request : Request) (kept : Bool) (answered : Option Nat)
    (now : Time) : Option (System × Option Observation) :=
  if request ∈ s.sent then
    let sent := if kept then s.sent else s.sent.erase request
    match s.server.process now request.message with
    | (server, .inr message) =>
      if answered = none then
        some ({ s with server, sent := ⟨request.connection, message⟩ :: sent }, none)
      else none
    | (server, .inl answer) =>
      match answered with
      | none => some ({ s with server, sent }, request.message.observation answer)
      | some c => do
        let s ← { s with server, sent }.answer request answer c
        pure (s, request.message.observation answer)
  else none

/-- Where a cycle goes on from the answer it has; an answer its code throws on is no step. -/
def Phase.afterAnswer : Purpose → Answer → Option Phase
  | .pending kind _, .accepted => some (.removing kind)
  | .poll, .assigned (some a) => some (.assigned a)
  | .poll, .assigned none => some .idle
  | .artifact a, .binary sha256 =>
    match a.action with
    | .update _ expected => if sha256 = expected then some (.staged a) else none
    | _ => none
  | .running a, .accepted => some (.started a)
  | .final _ _, .accepted => some .idle
  | _, _ => none

/-- What comes after the file of a kind. -/
def Phase.afterFile : Kind → Phase
  | .lifecycle => .checking .vm
  | .vm => .polling

/-- Where an exception in a phase leads. -/
def Phase.afterFailure : Phase → Phase
  | .waiting (.final _ report) _ | .answered (.final _ report) _ => .filing report
  | _ => .idle

/-- What a cycle sends next. -/
def Phase.next : Phase → Option Purpose
  | .polling => some .poll
  | .assigned a =>
    match a.action with
    | .update .. => some (.artifact a)
    | .uninstall | .vm .. => some (.running a)
  | .staged a => some (.running a)
  | .executed a report => some (.final a report)
  | _ => none

/-- A step of a cycle. -/
def System.cycle (s : System) (c : Nat) : CycleAct → Option (System × Option Observation)
  | .begin =>
    if s.cycles c = .idle then some (s.setCycle c (.checking .lifecycle), none) else none
  | .check =>
    match s.cycles c with
    | .checking kind =>
      match s.files kind with
      | some report => some (s.send c (.pending kind report), none)
      | none => some (s.setCycle c (.afterFile kind), none)
    | _ => none
  | .send => do
    let purpose ← (s.cycles c).next
    pure (s.send c purpose, none)
  | .proceed =>
    match s.cycles c with
    | .answered purpose answer => do
      let phase ← Phase.afterAnswer purpose answer
      pure (s.setCycle c phase, none)
    | _ => none
  | .remove removed =>
    match s.cycles c with
    | .removing kind =>
      let s := s.setCycle c (.afterFile kind)
      some (if removed then s.setFile kind none else s, none)
    | _ => none
  | .execute outcome =>
    match s.cycles c with
    | .started a =>
      match a.action with
      | .vm .. => some (s.setCycle c (.executed a (outcome.report a.jobId)), some (.started a.ref))
      | _ => none
    | _ => none
  | .launch launched =>
    match s.cycles c with
    | .started a =>
      match a.action with
      | .vm .. => none
      | _ =>
        let s := s.setCycle c .idle
        some (if launched then (s.setUpdater a.jobId (.preparing a.action), some (.started a.ref))
          else (s, none))
    | _ => none
  | .file written =>
    match s.cycles c with
    | .filing report =>
      let s := s.setCycle c .idle
      some (if written then s.setFile .vm (some report) else s, none)
    | _ => none
  | .fail => some (s.setCycle c (s.cycles c).afterFailure, none)
  | .crash => some (s.setCycle c .idle, none)

/-- The report of an updater's success. -/
def updated (jobId : String) : Report := ⟨jobId, .succeeded, "updated"⟩

/-- The report an uninstall sends. -/
def uninstalled (jobId : String) : Report := ⟨jobId, .succeeded, "uninstalled"⟩

/-- A step of `run_windows_updater`; a failure that cannot be filed is dropped. -/
def System.updater (s : System) (jobId : String) : UpdaterAct → Option System
  | .crash => some (s.setUpdater jobId .absent)
  | .advance =>
    match s.updaters jobId with
    | .absent => none
    | .preparing (.update ..) => some (s.setUpdater jobId .replacing)
    | .preparing _ =>
      some { s.setUpdater jobId .reporting with
        sent := ⟨s.connections, .result .lifecycle (uninstalled jobId)⟩ :: s.sent
        connections := s.connections + 1 }
    | .replacing =>
      some ((s.setUpdater jobId .restarting).setFile .lifecycle (some (updated jobId)))
    | .restarting | .reporting => some (s.setUpdater jobId .absent)
    | .failing code =>
      some ((s.setUpdater jobId .absent).setFile .lifecycle (some ⟨jobId, .failed, code⟩))
  | .throws =>
    match s.updaters jobId with
    | .absent => none
    | .preparing (.update ..) => some (s.setUpdater jobId (.failing "update_failed"))
    | .replacing | .restarting => some (s.setUpdater jobId (.failing "update_rolled_back"))
    | .preparing _ | .failing _ | .reporting => some (s.setUpdater jobId .absent)

/-- One step of the system, and what it made happen. -/
def System.step (s : System) : Event → Option (System × Option Observation)
  | .admin act => (s.server.administer act).map fun server => ({ s with server }, none)
  | .serve request kept answered now => s.serve request kept answered now
  | .lose request => some ({ s with sent := s.sent.erase request }, none)
  | .cycle c act => s.cycle c act
  | .updater jobId act => (s.updater jobId act).map fun s => (s, none)

/-- The state before the first job. -/
def System.Initial (s : System) : Prop :=
  s.server.jobs.rows = [] ∧ s.sent = [] ∧ (∀ c, s.cycles c = .idle) ∧
    (∀ id, s.updaters id = .absent) ∧ ∀ kind, s.files kind = none

/-- A step with its event and what it made happen as its label. -/
def Step (s : System) (l : Event × Option Observation) (t : System) : Prop :=
  s.step l.1 = some (t, l.2)

/-- The runs of the system. -/
abbrev Runs := Run Step

/-- What happened along a run. -/
def observations (ls : List (Event × Option Observation)) : List Observation := ls.filterMap Prod.snd

/-- The run of a list of events, where each of them is a step. -/
def System.runAll (s : System) :
    List Event → Option (System × List (Event × Option Observation))
  | [] => some (s, [])
  | event :: events => do
    let (t, o) ← s.step event
    let (u, ls) ← t.runAll events
    pure (u, (event, o) :: ls)

theorem System.runs_of_runAll {events : List Event} {s t : System}
    {ls : List (Event × Option Observation)} (h : s.runAll events = some (t, ls)) :
    Runs s ls t ∧ ls.map Prod.fst = events := by
  induction events generalizing s ls with
  | nil =>
    cases h
    exact ⟨.nil _, rfl⟩
  | cons event events ih =>
    simp only [System.runAll, Option.bind_eq_bind, Option.bind_eq_some_iff, Option.pure_def,
      Option.some.injEq, Prod.mk.injEq] at h
    obtain ⟨⟨u, o⟩, hstep, ⟨v, ks⟩, hrest, rfl, rfl⟩ := h
    obtain ⟨hruns, hevents⟩ := ih hrest
    exact ⟨.cons hstep hruns, by rw [List.map_cons, hevents]⟩

/-! ## A sample -/

/-- A control plane with one virtual machine and no job. -/
def sampleServer : Server where
  jobs := Table.empty
  tenant := .active
  enrolled := true
  machines id := if id = "vm-1" then some ⟨"source-1", "web", .stopped⟩ else none
  env :=
    { permitted := fun actor _ => actor == "operator"
      maintenanceAllowed := fun _ => true
      operationActive := false
      managementConflicts := fun _ => false
      capable := true
      artifact := none }

/-- The system before its first job. -/
def sampleSystem : System where
  server := sampleServer
  sent := []
  connections := 0
  cycles _ := .idle
  updaters _ := .absent
  files _ := none

theorem sampleSystem_initial : sampleSystem.Initial := ⟨rfl, rfl, fun _ => rfl, fun _ => rfl, fun _ => rfl⟩

/-- The job of the sample. -/
def sampleRef : Ref := ⟨.vm, "job-1"⟩

/-- The assignment of the sample's job. -/
def sampleAssignment : Assignment := ⟨"job-1", .vm .start "vm-1" "source-1" "web"⟩

/-- A VM action is queued and offered to a cycle, and `running` is accepted for it. -/
def sampleAccepted : List Event :=
  [.admin (.createHypervActionJob "job-1" "operator" "vm-1" .start),
   .cycle 0 .begin, .cycle 0 .check, .cycle 0 .check, .cycle 0 .send,
   .serve ⟨0, .inventory⟩ false none 1, .serve ⟨0, .inventoryOffered⟩ false (some 0) 1,
   .cycle 0 .proceed, .cycle 0 .send,
   .serve ⟨1, .result .vm sampleAssignment.runningReport⟩ false (some 0) 2]

end Ipms.Jobs
