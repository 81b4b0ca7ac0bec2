import Ipms.Lib.Run
import Ipms.Server.HyperV.Console

/-
  Ipms.Server.HyperV.System

  The requests about virtual machines as the steps of one system.  Each request is
  one transaction; between two of them the clock may advance and everything the
  requests only read may change.  A refused request commits nothing and is no step.
-/

namespace Ipms.Server.HyperV

open Ipms.Lib Ipms.ManagementJson

/-! ## Steps -/

/-- A request, or a change of what the requests read. -/
inductive Event where
  | change (world : World) (later : Time)
  | createJob (id : String) (request : State.JobRequest) (findings : Findings)
  | withdrawJobs (tenant : String) (actor : Option Nat) (reason : String)
  | offerJob (agent : Enrollment) (findings : Findings)
  | claimJob (agent : Enrollment) (jobId inputDigest : String) (findings : Findings)
  | reportJob (agent : Enrollment) (jobId : String) (result : State.Result) (findings : Findings)
  | createSession (id generation : String) (request : State.SessionRequest)
  | renewSession (id actor : String) (owner : Option Nat)
  | closeSession (id actor : String) (owner : Option Nat)
  | queueInput (id session actor eventType : String) (payload : Value)
  | frameCycle (agent : Enrollment) (cycle : State.FrameCycle)
  | inputCycle (agent : Enrollment) (cycle : State.InputCycle)
  | authorizeBrowser (id : String) (request : State.BrowserRequest) (newClaim : String) (later : Time)
  | nativeContact (id generation : String)
  | nativeReady (id claim : String)
  | nativeClose (id claim failure : String)

/-- What a request is answered with. -/
inductive Reply where
  | done
  | job (job : ManagementJob)
  | offer (document : Option State.JobDocument)
  | claim (reply : State.ClaimReply)
  | session (session : ConsoleSession)
  | occupied (session : ConsoleSession)
  | assigned (active : Bool) (assignment : Option State.Assignment)

/-- Perform a request. -/
def State.perform (s : State) : Event → Except ServerError (State × Reply)
  | .change world later => .ok ({ s with toWorld := world, now := later }, .done)
  | .createJob id request findings => do
    let (t, job) ← s.createManagementJob id request findings
    return (t, .job job)
  | .withdrawJobs tenant actor reason => .ok (s.withdrawManagementJobs tenant actor reason, .done)
  | .offerJob agent findings => do
    let (t, document) ← s.offerManagementJob agent findings
    return (t, .offer document)
  | .claimJob agent jobId inputDigest findings => do
    let (t, reply) ← s.claimManagementJob agent jobId inputDigest findings
    return (t, .claim reply)
  | .reportJob agent jobId result findings => do
    let (t, job) ← s.recordManagementResult agent jobId result findings
    return (t, .job job)
  | .createSession id generation request => do
    let (t, session) ← s.createConsoleSession id generation request
    match session with
    | .ok session => return (t, .session session)
    | .error other => return (t, .occupied other)
  | .renewSession id actor owner => do
    let (t, session) ← s.renewConsoleSession id actor owner
    return (t, .session session)
  | .closeSession id actor owner => do
    let (t, session) ← s.closeConsoleSession id actor owner
    return (t, .session session)
  | .queueInput id session actor eventType payload => do
    let (t, _) ← s.queueConsoleInput id session actor eventType payload
    return (t, .done)
  | .frameCycle agent cycle => do
    let (t, assignment) ← s.processConsoleCycle agent cycle
    return (t, .assigned assignment.isSome assignment)
  | .inputCycle agent cycle => do
    let (t, active, assignment) ← s.processConsoleInputCycle agent cycle
    return (t, .assigned active assignment)
  | .authorizeBrowser id request newClaim later => do
    let (t, session) ← s.authorizeBrowser id request newClaim later
    return ({ t with now := later }, .session session)
  | .nativeContact id generation => .ok (s.recordNativeContact id generation, .done)
  | .nativeReady id claim => do
    let t ← s.markNativeReady id claim
    return (t, .done)
  | .nativeClose id claim failure => do
    let t ← s.closeNative id claim failure
    return (t, .done)

/-- The clock an event reads does not go back. -/
def Event.Timely (s : State) : Event → Prop
  | .change _ later | .authorizeBrowser _ _ _ later => s.now ≤ later
  | _ => True

/-- A step: a request that is accepted, with its reply. -/
def Step (s : State) (l : Event × Reply) (t : State) : Prop :=
  s.perform l.1 = .ok (t, l.2) ∧ l.1.Timely s

/-- What a step did: the request it performed was accepted. -/
inductive Did (s : State) : Event × Reply → State → Prop where
  | change {world later} (h : s.now ≤ later) :
    Did s (.change world later, .done) { s with toWorld := world, now := later }
  | createJob {id request findings t job}
    (h : s.createManagementJob id request findings = .ok (t, job)) :
    Did s (.createJob id request findings, .job job) t
  | withdrawJobs {tenant actor reason} :
    Did s (.withdrawJobs tenant actor reason, .done)
      (s.withdrawManagementJobs tenant actor reason)
  | offerJob {agent findings t document}
    (h : s.offerManagementJob agent findings = .ok (t, document)) :
    Did s (.offerJob agent findings, .offer document) t
  | claimJob {agent jobId digest findings t reply}
    (h : s.claimManagementJob agent jobId digest findings = .ok (t, reply)) :
    Did s (.claimJob agent jobId digest findings, .claim reply) t
  | reportJob {agent jobId result findings t job}
    (h : s.recordManagementResult agent jobId result findings = .ok (t, job)) :
    Did s (.reportJob agent jobId result findings, .job job) t
  | createSession {id generation request t session}
    (h : s.createConsoleSession id generation request = .ok (t, .ok session)) :
    Did s (.createSession id generation request, .session session) t
  | occupied {id generation request t other}
    (h : s.createConsoleSession id generation request = .ok (t, .error other)) :
    Did s (.createSession id generation request, .occupied other) t
  | renewSession {id actor owner t session}
    (h : s.renewConsoleSession id actor owner = .ok (t, session)) :
    Did s (.renewSession id actor owner, .session session) t
  | closeSession {id actor owner t session}
    (h : s.closeConsoleSession id actor owner = .ok (t, session)) :
    Did s (.closeSession id actor owner, .session session) t
  | queueInput {id session actor eventType payload t event}
    (h : s.queueConsoleInput id session actor eventType payload = .ok (t, event)) :
    Did s (.queueInput id session actor eventType payload, .done) t
  | frameCycle {agent cycle t assignment}
    (h : s.processConsoleCycle agent cycle = .ok (t, assignment)) :
    Did s (.frameCycle agent cycle, .assigned assignment.isSome assignment) t
  | inputCycle {agent cycle t active assignment}
    (h : s.processConsoleInputCycle agent cycle = .ok (t, active, assignment)) :
    Did s (.inputCycle agent cycle, .assigned active assignment) t
  | authorizeBrowser {id request claim later t session} (htimely : s.now ≤ later)
    (h : s.authorizeBrowser id request claim later = .ok (t, session)) :
    Did s (.authorizeBrowser id request claim later, .session session) { t with now := later }
  | nativeContact {id generation} :
    Did s (.nativeContact id generation, .done) (s.recordNativeContact id generation)
  | nativeReady {id claim t} (h : s.markNativeReady id claim = .ok t) :
    Did s (.nativeReady id claim, .done) t
  | nativeClose {id claim failure t} (h : s.closeNative id claim failure = .ok t) :
    Did s (.nativeClose id claim failure, .done) t

/-- Every step did what its request says. -/
theorem Step.did {s t : State} {l : Event × Reply} (h : Step s l t) : Did s l t := by
  obtain ⟨event, reply⟩ := l
  obtain ⟨h, htimely⟩ := h
  cases event with
  | change =>
    cases h
    exact .change htimely
  | withdrawJobs =>
    cases h
    exact .withdrawJobs
  | nativeContact =>
    cases h
    exact .nativeContact
  | createSession =>
    obtain ⟨⟨u, session⟩, hu, h⟩ := bind_eq_ok.mp h
    cases session with
    | ok session =>
      cases h
      exact .createSession hu
    | error other =>
      cases h
      exact .occupied hu
  | authorizeBrowser =>
    obtain ⟨u, hu, h⟩ := bind_eq_ok.mp h
    cases h
    exact .authorizeBrowser htimely hu
  | _ =>
    obtain ⟨u, hu, h⟩ := bind_eq_ok.mp h
    cases h
    constructor
    exact hu

/-- A control plane without jobs and sessions. -/
def State.Blank (s : State) : Prop := s.jobs.rows = [] ∧ s.sessions.rows = [] ∧ s.inputs.rows = []

/-! ## Concrete runs -/

instance (s : State) (event : Event) : Decidable (event.Timely s) := by
  cases event <;> unfold Event.Timely <;> infer_instance

/-- The replies to a list of requests and the state after them, where each is a step. -/
def State.performAll (s : State) : List Event → Option (List (Event × Reply) × State)
  | [] => some ([], s)
  | event :: events =>
    match s.perform event with
    | .error _ => none
    | .ok (t, reply) =>
      if event.Timely s then
        (t.performAll events).map fun (ls, u) => ((event, reply) :: ls, u)
      else none

theorem State.run_of_performAll {s t : State} {events : List Event} {ls : List (Event × Reply)}
    (h : s.performAll events = some (ls, t)) : Run Step s ls t := by
  induction events generalizing s ls with
  | nil =>
    cases h
    exact .nil _
  | cons event events ih =>
    simp only [performAll] at h
    split at h
    · cases h
    · next u reply hperform =>
        split at h
        · next htimely =>
            obtain ⟨⟨ks, v⟩, hrest, hlabels⟩ := Option.map_eq_some_iff.mp h
            cases hlabels
            exact .cons ⟨hperform, htimely⟩ (ih hrest)
        · cases h

/-- An agent. -/
def sampleEnrollment : Enrollment :=
  ⟨⟨"enrollment", "tenant", "uri", .windows, .active, some 0⟩, some 0, false⟩

/-- A running machine. -/
def sampleMachine : VirtualMachine := ⟨"vm", "tenant", "host", "source", "machine", "running"⟩

/-- The agent, its host with the machine, and users who may do everything. -/
def sampleState : State where
  tenants := ⟨[⟨"tenant", .active, .infrastructure⟩], by decide⟩
  enrollments := [sampleEnrollment]
  hosts := [⟨⟨"host", "tenant", "uri", "agent", "", "", "host.example", "0.2.27"⟩, "host",
    "collected"⟩]
  virtualMachines := ⟨[sampleMachine], by decide⟩
  hasTenantPermission := fun _ _ _ => true
  queuedActorAllowed := fun _ _ _ => true
  accountActive := fun _ => true
  usableCredentials := fun _ _ => true
  lifecyclePending := fun _ => false
  actionPending := fun _ _ => false
  deploymentPending := fun _ _ => false
  now := 0
  jobs := Table.empty
  sessions := Table.empty
  inputs := Table.empty

end Ipms.Server.HyperV
