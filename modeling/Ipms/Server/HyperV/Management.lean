import Ipms.Server.HyperV.Records

/-
  Ipms.Server.HyperV.Management

  The requests about Hyper-V management jobs: a user queues a job, an agent is
  offered it, claims it once and reports results, and withdrawn authority ends it
  before a claim and leaves it observable after one.  The checks of documents
  (parameters, snapshots, the lease of a settings dialog) decide nothing about the
  life of a job; what they find is an input of the request.
-/

namespace Ipms.Server.HyperV

open Ipms.Lib Ipms.ManagementJson
open Ipms.Agent.Gpo (seconds)

/-- What the checks of documents find: the first refusal, if any, of the parameters, of the lease
of a settings dialog and of the snapshot. -/
structure Findings where
  parameters : Option ServerError := none
  settingsLease : Option ServerError := none
  snapshot : Option ServerError := none

/-- A finding is raised. -/
def raise : Option ServerError → Except ServerError Unit
  | none => .ok ()
  | some e => .error e

@[simp] theorem raise_eq_ok {finding : Option ServerError} {u : Unit} :
    raise finding = .ok u ↔ finding = none := by
  cases finding <;> simp [raise]

/-- A row that has to be there. -/
def found {α : Type} (row : Option α) (e : ServerError) : Except ServerError α :=
  match row with
  | none => .error e
  | some a => .ok a

@[simp] theorem found_eq_ok {α : Type} {row : Option α} {e : ServerError} {a : α} :
    found row e = .ok a ↔ row = some a := by
  cases row <;> simp [found]

/-- The latest contact of an agent. -/
def Enrollment.contact (e : Enrollment) : Option Time :=
  match e.lastHeartbeatAt, e.lastSeenAt with
  | some a, some b => some (if a ≤ b then b else a)
  | some a, none => some a
  | none, b => b

/-- `_withdraw`: the row of a job that lost its authority. -/
def ManagementJob.withdraw (job : ManagementJob) (code : String) (now : Time) : ManagementJob :=
  let revoked := { job with authorityRevokedAt := some (job.authorityRevokedAt.getD now) }
  if job.status = .queued ∨ job.status = .delivered then
    { revoked with status := .cancelled, completedAt := some now, resultCode := code }
  else revoked

namespace State

variable (s : State)

/-! ## Common checks -/

/-- `_tenant`. -/
def openTenant (id : String) (active : Bool) : Except ServerError Tenant := do
  let tenant ← found (s.tenants.get? id) .notFound
  throwIf (active = true ∧ tenant.status ≠ .active) (deny "management_tenant_unavailable")
  return tenant

def freshActor (actor : Nat) (tenant : String) (operation : Operation) : Except ServerError Unit :=
  throwIf (s.hasTenantPermission actor tenant operation.permission = false) (deny "forbidden" 403)

def eligible (vm : VirtualMachine) (host : Host) (e : Enrollment) : Except ServerError Unit := do
  throwIf (vm.tenant ≠ e.tenant ∨ host.tenant ≠ e.tenant ∨ host.sourceId ≠ e.deviceUri ∨
    e.status ≠ .active ∨ e.platform ≠ .windows ∨ host.inventorySource ≠ "agent" ∨
    host.hypervInventoryStatus ≠ "collected") (deny "management_agent_unavailable")
  throwIf (versionFrom host.agentVersion (0, 2, 27) = false)
    (deny "management_agent_upgrade_required")
  throwIf (e.contact.all (fun t => decide (t < s.now - seconds 45) ||
    decide (s.now + seconds 5 < t)) = true) (deny "management_agent_unavailable")

def reportingEnrollment (authenticated : Enrollment) : Except ServerError Enrollment := do
  let e ← found ((s.enrollment? authenticated.id).filter fun e =>
    e.tenant == authenticated.tenant && e.status == .active && e.platform == .windows)
    (deny "management_agent_unavailable")
  let host := s.hosts.find? fun h =>
    h.tenant == e.tenant && h.sourceId == e.deviceUri && h.inventorySource == "agent"
  throwIf (host.all (fun h => !versionFrom h.agentVersion (0, 2, 27)) = true)
    (deny "management_agent_upgrade_required")
  return e

def lockedVm (tenant vmId : String) (expected : Option String := none) :
    Except ServerError (VirtualMachine × Host × Enrollment) := do
  let vm ← found ((s.virtualMachines.get? vmId).filter (·.tenant == tenant))
    (deny "management_vm_not_found" 404)
  let host ← found (s.host? vm.host) .notFound
  let e ← found (s.enrollments.find? fun e => e.tenant == tenant && e.deviceUri == host.sourceId)
    (deny "management_agent_unavailable")
  throwIf (expected.any (fun id => e.id != id) = true) (deny "management_agent_unavailable")
  s.eligible vm host e
  return (vm, host, e)

def activeManagementJobs (tenant enrollment vmSourceId : String) : List ManagementJob :=
  s.jobs.rows.filter fun j =>
    j.tenant == tenant && j.status.active && j.enrollment == enrollment &&
      j.vmSourceId == vmSourceId

/-- A console session whose lease is in force keeps a machine from being reset. -/
def consoleActive (tenant enrollment vmSourceId : String) : Bool :=
  s.sessions.rows.any fun x =>
    x.tenant == tenant && x.enrollment == enrollment && x.vmSourceId == vmSourceId &&
      x.status.isOpen && decide (s.now < x.leaseExpiresAt)

def checkConflicts (vm : VirtualMachine) (host : Host) (e : Enrollment) (operation : Operation)
    (exclude : Option String := none) : Except ServerError Unit := do
  throwIf (((s.activeManagementJobs vm.tenant e.id vm.sourceId).any fun j =>
      exclude.all fun id => j.id != id) = true ∨ s.deploymentPending e host = true ∨
    s.lifecyclePending e.id = true ∨ s.actionPending e.id vm.sourceId = true)
    (deny "management_operation_conflict")
  throwIf (operation = .checkpointApply ∧ s.consoleActive vm.tenant e.id vm.sourceId = true)
    (deny "management_console_active")

/-! ## Creation -/

/-- What a user asks for. -/
structure JobRequest where
  virtualMachine : String
  tenant : String
  actor : Nat
  requestId : String
  operation : Operation
  expectedRevision : String
  parameters : Value
  /-- the dialog and its session, for a settings update -/
  settings : Option (String × String)

def operationText : Operation → String
  | .inspect => "inspect"
  | .checkpointCreate => "checkpoint_create"
  | .checkpointDelete => "checkpoint_delete"
  | .checkpointApply => "checkpoint_apply"
  | .settingsUpdate => "settings_update"

def JobRequest.digest (r : JobRequest) : String :=
  Server.digest (.obj ([("actor_id", .str (toString r.actor)),
    ("expected_revision", .str r.expectedRevision), ("operation", .str (operationText r.operation)),
    ("parameters", r.parameters)] ++
    (match r.settings with
      | none => []
      | some (dialog, session) =>
        [("settings_dialog_id", .str dialog), ("settings_session", .str session)]) ++
    [("tenant_id", .str r.tenant), ("vm_id", .str r.virtualMachine)]))

/-- The row of a new job. -/
def newJob (id : String) (r : JobRequest) (vm : VirtualMachine) (e : Enrollment) : ManagementJob where
  id
  requestId := r.requestId
  requestDigest := r.digest
  inputDigest := Server.digest (.obj [("enrollment_id", .str e.id),
    ("expected_revision", .str r.expectedRevision), ("operation", .str (operationText r.operation)),
    ("parameters", r.parameters), ("request_digest", .str r.digest), ("schema", .int 1),
    ("vm_name", .str vm.name), ("vm_source_id", .str vm.sourceId)])
  tenant := r.tenant
  actor := r.actor
  enrollment := e.id
  virtualMachine := some vm.id
  vmSourceId := vm.sourceId
  vmName := vm.name
  operation := r.operation
  expectedRevision := r.expectedRevision
  parameters := r.parameters
  createdAt := s.now

/-- `HyperVManagementJob.objects.create`; a violated constraint is a conflicting request. -/
def insertJob (job : ManagementJob) : Except ServerError State := do
  throwIf (s.jobs.rows.any (fun k => job.conflicts k || k.requestId == job.requestId) = true)
    (deny "management_request_conflict")
  let jobs ← found (s.jobs.insert job) (deny "management_request_conflict")
  return { s with jobs }

/-- A request that has been made before. -/
def replayRequest (r : JobRequest) (prior : ManagementJob) : Except ServerError ManagementJob := do
  throwIf (prior.requestDigest ≠ r.digest ∨ prior.actor ≠ r.actor ∨ prior.tenant ≠ r.tenant)
    (deny "management_request_conflict")
  return prior

def createManagementJob (id : String) (r : JobRequest) (findings : Findings) :
    Except ServerError (State × ManagementJob) := do
  raise findings.parameters
  let tenant ← s.openTenant r.tenant true
  s.freshActor r.actor tenant.id r.operation
  match s.jobs.rows.find? (·.requestId == r.requestId) with
  | some prior => do
    let job ← replayRequest r prior
    return (s, job)
  | none => do
    let (vm, host, e) ← s.lockedVm tenant.id r.virtualMachine
    raise findings.settingsLease
    s.checkConflicts vm host e r.operation
    raise findings.snapshot
    let job := s.newJob id r vm e
    let s ← s.insertJob job
    return (s, job)

/-! ## Withdrawal -/

/-- The jobs `withdraw_management_jobs` selects. -/
def withdrawn (tenant : String) (actor : Option Nat) (j : ManagementJob) : Bool :=
  j.tenant == tenant && j.status.active && j.authorityRevokedAt.isNone &&
    actor.all fun id => j.actor == id

theorem withdraw_id (code : String) (now : Time) (j : ManagementJob) :
    (j.withdraw code now).id = j.id := by
  unfold ManagementJob.withdraw
  split <;> rfl

/-- The row behind `withdraw_management_jobs`. -/
def withdrawSelected (tenant : String) (actor : Option Nat) (reason : String) (now : Time)
    (j : ManagementJob) : ManagementJob :=
  if withdrawn tenant actor j = true then j.withdraw reason now else j

theorem withdrawSelected_id (tenant : String) (actor : Option Nat) (reason : String) (now : Time)
    (j : ManagementJob) : (withdrawSelected tenant actor reason now j).id = j.id := by
  unfold withdrawSelected
  split
  · exact withdraw_id reason now j
  · rfl

def withdrawManagementJobs (tenant : String) (actor : Option Nat) (reason : String) : State :=
  let jobs := s.jobs.mapRows (withdrawSelected tenant actor reason s.now)
    (withdrawSelected_id tenant actor reason s.now)
  { s with jobs }

/-! ## Exchanges with the agent -/

structure JobDocument where
  jobId : String
  enrollmentId : String
  vmSourceId : String
  vmName : String
  operation : Operation
  expectedRevision : String
  parameters : Value
  inputDigest : String
  status : JobStatus
  mode : String
  deriving DecidableEq

def document (job : ManagementJob) (mode : String) : JobDocument where
  jobId := job.id
  enrollmentId := job.enrollment
  vmSourceId := job.vmSourceId
  vmName := job.vmName
  operation := job.operation
  expectedRevision := job.expectedRevision
  parameters := job.parameters
  inputDigest := job.inputDigest
  status := job.status
  mode

def executionChecks (job : ManagementJob) (findings : Findings) : Except ServerError Unit := do
  throwIf (job.authorityRevokedAt.isSome = true) (deny "management_authority_withdrawn")
  s.freshActor job.actor job.tenant job.operation
  raise findings.parameters
  let vmId ← found job.virtualMachine (deny "management_vm_not_found" 404)
  let (vm, host, e) ← s.lockedVm job.tenant vmId (some job.enrollment)
  throwIf (vm.sourceId ≠ job.vmSourceId ∨ vm.name ≠ job.vmName)
    (deny "management_revision_changed")
  s.checkConflicts vm host e job.operation (some job.id)
  raise findings.snapshot

/-- `order_by("created_at", "pk").first()`. -/
def firstJob (jobs : List ManagementJob) : Option ManagementJob :=
  jobs.foldl (fun found j => match found with
    | none => some j
    | some best =>
      if j.createdAt < best.createdAt ∨ j.createdAt = best.createdAt ∧ j.id < best.id then some j
      else some best) none

/-- The row of a job that is handed out for the first time. -/
def deliver (job : ManagementJob) : ManagementJob :=
  if job.status = .queued then { job with status := .delivered, deliveredAt := some s.now } else job

def offerManagementJob (authenticated : Enrollment) (findings : Findings) :
    Except ServerError (State × Option JobDocument) := do
  let tenant ← s.openTenant authenticated.tenant false
  match s.reportingEnrollment authenticated with
  | .error _ => return (s, none)
  | .ok e =>
    match firstJob (s.jobs.rows.filter fun j =>
        j.tenant == tenant.id && j.status.active && j.enrollment == e.id) with
    | none => return (s, none)
    | some job =>
      if job.status.observable then return (s, some (document job "observe"))
      else match s.executionChecks job findings with
        | .ok () => return (s.saveJob (s.deliver job), some (document (s.deliver job) "claim"))
        | .error e => do
          let code ← found (publicCode e) e
          return (s.saveJob (job.withdraw code s.now), none)

/-- The job an agent names. -/
def namedJob (authenticated : Enrollment) (jobId : String) : Except ServerError ManagementJob := do
  let tenant ← s.openTenant authenticated.tenant false
  let e ← s.reportingEnrollment authenticated
  found ((s.jobs.get? jobId).filter fun j => j.tenant == tenant.id && j.enrollment == e.id)
    (deny "management_job_not_found" 404)

def managementJobStatus (authenticated : Enrollment) (jobId : String) :
    Except ServerError JobDocument := do
  let job ← s.namedJob authenticated jobId
  return document job (if job.status.observable then "observe" else job.status.text)

/-- What a claim is answered with. -/
structure ClaimReply where
  authorized : Bool
  mode : String
  expiresAt : Option Time := none
  job : JobDocument
  deriving DecidableEq

/-- The row of a claimed job. -/
def start (job : ManagementJob) : ManagementJob :=
  { job with
    status := .running, phase := "authorized", startedAt := some s.now
    executionLeaseExpiresAt := some (s.now + seconds 15) }

def claimManagementJob (authenticated : Enrollment) (jobId inputDigest : String)
    (findings : Findings) : Except ServerError (State × ClaimReply) := do
  let job ← s.namedJob authenticated jobId
  throwIf (inputDigest ≠ job.inputDigest) (deny "management_input_mismatch")
  if job.status.observable then
    return (s, ⟨false, "observe", none, document job "observe"⟩)
  else if job.status = .delivered then
    match s.executionChecks job findings with
    | .ok () =>
      return (s.saveJob (s.start job), ⟨true, "execute", (s.start job).executionLeaseExpiresAt,
        document (s.start job) "execute"⟩)
    | .error e => do
      let code ← found (publicCode e) e
      let job := job.withdraw code s.now
      return (s.saveJob job, ⟨false, "cancelled", none, document job "observe"⟩)
  else throw (deny "management_job_not_claimable")

/-! ## Results -/

/-- The statuses an agent reports. -/
inductive ReportedStatus where
  | running | succeeded | failed | requiresReconciliation
  deriving DecidableEq

/-- The status a report gives a job. -/
def ReportedStatus.jobStatus : ReportedStatus → JobStatus
  | .running => .running
  | .succeeded => .succeeded
  | .failed => .failed
  | .requiresReconciliation => .requiresReconciliation

/-- A result as the agent reports it. -/
structure Result where
  status : ReportedStatus
  phase : String
  progress : Option Int
  resultCode : String
  snapshot : Option Value
  deriving DecidableEq

/-- `CODE`. -/
def validCode (code : String) : Bool :=
  match code.toList with
  | [] => false
  | c :: cs => decide ('a' ≤ c) && decide (c ≤ 'z') && decide (cs.length ≤ 63) &&
      cs.all fun c => decide ('a' ≤ c) && decide (c ≤ 'z') || c.isDigit || c == '_'

def Result.digest (r : Result) : String :=
  Server.digest (.obj [("phase", .str r.phase), ("progress", (r.progress.map Value.int).getD .null),
    ("result_code", .str r.resultCode), ("snapshot", r.snapshot.getD .null),
    ("status", .str r.status.jobStatus.text)])

/-- The row of a job with a result. -/
def report (job : ManagementJob) (r : Result) : ManagementJob :=
  { job with
    status := r.status.jobStatus, phase := r.phase, progress := r.progress
    resultCode := r.resultCode, resultDigest := r.digest
    completedAt := if r.status.jobStatus.terminal then some s.now else job.completedAt }

/-- The name a succeeded change of the general settings gives the machine. -/
def renamed (job : ManagementJob) (r : Result) : Option String :=
  if job.operation = .settingsUpdate ∧ job.parameters.str? "section" = some "general" ∧
      r.status = .succeeded then
    some (((job.parameters.get? "values").bind (·.str? "name")).getD job.vmName)
  else none

/-- The machine behind a result with a snapshot: its name follows a succeeded change. -/
def observeMachine (job : ManagementJob) (r : Result) (tenant : Tenant) (e : Enrollment) : State :=
  if r.snapshot.isSome ∧ job.authorityRevokedAt = none ∧ tenant.status = .active then
    match job.virtualMachine.bind s.virtualMachines.get?, renamed job r with
    | some vm, some name =>
      if vm.tenant = tenant.id ∧ vm.sourceId = job.vmSourceId ∧
          (s.host? vm.host).any (·.sourceId == e.deviceUri) = true then
        { s with virtualMachines := s.virtualMachines.save { vm with name } }
      else s
    | _, _ => s
  else s

/-- `record_management_result`.  The findings are those of the snapshot: that it is well formed, that
it is the job's machine, and that it shows what the job asked for. -/
def recordManagementResult (authenticated : Enrollment) (jobId : String) (r : Result)
    (findings : Findings) : Except ServerError (State × ManagementJob) := do
  let tenant ← s.openTenant authenticated.tenant false
  let e ← s.reportingEnrollment authenticated
  throwIf (validCode r.phase = false ∨ validCode r.resultCode = false) (deny "invalid_request" 400)
  throwIf (r.progress.any (fun n => decide (n < 0) || decide (100 < n)) = true)
    (deny "invalid_request" 400)
  raise findings.parameters
  let job ← s.namedJob authenticated jobId
  if job.status.terminal then do
    throwIf (job.resultDigest ≠ r.digest) (deny "management_result_conflict")
    return (s, job)
  else do
    throwIf (job.status.observable = false) (deny "management_result_transition_invalid")
    if job.resultDigest = r.digest then return (s, job)
    else do
      throwIf (job.status = .requiresReconciliation ∧ r.status = .running)
        (deny "management_result_transition_invalid")
      raise findings.snapshot
      throwIf (r.status = .succeeded ∧ r.snapshot = none) (deny "management_snapshot_required")
      let job := s.report job r
      return ((s.saveJob job).observeMachine job r tenant e, job)

end State

end Ipms.Server.HyperV
