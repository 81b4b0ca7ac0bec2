import Ipms.Lib.Table
import Ipms.Server.Tenancy

/-
  Ipms.Jobs.Server

  The jobs one agent is given: maintenance of the agent itself and power actions
  on its virtual machines.  The two kinds share their life: a job is queued,
  offered to the agent, reported as running and then as succeeded or failed, and
  its authority may be withdrawn on the way.
-/

namespace Ipms.Jobs

open Ipms.Lib Ipms.Server

/-! ## Jobs -/

/-- The two kinds of job. -/
inductive Kind where
  | lifecycle | vm
  deriving DecidableEq

/-- `Status`, the same six for both kinds. -/
inductive Status where
  | queued | delivered | running | succeeded | failed | cancelled
  deriving DecidableEq

/-- `ACTIVE_STATUSES`. -/
def Status.active : Status → Bool
  | queued | delivered | running => true
  | succeeded | failed | cancelled => false

/-- The statuses in which a job is still offered. -/
def Status.offered : Status → Bool
  | queued | delivered => true
  | _ => false

/-- `HyperVVirtualMachine.State`. -/
inductive VmState where
  | running | stopped | starting | stopping | paused | pausing | suspended | saving | resuming
  | quiesced | offline | unknown
  deriving DecidableEq

/-- `HyperVVirtualMachineActionJob.Action`. -/
inductive VmAction where
  | start | shutdown | stop | pause | resume
  deriving DecidableEq

def VmAction.allowedStates : VmAction → List VmState
  | start => [.stopped]
  | shutdown => [.running]
  | stop => [.running, .paused]
  | pause => [.running]
  | resume => [.paused]

/-- `EXPECTED_STATES`. -/
def VmAction.expectedState : VmAction → VmState
  | start => .running
  | shutdown => .stopped
  | stop => .stopped
  | pause => .paused
  | resume => .running

/-- What a job asks for. -/
inductive Action where
  | update (targetVersion artifactSha256 : String)
  | uninstall
  | vm (action : VmAction) (virtualMachine vmSourceId vmName : String)
  deriving DecidableEq

/-- The kind of a job with this action. -/
def Action.kind : Action → Kind
  | update .. | uninstall => .lifecycle
  | vm .. => .vm

/-- A job is found in the table of its kind under its id. -/
structure Ref where
  kind : Kind
  id : String
  deriving DecidableEq

/-- `AgentLifecycleJob` and `HyperVVirtualMachineActionJob`. -/
structure Job where
  id : String
  action : Action
  requestedBy : String
  status : Status
  authorityRevokedAt : Option Time
  resultCode : String
  deriving DecidableEq

/-- The key of a job. -/
def Job.ref (job : Job) : Ref := ⟨job.action.kind, job.id⟩

/-- The jobs of both tables. -/
abbrev JobTable := Table Job Ref Job.ref

/-! ## The control plane -/

/-- `HyperVVirtualMachine`. -/
structure VirtualMachine where
  sourceId : String
  name : String
  state : VmState
  deriving DecidableEq

/-- What the two kinds of job read and do not change. -/
structure Environment where
  /-- `has_tenant_permission` of the requester: `AGENTS_MANAGE` or `VIRTUAL_MACHINES_OPERATE` -/
  permitted : String → Kind → Bool
  /-- `_gpo_maintenance_allowed` -/
  maintenanceAllowed : Action → Bool
  /-- an HGS or a management operation of the agent that has not settled -/
  operationActive : Bool
  /-- `management_job_conflicts` -/
  managementConflicts : String → Bool
  /-- the version of the host's agent is `FIRST_CAPABLE_AGENT_VERSION` or later -/
  capable : Bool
  /-- `current_windows_agent_artifact`: the version and the digest of the binary -/
  artifact : Option (String × String)

/-- The control plane as one agent's jobs see it. -/
structure Server where
  jobs : JobTable
  tenant : TenantStatus
  /-- the enrollment is active -/
  enrolled : Bool
  machines : String → Option VirtualMachine
  env : Environment

def Server.queuedActorAllowed (s : Server) (actor : String) (kind : Kind) : Bool :=
  s.tenant == .active && s.env.permitted actor kind

/-- `withdraw_agent_job`. -/
def Job.withdraw (job : Job) (now : Time) (code : String) : Job :=
  if job.authorityRevokedAt.isSome then job
  else if job.status = .queued then
    { job with authorityRevokedAt := some now, resultCode := code, status := .cancelled }
  else { job with authorityRevokedAt := some now, resultCode := code }

/-- The code of a withdrawal where the requester lost the permission. -/
def permissionRevoked : String := "requester_permission_revoked"

/-- The action of a new maintenance job: an update pins the current artifact. -/
def Server.lifecycleAction (s : Server) (uninstall : Bool) : Option Action :=
  if uninstall then some .uninstall
  else s.env.artifact.map fun (version, digest) => .update version digest

def Server.createLifecycleJob (s : Server) (id actor : String) (uninstall : Bool) :
    Option Server := do
  guard (s.tenant = .active)
  guard (s.env.operationActive = false)
  guard (s.enrolled = true)
  guard (s.jobs.rows.any (fun job => job.action.kind == .lifecycle && job.status.active) = false)
  let action ← s.lifecycleAction uninstall
  guard (s.env.maintenanceAllowed action = true)
  let jobs ← s.jobs.insert ⟨id, action, actor, .queued, none, ""⟩
  pure { s with jobs }

/-- The virtual machine a job is about, as the agent names it. -/
def Action.vmSource? : Action → Option String
  | vm _ _ source _ => some source
  | update .. | uninstall => none

def Server.createHypervActionJob (s : Server) (id actor virtualMachine : String)
    (action : VmAction) : Option Server := do
  guard (s.tenant = .active)
  let vm ← s.machines virtualMachine
  guard (vm.state ∈ action.allowedStates)
  guard (s.env.capable = true)
  guard (s.enrolled = true)
  guard (s.env.managementConflicts virtualMachine = false)
  guard (s.jobs.rows.any
    (fun job => job.action.vmSource? == some vm.sourceId && job.status.active) = false)
  let jobs ← s.jobs.insert
    ⟨id, .vm action virtualMachine vm.sourceId vm.name, actor, .queued, none, ""⟩
  pure { s with jobs }

/-! ## Offers -/

/-- The jobs an offer chooses from, the newest first. -/
def Server.offerable (s : Server) (kind : Kind) : List Job :=
  s.jobs.rows.filter fun job =>
    job.action.kind == kind && job.authorityRevokedAt.isNone && job.status.offered

def Job.deliver (job : Job) : Job := { job with status := .delivered }

@[simp] theorem Job.ref_deliver (job : Job) : job.deliver.ref = job.ref := rfl

/-- What the two offers share: the oldest job that may be offered is delivered, unless a check
of its kind keeps it back or its requester is no longer allowed. -/
def Server.offerJob (s : Server) (kind : Kind) (check : Job → Bool) (now : Time) :
    Server × Option Job :=
  match (s.offerable kind).getLast? with
  | none => (s, none)
  | some job =>
    if check job = false then (s, none)
    else if s.queuedActorAllowed job.requestedBy kind = false then
      ({ s with jobs := s.jobs.save (job.withdraw now permissionRevoked) }, none)
    else if job.status = .queued then
      ({ s with jobs := s.jobs.save job.deliver }, some job)
    else (s, some job)

def Server.offerLifecycleJob (s : Server) (now : Time) : Server × Option Job :=
  s.offerJob .lifecycle (fun job => s.env.maintenanceAllowed job.action) now

def Server.offerHypervActionJob (s : Server) (now : Time) : Server × Option Job :=
  s.offerJob .vm (fun _ => true) now

/-! ## Results -/

/-- `RESULT_STATUSES`. -/
inductive Result where
  | running | succeeded | failed
  deriving DecidableEq

/-- The status a result stands for. -/
def Result.status : Result → Status
  | running => .running
  | succeeded => .succeeded
  | failed => .failed

/-- What the agent reports of a job, and what it keeps in its file. -/
structure Report where
  jobId : String
  result : Result
  resultCode : String
  deriving DecidableEq

/-- `RESULT_CODE_PATTERN.fullmatch`. -/
def resultCodeAllowed (code : String) : Bool :=
  decide (1 ≤ code.toList.length) && decide (code.toList.length ≤ 64) &&
    code.toList.all fun c => decide ('a' ≤ c) && decide (c ≤ 'z') || decide ('0' ≤ c) && decide (c ≤ '9') ||
      c == '_'

def Job.withResult (job : Job) (report : Report) : Job :=
  { job with status := report.result.status, resultCode := report.resultCode }

@[simp] theorem Job.ref_withResult (job : Job) (report : Report) :
    (job.withResult report).ref = job.ref := rfl

/-- What the two records of a result share; `check` is asked about a job that starts. -/
def Job.record? (job : Job) (check : Job → Bool) (report : Report) : Option Job := do
  guard (job.status.active = true)
  guard (report.result = .running → job.status = .delivered ∧ check job = true)
  guard (report.result ≠ .running → job.status = .running)
  pure (job.withResult report)

def Server.recordLifecycleResult (s : Server) (report : Report) : Option Server := do
  let job ← s.jobs.get? ⟨.lifecycle, report.jobId⟩
  let recorded ← job.record? (fun job => s.env.maintenanceAllowed job.action) report
  guard (resultCodeAllowed report.resultCode = true)
  pure { s with jobs := s.jobs.save recorded }

/-- A success that changes the stored state of the virtual machine. -/
def Server.confirms (s : Server) (job : Job) (report : Report) : Bool :=
  report.result == .succeeded && job.authorityRevokedAt.isNone && s.tenant == .active

/-- The virtual machines after the success of an action. -/
def Server.confirm (s : Server) : Action → String → Option VirtualMachine
  | .vm action virtualMachine _ _ => fun id =>
    if id = virtualMachine then
      (s.machines id).map fun vm => { vm with state := action.expectedState }
    else s.machines id
  | .update .. | .uninstall => s.machines

def Server.recordHypervActionResult (s : Server) (report : Report) : Option Server := do
  guard (resultCodeAllowed report.resultCode = true)
  let job ← s.jobs.get? ⟨.vm, report.jobId⟩
  let recorded ← job.record? (fun _ => true) report
  pure { s with
    jobs := s.jobs.save recorded
    machines := if s.confirms job report then s.confirm job.action else s.machines }

/-- The record of a result of either kind. -/
def Server.record (s : Server) : Kind → Report → Option Server
  | .lifecycle => s.recordLifecycleResult
  | .vm => s.recordHypervActionResult

/-- `lifecycle_artifact`: a refusal after `withdraw_agent_job` rolls the withdrawal back. -/
def Server.lifecycleArtifact (s : Server) (jobId : String) : Option String := do
  guard (s.tenant = .active)
  let job ← s.jobs.get? ⟨.lifecycle, jobId⟩
  guard (job.authorityRevokedAt = none)
  guard (job.status = .delivered ∨ job.status = .running)
  guard (s.queuedActorAllowed job.requestedBy .lifecycle = true)
  let (version, digest) ← s.env.artifact
  guard (job.action = .update version digest)
  guard (s.env.maintenanceAllowed job.action = true)
  pure digest

/-! ## Withdrawals -/

/-- The withdrawal of an active job that is among the chosen ones. -/
def withdrawChosen (chosen : Job → Bool) (now : Time) (code : String) (job : Job) : Job :=
  if chosen job && job.status.active then job.withdraw now code else job

/-- The cancellation of active maintenance. -/
def Job.cancelMaintenance (job : Job) : Job :=
  if job.action.kind == .lifecycle && job.status.active then
    { job with status := .cancelled, resultCode := "enrollment_removed" }
  else job

@[simp] theorem Job.ref_withdraw (job : Job) (now : Time) (code : String) :
    (job.withdraw now code).ref = job.ref := by
  unfold Job.withdraw
  split
  · rfl
  · split <;> rfl

theorem ref_withdrawChosen (chosen : Job → Bool) (now : Time) (code : String) (job : Job) :
    (withdrawChosen chosen now code job).ref = job.ref := by
  unfold withdrawChosen
  split
  · exact job.ref_withdraw now code
  · rfl

theorem Job.ref_cancelMaintenance (job : Job) : job.cancelMaintenance.ref = job.ref := by
  unfold Job.cancelMaintenance
  split <;> rfl

/-- The update both withdrawals make to the two tables. -/
def withdrawAll (jobs : JobTable) (chosen : Job → Bool) (now : Time) (code : String) : JobTable :=
  jobs.mapRows (withdrawChosen chosen now code) (ref_withdrawChosen chosen now code)

def Server.withdrawIdentityOperations (s : Server) (actor : String) (now : Time)
    (reason : String) : Server :=
  { s with jobs := withdrawAll s.jobs (fun job => job.requestedBy == actor) now reason }

/-- A change of the tenant's status, followed by `apply_tenant_status_change`. -/
def Server.applyTenantStatusChange (s : Server) (status : TenantStatus) (now : Time) : Server :=
  if status = .active ∨ s.tenant = status then { s with tenant := status }
  else { s with
    tenant := status
    jobs := withdrawAll s.jobs (fun _ => true) now "tenant_suspended" }

/-- The removal of the enrollment cancels its maintenance. -/
def Server.removeEnrollment (s : Server) : Server :=
  { s with
    enrolled := false
    jobs := s.jobs.mapRows Job.cancelMaintenance Job.ref_cancelMaintenance }

end Ipms.Jobs
