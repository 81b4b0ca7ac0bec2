import Ipms.Lib.Fallible
import Ipms.Server.Gpo.Records

/-
  Ipms.Server.HyperV.Records

  The rows the control plane keeps about the virtual machines of a host: the
  management jobs an agent executes and the console sessions a browser opens.
  Other modules decide about maintenance, permissions and credentials; what these
  requests read of them are functions of the state, which may change at any time.
-/

namespace Ipms.Server.HyperV

open Ipms.Lib Ipms.ManagementJson

/-! ## Inventory -/

/-- `AgentEnrollment`, with the contact of its agent and whether it was revoked. -/
structure Enrollment extends Gpo.AgentEnrollment where
  lastSeenAt : Option Time
  revoked : Bool
  deriving DecidableEq

/-- `WindowsServer`, as the host of virtual machines. -/
structure Host extends Gpo.WindowsServer where
  hostname : String
  hypervInventoryStatus : String
  deriving DecidableEq

/-- `HyperVVirtualMachine`. -/
structure VirtualMachine where
  id : String
  tenant : String
  host : String
  sourceId : String
  name : String
  state : String
  deriving DecidableEq

/-- The permissions these requests ask for. -/
inductive Permission where
  | inventoryView | checkpointsManage | configure | consoleControl
  deriving DecidableEq

/-! ## Management jobs -/

/-- `HyperVManagementJob.Operation`. -/
inductive Operation where
  | inspect | checkpointCreate | checkpointDelete | checkpointApply | settingsUpdate
  deriving DecidableEq

/-- `OPERATION_PERMISSIONS`. -/
def Operation.permission : Operation → Permission
  | .inspect => .inventoryView
  | .settingsUpdate => .configure
  | _ => .checkpointsManage

/-- `HyperVManagementJob.Status`. -/
inductive JobStatus where
  | queued | delivered | running | succeeded | failed | cancelled | requiresReconciliation
  deriving DecidableEq

namespace JobStatus

/-- `ACTIVE_STATUSES`. -/
def active : JobStatus → Bool
  | queued | delivered | running | requiresReconciliation => true
  | _ => false

/-- `TERMINAL_STATUSES`. -/
def terminal : JobStatus → Bool
  | succeeded | failed | cancelled => true
  | _ => false

/-- `OBSERVABLE_STATUSES`. -/
def observable : JobStatus → Bool
  | running | requiresReconciliation => true
  | _ => false

def text : JobStatus → String
  | queued => "queued"
  | delivered => "delivered"
  | running => "running"
  | succeeded => "succeeded"
  | failed => "failed"
  | cancelled => "cancelled"
  | requiresReconciliation => "requires_reconciliation"

theorem terminal_eq (s : JobStatus) : s.terminal = !s.active := by
  cases s <;> rfl

end JobStatus

/-- `HyperVManagementJob`. -/
structure ManagementJob where
  id : String
  requestId : String
  requestDigest : String
  inputDigest : String
  tenant : String
  actor : Nat
  enrollment : String
  virtualMachine : Option String
  vmSourceId : String
  vmName : String
  operation : Operation
  expectedRevision : String
  parameters : Value
  status : JobStatus := .queued
  phase : String := ""
  progress : Option Int := none
  resultCode : String := ""
  resultDigest : String := ""
  executionLeaseExpiresAt : Option Time := none
  authorityRevokedAt : Option Time := none
  createdAt : Time
  deliveredAt : Option Time := none
  startedAt : Option Time := none
  completedAt : Option Time := none
  deriving DecidableEq

/-- Two jobs that the constraint does not allow side by side. -/
def ManagementJob.conflicts (j k : ManagementJob) : Bool :=
  j.enrollment == k.enrollment && j.vmSourceId == k.vmSourceId && j.status.active && k.status.active

/-! ## Console sessions -/

/-- `HyperVConsoleSession.Transport`. -/
inductive Transport where
  | thumbnail | vmconnect
  deriving DecidableEq

/-- `HyperVConsoleSession.Status`. -/
inductive SessionStatus where
  | requested | active | closed | failed | expired
  deriving DecidableEq

/-- `ACTIVE_STATUSES` of a session. -/
def SessionStatus.isOpen : SessionStatus → Bool
  | requested | active => true
  | _ => false

/-- The picture of a console. -/
structure Frame where
  sequence : Nat := 0
  width : Int := 0
  height : Int := 0
  png : Bytes := []
  deriving DecidableEq

/-- `HyperVConsoleSession`. -/
structure ConsoleSession where
  id : String
  tenant : String
  enrollment : String
  virtualMachine : Option String
  vmSourceId : String
  vmName : String
  requestedBy : String
  transport : Transport
  owner : Option Nat
  streamGeneration : Option String
  browserClaim : Option String := none
  status : SessionStatus := .requested
  leaseExpiresAt : Time
  frame : Frame := {}
  failureCode : String := ""
  createdAt : Time
  connectedAt : Option Time := none
  lastActivityAt : Time
  lastAgentContactAt : Option Time := none
  closedAt : Option Time := none
  deriving DecidableEq

/-- `HyperVConsoleInputEvent`; its payload is what the browser sent. -/
structure InputEvent where
  id : String
  session : String
  eventType : String
  payload : Value
  createdAt : Time
  deliveredAt : Option Time := none
  deriving DecidableEq

/-! ## The state -/

/-- What these requests read of the rest of the control plane. -/
structure World where
  tenants : Table Tenant String Tenant.id
  enrollments : List Enrollment
  hosts : List Host
  virtualMachines : Table VirtualMachine String VirtualMachine.id
  /-- `has_tenant_permission` of an account -/
  hasTenantPermission : Nat → String → Permission → Bool
  /-- `queued_actor_allowed` of a user name -/
  queuedActorAllowed : String → String → Permission → Bool
  /-- `is_active` of an account -/
  accountActive : Nat → Bool
  /-- `usable_credential_bindings` of an enrollment -/
  usableCredentials : String → String → Bool
  /-- an active `AgentLifecycleJob` of an enrollment -/
  lifecyclePending : String → Bool
  /-- an active `HyperVVirtualMachineActionJob` of an enrollment and a machine -/
  actionPending : String → String → Bool
  /-- `pending_agent_deployments` of an enrollment and its host -/
  deploymentPending : Enrollment → Host → Bool
  /-- the row the database returns first of those that an ordering leaves tied -/
  tied : List String → Nat := fun _ => 0

/-- The clock, what the requests read, and the tables they write. -/
structure State extends World where
  now : Time
  jobs : Table ManagementJob String ManagementJob.id
  sessions : Table ConsoleSession String ConsoleSession.id
  inputs : Table InputEvent String InputEvent.id

def deny (code : String) (status : Nat := 409) : ServerError := .publicApiError code status

/-- The code of a `PublicApiError`. -/
def publicCode : ServerError → Option String
  | .publicApiError code _ => some code
  | _ => none

namespace State

variable (s : State)

/-- `AgentEnrollment.objects.filter(pk=…)`. -/
def enrollment? (id : String) : Option Enrollment := s.enrollments.find? (·.id == id)

/-- `WindowsServer.objects.filter(pk=…)`. -/
def host? (id : String) : Option Host := s.hosts.find? (·.id == id)

/-- Save a job over its row. -/
def saveJob (job : ManagementJob) : State := { s with jobs := s.jobs.save job }

/-- Save a session over its row. -/
def saveSession (session : ConsoleSession) : State := { s with sessions := s.sessions.save session }

@[simp] theorem jobs_saveJob (job : ManagementJob) : (s.saveJob job).jobs = s.jobs.save job := rfl

@[simp] theorem sessions_saveJob (job : ManagementJob) : (s.saveJob job).sessions = s.sessions := rfl

@[simp] theorem jobs_saveSession (session : ConsoleSession) :
    (s.saveSession session).jobs = s.jobs := rfl

@[simp] theorem sessions_saveSession (session : ConsoleSession) :
    (s.saveSession session).sessions = s.sessions.save session := rfl

end State

/-- The number of a run of ASCII digits. -/
def versionPart (part : List Char) : Option Nat :=
  if part = [] ∨ !part.all Char.isDigit then none
  else some (part.foldl (fun n c => 10 * n + (c.toNat - '0'.toNat)) 0)

/-- The numbers of an agent version of three parts. -/
def versionTuple (version : String) : Option (Nat × Nat × Nat) :=
  match (version.toList.splitOn '.').mapM versionPart with
  | some [a, b, c] => some (a, b, c)
  | _ => none

/-- An agent version of at least the minimum. -/
def versionFrom (version : String) (minimum : Nat × Nat × Nat) : Bool :=
  (versionTuple version).any fun v => versionAtLeast v minimum

end Ipms.Server.HyperV
