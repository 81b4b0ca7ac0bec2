import Mathlib.Data.List.Sort
import Ipms.Lib.Fallible
import Ipms.Lib.Table
import Ipms.Server.Gpo.Records
import Ipms.Server.Hgs.PlanDocument
import Ipms.Server.Security.Scans
import Ipms.Server.Tenancy

/-
  Ipms.Server.Hgs.Records

  The rows of Host Guardian Service plans.  A plan carries its nodes in their
  ordinal order and its jobs in the order they were created, as `plan.nodes`
  and `plan.jobs` read them; an assignment is the contract document both sides
  share, and a receipt is the validated result document.
-/

namespace Ipms.Server.Hgs

open Ipms.Lib Ipms.ManagementJson Ipms.Crypto
open Ipms.Agent.Hgs (Operation NodeRole Config Observation Status)

/-! ## Statuses -/

/-- `HgsDeployment.status`. -/
inductive PlanStatus where
  | draft | inspecting | ready | blocked | running | waitingForReboot | reconciliationRequired
  | succeeded | failed | cancelled
  deriving DecidableEq

/-- `PLAN_ACTIVE`. -/
def PlanStatus.active : PlanStatus → Bool
  | draft | inspecting | ready | blocked | running | waitingForReboot | reconciliationRequired => true
  | _ => false

/-- The statuses of a plan that is being executed. -/
def PlanStatus.executing : PlanStatus → Bool
  | running | waitingForReboot | reconciliationRequired => true
  | _ => false

/-- `HgsJob.status`. -/
inductive JobStatus where
  | queued | offered | running | waitingForReboot | succeeded | failed | cancelled
  | reconciliationRequired
  deriving DecidableEq

namespace JobStatus

def active : JobStatus → Bool
  | queued | offered | running | waitingForReboot => true
  | _ => false

/-- `("queued", "offered")`. -/
def unclaimed : JobStatus → Bool
  | queued | offered => true
  | _ => false

/-- `("running", "waiting_for_reboot")`. -/
def claimed : JobStatus → Bool
  | running | waitingForReboot => true
  | _ => false

def terminal : JobStatus → Bool
  | succeeded | failed | cancelled | reconciliationRequired => true
  | _ => false

theorem terminal_eq (s : JobStatus) : s.terminal = !s.active := by
  cases s <;> rfl

theorem active_eq (s : JobStatus) : s.active = (s.unclaimed || s.claimed) := by
  cases s <;> rfl

end JobStatus

/-- `HgsNode.status`. -/
inductive NodeStatus where
  | pending | inspecting | ready | blocked | running | succeeded
  deriving DecidableEq

/-! ## Rows -/

/-- A validated result document: `observation` is `none` when the document's is empty. -/
structure Receipt where
  status : Status
  resultCode : String
  observation : Option Observation
  deriving DecidableEq

/-- `HgsJob.reconciliation_release`. -/
structure Release where
  jobId : String
  planDigest : String
  observationDigest : String
  approvedBy : String
  approvedAt : String
  deriving DecidableEq

structure HgsJob where
  id : String
  node : String
  requestedBy : Option Nat
  operation : Operation
  sequence : Nat
  status : JobStatus := .queued
  assignment : Agent.Hgs.Job
  receipt : Option Receipt := none
  prebootId : String := ""
  reconciliationRelease : Option Release := none
  resultCode : String := ""
  expiresAt : Time
  createdAt : Time
  offeredAt : Option Time := none
  claimedAt : Option Time := none
  completedAt : Option Time := none
  deriving DecidableEq

/-- `status="reconciliation_required", reconciliation_release__isnull=True`. -/
def HgsJob.unresolved (j : HgsJob) : Bool :=
  j.status == .reconciliationRequired && j.reconciliationRelease.isNone

/-- A job of the plan's script, and not an inspection. -/
def HgsJob.step (j : HgsJob) : Bool := j.operation != .inspect

structure HgsNode where
  id : String
  system : String
  enrollment : String
  deviceUri : String
  hostname : String
  ordinal : Nat
  role : NodeRole
  status : NodeStatus := .pending
  readiness : Option Observation := none
  blockers : List String := []
  observedAt : Option Time := none
  deriving DecidableEq

structure HgsDeployment where
  id : String
  tenant : String
  name : String
  profile : String
  attestationMode : String
  domainName : String
  serviceName : String
  config : PlanConfig
  planDigest : String := ""
  status : PlanStatus := .draft
  requestedBy : Nat
  approvedBy : Option Nat := none
  approvedAt : Option Time := none
  planExpiresAt : Time
  approvalExpiresAt : Option Time := none
  authorityRevokedAt : Option Time := none
  blockers : List String := []
  nodes : List HgsNode := []
  jobs : List HgsJob := []
  deriving DecidableEq

structure WindowsServer where
  id : String
  tenant : String
  sourceId : String
  inventorySource : String
  operatingSystemRole : String
  osBuild : String
  hostname : String
  agentVersion : String
  deriving DecidableEq

/-! ## What a request reads -/

/-- What the language gives: its Unicode tables, the hash of a canonical document, and the
addresses that `ipaddress` finds usable. -/
structure Runtime where
  unicode : Unicode
  digest : Value → String
  usableAddress : String → Bool

/-- The hash that `digest` computes. -/
def sha256Digest (v : Value) : String := sha256 (Security.canonical v)

/-- The rows of other applications. -/
structure Directory where
  tenants : List Tenant
  users : List User
  memberships : List TenantMembership
  enrollments : List Gpo.AgentEnrollment
  systems : List WindowsServer

/-- What a request reads: the runtime, the time, the rows of other applications, the identifiers
`uuid4` gives it and those that jobs of other plans have. -/
structure Request where
  runtime : Runtime
  now : Time
  directory : Directory
  uuid : Nat → String
  taken : String → Bool

/-- `get` of a tenant. -/
def Directory.tenant (d : Directory) (id : String) : Except ServerError Tenant :=
  match d.tenants.find? (·.id == id) with
  | some tenant => .ok tenant
  | none => .error .notFound

/-- `get` of an enrollment. -/
def Directory.enrollment (d : Directory) (id : String) : Except ServerError Gpo.AgentEnrollment :=
  match d.enrollments.find? (·.id == id) with
  | some enrollment => .ok enrollment
  | none => .error .notFound

/-- `get` of a system. -/
def Directory.system (d : Directory) (id : String) : Except ServerError WindowsServer :=
  match d.systems.find? (·.id == id) with
  | some system => .ok system
  | none => .error .notFound

/-- `has_tenant_permission(user, tenant, HGS_MANAGE)`: of the roles in an HGS tenant only the
tenant administrator's has it. -/
def Directory.manages (d : Directory) (now : Time) (user : Nat) (tenant : Tenant) : Bool :=
  tenant.purpose == .hgs && (d.users.find? (·.id == user)).any fun u =>
    effectiveTenantRole d.memberships now u tenant == some .tenantAdmin

/-! ## Times -/

/-- A number of minutes. -/
def minutes (n : Int) : Time := n * 60000000

def planAge : Time := minutes 1440

def readinessAge : Time := minutes 30

def heartbeatAge : Time := minutes 5

/-- `now - age < t <= now`. -/
def fresh (now age t : Time) : Bool := decide (now - age < t) && decide (t ≤ now)

def liveIdentity (req : Request) (node : HgsNode) (tenant : Tenant) : Except ServerError Bool := do
  let e ← req.directory.enrollment node.enrollment
  let s ← req.directory.system node.system
  return tenant.purpose == .hgs && tenant.status == .active && e.status == .active &&
    e.tenant == tenant.id && tenant.id == s.tenant && e.platform == .windows &&
    e.deviceUri == node.deviceUri && node.deviceUri == s.sourceId && s.inventorySource == "agent" &&
    hostLabel req.runtime.unicode s.hostname == hostLabel req.runtime.unicode node.hostname

/-- `eligible`, as the reason why a system is not. -/
def eligible (req : Request) (system : WindowsServer) (enrollment : Option Gpo.AgentEnrollment) :
    Option String :=
  match enrollment with
  | none => some "active_windows_agent_required"
  | some e =>
    if e.status != .active || e.platform != .windows || e.tenant != system.tenant then
      some "active_windows_agent_required"
    else if system.inventorySource != "agent" || system.operatingSystemRole == "client" ||
        !(system.osBuild == "20348" || system.osBuild == "26100") then
      some "unsupported_windows_version"
    else if !(versionTuple req.runtime.unicode system.agentVersion).any
        (versionAtLeast · (0, 2, 49)) then
      some "agent_update_required"
    else if !e.lastHeartbeatAt.any (fresh req.now heartbeatAge) then some "agent_unavailable"
    else none

/-! ## Plans -/

namespace HgsDeployment

variable (plan : HgsDeployment)

def configuration (node : HgsNode) : Config where
  profile := plan.profile
  attestationMode := plan.attestationMode
  domainName := plan.domainName
  serviceName := plan.serviceName
  featureSource := plan.config.featureSource
  signingThumbprint := plan.config.signingThumbprint
  encryptionThumbprint := plan.config.encryptionThumbprint
  dsrmSecretRef := plan.config.dsrmSecretRef
  joinSecretRef := plan.config.joinSecretRef
  allowReboot := plan.config.allowReboot
  nodeRole := node.role
  primaryServer := if node.role = .additional then plan.config.primaryServer else ""

/-- `plan_content`, with sorted keys. -/
def content : Value :=
  .obj [("attestation_mode", .str plan.attestationMode),
    ("config", .obj [("allow_reboot", .bool plan.config.allowReboot),
      ("dsrm_secret_ref", .str plan.config.dsrmSecretRef),
      ("encryption_thumbprint", .str plan.config.encryptionThumbprint),
      ("feature_source", .str plan.config.featureSource),
      ("join_secret_ref", .str plan.config.joinSecretRef),
      ("primary_server", .str plan.config.primaryServer),
      ("signing_thumbprint", .str plan.config.signingThumbprint)]),
    ("domain_name", .str plan.domainName), ("name", .str plan.name),
    ("nodes", .arr (plan.nodes.map fun n => .obj [("device_uri", .str n.deviceUri),
      ("enrollment_id", .str n.enrollment), ("hostname", .str n.hostname), ("id", .str n.id),
      ("ordinal", .int n.ordinal), ("role", .str n.role.text), ("system_id", .str n.system)])),
    ("profile", .str plan.profile), ("schema_version", .int 1),
    ("service_name", .str plan.serviceName), ("tenant_id", .str plan.tenant)]

/-- `c.digest(plan_content(plan)) == plan.plan_digest`. -/
def unchanged (runtime : Runtime) : Bool := runtime.digest plan.content == plan.planDigest

/-- The assignment of a job, as the control plane writes it. -/
def assignmentOf (node : HgsNode) (jobId : String) (operation : Operation) (expiresAt : Time) :
    Agent.Hgs.Job where
  jobId := jobId
  deploymentId := plan.id
  tenantId := plan.tenant
  enrollmentId := node.enrollment
  deviceUri := node.deviceUri
  planDigest := plan.planDigest
  operation := operation
  config := plan.configuration node
  expiresAt := expiresAt / 1000000

def nodeOf (job : HgsJob) : Option HgsNode := plan.nodes.find? (·.id == job.node)

/-- Save a job over its row. -/
def saveJob (job : HgsJob) : HgsDeployment :=
  { plan with jobs := plan.jobs.map fun j => if j.id = job.id then job else j }

/-- Save a node over its row. -/
def saveNode (node : HgsNode) : HgsDeployment :=
  { plan with nodes := plan.nodes.map fun n => if n.id = node.id then node else n }

/-- A job of the plan is active. -/
def busy : Bool := plan.jobs.any (·.status.active)

/-- What `fence` finds uncertain: a claimed job, or one whose reconciliation is not resolved. -/
def uncertain : Bool := plan.jobs.any fun j => j.status.claimed || j.unresolved

/-- `authority_revoked_at` is set. -/
def revoked : Bool := plan.authorityRevokedAt.isSome

/-- The jobs of the plan's script, in the order they were created. -/
def steps : List HgsJob := plan.jobs.filter HgsJob.step

end HgsDeployment

/-- `sorted(set(items))`. -/
def sortedSet (items : List String) : List String :=
  items.dedup.insertionSort fun a b => decide (a ≤ b)

end Ipms.Server.Hgs
