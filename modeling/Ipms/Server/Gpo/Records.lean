import Ipms.Lib.Table
import Ipms.Lib.Transaction
import Ipms.Agent.Gpo.Receipt
import Ipms.Server.Document
import Ipms.Server.Tenancy

/-
  Ipms.Server.Gpo.Records

  The rows the control plane keeps about group policies, and transactions over
  them.  An assignment is the contract document both sides share, so its exact
  fields and types hold by construction.
-/

namespace Ipms.Server.Gpo

open Ipms.Lib Ipms.ManagementJson
open Ipms.Agent.Gpo (Job ManagedJob JobCore Operation Scope Snapshot Approval)

/-! ## Compiled content -/

/-- A compiled component with the names the portal shows. -/
structure Component extends Agent.Gpo.Component where
  name : String
  purpose : String
  deriving DecidableEq

/-- A compiled setting with the value its baseline has. -/
structure Setting extends Agent.Gpo.SettingDescriptor where
  baselineValue : Value

/-- The compiled tables, the artifact store and Python's Unicode tables. -/
structure Content where
  unicode : Unicode
  /-- `COMPONENTS` -/
  components : String → String → Option Component
  /-- `PROFILE_COMPONENTS` -/
  profileComponents : String → String → List String
  /-- the settings of `OVERRIDE_COMPONENTS`, with their artifact -/
  overrideComponents : String → String → Option (String × List Setting)
  /-- `artifact_bytes`, by digest -/
  artifactBytes : String → Option Bytes
  /-- whether `review_document` finds the bundle of an assignment intact -/
  reviewable : Job → Bool

/-! ## Rows -/

/-- Organizational units by tier. -/
structure TierOus where
  zero : List String
  one : List String
  two : List String
  deriving DecidableEq

/-- The units of a tier. -/
def TierOus.get (t : TierOus) (tier : Int) : List String :=
  if tier = 0 then t.zero else if tier = 1 then t.one else if tier = 2 then t.two else []

structure DomainSecuritySettings where
  id : String
  tenant : String
  domainName : String
  revision : Int
  tierOus : TierOus
  gpoNameTemplate : String
  baselineOrder : List String
  deriving DecidableEq

/-- `GpoApprovalPolicy`; an absent row means revision 1 without four eyes. -/
structure GpoApprovalPolicy where
  tenant : String
  fourEyesRequired : Bool
  revision : Int
  deriving DecidableEq

/-- One grant of a domain: a user and the tiers. -/
structure Grant where
  userId : String
  tiers : List String
  deriving DecidableEq

/-- `GpoDomainAuthorization`; an absent row means revision 1 without grants. -/
structure GpoDomainAuthorization where
  domain : String
  revision : Int
  grants : List Grant
  deriving DecidableEq

/-- `AgentEnrollment.platform`. -/
inductive Platform where
  | windows | linux
  deriving DecidableEq

/-- `AgentEnrollment.status`, with the `suspended` the exchange also admits. -/
inductive EnrollmentStatus where
  | pending | active | suspended | revoked | removed
  deriving DecidableEq

structure AgentEnrollment where
  id : String
  tenant : String
  deviceUri : String
  platform : Platform
  status : EnrollmentStatus
  lastHeartbeatAt : Option Time
  deriving DecidableEq

structure WindowsServer where
  id : String
  tenant : String
  sourceId : String
  inventorySource : String
  operatingSystemRole : String
  domainName : String
  fqdn : String
  agentVersion : String
  deriving DecidableEq

structure GpoExecutorReport where
  enrollment : String
  agentVersion : String
  domainDnsName : String
  domainGuid : String
  forestDnsName : String
  dcFqdn : String
  role : String
  gpmcAvailable : Bool
  resultCode : String
  observedAt : Time
  deriving DecidableEq

/-- `GpoImportJob.status`. -/
inductive JobStatus where
  | queued | awaitingApproval | running | reconciliationRequired | staged | failed | expired
  | inspected | linked | activated | deactivated | deleted | reconciled
  deriving DecidableEq

namespace JobStatus

def active : JobStatus → Bool
  | queued | awaitingApproval | running | reconciliationRequired => true
  | _ => false

def preExecution : JobStatus → Bool
  | queued | awaitingApproval => true
  | _ => false

def terminal : JobStatus → Bool
  | staged | failed | expired | inspected | linked | activated | deactivated | deleted | reconciled => true
  | _ => false

/-- The statuses a success receipt ends in. -/
def succeeded : JobStatus → Bool
  | inspected | staged | linked | activated | deactivated | deleted => true
  | _ => false

def text : JobStatus → String
  | queued => "queued"
  | awaitingApproval => "awaiting_approval"
  | running => "running"
  | reconciliationRequired => "reconciliation_required"
  | staged => "staged"
  | failed => "failed"
  | expired => "expired"
  | inspected => "inspected"
  | linked => "linked"
  | activated => "activated"
  | deactivated => "deactivated"
  | deleted => "deleted"
  | reconciled => "reconciled"

theorem terminal_eq (s : JobStatus) : s.terminal = !s.active := by
  cases s <;> rfl

end JobStatus

structure GpoImportJob where
  id : String
  tenant : String
  domain : String
  enrollment : String
  system : String
  requestedBy : Option Nat
  approvedBy : Option Nat := none
  approvedAt : Option Time := none
  approvalDigest : String := ""
  policyRevision : Int
  fourEyesRequired : Bool
  authorizationRevision : Int
  domainGuid : String
  requestSha256 : String
  inputDigest : String
  assignment : Job
  pilotDisplayName : String
  pilotNameKey : String
  status : JobStatus
  errorCode : String := ""
  requestedAt : Time
  expiresAt : Time
  claimedAt : Option Time := none
  completedAt : Option Time := none
  gpoGuid : String := ""
  resultDigest : String := ""
  resultEvidence : Value := .obj []
  deriving DecidableEq

structure GpoOverride where
  id : String
  tenant : String
  custom : Bool
  name : String
  baselineId : String
  backupId : String
  artifactSha256 : String
  revision : Int
  enabled : Bool
  entries : List Agent.Gpo.OverrideEntry
  deriving DecidableEq

/-- `ManagedGpoPolicy.state`. -/
inductive PolicyState where
  | new | prepared | linked | active | inactive | reconciliationRequired
  deriving DecidableEq

structure ManagedGpoPolicy where
  id : String
  tenant : String
  domain : String
  domainGuid : String
  override : Option String
  logicalKey : String
  tier : Int
  targetOus : List String
  baselineId : String
  profile : String
  purpose : String
  target : String
  gpoGuid : String := ""
  displayName : String
  nameKey : String
  version : String
  backupId : String
  state : PolicyState := .new
  revision : Int := 1
  originJob : Option String := none
  stagedJob : Option String := none
  activeJob : Option String := none
  deriving DecidableEq

/-- `GpoReconciliation.status`. -/
inductive ReconciliationStatus where
  | requested | observed | acceptRequested | accepted | stale | failed
  deriving DecidableEq

def ReconciliationStatus.pending : ReconciliationStatus → Bool
  | requested | observed | acceptRequested => true
  | _ => false

structure GpoReconciliation where
  id : String
  tenant : String
  job : String
  requestedBy : Option Nat
  acceptedBy : Option Nat := none
  acceptedActor : String := ""
  status : ReconciliationStatus := .requested
  requestDigest : String
  jobResultDigest : String
  journalSha256 : String := ""
  scopeRevision : Int
  policyRevision : Int
  authorizationRevision : Int
  managedRevision : Int
  fourEyesRequired : Bool
  observation : Option Value := none
  observationDigest : String := ""
  driftObservation : Option Value := none
  driftDigest : String := ""
  decisionDigest : String := ""
  requestedAt : Time
  expiresAt : Time
  observedAt : Option Time := none
  acceptedAt : Option Time := none
  finalizedAt : Option Time := none
  deriving DecidableEq

/-- An operator's record that an unclaimed schema-1 job was retired. -/
structure Retirement where
  tenant : String
  objectId : String
  objectType : String
  outcome : String
  details : Value
  deriving DecidableEq

/-! ## The database -/

/-- The tables the group-policy code reads and writes. -/
structure Db where
  tenants : Table Tenant String Tenant.id
  users : Table User Nat User.id
  memberships : List TenantMembership
  domains : Table DomainSecuritySettings String DomainSecuritySettings.id
  approvalPolicies : Table GpoApprovalPolicy String GpoApprovalPolicy.tenant
  authorizations : Table GpoDomainAuthorization String GpoDomainAuthorization.domain
  enrollments : Table AgentEnrollment String AgentEnrollment.id
  systems : Table WindowsServer String WindowsServer.id
  reports : Table GpoExecutorReport String GpoExecutorReport.enrollment
  /-- `maintenance_pending`: agent lifecycle jobs and deployments of an enrollment -/
  maintenancePending : AgentEnrollment → WindowsServer → Bool
  overrides : Table GpoOverride String GpoOverride.id
  policies : Table ManagedGpoPolicy String ManagedGpoPolicy.id
  jobs : Table GpoImportJob String GpoImportJob.id
  reconciliations : Table GpoReconciliation String GpoReconciliation.id
  retirements : List Retirement

/-- No rows. -/
def Db.empty : Db where
  tenants := ⟨[], by decide⟩
  users := ⟨[], by decide⟩
  memberships := []
  domains := ⟨[], by decide⟩
  approvalPolicies := ⟨[], by decide⟩
  authorizations := ⟨[], by decide⟩
  enrollments := ⟨[], by decide⟩
  systems := ⟨[], by decide⟩
  reports := ⟨[], by decide⟩
  maintenancePending _ _ := false
  overrides := ⟨[], by decide⟩
  policies := ⟨[], by decide⟩
  jobs := ⟨[], by decide⟩
  reconciliations := ⟨[], by decide⟩
  retirements := []

/-- A transaction of the control plane. -/
abbrev Request := Txn Db ServerError

/-- `_reject`. -/
def rejected : ServerError := .validationError "The GPO exchange is invalid."

/-! ### Saving rows -/

/-- `job.save()`. -/
def saveJob (job : GpoImportJob) : Request Unit :=
  modify fun db => { db with jobs := db.jobs.save job }

/-- Two managed policies that the constraints do not allow side by side. -/
def ManagedGpoPolicy.conflicts (p q : ManagedGpoPolicy) : Bool :=
  p.id != q.id && p.tenant == q.tenant && p.domainGuid == q.domainGuid &&
    (p.logicalKey == q.logicalKey || p.nameKey == q.nameKey ||
      p.gpoGuid == q.gpoGuid && p.gpoGuid != "")

/-- `policy.save()`, under the unique constraints of the table. -/
def savePolicy (policy : ManagedGpoPolicy) : Request Unit := do
  if (← get).policies.rows.any policy.conflicts then throw .integrityError
  else modify fun db => { db with policies := db.policies.save policy }

/-- `policy.save(update_fields=('state',))`. -/
def savePolicyState (policy : ManagedGpoPolicy) (state : PolicyState) : Request Unit :=
  modify fun db => { db with policies := db.policies.save { policy with state } }

/-- `policy.delete()`. -/
def deletePolicy (policy : ManagedGpoPolicy) : Request Unit :=
  modify fun db => { db with policies := db.policies.delete policy.id }

/-- `record.save()`. -/
def saveReconciliation (record : GpoReconciliation) : Request Unit :=
  modify fun db => { db with reconciliations := db.reconciliations.save record }

/-- Two jobs that the constraints do not allow side by side: the domain fence, and the name of a
pilot. -/
def GpoImportJob.conflicts (j k : GpoImportJob) : Bool :=
  j.tenant == k.tenant && j.domainGuid == k.domainGuid &&
    (j.status.active && k.status.active ||
      decide (j.assignment.schema ≤ 2) && decide (k.assignment.schema ≤ 2) &&
        j.pilotNameKey == k.pilotNameKey)

/-- `GpoImportJob.objects.create`. -/
def createJob (job : GpoImportJob) : Request Unit := do
  let db ← get
  if db.jobs.rows.any job.conflicts then throw .integrityError
  else match db.jobs.insert job with
    | none => throw .integrityError
    | some jobs => set { db with jobs }

/-- Work on every selected job.  The rows of the queryset are locked, so each is still as it was
selected when its turn comes. -/
def eachJob (select : GpoImportJob → Bool) (body : GpoImportJob → Request Unit) : Request Unit := do
  let selected := (← get).jobs.rows.filter select
  selected.forM fun job => do
    match (← get).jobs.get? job.id with
    | none => pure ()
    | some job => body job

/-! ### Rows of a job -/

def GpoImportJob.production (job : GpoImportJob) : Bool :=
  match job.assignment with
  | .managed _ => true
  | .pilot _ _ => false

def GpoImportJob.inspecting (job : GpoImportJob) : Bool := job.assignment.inspection

/-- A job that writes the directory: a pilot, or a managed job that is no inspection. -/
def GpoImportJob.writes (job : GpoImportJob) : Bool := !job.inspecting

/-- `policy_for_job`, for the assignment of a managed job. -/
def Db.policyForJob (db : Db) (job : GpoImportJob) : Option ManagedGpoPolicy :=
  match job.assignment with
  | .pilot _ _ => none
  | .managed a => (db.policies.get? a.managedId).filter fun p =>
    p.tenant == job.tenant && p.domain == job.domain && p.domainGuid == job.domainGuid

def Db.policyFor (db : Db) (tenant : String) : GpoApprovalPolicy :=
  (db.approvalPolicies.get? tenant).getD { tenant, fourEyesRequired := false, revision := 1 }

def Db.authorizationFor (db : Db) (domain : String) : GpoDomainAuthorization :=
  (db.authorizations.get? domain).getD { domain, revision := 1, grants := [] }

/-- The account a reference names. -/
def Db.user? (db : Db) (reference : Option Nat) : Option User := reference.bind db.users.get?

def Db.hasTenantPermission (db : Db) (now : Time) (user : User) (tenant : Tenant)
    (permission : Permission) : Bool :=
  Server.hasTenantPermission db.memberships now user tenant permission

end Ipms.Server.Gpo
