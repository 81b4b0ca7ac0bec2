import Ipms.Server.Gpo.Overrides

/-
  Ipms.Server.Gpo.Authority

  What an assignment's authority rests on: grants, the approval of a job, the
  readiness of its executor and the records its scope was read from.  Every
  check is read from the tables at the moment it is asked for.
-/

namespace Ipms.Server.Gpo

open Ipms.Lib Ipms.ManagementJson
open Ipms.Agent.Gpo (Job ManagedJob JobCore Approval SafetyReview seconds)

/-- A document without its own digest. -/
def undigested : Value → Value
  | .obj members => .obj (members.filter fun m => m.1 != "input_digest")
  | v => v

def GpoImportJob.isPortal (job : GpoImportJob) : Bool := job.assignment.portalMode

namespace Db

variable (db : Db) (now : Time)

/-! ## Grants and approvals -/

/-- `scoped`. -/
def scopedFor (user : Option User) (tenant : Tenant) (config : DomainSecuritySettings) (tier : Int)
    (permission : Permission) : Bool :=
  match user with
  | none => false
  | some user =>
    config.tenant == tenant.id && db.hasTenantPermission now user tenant permission &&
      (db.authorizationFor config.id).grants.any fun row =>
        row.userId == toString user.id && row.tiers.contains (toString tier)

/-- `scoped` for the domain and tier of a job. -/
def jobScoped (user : Option Nat) (tenant : Tenant) (job : GpoImportJob) (permission : Permission) :
    Bool :=
  (db.domains.get? job.domain).any fun config =>
    db.scopedFor now (db.user? user) tenant config job.assignment.core.targetTier permission

def approvalObject (job : GpoImportJob) : Option Approval := do
  let approvedAt ← job.approvedAt
  let approvedBy ← job.approvedBy
  let requestedBy ← job.requestedBy
  let enrollment ← db.enrollments.get? job.enrollment
  if job.isPortal then
    pure { jobId := job.id, inputDigest := job.inputDigest, deviceUri := enrollment.deviceUri,
           domainGuid := job.domainGuid, targetTier := job.assignment.core.targetTier,
           operation := job.assignment.core.operation.text, requestedBy := toString requestedBy,
           approvedBy := toString approvedBy, approvedAt := stamp approvedAt,
           expiresAt := job.assignment.core.expiresAt, policyRevision := job.policyRevision,
           fourEyesRequired := job.fourEyesRequired }
  else none

/-- The approval rule and the grants are those the job was made under. -/
def revisionsCurrent (job : GpoImportJob) (tenant : Tenant) : Bool :=
  (db.policyFor tenant.id).revision == job.policyRevision &&
    (db.policyFor tenant.id).fourEyesRequired == job.fourEyesRequired &&
    (db.authorizationFor job.domain).revision == job.authorizationRevision

def policyCurrent (job : GpoImportJob) (tenant : Tenant) : Bool :=
  !job.isPortal || db.revisionsCurrent job tenant &&
    db.jobScoped now job.requestedBy tenant job .securityGpoImportsRun

/-- The approval was given in time. -/
def approvedInTime (job : GpoImportJob) : Bool :=
  job.approvedAt.any fun t =>
    decide (wholeSeconds job.requestedAt ≤ t) && decide (t ≤ now) && decide (t < job.expiresAt)

def approvalCurrent (job : GpoImportJob) (tenant : Tenant) : Bool :=
  match db.approvalObject job with
  | none => false
  | some value =>
    db.policyCurrent now job tenant &&
      db.jobScoped now job.approvedBy tenant job .securityGpoImportsApprove &&
      (!job.fourEyesRequired || job.approvedBy != job.requestedBy) &&
      approvedInTime now job && digest value.toJson == job.approvalDigest

/-! ## The executor -/

/-- A time within the last five minutes. -/
def recent (t : Time) : Bool := decide (now - seconds 300 < t) && decide (t ≤ now)

def ready (content : Content) (system : WindowsServer) (enrollment : AgentEnrollment)
    (report : GpoExecutorReport) (configuredDomain : String) (portal : Bool) : Bool :=
  let unicode := content.unicode
  enrollment.status == .active && enrollment.platform == .windows &&
    system.tenant == enrollment.tenant && system.inventorySource == "agent" &&
    system.sourceId == enrollment.deviceUri && system.operatingSystemRole == "domain-controller" &&
    unicode.lower system.domainName == configuredDomain &&
    report.domainDnsName == configuredDomain &&
    (system.fqdn == "" || unicode.lower system.fqdn == report.dcFqdn) &&
    versionSupported unicode system.agentVersion portal &&
    versionSupported unicode report.agentVersion portal &&
    report.role == "writable-domain-controller" && report.gpmcAvailable &&
    report.resultCode == "ready_for_approval" && report.domainGuid != "" &&
    report.forestDnsName != "" && report.dcFqdn != "" && recent now report.observedAt &&
    enrollment.lastHeartbeatAt.any (recent now) && !db.maintenancePending enrollment system

/-- `minimum_agent`; no caller of the scope check passes `custom`. -/
def minimumAgent : Nat × Nat × Nat := (0, 2, 47)

/-- An agent version of at least the minimum. -/
def agentRecent (content : Content) (agentVersion : String) : Bool :=
  (versionTuple content.unicode agentVersion).any fun v => versionAtLeast v minimumAgent

/-- The system and the report of the executor are those of the assignment. -/
def executorCurrent (content : Content) (job : GpoImportJob) (enrollment : AgentEnrollment)
    (config : DomainSecuritySettings) (portal : Bool) : Bool :=
  match db.systems.get? job.system, db.reports.get? enrollment.id with
  | some system, some report =>
    db.ready now content system enrollment report config.domainName portal &&
      report.domainGuid == job.assignment.core.domainGuid &&
      report.forestDnsName == job.assignment.core.forestDnsName &&
      report.dcFqdn == job.assignment.core.executorDcFqdn
  | _, _ => false

/-- The executor runs an agent new enough for managed policies. -/
def agentCurrent (content : Content) (job : GpoImportJob) (enrollment : AgentEnrollment) : Bool :=
  ((db.systems.get? job.system).any fun s => agentRecent content s.agentVersion) &&
    (db.reports.get? enrollment.id).any fun r => agentRecent content r.agentVersion

/-- The job belongs to the tenant and the enrollment, and its domain is still as assigned. -/
def domainCurrent (job : GpoImportJob) (enrollment : AgentEnrollment) (tenant : Tenant)
    (config : DomainSecuritySettings) : Bool :=
  tenant.status == .active && job.tenant == tenant.id && job.enrollment == enrollment.id &&
    config.revision == job.assignment.core.scopeRevision &&
    config.domainName == job.assignment.core.domainDnsName

/-- The assignment is the one of the row, with its digest. -/
def assignmentBound (job : GpoImportJob) : Bool :=
  let a := job.assignment.core
  a.jobId == job.id && a.scopeId == job.domain && a.domainGuid == job.domainGuid &&
    a.pilotDisplayName == job.pilotDisplayName && a.expiresAt == stamp job.expiresAt &&
    a.inputDigest == job.inputDigest &&
    digest (undigested job.assignment.toJson) == job.inputDigest

/-- The pinned content of a pilot. -/
def pilotContent (content : Content) (a : JobCore) : Bool :=
  ((content.components a.baselineId a.backupId).any fun c =>
      c.artifactSha256 == a.artifactSha256) &&
    (content.profileComponents a.baselineId a.profile).contains a.backupId

/-- `_scope_current` of a pilot: its requester needs the permission, and for a portal job the
grant as well. -/
def pilotScopeCurrent (content : Content) (job : GpoImportJob) (enrollment : AgentEnrollment)
    (tenant : Tenant) : Bool :=
  assignmentBound job && job.assignment.core.operation == .createUnlinkedPilot &&
    (!job.isPortal || db.policyCurrent now job tenant &&
      (job.approvedAt.isNone || db.approvalCurrent now job tenant)) &&
    ((db.user? job.requestedBy).any fun user =>
      db.hasTenantPermission now user tenant .securityGpoImportsRun) &&
    ((db.domains.get? job.domain).any fun config =>
      domainCurrent job enrollment tenant config &&
        db.executorCurrent now content job enrollment config job.isPortal) &&
    pilotContent content job.assignment.core

/-! ## The scope of a managed job -/

/-- The bounds and the form of a managed assignment. -/
def assignmentForm (a : ManagedJob) : Bool :=
  decide ((canonical a.toJson).length ≤ 24576) && (a.inspection || a.operation.isManaged) &&
    a.approvalMode == (if a.inspection then "inspection" else "portal") &&
    a.intendedOperation.isManaged && (a.inspection || a.intendedOperation == a.operation) &&
    decide (1 ≤ a.managedRevision) && decide (a.managedRevision ≤ 2 ^ 31 - 1) &&
    decide (0 ≤ a.targetTier) && decide (a.targetTier ≤ 2) && decide (1 ≤ a.scopeRevision) &&
    decide (a.scopeRevision ≤ 2 ^ 31 - 1) && decide (a.targetOus.length ≤ 32) &&
    a.linkOrders.length == a.targetOus.length &&
    (a.linkOrders.all fun order => decide (1 ≤ order) && decide (order ≤ 128)) &&
    uuidText a.managedId

/-- The managed policy is the one the assignment was made for. -/
def managedCurrent (a : ManagedJob) (policy : ManagedGpoPolicy) : Bool :=
  policy.revision == a.managedRevision && policy.gpoGuid == a.gpoGuid &&
    policy.state != .reconciliationRequired && policy.tier == a.targetTier &&
    policy.baselineId == a.baselineId && policy.profile == a.profile

/-- The targets are those of the policy, all of them configured. -/
def targetsCurrent (content : Content) (a : ManagedJob) (policy : ManagedGpoPolicy)
    (config : DomainSecuritySettings) : Bool :=
  let configured := if domainTarget content a then [domainRoot config.domainName]
    else config.tierOus.get a.targetTier
  !policy.targetOus.isEmpty && policy.targetOus.all configured.contains &&
    a.targetOus == if a.intendedOperation = .importManagedGpo then [] else policy.targetOus

/-- The content is the pinned one and means what the policy stands for. -/
def contentCurrent (content : Content) (a : ManagedJob) (policy : ManagedGpoPolicy) : Bool :=
  (content.components a.baselineId a.backupId).any fun c =>
    !(c.scope == .domain && a.targetTier != 0) &&
      semanticPurpose content a.baselineId c == some policy.purpose &&
      c.artifactSha256 == a.artifactSha256 &&
      (content.profileComponents a.baselineId a.profile).contains a.backupId

/-- The override the policy's staged job carries. -/
def stagedOverride (policy : ManagedGpoPolicy) : Option Agent.Gpo.Override :=
  (policy.stagedJob.bind db.jobs.get?).bind fun staged =>
    match staged.assignment with
    | .managed s => s.override
    | .pilot _ _ => none

/-- The override is still the configured one, and the one that was prepared. -/
def overrideCurrent (content : Content) (a : ManagedJob) (policy : ManagedGpoPolicy)
    (tenant : Tenant) : Bool :=
  let op := a.intendedOperation
  match policy.override, a.override with
  | none, none => true
  | some id, some o =>
    id == o.overrideId &&
      db.currentPatch content a o tenant.id
        (op == .deactivateManagedGpo || op == .deleteManagedGpo) &&
      (!(op == .activateManagedGpo || op == .linkManagedGpo) || db.stagedOverride policy == some o)
  | _, _ => false

def falseReview : SafetyReview := ⟨false, false⟩

/-- The document a receipt digest is taken of. -/
def receiptJson (status resultCode gpoGuid evidence : Value) : Value :=
  .obj [("evidence", evidence), ("gpo_guid", gpoGuid), ("result_code", resultCode),
    ("status", status)]

/-- A GUID column as a document member: null when it is blank. -/
def guidOrNull (guid : String) : Value := if guid = "" then .null else .str guid

/-- The digest an inspection's receipt has. -/
def inspectionDigest (job : GpoImportJob) : String :=
  digest (receiptJson (.str "inspected") (.str "gpo_inspected") (guidOrNull job.gpoGuid)
    job.resultEvidence)

/-- The assignment of a change made from an inspected one. -/
def changeOf (inspected a : ManagedJob) : ManagedJob :=
  { inspected with
    jobId := a.jobId, operation := a.operation, approvalMode := a.approvalMode,
    preflightId := a.preflightId, expectedState := a.expectedState,
    safetyReview := a.safetyReview, inputDigest := a.inputDigest, linkOrders := a.linkOrders }

/-- The inspection a change was made from still stands, and is where the change came from. -/
def preflightCurrent (job : GpoImportJob) (a : ManagedJob) (enrollment : AgentEnrollment)
    (tenant : Tenant) : Bool :=
  match db.jobs.get? a.preflightId with
  | none => false
  | some preflight =>
    preflight.tenant == tenant.id && preflight.domain == job.domain &&
      preflight.enrollment == enrollment.id && preflight.status == .inspected &&
      preflight.completedAt.isSome && preflight.expiresAt == job.expiresAt &&
      preflight.resultEvidence.get? "state" == a.expectedState.map Agent.Gpo.Snapshot.toJson &&
      (match preflight.assignment with
       | .managed inspected => inspected.inspection && changeOf inspected a == a
       | .pilot _ _ => false) &&
      inspectionDigest preflight == preflight.resultDigest

/-- The state a change expects is well formed and safe to change. -/
def expectedStateSafe (content : Content) (a : ManagedJob) : Bool :=
  match a.expectedState with
  | none => false
  | some state =>
    (validateSnapshot content a state.toJson).toOption.isSome &&
      (safeBefore content a state).toOption.isSome

/-- What an inspection or a change adds to the scope of a managed job. -/
def operationCurrent (content : Content) (job : GpoImportJob) (a : ManagedJob)
    (enrollment : AgentEnrollment) (tenant : Tenant) : Bool :=
  if a.inspection then
    a.preflightId == "" && a.expectedState.isNone && a.safetyReview == falseReview &&
      job.approvedAt.isNone && job.approvedBy.isNone && job.claimedAt.isNone
  else
    uuidText a.preflightId && db.preflightCurrent job a enrollment tenant &&
      expectedStateSafe content a && db.policyCurrent now job tenant &&
      (job.approvedAt.isNone || db.approvalCurrent now job tenant) &&
      a.safetyReview == (if a.operation = .activateManagedGpo then ⟨true, true⟩ else falseReview)

/-- `scope_current`. -/
def managedScopeCurrent (content : Content) (job : GpoImportJob) (a : ManagedJob)
    (enrollment : AgentEnrollment) (tenant : Tenant) : Bool :=
  assignmentBound job && assignmentForm a && enrollment.tenant == tenant.id &&
    db.revisionsCurrent job tenant &&
    (match db.policyForJob job, db.domains.get? job.domain with
     | some policy, some config =>
       managedCurrent a policy && domainCurrent job enrollment tenant config &&
         db.scopedFor now (db.user? job.requestedBy) tenant config a.targetTier
           .securityGpoImportsRun &&
         db.executorCurrent now content job enrollment config true &&
         db.agentCurrent content job enrollment && targetsCurrent content a policy config &&
         contentCurrent content a policy && db.overrideCurrent content a policy tenant
     | _, _ => false) &&
    db.operationCurrent now content job a enrollment tenant

def scopeCurrent (content : Content) (job : GpoImportJob) (enrollment : AgentEnrollment)
    (tenant : Tenant) : Bool :=
  match job.assignment with
  | .pilot _ _ => db.pilotScopeCurrent now content job enrollment tenant
  | .managed a => db.managedScopeCurrent now content job a enrollment tenant

end Db

end Ipms.Server.Gpo
