import Ipms.Server.Gpo.Reconciliation

/-
  Ipms.Server.Gpo.Exchange

  `security_gpo_exchange`: the messages of an enrolled agent and what they do to
  the jobs of its enrollment.  The envelope of a message is that of the
  authenticated enrollment; its members are read here.
-/

namespace Ipms.Server.Gpo

open Ipms.Lib Ipms.ManagementJson
open Ipms.Agent.Gpo (Job ManagedJob Operation Approval)

/-! ## Results -/

def resultCodes : List String :=
  ["gpo_staged_unlinked", "gpo_local_approval_required", "gpo_job_expired", "gpo_invalid_job",
    "gpo_unsupported_component", "gpo_identity_mismatch", "gpo_not_writable_dc",
    "gpo_domain_identity_unavailable", "gpmc_unavailable", "gpo_permission_denied",
    "gpo_name_collision", "gpo_source_mismatch", "gpo_artifact_invalid",
    "gpo_local_approval_invalid", "gpo_reconciliation_required", "gpo_provider_failed",
    "gpo_verification_failed", "gpo_worker_timeout", "gpo_worker_failed", "gpo_journal_invalid",
    "gpo_claim_uncertain", "gpo_authority_expired", "gpo_enrollment_changed",
    "gpo_portal_approval_invalid", "gpo_portal_approval_required", "gpo_state_changed",
    "gpo_requires_disabled", "gpo_unmanaged_target", "gpo_target_invalid", "gpo_link_conflict",
    "gpo_backup_failed", "gpo_preflight_required", "gpo_preflight_inventory_failed",
    "gpo_preflight_controller_failed", "gpo_preflight_directory_failed",
    "gpo_preflight_domain_visibility_failed", "gpo_preflight_domain_search_failed",
    "gpo_preflight_domain_open_failed", "gpo_preflight_domain_identity_failed",
    "gpo_preflight_domain_query_failed", "gpo_preflight_domain_links_failed",
    "gpo_preflight_domain_merge_failed", "gpo_preflight_site_visibility_failed",
    "gpo_preflight_site_search_failed", "gpo_preflight_census_mismatch"]

/-- The statuses a general result reports. -/
inductive Reported where
  | awaitingLocalApproval | awaitingPortalApproval | staged | failed | requiresReconciliation
  deriving DecidableEq

/-- The status of a text. -/
def Reported.ofText (s : String) : Option Reported :=
  if s = "awaiting_local_approval" then some .awaitingLocalApproval
  else if s = "awaiting_portal_approval" then some .awaitingPortalApproval
  else if s = "staged" then some .staged
  else if s = "failed" then some .failed
  else if s = "requires_reconciliation" then some .requiresReconciliation
  else none

/-- A status that waits for an approval. -/
def Reported.awaiting : Reported → Bool
  | awaitingLocalApproval | awaitingPortalApproval => true
  | _ => false

/-- A general result with its members read. -/
structure GeneralResult where
  status : Reported
  code : String
  guid : Option String
  deriving DecidableEq

/-- The GUID member of a result: null, or a GPO that is no default one. -/
def readGuid : Value → Except ServerError (Option String)
  | .null => pure none
  | .str guid =>
    if uuidText guid = true ∧ defaultGpoIds.contains guid = false then pure (some guid)
    else throw rejected
  | _ => throw rejected

/-- The evidence of a staged pilot. -/
def stagedEvidence (domainDnsName domainGuid dcFqdn : String) : Value :=
  .obj [("computer_enabled", .bool false), ("dc_fqdn", .str dcFqdn),
    ("domain_dns_name", .str domainDnsName), ("domain_guid", .str domainGuid),
    ("unlinked", .bool true), ("user_enabled", .bool false)]

/-- The evidence a job has to be staged with. -/
def GpoImportJob.expectedEvidence (job : GpoImportJob) : Value :=
  stagedEvidence job.assignment.core.domainDnsName job.domainGuid job.assignment.core.executorDcFqdn

/-- The checks of a general result before the job is looked at. -/
def readResult (job : GpoImportJob) (d : ResultDocument) : Except ServerError GeneralResult :=
  match d.status, d.resultCode with
  | .str status, .str code =>
    match Reported.ofText status with
    | none => throw rejected
    | some status => do
      throwIf (resultCodes.contains code = false) rejected
      let guid ← readGuid d.gpoGuid
      throwIf (job.gpoGuid ≠ "" ∧ guid ≠ some job.gpoGuid) rejected
      if status = .staged then
        throwIf (job.claimedAt = none ∨ guid = none ∨ code ≠ "gpo_staged_unlinked" ∨
          d.evidence ≠ job.expectedEvidence) rejected
      else throwIf (d.evidence ≠ .null) rejected
      pure { status, code, guid }
  | _, _ => throw rejected

/-- A prepared journal closed after the server ended the job without a claim. -/
def closesPrepared (job : GpoImportJob) (r : GeneralResult) : Bool :=
  job.resultDigest == "" && job.claimedAt.isNone &&
    (job.status == .expired || job.status == .failed) && r.status == .failed && r.guid.isNone &&
    ["gpo_job_expired", "gpo_authority_expired", "gpo_enrollment_changed"].contains r.code

/-- The code an agent waits for an approval with. -/
def awaitingCode (job : GpoImportJob) : String :=
  if job.isPortal then "gpo_portal_approval_required" else "gpo_local_approval_required"

/-- A result that waits for an approval. -/
def awaitResult (job : GpoImportJob) (r : GeneralResult) : Request Unit := do
  throwIf ((r.status == .awaitingPortalApproval) ≠ job.isPortal ∨ job.status.preExecution = false ∨
    r.guid ≠ none ∨ r.code ≠ awaitingCode job) rejected
  if job.approvedAt.isSome then pure ()
  else saveJob { job with status := .awaitingApproval, errorCode := r.code }

def settledStatus (job : GpoImportJob) (r : GeneralResult) : JobStatus :=
  if r.status = .staged then .staged
  -- A timed-out or partially reported write cannot release the domain fence.
  else if r.status = .requiresReconciliation ∨ r.guid.isSome ∨ job.claimedAt.isSome then
    .reconciliationRequired
  else .failed

def GpoImportJob.settle (job : GpoImportJob) (d : ResultDocument) (r : GeneralResult) (now : Time) :
    GpoImportJob :=
  let status := settledStatus job r
  { job with
    status, errorCode := if status = .staged then "" else r.code
    gpoGuid := r.guid.getD job.gpoGuid, resultDigest := d.digest
    resultEvidence := if d.evidence = .null then .obj [] else d.evidence
    completedAt := if status.terminal then some now else none }

/-- A result that is no success of a managed job. -/
def generalResult (now : Time) (job : GpoImportJob) (d : ResultDocument) : Request Unit := do
  let r ← Txn.ofExcept (readResult job d)
  if job.status.terminal then
    if closesPrepared job r then saveJob { job with resultDigest := d.digest }
    else throwIf (job.resultDigest ≠ d.digest) rejected
  else if r.status.awaiting then awaitResult job r
  else saveEnded (job.settle d r now)

/-- Whether a result reports the success of a managed job.  A status that is no hashable value
raises. -/
def reportsSuccess (d : ResultDocument) : Except ServerError Bool :=
  match d.status with
  | .str s => pure (successStatuses.contains s)
  | .arr _ | .obj _ => throw .typeError
  | _ => pure false

/-- `_result`. -/
def recordResult (content : Content) (now : Time) (job : GpoImportJob) (d : ResultDocument) :
    Request Unit :=
  if job.status = .reconciled then throwIf (d.digest ≠ job.resultDigest) rejected
  else if job.status = .reconciliationRequired ∧ job.resultDigest ≠ "" ∧
      d.digest = job.resultDigest then pure ()
  else match job.assignment with
    | .pilot _ _ => generalResult now job d
    | .managed a => do
      if ← Txn.ofExcept (reportsSuccess d) then receiveSuccess content now job a d
      else generalResult now job d

/-! ## Reports -/

/-- The executor report of a message. -/
structure ExecutorDocument where
  domainDnsName : String
  domainGuid : String
  forestDnsName : String
  dcFqdn : String
  role : String
  gpmcAvailable : Bool
  resultCode : String
  agentVersion : String
  deriving DecidableEq

def executorCodes : List String :=
  ["ready_for_approval", "not_writable_domain_controller", "domain_identity_unavailable",
    "gpmc_unavailable", "executor_probe_failed"]

/-- The roles a report may name. -/
def executorRoles : List String :=
  ["writable-domain-controller", "read-only-domain-controller", "not-domain-controller", "unknown"]

/-- The checks of `_executor_report`. -/
def ExecutorDocument.valid (unicode : Unicode) (d : ExecutorDocument) : Bool :=
  executorRoles.contains d.role && executorCodes.contains d.resultCode &&
    versionSupported unicode d.agentVersion &&
    ([d.domainDnsName, d.forestDnsName, d.dcFqdn].all fun name =>
      name == "" || domainName unicode name == some name) &&
    (d.domainGuid == "" || uuidText d.domainGuid) &&
    (d.resultCode != "ready_for_approval" || d.role == "writable-domain-controller" &&
      d.gpmcAvailable && [d.domainDnsName, d.forestDnsName, d.dcFqdn, d.domainGuid].all (· != ""))

def executorReport (content : Content) (now : Time) (enrollment : String) (d : ExecutorDocument) :
    Request Unit := do
  throwIf (d.valid content.unicode = false) rejected
  let report : GpoExecutorReport :=
    { enrollment, agentVersion := d.agentVersion, domainDnsName := d.domainDnsName
      domainGuid := d.domainGuid, forestDnsName := d.forestDnsName, dcFqdn := d.dcFqdn
      role := d.role, gpmcAvailable := d.gpmcAvailable, resultCode := d.resultCode
      observedAt := now }
  modify fun db => { db with reports := (db.reports.insert report).getD (db.reports.save report) }

/-! ## Offers and claims -/

/-- The mode of a claim's answer. -/
inductive ClaimMode where
  | execute | observe | reconcile | cancelled
  deriving DecidableEq

/-- The answers of the exchange. -/
inductive Reply where
  | accepted
  | offer (job : Option Job) (approval : Option Approval)
  | claim (mode : ClaimMode) (job : Job) (approval : Option Approval)
  | artifact (bytes : Bytes) (sha256 : String)
  | reconciliation (control : Option Control)

/-- The `authorized` member of a claim. -/
def Reply.authorized : Reply → Bool
  | .claim mode _ _ => mode == .execute
  | _ => false

/-- The approval a job is handed out with. -/
def Db.currentApproval (db : Db) (now : Time) (job : GpoImportJob) (tenant : Tenant) :
    Option Approval :=
  if db.approvalCurrent now job tenant then db.approvalObject job else none

/-- The oldest job of an enrollment that waits for its execution. -/
def Db.nextJob (db : Db) (tenant enrollment : String) : Option GpoImportJob :=
  (db.jobs.rows.filter fun j =>
    j.tenant == tenant && j.enrollment == enrollment && j.status.preExecution).foldl (fun best j =>
      match best with
      | none => some j
      | some b => if j.requestedAt < b.requestedAt then some j else some b) none

/-- A poll offers the oldest job, unless its scope has changed. -/
def poll (content : Content) (now : Time) (enrollment : AgentEnrollment) (tenant : Tenant) :
    Request Reply := do
  match (← get).nextJob tenant.id enrollment.id with
  | none => pure (.offer none none)
  | some job => do
    if (← get).scopeCurrent now content job enrollment tenant then
      pure (.offer (some job.assignment) ((← get).currentApproval now job tenant))
    else do
      let _ ← invalidate job now
      pure (.offer none none)

/-- A lookup hands out an active job, after the check of its scope. -/
def lookup (content : Content) (now : Time) (job : GpoImportJob) (enrollment : AgentEnrollment)
    (tenant : Tenant) : Request Reply := do
  let db ← get
  let stale := job.status.preExecution && !db.scopeCurrent now content job enrollment tenant
  let job ← if stale then invalidate job now else pure job
  if job.status.active then
    pure (.offer (some job.assignment) ((← get).currentApproval now job tenant))
  else pure (.offer none none)

def GpoImportJob.claim (job : GpoImportJob) (now : Time) : GpoImportJob :=
  { job with status := .running, claimedAt := some now, errorCode := "" }

def claimJob (now : Time) (job : GpoImportJob) (tenant : Tenant) (current : Bool) :
    Request Reply := do
  let db ← get
  let approved := !job.isPortal || db.approvalCurrent now job tenant
  let job ← if current && job.status.preExecution && !approved then
      invalidate job now "gpo_portal_approval_required"
    else pure job
  if current && approved && job.status.preExecution then do
    let claimed := job.claim now
    saveJob claimed
    let db ← get
    pure (.claim .execute job.assignment
      (if claimed.isPortal then db.approvalObject claimed else none))
  else if job.status = .running ∧ current = true then pure (.claim .observe job.assignment none)
  else if job.status = .reconciliationRequired then pure (.claim .reconcile job.assignment none)
  else pure (.claim .cancelled job.assignment none)

/-- An operation whose artifact is handed out. -/
def GpoImportJob.needsArtifact (job : GpoImportJob) : Bool :=
  match job.assignment with
  | .pilot _ _ => true
  | .managed a => a.operation.isImport || a.operation == .activateManagedGpo

def artifact (content : Content) (now : Time) (job : GpoImportJob) (tenant : Tenant)
    (current : Bool) : Request Reply := do
  throwIf (job.needsArtifact = false) rejected
  let db ← get
  throwIf (current = false ∨ (job.status.preExecution = false ∧ job.status ≠ .running) ∨
    job.isPortal = true ∧ db.approvalCurrent now job tenant = false) rejected
  let a := job.assignment.core
  match content.components a.baselineId a.backupId with
  | none => throw .keyError
  | some component =>
    match content.artifactBytes component.artifactSha256 with
    | none => throw (.validationError "GPO artifact cache is unavailable or changed.")
    | some bytes => pure (.artifact bytes a.artifactSha256)

/-! ## Messages -/

/-- What a message asks about a job. -/
inductive JobRequest where
  | lookup (report : ExecutorDocument)
  | claim
  | artifact
  | result (document : ResultDocument)
  | reconciliationPoll (report : ExecutorDocument) (journalSha256 : String)
  | reconciliationResult (journalSha256 reconciliationId observationDigest : String)
      (observation : Value)
  | reconciliationAck (journalSha256 reconciliationId observationDigest : String)

/-- The messages of an agent. -/
inductive Message where
  | poll (report : ExecutorDocument)
  | job (jobId inputDigest : String) (request : JobRequest)

namespace JobRequest

def report : JobRequest → Option ExecutorDocument
  | lookup report | reconciliationPoll report _ => some report
  | _ => none

def reconciliation : JobRequest → Option ReconciliationAction
  | reconciliationPoll _ journal => some (.poll journal)
  | reconciliationResult journal id digest observation => some (.result journal id digest observation)
  | reconciliationAck journal id digest => some (.ack journal id digest)
  | _ => none

def isResult : JobRequest → Bool
  | result _ => true
  | _ => false

/-- An acknowledgement of a reconciliation. -/
def acked : JobRequest → Bool
  | reconciliationAck _ _ _ => true
  | _ => false

end JobRequest

def Message.report : Message → Option ExecutorDocument
  | .poll report => some report
  | .job _ _ request => request.report

def Message.isResult : Message → Bool
  | .poll _ => false
  | .job _ _ request => request.isResult

/-- A message that acknowledges a reconciliation. -/
def Message.acked : Message → Bool
  | .poll _ => false
  | .job _ _ request => request.acked

/-- The record of a retired pilot that a message may settle. -/
def retirementDetails (enrollment : AgentEnrollment) (inputDigest : String) : Value :=
  .obj [("device_uri", .str enrollment.deviceUri), ("enrollment_id", .str enrollment.id),
    ("input_digest", .str inputDigest), ("job_schema", .int 1),
    ("operation", .str "create_unlinked_pilot"), ("schema", .int 1), ("unclaimed", .bool true)]

/-- A result that closes the journal of a retired pilot. -/
def ResultDocument.closesRetired (d : ResultDocument) : Bool :=
  d.status == .str "failed" && d.gpoGuid == .null && d.evidence == .null &&
    [Value.str "gpo_job_expired", .str "gpo_authority_expired",
      .str "gpo_enrollment_changed"].contains d.resultCode

/-- `_retired_unclaimed_exchange`. -/
def Db.retiredUnclaimed (db : Db) (tenant : Tenant) (enrollment : AgentEnrollment)
    (jobId inputDigest : String) (request : JobRequest) : Bool :=
  (match request with
    | .lookup _ => true
    | .result d => d.closesRetired
    | _ => false) &&
    (db.jobs.get? jobId).isNone && sha inputDigest &&
    match db.retirements.filter fun r => r.tenant == tenant.id && r.objectId == jobId with
    | [event] => event.objectType == "security_gpo_import" && event.outcome == "succeeded" &&
        event.details == retirementDetails enrollment inputDigest
    | _ => false

/-- A request about a job of the enrollment. -/
def requestJob (content : Content) (now : Time) (enrollment : AgentEnrollment) (tenant : Tenant)
    (job : GpoImportJob) (request : JobRequest) : Request Reply := do
  match request.reconciliation with
  | some action => do
    let control ← reconciliationExchange content now job tenant action
    pure (.reconciliation control)
  | none =>
    match request with
    | .result d => do
      recordResult content now job d
      pure .accepted
    | .lookup _ => lookup content now job enrollment tenant
    | request => do
      let db ← get
      let current := db.scopeCurrent now content job enrollment tenant &&
        decide (now < job.expiresAt)
      throwIf (job.inspecting = true) rejected
      let job ← if current then pure job else invalidate job now
      match request with
      | .artifact => artifact content now job tenant current
      | _ => claimJob now job tenant current

/-- What the exchange does once the message is admitted. -/
def answer (content : Content) (now : Time) (enrollment : AgentEnrollment) (tenant : Tenant)
    (message : Message) : Request Reply := do
  match message with
  | .poll _ => poll content now enrollment tenant
  | .job jobId inputDigest request => do
    throwIf (uuidText jobId = false) rejected
    match ((← get).jobs.get? jobId).filter
        fun j => j.tenant == tenant.id && j.enrollment == enrollment.id with
    | none => do
      throwIf ((← get).retiredUnclaimed tenant enrollment jobId inputDigest request = false)
        rejected
      pure (if request.isResult then .accepted else .offer none none)
    | some job => do
      throwIf (inputDigest ≠ job.inputDigest) rejected
      requestJob content now enrollment tenant job request

/-- `security_gpo_exchange`. -/
def exchange (content : Content) (now : Time) (enrollmentId : String) (message : Message) :
    Request Reply := do
  let db ← get
  match db.enrollments.get? enrollmentId with
  | none => throw .notFound
  | some enrollment =>
    match db.tenants.get? enrollment.tenant with
    | none => throw .notFound
    | some tenant => do
      throwIf (enrollment.platform ≠ .windows ∨
        enrollment.status ≠ .active ∧ enrollment.status ≠ .suspended) rejected
      if message.isResult then pure () else expireJobs tenant.id now
      match message.report with
      | none => pure ()
      | some report => executorReport content now enrollment.id report
      answer content now enrollment tenant message

end Ipms.Server.Gpo
