import Ipms.Server.Gpo.Authority

/-
  Ipms.Server.Gpo.Fence

  How jobs end without a result: expiry, lost authority and withdrawal.  A job
  whose write was claimed is never freed this way; it keeps the domain and asks
  for reconciliation, together with its policy.
-/

namespace Ipms.Server.Gpo

open Ipms.Lib Ipms.ManagementJson

/-- End a job: a claimed one asks for reconciliation, any other takes the status and the code. -/
def GpoImportJob.endUnlessClaimed (job : GpoImportJob) (status : JobStatus) (code : String)
    (now : Time) : GpoImportJob :=
  if job.claimedAt.isSome then
    { job with status := .reconciliationRequired, errorCode := "gpo_reconciliation_required" }
  else { job with status, errorCode := code, completedAt := some now }

/-- The policy of a job that asks for reconciliation asks for it too. -/
def fencePolicy (job : GpoImportJob) : Request Unit := do
  if job.status = .reconciliationRequired then
    match (← get).policyForJob job with
    | none => pure ()
    | some policy => savePolicyState policy .reconciliationRequired
  else pure ()

/-- Save a job that ended, and its policy with it. -/
def saveEnded (job : GpoImportJob) : Request Unit := do
  saveJob job
  fencePolicy job

/-- The jobs `expire_jobs` selects. -/
def expiring (tenant : String) (now : Time) (job : GpoImportJob) : Bool :=
  job.tenant == tenant && job.status.active && job.status != .reconciliationRequired &&
    decide (job.expiresAt ≤ now)

def expireJobs (tenant : String) (now : Time) : Request Unit :=
  eachJob (expiring tenant now) fun job =>
    saveEnded (job.endUnlessClaimed .expired "gpo_job_expired" now)

/-- `_invalidate`: what it leaves of the job is returned. -/
def invalidate (job : GpoImportJob) (now : Time) (reason : String := "scope_changed") :
    Request GpoImportJob :=
  if job.status.active && job.status != .reconciliationRequired then do
    let ended := job.endUnlessClaimed .failed reason now
    saveEnded ended
    pure ended
  else pure job

/-- The jobs `withdraw_gpo_jobs` selects. -/
def withdrawn (tenant : String) (actor : Option Nat) (enrollment : Option String)
    (job : GpoImportJob) : Bool :=
  job.tenant == tenant && job.status.active &&
    (actor.all fun id => job.requestedBy == some id || job.approvedBy == some id) &&
    enrollment.all fun id => job.enrollment == id

def withdrawGpoJobs (tenant : String) (actor : Option Nat) (enrollment : Option String)
    (reason : String) (now : Time) : Request Unit :=
  eachJob (withdrawn tenant actor enrollment) fun job => do
    let _ ← invalidate job now reason
    pure ()

/-- `_withdraw`: the portal jobs of a tenant, or of one domain. -/
def withdraw (tenant : String) (domain : Option String) (now : Time) : Request Unit :=
  eachJob (fun job => job.tenant == tenant && job.status.active &&
      decide (2 ≤ job.assignment.schema) && domain.all fun id => job.domain == id) fun job => do
    let _ ← invalidate job now "approval_configuration_changed"
    pure ()

/-- The withdrawal after an override is edited. -/
def withdrawOverride (tenant overrideId reason : String) (now : Time) : Request Unit :=
  eachJob (fun job => job.tenant == tenant && job.status.active &&
      match job.assignment with
      | .managed a => a.override.any fun o => o.overrideId == overrideId
      | .pilot _ _ => false) fun job => do
    let _ ← invalidate job now reason
    pure ()

/-! ## Approval -/

def Db.approvalBlocker (db : Db) (now : Time) (job : GpoImportJob) (tenant : Tenant) (user : Nat) :
    Option String :=
  if job.inspecting then some "inspection_only"
  else if !job.isPortal then some "local_approval_required"
  else if !job.status.preExecution || job.claimedAt.isSome then some "job_not_pending"
  else if job.expiresAt ≤ now then some "job_expired"
  else if job.approvedAt.isSome then some "already_approved"
  else if !db.policyCurrent now job tenant then some "approval_configuration_changed"
  else if !db.jobScoped now (some user) tenant job .securityGpoImportsApprove then
    some "domain_tier_not_authorized"
  else if job.fourEyesRequired && some user == job.requestedBy then some "four_eyes_required"
  else none

/-- The status a blocked approval is answered with. -/
def blockedStatus (blocker : String) : Nat :=
  if blocker = "domain_tier_not_authorized" ∨ blocker = "four_eyes_required" then 403 else 409

def GpoImportJob.approve (job : GpoImportJob) (user : Nat) (approvedAt : Time) : GpoImportJob :=
  { job with approvedBy := some user, approvedAt := some approvedAt, errorCode := "",
             status := .queued }

def approveJob (content : Content) (now : Time) (job : GpoImportJob) (user : Nat) :
    Request Unit := do
  let db ← get
  match db.tenants.get? job.tenant, db.enrollments.get? job.enrollment with
  | some tenant, some enrollment => do
    match db.approvalBlocker now job tenant user with
    | some blocker =>
      throw (.publicApiError ("security_gpo_" ++ blocker) (blockedStatus blocker))
    | none => do
      throwIf (db.scopeCurrent now content job enrollment tenant = false)
        (.publicApiError "security_gpo_scope_changed" 409)
      throwIf (content.reviewable job.assignment = false)
        (.publicApiError "security_gpo_artifact_unavailable" 409)
      let approvedAt := wholeSeconds now
      throwIf (job.expiresAt ≤ approvedAt) (.publicApiError "security_gpo_job_expired" 409)
      let approved := job.approve user approvedAt
      match db.approvalObject approved with
      | none => throw .valueError
      | some value => saveJob { approved with approvalDigest := digest value.toJson }
  | _, _ => throw .notFound

def approveOnCreation (content : Content) (now : Time) (job : GpoImportJob) (user : Nat) :
    Request Unit := do
  let db ← get
  match db.tenants.get? job.tenant with
  | none => throw .notFound
  | some tenant =>
    if job.production && job.isPortal && !job.fourEyesRequired && job.requestedBy == some user &&
        job.approvedAt.isNone &&
        db.jobScoped now (some user) tenant job .securityGpoImportsApprove then
      approveJob content now job user
    else pure ()

end Ipms.Server.Gpo
