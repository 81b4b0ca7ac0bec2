import Ipms.Server.Gpo.Requests

/-
  Ipms.Server.Gpo.Preflights

  `create_preflight`: the inspection of a managed policy, and the policy itself
  where the request starts a new one or adopts a pilot.
-/

namespace Ipms.Server.Gpo

open Ipms.Lib Ipms.ManagementJson
open Ipms.Agent.Gpo (Job ManagedJob JobCore Operation Override seconds)

/-! ## Adopted pilots -/

/-- The refusal of a target that is not the portal's own. -/
def unmanagedTarget : ServerError := .publicApiError "security_gpo_unmanaged_target" 409

/-- The approval of an adopted pilot stood when it was claimed; a pilot of schema 1 had none. -/
def Db.originApproved (db : Db) (origin : GpoImportJob) : Bool :=
  origin.assignment.schema == 1 ||
    match db.approvalObject origin, origin.approvedAt, origin.claimedAt with
    | some value, some approvedAt, some claimedAt =>
      digest value.toJson == origin.approvalDigest &&
        decide (wholeSeconds origin.requestedAt ≤ approvedAt) && decide (approvedAt ≤ claimedAt) &&
        (!origin.fourEyesRequired || origin.requestedBy != origin.approvedBy)
    | _, _, _ => false

/-- The times of an adopted pilot are in order. -/
def originOrdered (now : Time) (origin : GpoImportJob) : Bool :=
  match origin.claimedAt, origin.completedAt with
  | some claimedAt, some completedAt => decide (origin.requestedAt ≤ claimedAt) &&
      decide (claimedAt ≤ completedAt) && decide (completedAt ≤ now)
  | _, _ => false

/-- The system and the enrollment of an adopted pilot still belong together. -/
def Db.originExecutor (db : Db) (tenant : Tenant) (origin : GpoImportJob) : Bool :=
  match db.enrollments.get? origin.enrollment, db.systems.get? origin.system with
  | some enrollment, some system => enrollment.tenant == tenant.id && system.tenant == tenant.id &&
      system.sourceId == enrollment.deviceUri
  | _, _ => false

/-- The assignment of an adopted pilot is the one of its row, for the selected component. -/
def originAssigned (config : DomainSecuritySettings) (data : SelectionData) (s : Selection)
    (origin : GpoImportJob) : Bool :=
  let a := origin.assignment.core
  digest (undigested origin.assignment.toJson) == origin.inputDigest &&
    a.inputDigest == origin.inputDigest && a.jobId == origin.id && a.scopeId == config.id &&
    a.domainGuid == s.executor.report.domainGuid && a.operation == .createUnlinkedPilot &&
    decide (origin.assignment.schema ≤ 2) && a.targetTier == s.tier &&
    a.baselineId == data.baselineId && a.backupId == data.backupId &&
    a.artifactSha256 == s.component.artifactSha256

/-- The receipt of an adopted pilot is that of an unlinked, disabled GPO. -/
def originReceipt (config : DomainSecuritySettings) (s : Selection) (origin : GpoImportJob) : Bool :=
  let expected := stagedEvidence config.domainName s.executor.report.domainGuid
    origin.assignment.core.executorDcFqdn
  origin.resultEvidence == expected &&
    digest (Db.receiptJson (.str "staged") (.str "gpo_staged_unlinked") (.str origin.gpoGuid)
      expected) == origin.resultDigest

def Db.origin (db : Db) (now : Time) (tenant : Tenant) (config : DomainSecuritySettings)
    (data : SelectionData) (s : Selection) (id : String) : Except ServerError GpoImportJob :=
  match (db.jobs.get? id).filter fun j => j.tenant == tenant.id && j.domain == config.id &&
      j.domainGuid == s.executor.report.domainGuid with
  | none => throw .notFound
  | some origin => do
    throwIf (db.originApproved origin = false ∨ origin.status ≠ .staged ∨ origin.errorCode ≠ "" ∨
      originOrdered now origin = false ∨ defaultGpoIds.contains origin.gpoGuid = true)
      unmanagedTarget
    throwIf (uuidText origin.gpoGuid = false) invalid
    throwIf (db.originExecutor tenant origin = false ∨
      originAssigned config data s origin = false ∨ originReceipt config s origin = false)
      unmanagedTarget
    pure origin

/-! ## The policy of an inspection -/

/-- `ManagedGpoPolicy.objects.create`. -/
def createPolicy (policy : ManagedGpoPolicy) : Request Unit := do
  let db ← get
  if db.policies.rows.any policy.conflicts then throw .integrityError
  else match db.policies.insert policy with
    | none => throw .integrityError
    | some policies => set { db with policies }

/-- The digest that tells the policies of a domain apart. -/
def logicalKey (c : Catalogue) (baselineId : String) (s : Selection) : Except ServerError String :=
  match semanticPurpose c.toContent baselineId s.component with
  | none => throw (.parseError "The component has no stable naming alias.")
  | some purpose => pure (digest (.obj ([("baseline", .str baselineId)] ++
      (optionalMember "override_id" (s.override.map fun row => .str row.id) ++
      [("profile", .str s.profile), ("purpose", .str purpose),
      ("target", .str (c.unicode.casefold s.target)), ("tier", .str (toString s.tier))]))))

def newPolicy (c : Catalogue) (tenant : Tenant) (config : DomainSecuritySettings)
    (data : SelectionData) (s : Selection) (logical purpose id : String)
    (origin : Option GpoImportJob) : ManagedGpoPolicy :=
  { id, tenant := tenant.id, domain := config.id, domainGuid := s.executor.report.domainGuid
    override := s.override.map GpoOverride.id, logicalKey := logical, tier := s.tier
    targetOus := s.targets, baselineId := data.baselineId, profile := s.profile, purpose
    target := s.target, gpoGuid := (origin.map GpoImportJob.gpoGuid).getD "", displayName := s.name
    nameKey := c.unicode.casefold s.name, version := data.version, backupId := data.backupId
    originJob := origin.map GpoImportJob.id }

/-- The policy a request names, which has to be the one its selection describes. -/
def Db.namedPolicy (db : Db) (tenant : Tenant) (config : DomainSecuritySettings) (s : Selection)
    (logical id : String) : Except ServerError ManagedGpoPolicy :=
  match (db.policies.get? id).filter fun p => p.tenant == tenant.id && p.domain == config.id with
  | none => throw .notFound
  | some policy => do
    throwIf (policy.domainGuid ≠ s.executor.report.domainGuid ∨ policy.logicalKey ≠ logical ∨
      policy.override ≠ s.override.map GpoOverride.id ∨ policy.targetOus ≠ s.targets)
      unmanagedTarget
    pure policy

/-- What a new policy of a domain may not share with another one. -/
def Db.checkNewPolicy (db : Db) (tenant : Tenant) (domainGuid logical : String) :
    Except ServerError Unit :=
  throwIf (db.policies.rows.any fun p => p.tenant == tenant.id && p.domainGuid == domainGuid &&
    p.logicalKey == logical) (.publicApiError "security_gpo_managed_exists" 409)

/-- The policy of an inspection: the one the request names, or a new one under the free `id`. -/
def selectedPolicy (c : Catalogue) (now : Time) (tenant : Tenant) (config : DomainSecuritySettings)
    (data : SelectionData) (s : Selection) (logical id : String) : Request ManagedGpoPolicy := do
  let db ← get
  match data.managedId with
  | some managedId => Txn.ofExcept (db.namedPolicy tenant config s logical managedId)
  | none => do
    throwIf (data.operation.isImport = false)
      (.parseError "Create or select a managed GPO before linking or activation.")
    let guid := s.executor.report.domainGuid
    Txn.ofExcept (db.checkNewPolicy tenant guid logical)
    let origin ← match data.adoptJobId with
      | none => pure none
      | some adopted => do
        let origin ← Txn.ofExcept (db.origin now tenant config data s adopted)
        pure (some origin)
    throwIf (db.policies.rows.any fun p => p.tenant == tenant.id && p.domainGuid == guid &&
      p.nameKey == c.unicode.casefold s.name) (.publicApiError "security_gpo_name_collision" 409)
    match semanticPurpose c.toContent data.baselineId s.component with
    | none => throw (.parseError "The component has no stable naming alias.")
    | some purpose => do
      let policy := newPolicy c tenant config data s logical purpose id origin
      createPolicy policy
      pure policy

/-! ## The assignment of an inspection -/

/-- What an inspection is for, whatever kind of request made it. -/
structure Intent where
  key : String
  operation : Operation
  baselineId : String
  backupId : String
  version : String

/-- The override an inspection carries. -/
def Db.intendedOverride (db : Db) (policy : ManagedGpoPolicy) (operation : Operation)
    (override : Option GpoOverride) : Except ServerError (Option Override) :=
  match override with
  | none => pure none
  | some row =>
    let changed := ServerError.publicApiError "security_gpo_prepared_content_changed" 409
    if operation = .deactivateManagedGpo ∨ operation = .deleteManagedGpo then
      -- What was prepared is taken away, however the override reads today.
      match (db.stagedOverride policy).filter fun o => o.overrideId == row.id with
      | none => throw changed
      | some staged => pure (some staged)
    else do
      throwIf ((operation = .activateManagedGpo ∨ operation = .linkManagedGpo) ∧
        db.stagedOverride policy ≠ some (assignmentPatch row)) changed
      pure (some (assignmentPatch row))

/-- The accepted reconciliation of a job of the policy that observed its GPO. -/
def Db.reconciledOwner (db : Db) (policy : ManagedGpoPolicy) : Bool :=
  policy.gpoGuid != "" && db.reconciliations.rows.any fun r =>
    r.tenant == policy.tenant && r.status == .accepted && observedGuid r == policy.gpoGuid &&
      match (db.jobs.get? r.job).map GpoImportJob.assignment with
      | some (.managed a) => a.managedId == policy.id
      | _ => false

/-- The pilot whose GPO a policy adopted and has not prepared since. -/
def Db.adoptedPilot (db : Db) (policy : ManagedGpoPolicy) : Option GpoImportJob :=
  ((policy.originJob.bind db.jobs.get?).filter fun j => decide (j.assignment.schema ≤ 2)).filter
    fun _ => policy.stagedJob.isNone && !db.reconciledOwner policy

/-- The owner marker an inspection expects. -/
def Db.expectedOwner (db : Db) (policy : ManagedGpoPolicy) (a : ManagedJob) : String :=
  match db.adoptedPilot policy with
  | some origin =>
    "IPMS disabled, unlinked pilot; job=" ++ origin.id ++ "; digest=" ++ origin.inputDigest
  | none => if policy.gpoGuid = "" then "" else ownerMarker a

/-- The assignment of an inspection, without its owner marker and its digest. -/
def inspectionOf (config : DomainSecuritySettings) (intent : Intent) (s : Selection) (name : String)
    (policy : ManagedGpoPolicy) (override : Option Override) (expires : Time) : ManagedJob :=
  let targets := if intent.operation = .importManagedGpo then [] else policy.targetOus
  { jobId := intent.key, inputDigest := "", operation := .inspectManagedGpo
    domainDnsName := config.domainName, domainGuid := s.executor.report.domainGuid
    forestDnsName := s.executor.report.forestDnsName, executorDcFqdn := s.executor.report.dcFqdn
    scopeId := config.id, scopeRevision := config.revision, targetTier := s.tier
    baselineId := intent.baselineId, profile := s.profile, backupId := intent.backupId
    artifactSha256 := s.component.artifactSha256, pilotDisplayName := name
    expiresAt := stamp expires, approvalMode := "inspection", managedId := policy.id
    managedRevision := policy.revision, gpoGuid := policy.gpoGuid, ownerMarker := ""
    targetOus := targets, linkOrders := targets.map fun _ => 1, preflightId := ""
    expectedState := none, intendedOperation := intent.operation, safetyReview := Db.falseReview
    override }

/-- The policy is in a state the operation may be inspected in. -/
def checkIntended (intent : Intent) (name : String) (policy : ManagedGpoPolicy) :
    Except ServerError Unit := do
  throwIf (policy.state = .reconciliationRequired)
    (.publicApiError "security_gpo_reconciliation_required" 409)
  throwIf (intent.operation ≠ .deleteManagedGpo ∧ intent.operation.isImport = false ∧
    (policy.gpoGuid = "" ∨ policy.stagedJob = none))
    (.publicApiError "security_gpo_preflight_required" 409)
  throwIf (intent.operation.isImport = false ∧ (policy.backupId ≠ intent.backupId ∨
    policy.version ≠ intent.version ∨ policy.displayName ≠ name))
    (.publicApiError "security_gpo_prepared_content_changed" 409)

/-- The name an inspection carries. -/
def intendedName (intent : Intent) (s : Selection) (policy : ManagedGpoPolicy) : String :=
  if s.override.isSome ∧ (intent.operation = .deactivateManagedGpo ∨
      intent.operation = .deleteManagedGpo) then policy.displayName else s.name

def Db.inspectionAssignment (db : Db) (config : DomainSecuritySettings) (intent : Intent)
    (s : Selection) (policy : ManagedGpoPolicy) (expires : Time) : Except ServerError ManagedJob := do
  let name := intendedName intent s policy
  checkIntended intent name policy
  let override ← db.intendedOverride policy intent.operation s.override
  let a := inspectionOf config intent s name policy override expires
  let a := { a with ownerMarker := db.expectedOwner policy a }
  let a := { a with inputDigest := digest (undigested a.toJson) }
  throwIf ((canonical a.toJson).length > 24576)
    (.parseError "The selected OU scope exceeds the bounded GPO transport budget.")
  pure a

def createInspection (c : Catalogue) (now : Time) (tenant : Tenant) (user : User)
    (config : DomainSecuritySettings) (intent : Intent) (s : Selection) (policy : ManagedGpoPolicy)
    (requestDigest : String) : Request String := do
  let expires := wholeSeconds (now + seconds 900)
  let a ← Txn.ofExcept ((← get).inspectionAssignment config intent s policy expires)
  let job := (← get).newJob c.toContent tenant config s.executor user.id (.managed a) requestDigest
    .queued now expires
  createJob job
  pure job.id

/-- `create_preflight` of a request that is for no deletion. -/
def createSelected (c : Catalogue) (now : Time) (tenant : Tenant) (user : User)
    (config : DomainSecuritySettings) (data : SelectionData) (requestDigest id : String) :
    Request String := do
  let s ← Txn.ofExcept ((← get).selection c now tenant user config data)
  match ← Txn.ofExcept ((← get).retry tenant user.id data.idempotencyKey requestDigest) with
  | some existing => pure existing.id
  | none => do
    idle tenant s.executor.report.domainGuid now
    let logical ← Txn.ofExcept (logicalKey c data.baselineId s)
    let policy ← selectedPolicy c now tenant config data s logical id
    createInspection c now tenant user config
      { key := data.idempotencyKey, operation := data.operation, baselineId := data.baselineId
        backupId := data.backupId, version := data.version } s policy requestDigest

/-- `create_preflight` of a deletion; its key is looked up before anything else. -/
def createDeletion (c : Catalogue) (now : Time) (tenant : Tenant) (user : User)
    (config : DomainSecuritySettings) (data : DeletionData) (requestDigest : String) :
    Request String := do
  let earlier ← if uuidText data.idempotencyKey then
      Txn.ofExcept ((← get).retry tenant user.id data.idempotencyKey requestDigest)
    else pure none
  match earlier with
  | some existing => pure existing.id
  | none => do
    let (s, policy) ← Txn.ofExcept ((← get).deleteSelection c now tenant user config data)
    idle tenant s.executor.report.domainGuid now
    let _ ← Txn.ofExcept (logicalKey c policy.baselineId s)
    createInspection c now tenant user config
      { key := data.idempotencyKey, operation := .deleteManagedGpo
        baselineId := policy.baselineId, backupId := policy.backupId, version := policy.version }
      s policy requestDigest

/-- `create_preflight`; the job it made or found is returned. -/
def createPreflight (c : Catalogue) (now : Time) (tenant : Tenant) (user : User)
    (config : DomainSecuritySettings) (data : PreflightData) (id : String) : Request String :=
  let requestDigest := data.digest config.id
  match data with
  | .selection d => createSelected c now tenant user config d requestDigest id
  | .deletion d => createDeletion c now tenant user config d requestDigest

end Ipms.Server.Gpo
