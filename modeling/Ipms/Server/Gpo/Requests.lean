import Ipms.Server.Gpo.Settings

/-
  Ipms.Server.Gpo.Requests

  How jobs are made: the pilot of `queue_job`, the inspection of
  `create_preflight` and the change that `create_change` makes of an inspection.
  A request is its document with the fields read; what it selects is checked
  against the tables before anything is written.
-/

namespace Ipms.Server.Gpo

open Ipms.Lib Ipms.ManagementJson
open Ipms.Agent.Gpo (Job ManagedJob JobCore Operation Snapshot Ou Link SafetyReview seconds)

/-! ## Executors -/

/-- A system with its enrollment and its report. -/
structure Executor where
  system : WindowsServer
  enrollment : AgentEnrollment
  report : GpoExecutorReport

def Db.executorFor (db : Db) (tenant systemId : String) : Option Executor := do
  let system ← (db.systems.get? systemId).filter fun s => s.tenant == tenant
  let enrollment ← db.enrollments.rows.find? fun e =>
    e.tenant == tenant && e.deviceUri == system.sourceId
  let report ← db.reports.get? enrollment.id
  pure { system, enrollment, report }

/-- The executor is ready for an assignment of the portal. -/
def Db.executorReady (db : Db) (content : Content) (now : Time) (config : DomainSecuritySettings)
    (e : Executor) : Bool :=
  db.ready now content e.system e.enrollment e.report config.domainName true

/-- `minimum_agent` of a selection. -/
def selectionAgent (custom : Bool) : Nat × Nat × Nat := if custom then (0, 2, 48) else (0, 2, 47)

/-- The executor runs an agent new enough for a selection. -/
def Executor.supports (content : Content) (custom : Bool) (e : Executor) : Bool :=
  [e.system.agentVersion, e.report.agentVersion].all fun version =>
    (versionTuple content.unicode version).any fun v => versionAtLeast v (selectionAgent custom)

/-- The tier of its text. -/
def tierNumber (tier : String) : Option Int :=
  if tier = "0" then some 0 else if tier = "1" then some 1 else if tier = "2" then some 2 else none

/-- `_retry`: the job an earlier request with the key made. -/
def Db.retry (db : Db) (tenant : Tenant) (user : Nat) (jobId requestDigest : String) :
    Except ServerError (Option GpoImportJob) :=
  match db.jobs.get? jobId with
  | none => pure none
  | some existing => do
    throwIf (existing.tenant ≠ tenant.id ∨ existing.requestSha256 ≠ requestDigest ∨
      existing.requestedBy ≠ some user) (.publicApiError "security_gpo_request_conflict" 409)
    pure (some existing)

/-- A tenant may keep 10000 jobs, and a domain one active job. -/
def Db.checkIdle (db : Db) (tenant domainGuid : String) : Except ServerError Unit := do
  throwIf (db.jobs.rows.any fun j => j.tenant == tenant && j.domainGuid == domainGuid &&
    j.status.active) (.publicApiError "security_gpo_domain_busy" 409)
  throwIf ((db.jobs.rows.filter fun j => j.tenant == tenant).length ≥ 10000)
    (.publicApiError "security_gpo_job_limit" 409)

def idle (tenant : Tenant) (domainGuid : String) (now : Time) : Request Unit := do
  expireJobs tenant.id now
  Txn.ofExcept ((← get).checkIdle tenant.id domainGuid)

/-! ## Pilots -/

/-- The request of a pilot. -/
structure ImportData where
  revision : Int
  systemId : String
  baselineId : String
  backupId : String
  tier : String
  target : String
  version : String
  idempotencyKey : String
  deriving DecidableEq

/-- The digest of a pilot's request. -/
def ImportData.digest (data : ImportData) (domain : String) : String :=
  Server.digest (.obj [("backup_id", .str data.backupId), ("baseline_id", .str data.baselineId),
    ("domain_id", .str domain), ("idempotency_key", .str data.idempotencyKey),
    ("revision", .int data.revision), ("system_id", .str data.systemId),
    ("target", .str data.target), ("tier", .str data.tier), ("version", .str data.version)])

/-- The profiles of a baseline that hold a component. -/
def Catalogue.candidates (c : Catalogue) (profiles : List String) (baselineId backupId : String) :
    List String :=
  profiles.filter fun profile => (c.profileComponents baselineId profile).contains backupId

/-- The scope letter of a component's name. -/
def scopeLetter (component : Component) : String := if component.scope = .user then "U" else "C"

/-- What a pilot's request selects. -/
structure ImportSelection where
  component : Component
  profile : String
  tier : Int
  name : String
  executor : Executor

/-- The suffix a pilot's purpose gets from its component. -/
def pilotSuffix (backupId : String) : String :=
  String.ofList (((backupId.toList.drop 1).take 8).map Char.toLower)

/-- The component a pilot's request selects, with its profile. -/
def importComponent (c : Catalogue) (config : DomainSecuritySettings) (data : ImportData)
    (tier : Int) : Except ServerError (Component × String) := do
  match c.deployable data.baselineId, c.components data.baselineId data.backupId with
  | some profiles, some component => do
    throwIf (config.tierOus.get tier = [])
      (.parseError "Select an available component and a configured tier.")
    let candidates := c.candidates profiles data.baselineId data.backupId
    match candidates with
    | [] => throw (.parseError "Domain-wide and DC-only components require a Tier 0 plan.")
    | profile :: _ => do
      throwIf (tier ≠ 0 ∧ (candidates = ["domain-controller"] ∨ component.scope = .domain))
        (.parseError "Domain-wide and DC-only components require a Tier 0 plan.")
      pure (component, profile)
  | _, _ => throw (.parseError "Select an available component and a configured tier.")

/-- The checks of `queue_job` before it looks for another job of the domain. -/
def Db.importSelection (db : Db) (c : Catalogue) (now : Time) (tenant : Tenant)
    (config : DomainSecuritySettings) (data : ImportData) (tier : Int) :
    Except ServerError ImportSelection := do
  throwIf (config.revision ≠ data.revision)
    (.publicApiError "security_domain_revision_changed" 409)
  let _ ← validateSettings c config.document
  let (component, profile) ← importComponent c config data tier
  match renderName c.unicode config.gpoNameTemplate data.tier (scopeLetter component) data.target
      component.purpose data.version (some (pilotSuffix data.backupId)) with
  | none => throw (.parseError "The generated GPO name is invalid or reserved.")
  | some name =>
    match (db.executorFor tenant.id data.systemId).filter
        fun e => db.executorReady c.toContent now config e with
    | none => throw (.publicApiError "security_gpo_executor_unavailable" 409)
    | some executor => do
      throwIf ((c.artifactBytes component.artifactSha256).isNone)
        (.publicApiError "security_gpo_artifact_unavailable" 409)
      pure { component, profile, tier, name, executor }

/-- A job document with its own digest. -/
def Job.sealed : Job → Job
  | .pilot core portal =>
    .pilot { core with inputDigest := digest (undigested (Job.pilot core portal).toJson) } portal
  | .managed a => .managed { a with inputDigest := digest (undigested a.toJson) }

def pilotAssignment (config : DomainSecuritySettings) (data : ImportData) (s : ImportSelection)
    (expires : Time) : Job :=
  Job.sealed (.pilot
    { jobId := data.idempotencyKey, inputDigest := "", operation := .createUnlinkedPilot
      domainDnsName := config.domainName, domainGuid := s.executor.report.domainGuid
      forestDnsName := s.executor.report.forestDnsName
      executorDcFqdn := s.executor.report.dcFqdn, scopeId := config.id
      scopeRevision := config.revision, targetTier := s.tier, baselineId := data.baselineId
      profile := s.profile, backupId := data.backupId
      artifactSha256 := s.component.artifactSha256, pilotDisplayName := s.name
      expiresAt := stamp expires } true)

def Db.newJob (db : Db) (content : Content) (tenant : Tenant) (config : DomainSecuritySettings)
    (e : Executor) (user : Nat) (assignment : Job) (requestDigest : String) (status : JobStatus)
    (now expires : Time) : GpoImportJob :=
  { id := assignment.core.jobId, tenant := tenant.id, domain := config.id
    enrollment := e.enrollment.id, system := e.system.id, requestedBy := some user
    policyRevision := (db.policyFor tenant.id).revision
    fourEyesRequired := (db.policyFor tenant.id).fourEyesRequired
    authorizationRevision := (db.authorizationFor config.id).revision
    domainGuid := e.report.domainGuid, requestSha256 := requestDigest
    inputDigest := assignment.core.inputDigest, assignment
    pilotDisplayName := assignment.core.pilotDisplayName
    pilotNameKey := content.unicode.casefold assignment.core.pilotDisplayName
    status, requestedAt := now, expiresAt := expires }

/-- `queue_job`; the job it made or found is returned. -/
def queueJob (c : Catalogue) (now : Time) (tenant : Tenant) (user : User)
    (config : DomainSecuritySettings) (data : ImportData) : Request String := do
  throwIf (uuidText data.idempotencyKey = false ∨ uuidText data.systemId = false)
    (.parseError "The GPO request identity is invalid.")
  match tierNumber data.tier with
  | none => throw (.parseError "Select one concrete tier.")
  | some tier => do
    let db ← get
    throwIf (db.scopedFor now (some user) tenant config tier .securityGpoImportsRun = false)
      (.permissionDenied "An explicit domain/tier grant is required.")
    match db.jobs.get? data.idempotencyKey with
    | some existing => do
      throwIf (existing.tenant ≠ tenant.id) .notFound
      throwIf (existing.requestSha256 ≠ data.digest config.id ∨
        existing.requestedBy ≠ some user.id)
        (.publicApiError "security_gpo_request_conflict" 409)
      pure existing.id
    | none => do
      let s ← Txn.ofExcept (db.importSelection c now tenant config data tier)
      expireJobs tenant.id now
      let db ← get
      let guid := s.executor.report.domainGuid
      throwIf (db.jobs.rows.any fun j => j.tenant == tenant.id && j.domainGuid == guid &&
        j.status.active) (.publicApiError "security_gpo_domain_busy" 409)
      throwIf (db.jobs.rows.any fun j => j.tenant == tenant.id && j.domainGuid == guid &&
        j.pilotNameKey == c.unicode.casefold s.name)
        (.publicApiError "security_gpo_pilot_exists" 409)
      throwIf ((db.jobs.rows.filter fun j => j.tenant == tenant.id).length ≥ 10000)
        (.publicApiError "security_gpo_job_limit" 409)
      let expires := wholeSeconds (now + seconds 3600)
      let job := db.newJob c.toContent tenant config s.executor user.id
        (pilotAssignment config data s expires) (data.digest config.id) .awaitingApproval now
        expires
      createJob job
      pure job.id

/-! ## Selections of a managed policy -/

/-- The override a request selects, as it was displayed. -/
structure OverrideData where
  overrideId : String
  revision : Int
  sha256 : String
  deriving DecidableEq

/-- The request of an inspection that is for no deletion. -/
structure SelectionData where
  revision : Int
  systemId : String
  baselineId : String
  backupId : String
  tier : String
  target : String
  targetOus : List String
  version : String
  idempotencyKey : String
  operation : Operation
  managedId : Option String
  adoptJobId : Option String
  override : Option OverrideData
  domainRootConfirmed : Option Bool
  deriving DecidableEq

/-- The request of an inspection for a deletion. -/
structure DeletionData where
  revision : Int
  systemId : String
  idempotencyKey : String
  managedId : String
  domainRootConfirmed : Option Bool
  deriving DecidableEq

/-- The request of an inspection. -/
inductive PreflightData where
  | selection (data : SelectionData)
  | deletion (data : DeletionData)
  deriving DecidableEq

/-- A text member that may be null. -/
def textOrNull (s : Option String) : Value := (s.map Value.str).getD .null

/-- A member that may be missing. -/
def optionalMember (key : String) (v : Option Value) : List (String × Value) :=
  (v.map fun value => (key, value)).toList

/-- The digest of an inspection's request. -/
def PreflightData.digest (domain : String) : PreflightData → String
  | .selection d => Server.digest (.obj ([("adopt_job_id", textOrNull d.adoptJobId),
      ("backup_id", .str d.backupId), ("baseline_id", .str d.baselineId),
      ("domain_id", .str domain)] ++
      (optionalMember "domain_root_confirmed" (d.domainRootConfirmed.map .bool) ++
      [("idempotency_key", .str d.idempotencyKey), ("managed_id", textOrNull d.managedId),
      ("operation", .str d.operation.text)] ++
      (optionalMember "override_id" (d.override.map fun o => .str o.overrideId) ++
      optionalMember "override_revision" (d.override.map fun o => .int o.revision) ++
      optionalMember "override_sha256" (d.override.map fun o => .str o.sha256) ++
      [("revision", .int d.revision), ("system_id", .str d.systemId), ("target", .str d.target),
      ("target_ous", .arr (d.targetOus.map .str)), ("tier", .str d.tier),
      ("version", .str d.version)]))))
  | .deletion d => Server.digest (.obj ([("domain_id", .str domain)] ++
      (optionalMember "domain_root_confirmed" (d.domainRootConfirmed.map .bool) ++
      [("idempotency_key", .str d.idempotencyKey), ("managed_id", .str d.managedId),
      ("operation", .str Operation.deleteManagedGpo.text), ("revision", .int d.revision),
      ("system_id", .str d.systemId)])))

/-- What a request selects. -/
structure Selection where
  component : Component
  profile : String
  tier : Int
  target : String
  name : String
  executor : Executor
  override : Option GpoOverride
  targets : List String

/-- The profile a selection gets. -/
def selectionProfile (c : Catalogue) (config : DomainSecuritySettings) (data : SelectionData)
    (tier : Int) (component : Component) : Except ServerError String := do
  throwIf (component.scope ≠ .domain ∧ config.tierOus.get tier = [])
    (.parseError "Select an available component and configured tier.")
  match c.deployable data.baselineId with
  | none => throw (.parseError "Select a baseline with an available GPO package.")
  | some profiles =>
    let candidates := c.candidates profiles data.baselineId data.backupId
    match candidates with
    | [] => throw (.parseError "DC and domain components require Tier 0.")
    | profile :: _ => do
      throwIf (tier ≠ 0 ∧ (candidates = ["domain-controller"] ∨ component.scope = .domain))
        (.parseError "DC and domain components require Tier 0.")
      pure profile

/-- The targets a selection gets. -/
def selectionTargets (c : Catalogue) (config : DomainSecuritySettings) (data : SelectionData)
    (tier : Int) (component : Component) : Except ServerError (List String) :=
  let root := domainRoot config.domainName
  if component.scope = .domain then do
    throwIf (data.targetOus ≠ [root])
      (.parseError "Select the configured domain root for this domain-wide component.")
    pure data.targetOus
  else do
    let selected := (config.tierOus.get tier).filter data.targetOus.contains
    throwIf (selected ≠ data.targetOus ∨ ¬data.targetOus.Nodup)
      (.parseError "Select unique target OUs from the configured tier.")
    throwIf ((selected.any fun value => c.unicode.casefold value == c.unicode.casefold root) ∧
      (tier ≠ 0 ∨ targetsDomainRoot c.toContent selected config.domainName = false))
      (.parseError "Select the exact domain root by itself and only in Tier 0.")
    pure selected

/-- The confirmation of a root operation is given exactly for one. -/
def checkRootConfirmed (root : Bool) (confirmed : Option Bool) (unexpected : String) :
    Except ServerError Unit := do
  throwIf (root = true ∧ confirmed.getD false = false)
    (.publicApiError "security_gpo_domain_root_confirmation_required" 409)
  throwIf (root = false ∧ confirmed.getD false = true) (.parseError unexpected)

/-- The settings of a component that overrides may select from. -/
def overrideSettings (c : Content) (baselineId backupId : String) : Option (List Setting) :=
  (c.overrideComponents baselineId backupId).map Prod.snd

/-- The override a selection gets. -/
def Db.selectionOverride (db : Db) (c : Catalogue) (tenant : Tenant) (data : SelectionData)
    (component : Component) : Except ServerError (Option GpoOverride) :=
  match data.override with
  | none => pure none
  | some o =>
    match (db.overrides.get? o.overrideId).filter fun row => row.tenant == tenant.id with
    | none => throw .notFound
    | some row => do
      throwIf (row.revision ≠ o.revision ∨ digest (patchDocument row) ≠ o.sha256)
        (.publicApiError "security_override_revision_changed" 409)
      throwIf (row.baselineId ≠ data.baselineId ∨ row.backupId ≠ data.backupId ∨
        row.artifactSha256 ≠ component.artifactSha256 ∨ data.adoptJobId ≠ none ∨
        data.operation ≠ .deactivateManagedGpo ∧ (row.enabled = false ∨ row.entries = []))
        (.publicApiError "security_override_unavailable" 409)
      match overrideSettings c.toContent row.baselineId row.backupId with
      | none => throw (.parseError "Select an available override component.")
      | some settings => do
        throwIf (normalizeEntries settings row.entries row.custom ≠ some row.entries)
          (.publicApiError "security_override_artifact_changed" 409)
        pure (some row)

/-- The form of a selection's document. -/
def SelectionData.wellFormed (data : SelectionData) : Bool :=
  !data.targetOus.isEmpty && decide (data.targetOus.length ≤ 32) &&
    data.operation.isManaged && data.operation != .deleteManagedGpo &&
    data.override.all fun o => sha o.sha256

/-- The identities of a selection's document. -/
def SelectionData.identified (data : SelectionData) : Bool :=
  uuidText data.systemId && uuidText data.idempotencyKey && data.managedId.all uuidText &&
    data.adoptJobId.all uuidText && data.override.all fun o => uuidText o.overrideId

def selectionName (c : Catalogue) (config : DomainSecuritySettings) (data : SelectionData)
    (component : Component) (override : Option GpoOverride) : Except ServerError String :=
  let purpose := match override with
    | some row => some row.name
    | none => compactPurpose c.toContent data.baselineId component
  match purpose.bind fun purpose => renderName c.unicode config.gpoNameTemplate data.tier
      (scopeLetter component) data.target purpose data.version with
  | none => throw (.parseError "The generated GPO name is invalid or reserved.")
  | some name => pure name

def Db.selection (db : Db) (c : Catalogue) (now : Time) (tenant : Tenant) (user : User)
    (config : DomainSecuritySettings) (data : SelectionData) : Except ServerError Selection := do
  throwIf (data.wellFormed = false)
    (.parseError "Supply exactly the documented managed GPO selection.")
  match tierNumber data.tier with
  | none => throw (.parseError "Supply exactly the documented managed GPO selection.")
  | some tier => do
    throwIf (data.identified = false) (.parseError "Invalid managed GPO identity.")
    throwIf (data.managedId.isSome ∧ data.adoptJobId.isSome)
      (.parseError "Select one managed or historical identity.")
    throwIf (db.scopedFor now (some user) tenant config tier .securityGpoImportsRun = false)
      (.permissionDenied "An explicit domain/tier grant is required.")
    throwIf (config.revision ≠ data.revision)
      (.publicApiError "security_domain_revision_changed" 409)
    let _ ← validateSettings c config.document
    match c.components data.baselineId data.backupId with
    | none => throw (.parseError "Select an available component and configured tier.")
    | some component => do
      let profile ← selectionProfile c config data tier component
      let targets ← selectionTargets c config data tier component
      checkRootConfirmed (targetsDomainRoot c.toContent targets config.domainName &&
        data.operation != .importManagedGpo) data.domainRootConfirmed
        "Domain-root confirmation is valid only for an explicit domain-root action."
      let override ← db.selectionOverride c tenant data component
      let name ← selectionName c config data component override
      match (db.executorFor tenant.id data.systemId).filter fun e =>
          db.executorReady c.toContent now config e &&
            e.supports c.toContent (override.any GpoOverride.custom) with
      | none => throw (.publicApiError "security_gpo_executor_unavailable" 409)
      | some executor => do
        throwIf ((c.artifactBytes component.artifactSha256).isNone)
          (.publicApiError "security_gpo_artifact_unavailable" 409)
        pure { component, profile, tier, target := data.target, name, executor, override,
               targets }

/-! ## Selections of a deletion -/

/-- A policy that may be deleted: one with a prepared or a reconciled GPO. -/
def deletable (policy : ManagedGpoPolicy) : Bool :=
  policy.gpoGuid != "" &&
    (policy.stagedJob.isSome || policy.state == .new && policy.activeJob.isNone) &&
    policy.state != .reconciliationRequired && !defaultGpoIds.contains policy.gpoGuid

/-- The component of a policy, still the one it stands for. -/
def deletionComponent (c : Catalogue) (policy : ManagedGpoPolicy) : Except ServerError Component :=
  match c.components policy.baselineId policy.backupId with
  | none => throw (.publicApiError "security_gpo_prepared_content_changed" 409)
  | some component => do
    throwIf ((c.profileComponents policy.baselineId policy.profile).contains policy.backupId =
        false ∨ semanticPurpose c.toContent policy.baselineId component ≠ some policy.purpose)
      (.publicApiError "security_gpo_prepared_content_changed" 409)
    pure component

/-- The targets of a policy are distinct and configured. -/
def deletionTargets (config : DomainSecuritySettings) (policy : ManagedGpoPolicy) (root : Bool) :
    Bool :=
  let configured := if root then [domainRoot config.domainName] else config.tierOus.get policy.tier
  !policy.targetOus.isEmpty && policy.targetOus.all configured.contains &&
    decide policy.targetOus.Nodup

/-- The override of a policy, whose staged job still carries it. -/
def Db.deletionOverride (db : Db) (policy : ManagedGpoPolicy) :
    Except ServerError (Option GpoOverride) :=
  match policy.override with
  | none => pure none
  | some id => do
    throwIf ((db.stagedOverride policy).all fun o => o.overrideId != id)
      (.publicApiError "security_gpo_prepared_content_changed" 409)
    pure (db.overrides.get? id)

/-- `_delete_selection`, with the policy it selects. -/
def Db.deleteSelection (db : Db) (c : Catalogue) (now : Time) (tenant : Tenant) (user : User)
    (config : DomainSecuritySettings) (data : DeletionData) :
    Except ServerError (Selection × ManagedGpoPolicy) := do
  throwIf (uuidText data.systemId = false ∨ uuidText data.idempotencyKey = false ∨
    uuidText data.managedId = false) (.parseError "Invalid managed GPO deletion identity.")
  throwIf (config.revision ≠ data.revision)
    (.publicApiError "security_domain_revision_changed" 409)
  let _ ← validateSettings c config.document
  match (db.policies.get? data.managedId).filter
      fun p => p.tenant == tenant.id && p.domain == config.id with
  | none => throw .notFound
  | some policy => do
    throwIf (db.scopedFor now (some user) tenant config policy.tier .securityGpoImportsRun = false)
      (.permissionDenied "An explicit domain/tier grant is required.")
    throwIf (deletable policy = false) (.publicApiError "security_gpo_unmanaged_target" 409)
    throwIf (uuidText policy.gpoGuid = false) invalid
    let component ← deletionComponent c policy
    let root := targetsDomainRoot c.toContent policy.targetOus config.domainName
    throwIf (root = true ∧ policy.tier ≠ 0) (.publicApiError "security_gpo_unmanaged_target" 409)
    checkRootConfirmed root data.domainRootConfirmed
      "Domain-root confirmation is valid only for an explicit domain-wide action."
    throwIf (deletionTargets config policy root = false)
      (.publicApiError "security_gpo_unmanaged_target" 409)
    match (db.executorFor tenant.id data.systemId).filter fun e =>
        policy.domainGuid == e.report.domainGuid && db.executorReady c.toContent now config e &&
          e.supports c.toContent false with
    | none => throw (.publicApiError "security_gpo_executor_unavailable" 409)
    | some executor => do
      let override ← db.deletionOverride policy
      pure ({ component, profile := policy.profile, tier := policy.tier, target := policy.target
              name := policy.displayName, executor, override, targets := policy.targetOus },
            policy)

end Ipms.Server.Gpo
