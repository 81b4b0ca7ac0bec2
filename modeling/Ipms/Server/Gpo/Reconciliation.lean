import Ipms.Server.Gpo.Postcondition

/-
  Ipms.Server.Gpo.Reconciliation

  The way out of a domain fence: the agent observes the directory, an
  administrator accepts the observation, and the acknowledged release ends the
  job as reconciled.  No step of it writes the directory.
-/

namespace Ipms.Server.Gpo

open Ipms.Lib Ipms.ManagementJson
open Ipms.Agent.Gpo (ManagedJob Snapshot Link LinkKind)

/-! ## Observations -/

/-- `gpo_presence`. -/
inductive Presence where
  | present | absent | unknown
  deriving DecidableEq

def Presence.text : Presence → String
  | .present => "present"
  | .absent => "absent"
  | .unknown => "unknown"

def Presence.ofText (s : String) : Option Presence :=
  if s == "present" then some .present else if s == "absent" then some .absent
  else if s == "unknown" then some .unknown else none

/-- A read-only observation of the directory. -/
structure Observation where
  state : Option Snapshot
  forestLinks : List Link
  forestComplete : Bool
  aclConsistent : Option Bool
  gpoPresence : Presence
  issues : List String
  gpoGuid : String
  quiescent : Bool
  deriving DecidableEq

/-- The document of an observation. -/
def Observation.toJson (o : Observation) : Value :=
  .obj [("acl_consistent", (o.aclConsistent.map Value.bool).getD .null),
    ("forest_complete", .bool o.forestComplete), ("forest_links", Agent.Gpo.linksJson o.forestLinks),
    ("gpo_guid", .str o.gpoGuid), ("gpo_presence", .str o.gpoPresence.text),
    ("issues", .arr (o.issues.map .str)), ("quiescent", .bool o.quiescent), ("schema", .int 1),
    ("state", Agent.Gpo.expectedStateJson o.state)]

/-- A member that is null or a boolean. -/
def readOptionalBool (v : Value) (key : String) : Option (Option Bool) :=
  match v.get? key with
  | some .null => some none
  | some (.bool b) => some (some b)
  | _ => none

/-- A member that is null or a snapshot. -/
def readOptionalState (v : Value) : Option (Option Snapshot) :=
  match v.get? "state" with
  | some .null => some none
  | some state => (Snapshot.read state).map some
  | none => none

/-- The fields of an observation document. -/
def Observation.read (v : Value) : Option Observation := do
  let state ← readOptionalState v
  let forestLinks ← Agent.Gpo.readLinks v "forest_links"
  let forestComplete ← v.bool? "forest_complete"
  let aclConsistent ← readOptionalBool v "acl_consistent"
  let gpoPresence ← Presence.ofText (← v.str? "gpo_presence")
  let issues ← (← v.arr? "issues").mapM Agent.Gpo.readStr
  let gpoGuid ← v.str? "gpo_guid"
  let quiescent ← v.bool? "quiescent"
  pure { state, forestLinks, forestComplete, aclConsistent, gpoPresence, issues, gpoGuid,
         quiescent }

/-- `ISSUES`. -/
def knownIssues : List String :=
  ["gpo_reconciliation_quiescence_unavailable", "gpo_reconciliation_guid_unknown",
    "gpo_reconciliation_domain_open_failed", "gpo_reconciliation_gpo_open_failed",
    "gpo_reconciliation_metadata_failed", "gpo_reconciliation_worker_failed",
    "gpo_reconciliation_worker_timeout", "gpo_reconciliation_result_invalid",
    "gpo_permission_denied", "gpo_reconciliation_state_unavailable",
    "gpo_reconciliation_acl_inconsistent", "gpo_preflight_required", "gpo_identity_mismatch",
    "gpo_state_changed", "gpo_target_invalid"]

/-- The code of a failure HRESULT. -/
def hresultIssue (code : String) : Bool :=
  let lead := "gpo_reconciliation_hresult_".toList
  let digits := code.toList.drop lead.length
  lead.isPrefixOf code.toList && digits.length == 8 && hexDigits digits &&
    digits.head?.any fun c => c == '8' || c == '9' || decide ('a' ≤ c)

/-- The invalid exchange of a reconciliation. -/
def invalidReconciliation : ServerError :=
  .validationError "Invalid GPO reconciliation exchange."

def validateObservation (content : Content) (a : ManagedJob) (value : Value) :
    Except ServerError Observation := do
  throwIf ((canonical value).length > 32768) invalidReconciliation
  match Value.exactly Observation.toJson Observation.read value with
  | none => throw invalidReconciliation
  | some o => do
    throwIf (o.issues.length > 8 ∨
      !(o.issues.all fun code => knownIssues.contains code || hresultIssue code) ∨
      ¬o.issues.Nodup) invalidReconciliation
    throwIf (o.gpoGuid ≠ "" ∧ uuidText o.gpoGuid = false) invalidReconciliation
    throwIf (validLinks content o.forestLinks = false) invalid
    match o.state with
    | none => pure o
    | some state => do
      let _ ← validateSnapshot content a state.toJson true
      throwIf (state.gpo.any fun g => g.guid != o.gpoGuid || o.gpoPresence != .present)
        invalidReconciliation
      pure o

/-! ## Blockers -/

namespace Db

variable (db : Db) (content : Content) (now : Time)

def jobIntegrity (job : GpoImportJob) : Bool :=
  match job.assignment with
  | .pilot _ _ => false
  | .managed a =>
    (a.override.all fun o => patchValid content a o) && a.approvalMode == "portal" &&
      a.jobId == job.id && a.scopeId == job.domain && a.domainGuid == job.domainGuid &&
      ((db.domains.get? job.domain).any fun config => config.domainName == a.domainDnsName) &&
      a.inputDigest == job.inputDigest && digest (undigested a.toJson) == job.inputDigest

/-- The agent version a reconciliation needs. -/
def reconciliationAgent (a : ManagedJob) : Nat × Nat × Nat :=
  if domainTarget content a && !domainComponent content a then (0, 2, 46)
  else if a.overrideJob then (0, 2, 43) else (0, 2, 37)

/-- An agent version of at least the one a reconciliation needs. -/
def reconciles (a : ManagedJob) (version : String) : Bool :=
  (versionTuple content.unicode version).any fun v =>
    versionAtLeast v (reconciliationAgent content a)

def executorBlocker (job : GpoImportJob) (a : ManagedJob) : Option String :=
  match db.reports.get? job.enrollment, db.systems.get? job.system,
      db.enrollments.get? job.enrollment, db.tenants.get? job.tenant,
      db.domains.get? job.domain with
  | some report, some system, some enrollment, some tenant, some config =>
    if !reconciles content a report.agentVersion || !reconciles content a system.agentVersion then
      some "agent_update_required"
    else if tenant.status != .active ||
        !db.ready now content system enrollment report config.domainName true ||
        report.domainGuid != job.domainGuid || report.forestDnsName != a.forestDnsName ||
        report.dcFqdn != a.executorDcFqdn then some "executor_unavailable"
    else none
  | _, _, _, _, _ => some "agent_update_required"

def requestBlocker (job : GpoImportJob) (tenant : Tenant) (user : Nat)
    (latest : Option GpoReconciliation) : Option String :=
  match job.assignment with
  | .pilot _ _ => some "legacy_journal_unsupported"
  | .managed a =>
    if job.status = .reconciled then some "already_reconciled"
    else if job.status ≠ .reconciliationRequired then some "job_not_reconcilable"
    else if !db.jobScoped now (some user) tenant job .securityGpoImportsRun then
      some "domain_tier_not_authorized"
    else if !db.jobIntegrity content job then some "original_job_changed"
    else if !((db.policyForJob job).any fun p => p.state == .reconciliationRequired) then
      some "policy_unavailable"
    else if latest.any fun r => r.status == .requested || r.status == .acceptRequested then
      some "reconciliation_pending"
    else db.executorBlocker content now job a

def originalResultIdentity (job : GpoImportJob) : String :=
  digest (.obj [("error_code", .str job.errorCode), ("gpo_guid", .str job.gpoGuid),
    ("result_digest", .str job.resultDigest)])

/-- `_authority`. -/
def reconciliationAuthority (record : GpoReconciliation) (job : GpoImportJob) (tenant : Tenant)
    (accepted : Bool) : Option String :=
  let rule := db.policyFor job.tenant
  match job.assignment with
  | .pilot _ _ => some "original_job_changed"
  | .managed a =>
    if record.tenant ≠ job.tenant ∨ db.jobIntegrity content job = false ∨
        originalResultIdentity job ≠ record.jobResultDigest ∨
        job.status ≠ .reconciliationRequired then some "original_job_changed"
    else if !((db.policyForJob job).any fun p => p.state == .reconciliationRequired &&
        p.revision == record.managedRevision) then some "policy_unavailable"
    else if !((db.domains.get? job.domain).any fun c => c.revision == record.scopeRevision) ||
        rule.revision != record.policyRevision ||
        (db.authorizationFor job.domain).revision != record.authorizationRevision ||
        record.fourEyesRequired != (job.fourEyesRequired || rule.fourEyesRequired) then
      some "configuration_changed"
    else if !db.jobScoped now record.requestedBy tenant job .securityGpoImportsRun then
      some "domain_tier_not_authorized"
    else if accepted &&
        (!db.jobScoped now record.acceptedBy tenant job .securityGpoImportsApprove ||
          record.fourEyesRequired && (record.acceptedBy == job.requestedBy ||
            record.acceptedBy == record.requestedBy)) then some "domain_tier_not_authorized"
    else db.executorBlocker content now job a

/-- A link of the observed policy that the job may have made. -/
def observedLink (a : ManagedJob) (config : DomainSecuritySettings) (guid : String) (l : Link) :
    Bool :=
  let root := domainTarget content a
  let configured := if root then [domainRoot config.domainName] else config.tierOus.get a.targetTier
  l.guid == guid && l.domain == a.domainDnsName && l.kind == linkKind content a && !l.enforced &&
    (configured.any fun dn => sameTarget content l.dn dn a) &&
    a.targetOus.any fun dn => sameTarget content l.dn dn a

/-- What stands against accepting an observation whose policy is present. -/
def observedPolicyBlocker (job : GpoImportJob) (a : ManagedJob) (config : DomainSecuritySettings)
    (policy : ManagedGpoPolicy) (o : Observation) (state : Snapshot) (g : Agent.Gpo.Policy) :
    Option String :=
  -- Sorting by the canonical text compares the lists as multisets.
  let direct := state.ous.flatMap fun target => target.links.filter fun l => l.guid == o.gpoGuid
  if [job.gpoGuid, a.gpoGuid, policy.gpoGuid].any fun guid => guid != "" && guid != o.gpoGuid then
    some "ownership_unverified"
  else if g.description ≠ ownerMarker a then some "ownership_unverified"
  else if g.computerEnabled || g.userEnabled then some "gpo_not_disabled"
  else if g.computerDs ≠ g.computerSysvol ∨ g.userDs ≠ g.userSysvol ∨ g.wmiFilter ≠ "" then
    some "state_inconsistent"
  else if o.issues ≠ [] then some "observation_issues"
  else if !g.links.isPerm o.forestLinks then some "link_scope_conflict"
  else if domainTarget content a = true ∧ a.targetTier ≠ 0 then some "link_scope_conflict"
  else if !(o.forestLinks.all (observedLink content a config o.gpoGuid)) then
    some "link_scope_conflict"
  else if !direct.isPerm o.forestLinks then some "link_scope_conflict"
  else if db.policies.rows.any fun p => p.tenant == job.tenant && p.domainGuid == job.domainGuid &&
      p.gpoGuid == o.gpoGuid && p.id != policy.id then some "ownership_unverified"
  else none

def observationBlocker (record : GpoReconciliation) (job : GpoImportJob) : Option String :=
  match record.observation, job.assignment with
  | some value, .managed a =>
    if sha record.journalSha256 = false ∨ digest value ≠ record.observationDigest then
      some "observation_unverifiable"
    else match validateObservation content a value with
      | .error _ => some "observation_unverifiable"
      | .ok o =>
        if o.gpoGuid = "" ∨ defaultGpoIds.contains o.gpoGuid then some "unknown_guid"
        else if o.quiescent = false ∨ o.gpoPresence ≠ .present then
          some "observation_unverifiable"
        else match o.state with
          | none => some "observation_unverifiable"
          | some state =>
            if o.forestComplete = false then some "forest_incomplete"
            else if o.aclConsistent ≠ some true then some "acl_inconsistent"
            else match state.gpo, db.policyForJob job, db.domains.get? job.domain with
              | some g, some policy, some config =>
                db.observedPolicyBlocker content job a config policy o state g
              | _, _, _ => some "observation_unverifiable"
  | _, _ => some "observation_unverifiable"

def acceptBlocker (record : GpoReconciliation) (job : GpoImportJob) (tenant : Tenant) (user : Nat) :
    Option String :=
  if record.status = .accepted then some "already_accepted"
  else if record.status = .acceptRequested then some "acceptance_pending"
  else if record.status = .stale ∨ record.status = .failed ∨ record.expiresAt ≤ now then
    some "observation_stale"
  else if record.status ≠ .observed then some "observation_pending"
  else match db.reconciliationAuthority content now record job tenant false with
    | some reason => some reason
    | none =>
      if !db.jobScoped now (some user) tenant job .securityGpoImportsApprove then
        some "domain_tier_not_authorized"
      else if record.fourEyesRequired && (job.requestedBy == some user ||
          record.requestedBy == some user) then some "four_eyes_required"
      else db.observationBlocker content record job

end Db

/-- `_decision`, for a record that was accepted at a time. -/
def decision (record : GpoReconciliation) (job : GpoImportJob) (acceptedAt : Time) : String :=
  digest (.obj [("accepted_at", .str (isoFormat acceptedAt)), ("accepted_by", .str record.acceptedActor),
    ("authorization_revision", .int record.authorizationRevision),
    ("four_eyes_required", .bool record.fourEyesRequired), ("id", .str record.id),
    ("input_digest", .str job.inputDigest), ("job_id", .str record.job),
    ("journal_sha256", .str record.journalSha256),
    ("managed_revision", .int record.managedRevision),
    ("observation_digest", .str record.observationDigest),
    ("policy_revision", .int record.policyRevision), ("scope_revision", .int record.scopeRevision)])

/-- The decision digest is that of the record. -/
def decided (record : GpoReconciliation) (job : GpoImportJob) : Bool :=
  record.acceptedAt.any fun t => record.decisionDigest == decision record job t

def decisionValid (record : GpoReconciliation) (job : GpoImportJob) : Bool :=
  sha record.decisionDigest && decided record job &&
    record.acceptedBy.any fun user => record.acceptedActor == toString user

/-- A reconciliation whose authority or decision no longer stands. -/
def Db.superseded (db : Db) (content : Content) (now : Time) (record : GpoReconciliation)
    (job : GpoImportJob) (tenant : Tenant) : Bool :=
  let accepting := record.status == .acceptRequested
  (db.reconciliationAuthority content now record job tenant accepting).isSome ||
    accepting && (!decisionValid record job || (db.observationBlocker content record job).isSome)

/-! ## The exchange -/

/-- The mode of a control message. -/
inductive ControlMode where
  | observe | accept | released
  deriving DecidableEq

structure Control where
  id : String
  jobId : String
  inputDigest : String
  journalSha256 : String
  deviceUri : String
  expiresAt : String
  mode : ControlMode
  observationDigest : String
  deriving DecidableEq

/-- The control message of a record. -/
def Db.control (db : Db) (record : GpoReconciliation) (job : GpoImportJob) (mode : ControlMode) :
    Control :=
  { id := record.id, jobId := record.job, inputDigest := job.inputDigest,
    journalSha256 := record.journalSha256,
    deviceUri := ((db.enrollments.get? job.enrollment).map AgentEnrollment.deviceUri).getD "",
    expiresAt := stamp record.expiresAt, mode, observationDigest := record.observationDigest }

/-- The reconciliation messages of an agent. -/
inductive ReconciliationAction where
  | poll (journalSha256 : String)
  | result (journalSha256 reconciliationId observationDigest : String) (observation : Value)
  | ack (journalSha256 reconciliationId observationDigest : String)

namespace ReconciliationAction

/-- The digest of the agent's journal. -/
def journalSha256 : ReconciliationAction → String
  | poll journal | result journal _ _ _ | ack journal _ _ => journal

/-- An acknowledgement. -/
def acked : ReconciliationAction → Bool
  | ack _ _ _ => true
  | _ => false

/-- The observation digest a message names; a poll names none. -/
def observationDigest : ReconciliationAction → Option String
  | poll _ => none
  | result _ _ observation _ | ack _ _ observation => some observation

end ReconciliationAction

/-- The records of a job, the latest first. -/
def Db.latestReconciliation (db : Db) (job : String) : Option GpoReconciliation :=
  (db.reconciliations.rows.filter fun r => r.job == job).foldl (fun best r =>
    match best with
    | none => some r
    | some b => if b.requestedAt < r.requestedAt ∨ b.requestedAt = r.requestedAt ∧ b.id < r.id
        then some r else some b) none

/-- The record a message is about. -/
def Db.exchangeRecord (db : Db) (job : GpoImportJob) :
    ReconciliationAction → Except ServerError (Option GpoReconciliation)
  | .poll _ => .ok (db.latestReconciliation job.id)
  | .result _ id observation _ | .ack _ id observation => do
    throwIf (uuidText id = false) invalidReconciliation
    match (db.reconciliations.get? id).filter fun r => r.job == job.id with
    | none => throw invalidReconciliation
    | some record => do
      throwIf (sha observation = false) invalidReconciliation
      pure (some record)

/-- A record without the authority to go on. -/
def retire (record : GpoReconciliation) : Request Unit :=
  saveReconciliation { record with status := .stale }

/-- `_expire`: whether the record is still pending is returned with it. -/
def expireReconciliation (now : Time) (record : GpoReconciliation) :
    Request GpoReconciliation :=
  if record.status.pending && decide (record.expiresAt ≤ now) then do
    let expired := { record with status := .stale }
    saveReconciliation expired
    pure expired
  else pure record

/-- The observation of a `reconciliation_result`. -/
def observe (content : Content) (now : Time) (record : GpoReconciliation) (a : ManagedJob)
    (observationDigest : String) (observation : Value) : Request Unit := do
  let _ ← Txn.ofExcept (validateObservation content a observation)
  throwIf (digest observation ≠ observationDigest) invalidReconciliation
  if record.observation.isNone then
    saveReconciliation { record with
      observation := some observation, observationDigest, observedAt := some now
      status := .observed }
  else if record.observationDigest ≠ observationDigest then
    saveReconciliation { record with
      driftObservation := some observation, driftDigest := observationDigest, status := .stale }
  else saveReconciliation record

/-- The guid of an observation document. -/
def observedGuid (record : GpoReconciliation) : String :=
  (record.observation.bind (·.str? "gpo_guid")).getD ""

/-- The release of a `reconciliation_ack`. -/
def release (content : Content) (now : Time) (record : GpoReconciliation) (job : GpoImportJob)
    (tenant : Tenant) (observationDigest : String) : Request Control := do
  let db ← get
  throwIf (record.status ≠ .acceptRequested ∨ observationDigest ≠ record.observationDigest ∨
    record.acceptedAt = none ∨
    (db.reconciliationAuthority content now record job tenant true).isSome ∨
    decided record job = false ∨ (db.observationBlocker content record job).isSome)
    invalidReconciliation
  match db.policyForJob job with
  | none => throw .valueError
  | some policy => do
    savePolicy { policy with
      gpoGuid := observedGuid record, state := .new, stagedJob := none, activeJob := none
      revision := policy.revision + 1 }
    saveJob { job with status := .reconciled }
    let released := { record with status := .accepted, finalizedAt := some now }
    saveReconciliation released
    pure (db.control released job .released)

/-- The journal of a record is the one the agent names; the first poll binds it. -/
def bindJournal (record : GpoReconciliation) (action : ReconciliationAction) :
    Request GpoReconciliation := do
  match action with
  | .poll journal => do
    let bound := if record.journalSha256 = "" then { record with journalSha256 := journal }
      else record
    throwIf (bound.journalSha256 ≠ journal) invalidReconciliation
    saveReconciliation bound
    pure bound
  | action => do
    throwIf (record.journalSha256 ≠ action.journalSha256) invalidReconciliation
    pure record

/-- What the exchange does with a pending record. -/
def exchangePending (content : Content) (now : Time) (record : GpoReconciliation)
    (job : GpoImportJob) (a : ManagedJob) (tenant : Tenant) (action : ReconciliationAction) :
    Request (Option Control) := do
  let record ← bindJournal record action
  match action with
  | .poll _ =>
    -- An observation that awaits its review is kept as it is.
    if record.status = .observed then pure none
    else pure (some ((← get).control record job
      (if record.status = .acceptRequested then .accept else .observe)))
  | .result _ _ observationDigest observation => do
    observe content now record a observationDigest observation
    pure none
  | .ack _ _ observationDigest => do
    let control ← release content now record job tenant observationDigest
    pure (some control)

/-- A released receipt, which survives a lost acknowledgement. -/
def replayRelease (record : GpoReconciliation) (job : GpoImportJob) (action : ReconciliationAction) :
    Request (Option Control) := do
  throwIf (action.journalSha256 ≠ record.journalSha256 ∨ decided record job = false)
    invalidReconciliation
  throwIf (action.observationDigest.any fun d => d != record.observationDigest)
    invalidReconciliation
  pure (some ((← get).control record job .released))

/-- `exchange` of a reconciliation. -/
def reconciliationExchange (content : Content) (now : Time) (job : GpoImportJob) (tenant : Tenant)
    (action : ReconciliationAction) : Request (Option Control) := do
  match job.assignment with
  | .pilot _ _ => throw invalidReconciliation
  | .managed a => do
    throwIf (sha action.journalSha256 = false) invalidReconciliation
    match ← Txn.ofExcept ((← get).exchangeRecord job action) with
    | none => pure none
    | some record =>
      if record.status = .accepted ∧ job.status = .reconciled then
        replayRelease record job action
      else do
        let record ← expireReconciliation now record
        if record.status.pending = false then pure none
        else if (← get).superseded content now record job tenant then do
          retire record
          pure none
        else exchangePending content now record job a tenant action

/-! ## Requests of an administrator -/

/-- The records a projection finds out of date become stale. -/
def projectReconciliation (content : Content) (now : Time) (job : GpoImportJob) (tenant : Tenant) :
    Request (Option GpoReconciliation) := do
  match (← get).latestReconciliation job.id with
  | none => pure none
  | some latest => do
    let latest ← expireReconciliation now latest
    if latest.status.pending && (← get).superseded content now latest job tenant then do
      retire latest
      pure (some { latest with status := .stale })
    else pure (some latest)

/-- `GpoReconciliation.objects.create`. -/
def createReconciliation (record : GpoReconciliation) : Request Unit := do
  let db ← get
  if db.reconciliations.rows.any fun r => r.job == record.job && r.status.pending then
    throw .integrityError
  else match db.reconciliations.insert record with
    | none => throw .integrityError
    | some reconciliations => set { db with reconciliations }

/-- A new observation supersedes the ones that were only observed. -/
def supersedeObserved (job : String) : Request Unit := do
  let observed := (← get).reconciliations.rows.filter fun r => r.job == job && r.status == .observed
  observed.forM retire

/-- `GpoReconciliationsView.post`. -/
def requestReconciliation (content : Content) (now : Time) (job : GpoImportJob) (tenant : Tenant)
    (user : Nat) (id requestDigest : String) : Request Unit := do
  match (← get).reconciliations.get? id with
  | some prior => do
    throwIf (prior.job ≠ job.id ∨ prior.requestedBy ≠ some user ∨
      prior.requestDigest ≠ requestDigest)
      (.publicApiError "security_gpo_request_conflict" 409)
    let _ ← projectReconciliation content now job tenant
    pure ()
  | none => do
    let latest ← projectReconciliation content now job tenant
    let db ← get
    match db.requestBlocker content now job tenant user latest with
    | some reason => throw (.publicApiError ("security_gpo_reconciliation_" ++ reason) 409)
    | none => do
      throwIf ((db.reconciliations.rows.filter fun r => r.job == job.id).length ≥ 100)
        (.publicApiError "security_gpo_reconciliation_limit" 409)
      supersedeObserved job.id
      match db.policyForJob job, db.domains.get? job.domain with
      | some policy, some config =>
        createReconciliation {
          id
          tenant := job.tenant
          job := job.id
          requestedBy := some user
          requestDigest
          jobResultDigest := Db.originalResultIdentity job
          scopeRevision := config.revision
          policyRevision := (db.policyFor job.tenant).revision
          authorizationRevision := (db.authorizationFor job.domain).revision
          managedRevision := policy.revision
          fourEyesRequired :=
            job.fourEyesRequired || (db.policyFor job.tenant).fourEyesRequired
          requestedAt := now
          expiresAt := wholeSeconds (now + Agent.Gpo.seconds 900) }
      | _, _ => throw .valueError

/-- A record with the acceptance of a user. -/
def GpoReconciliation.accept (record : GpoReconciliation) (job : GpoImportJob) (user : Nat)
    (now : Time) : GpoReconciliation :=
  let accepted := { record with
    acceptedBy := some user, acceptedAt := some now, status := .acceptRequested
    acceptedActor := toString user }
  { accepted with decisionDigest := decision accepted job now }

/-- `GpoReconciliationAcceptView.post`. -/
def acceptReconciliation (content : Content) (now : Time) (job : GpoImportJob) (tenant : Tenant)
    (user : Nat) (id observationDigest : String) : Request Unit := do
  match ((← get).reconciliations.get? id).filter fun r => r.job == job.id with
  | none => throw .notFound
  | some record => do
    throwIf (sha observationDigest = false ∨ observationDigest ≠ record.observationDigest)
      (.publicApiError "security_gpo_reconciliation_observation_changed" 409)
    if (record.status = .acceptRequested ∨ record.status = .accepted) ∧
        record.acceptedBy = some user then do
      let _ ← projectReconciliation content now job tenant
      pure ()
    else do
      let record ← expireReconciliation now record
      match (← get).acceptBlocker content now record job tenant user with
      | some reason =>
        throw (.publicApiError ("security_gpo_reconciliation_" ++ reason) (blockedStatus reason))
      | none => do
        saveReconciliation (record.accept job user now)
        let _ ← projectReconciliation content now job tenant
        pure ()

end Ipms.Server.Gpo
