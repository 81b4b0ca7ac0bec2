import Ipms.Server.Gpo.Preflights

/-
  Ipms.Server.Gpo.Changes

  `create_change`: the change an inspection showed to be safe.  Its assignment is
  the inspected one with the observed state, and with the order of every link it
  makes or keeps.
-/

namespace Ipms.Server.Gpo

open Ipms.Lib Ipms.ManagementJson
open Ipms.Agent.Gpo (Job ManagedJob JobCore Operation Snapshot Ou Link SafetyReview)

/-! ## Link orders -/

/-- The refusal of an order the existing links do not admit. -/
def linkConflict : ServerError := .publicApiError "security_gpo_link_conflict" 409

/-- The managed policies with a GPO in the domain of a policy. -/
def Db.managedGpos (db : Db) (policy : ManagedGpoPolicy) : List ManagedGpoPolicy :=
  db.policies.rows.filter fun p =>
    p.tenant == policy.tenant && p.domainGuid == policy.domainGuid && p.gpoGuid != ""

def managedLink (managed : List ManagedGpoPolicy) (l : Link) : Option ManagedGpoPolicy :=
  managed.find? fun p => p.gpoGuid == l.guid

/-- The priority of a policy: overrides stand over baselines, later baselines over earlier ones. -/
def priorityBelow (left right : Bool × Int) : Bool :=
  !left.1 && right.1 || left.1 == right.1 && decide (left.2 < right.2)

/-- The place of a baseline in the configured order. -/
def baselineRank (config : DomainSecuritySettings) (baselineId : String) : Option Nat :=
  config.baselineOrder.idxOf? baselineId

/-- The priority of another policy. -/
def linkPriority (config : DomainSecuritySettings) (p : ManagedGpoPolicy) : Bool × Int :=
  (p.override.isSome, ((baselineRank config p.baselineId).map Int.ofNat).getD (-1))

/-- The bounds an existing link sets to the place of a new one. -/
def narrow (config : DomainSecuritySettings) (managed : List ManagedGpoPolicy)
    (selected : Bool × Int) (bounds : Nat × Nat) (entry : Link × Nat) : Nat × Nat :=
  let (l, i) := entry
  if defaultGpoIds.contains l.guid then (bounds.1, min bounds.2 i)
  else match managedLink managed l with
    | none => bounds
    | some other =>
      if priorityBelow selected (linkPriority config other) then (max bounds.1 (i + 1), bounds.2)
      else (bounds.1, min bounds.2 i)

/-- The place of a new link among the others of a container. -/
def insertionIndex (config : DomainSecuritySettings) (managed : List ManagedGpoPolicy)
    (selected : Bool × Int) (others : List Link) : Except ServerError Nat := do
  let bounds := others.zipIdx.foldl (narrow config managed selected) (0, others.length)
  throwIf (bounds.1 > bounds.2) linkConflict
  pure bounds.2

/-- A link that an override moves above: a default policy or a managed baseline. -/
def belowOverrides (managed : List ManagedGpoPolicy) (l : Link) : Bool :=
  defaultGpoIds.contains l.guid ||
    (managedLink managed l).any fun p => p.override.isNone

/-- The place an activated override moves to, never below its own and never past another
override. -/
def preservingIndex (managed : List ManagedGpoPolicy) (guid : String) (links others : List Link) :
    Except ServerError Nat :=
  match links.findIdx? fun l => l.guid == guid with
  | none => throw .valueError
  | some current => do
    let before := (links.take current).filter fun l =>
      (managedLink managed l).any fun p => p.override.isSome
    let index := min (others.findIdx (belowOverrides managed)) current
    throwIf (before.any fun prior =>
      decide (index ≤ others.findIdx fun l => l.guid == prior.guid)) linkConflict
    pure index

/-- The order of the link in one container. -/
def containerOrder (config : DomainSecuritySettings) (managed : List ManagedGpoPolicy)
    (policy : ManagedGpoPolicy) (selected : Bool × Int) (preserve : Bool) (o : Ou) :
    Except ServerError Int := do
  let others := o.links.filter fun l => l.guid != policy.gpoGuid
  throwIf (others.length ≥ 128) linkConflict
  let index ← if preserve && policy.override.isSome then
      preservingIndex managed policy.gpoGuid o.links others
    else insertionIndex config managed selected others
  pure ((index : Int) + 1)

def Db.orders (db : Db) (config : DomainSecuritySettings) (policy : ManagedGpoPolicy)
    (state : Snapshot) (preserveOverrideOrder : Bool := false) : Except ServerError (List Int) :=
  match baselineRank config policy.baselineId with
  | none => throw .keyError
  | some rank => state.ous.mapM
      (containerOrder config (db.managedGpos policy) policy (policy.override.isSome, (rank : Int))
        preserveOverrideOrder)

/-- The order of a policy's own link in a container. -/
def ownOrder (policy : ManagedGpoPolicy) (o : Ou) : Option Int :=
  (o.links.find? fun l => l.guid == policy.gpoGuid).map Link.order

/-- No override stands below the link an activation keeps. -/
def overridesAbove (managed : List ManagedGpoPolicy) (ous : List Ou) (orders : List Int) : Bool :=
  !(ous.zip orders).any fun (o, order) => o.links.any fun l =>
    (managed.any fun p => p.override.isSome && p.gpoGuid == l.guid) && decide (order < l.order)

def Db.changeOrders (db : Db) (config : DomainSecuritySettings) (policy : ManagedGpoPolicy)
    (a : ManagedJob) (state : Snapshot) : Except ServerError (List Int) :=
  match a.intendedOperation with
  | .importAndLinkManagedGpo | .linkManagedGpo => db.orders config policy state
  | .activateManagedGpo =>
    if policy.override.isSome then db.orders config policy state true
    else match state.ous.mapM (ownOrder policy) with
      | none => throw .valueError
      | some orders => do
        throwIf (overridesAbove (db.managedGpos policy) state.ous orders = false) linkConflict
        pure orders
  | .deactivateManagedGpo | .deleteManagedGpo =>
    pure (state.ous.map fun o => (ownOrder policy o).getD 1)
  | _ => pure a.linkOrders

/-! ## Changes -/

/-- The request of a change. -/
structure ChangeData where
  preflightId : String
  idempotencyKey : String
  safetyReview : SafetyReview
  deriving DecidableEq

/-- The digest of a change's request. -/
def ChangeData.digest (data : ChangeData) (domain : String) : String :=
  Server.digest (.obj [("domain_id", .str domain), ("idempotency_key", .str data.idempotencyKey),
    ("preflight_id", .str data.preflightId), ("safety_review", data.safetyReview.toJson)])

/-- The state an inspection observed, valid and safe to change. -/
def inspectedState (content : Content) (a : ManagedJob) (evidence : Value) : Option Snapshot := do
  let value ← evidence.get? "state"
  let state ← (validateSnapshot content a value).toOption
  if (safeBefore content a state).toOption.isSome then some state else none

def Db.inspectionCurrent (db : Db) (content : Content) (now : Time) (job : GpoImportJob)
    (a : ManagedJob) (tenant : Tenant) (user : User) : Bool :=
  a.inspection && job.status == .inspected && job.completedAt.isSome && decide (now < job.expiresAt) &&
    Db.inspectionDigest job == job.resultDigest &&
    ((db.domains.get? job.domain).any fun config =>
      db.scopedFor now (some user) tenant config a.targetTier .securityGpoImportsRun) &&
    ((db.enrollments.get? job.enrollment).any fun enrollment =>
      db.managedScopeCurrent now content job a enrollment tenant) &&
    (inspectedState content a job.resultEvidence).isSome

/-- The safety review an operation has to confirm. -/
def requiredReview (operation : Operation) : SafetyReview :=
  if operation = .activateManagedGpo then ⟨true, true⟩ else Db.falseReview

/-- No other policy of the domain has the name of the inspection. -/
def Db.nameFree (db : Db) (content : Content) (tenant : Tenant) (policy : ManagedGpoPolicy)
    (a : ManagedJob) : Bool :=
  !db.policies.rows.any fun p => p.tenant == tenant.id && p.domainGuid == policy.domainGuid &&
    p.nameKey == content.unicode.casefold a.pilotDisplayName && p.id != policy.id

/-- The assignment of a change, without its digest. -/
def changeAssignment (data : ChangeData) (inspected : ManagedJob) (state : Snapshot)
    (orders : List Int) : ManagedJob :=
  { inspected with
    jobId := data.idempotencyKey, operation := inspected.intendedOperation
    approvalMode := "portal", preflightId := data.preflightId, expectedState := some state
    safetyReview := data.safetyReview, linkOrders := orders }

/-- The job of a change: that of its inspection with the assignment of the change. -/
def changeJob (content : Content) (preflight : GpoImportJob) (a : ManagedJob) (user : Nat)
    (requestDigest : String) (now : Time) : GpoImportJob :=
  { id := a.jobId, tenant := preflight.tenant, domain := preflight.domain
    enrollment := preflight.enrollment, system := preflight.system, requestedBy := some user
    policyRevision := preflight.policyRevision, fourEyesRequired := preflight.fourEyesRequired
    authorizationRevision := preflight.authorizationRevision, domainGuid := preflight.domainGuid
    requestSha256 := requestDigest, inputDigest := a.inputDigest, assignment := .managed a
    pilotDisplayName := a.pilotDisplayName
    pilotNameKey := content.unicode.casefold a.pilotDisplayName
    status := .awaitingApproval, requestedAt := now, expiresAt := preflight.expiresAt }

/-- The assignment of a change. -/
def Db.plannedChange (db : Db) (content : Content) (tenant : Tenant)
    (config : DomainSecuritySettings) (data : ChangeData) (policy : ManagedGpoPolicy)
    (inspected : ManagedJob) (state : Snapshot) : Except ServerError ManagedJob := do
  throwIf (db.nameFree content tenant policy inspected = false)
    (.publicApiError "security_gpo_name_collision" 409)
  let orders ← db.changeOrders config policy inspected state
  let a := changeAssignment data inspected state orders
  let a := { a with inputDigest := digest (undigested a.toJson) }
  throwIf ((canonical a.toJson).length > 24576)
    (.parseError "The inspected scope exceeds the bounded GPO transport budget.")
  pure a

/-- The change of a current inspection. -/
def changeInspected (c : Catalogue) (now : Time) (tenant : Tenant) (user : User)
    (config : DomainSecuritySettings) (data : ChangeData) (requestDigest : String)
    (preflight : GpoImportJob) (inspected : ManagedJob) : Request String := do
  let db ← get
  throwIf (db.inspectionCurrent c.toContent now preflight inspected tenant user = false)
    (.publicApiError "security_gpo_preflight_required" 409)
  throwIf (data.safetyReview ≠ requiredReview inspected.intendedOperation)
    (.parseError "Confirm management and independent recovery access before activation.")
  match db.policyForJob preflight, inspectedState c.toContent inspected preflight.resultEvidence with
  | some policy, some state => do
    idle tenant preflight.domainGuid now
    let a ← Txn.ofExcept ((← get).plannedChange c.toContent tenant config data policy inspected state)
    let job := changeJob c.toContent preflight a user.id requestDigest now
    createJob job
    approveOnCreation c.toContent now job user.id
    pure job.id
  | _, _ => throw .valueError

/-- `create_change`; the job it made or found is returned. -/
def createChange (c : Catalogue) (now : Time) (tenant : Tenant) (user : User)
    (config : DomainSecuritySettings) (data : ChangeData) : Request String := do
  throwIf (uuidText data.preflightId = false ∨ uuidText data.idempotencyKey = false)
    (.parseError "Invalid inspected request identity.")
  let db ← get
  match (db.jobs.get? data.preflightId).filter
      fun j => j.tenant == tenant.id && j.domain == config.id with
  | none => throw .notFound
  | some preflight => do
    throwIf (db.scopedFor now (some user) tenant config preflight.assignment.core.targetTier
      .securityGpoImportsRun = false)
      (.permissionDenied "An explicit domain/tier grant is required.")
    match ← Txn.ofExcept (db.retry tenant user.id data.idempotencyKey (data.digest config.id)) with
    | some existing => pure existing.id
    | none =>
      match preflight.assignment with
      | .pilot _ _ => throw (.publicApiError "security_gpo_preflight_required" 409)
      | .managed inspected =>
        changeInspected c now tenant user config data (data.digest config.id) preflight
          inspected

end Ipms.Server.Gpo
