import Ipms.Server.Hgs.Records

/-
  Ipms.Server.Hgs.Plans

  The services on one plan: its jobs, inspections, approval, fence, results and
  reconciliation.  A service returns the plan as it saves it, or raises and
  saves nothing.
-/

namespace Ipms.Server.Hgs

open Ipms.Lib Ipms.ManagementJson
open Ipms.Agent.Hgs (Operation Observation Status)

def conflict (code : String) : ServerError := .publicApiError ("hgs_" ++ code) 409

section
variable (req : Request)

/-! ## Jobs -/

/-- The row of a new job. -/
def newJob (plan : HgsDeployment) (node : HgsNode) (operation : Operation) (sequence : Nat)
    (actor : Option Nat) (expiresAt : Time) : HgsJob :=
  let id := req.uuid plan.jobs.length
  { id
    node := node.id
    requestedBy := (actor <|> plan.approvedBy) <|> some plan.requestedBy
    operation
    sequence
    assignment := plan.assignmentOf node id operation expiresAt
    expiresAt
    createdAt := req.now }

/-- Insert a job: its identifier is new, and its node has no other active job. -/
def insertJob (plan : HgsDeployment) (job : HgsJob) : Except ServerError HgsDeployment := do
  throwIf (req.taken job.id = true ∨ plan.jobs.any (·.id == job.id) = true) .integrityError
  throwIf (job.status.active = true ∧
    plan.jobs.any (fun j => j.node == job.node && j.status.active) = true) .integrityError
  return { plan with jobs := plan.jobs ++ [job] }

def createJob (plan : HgsDeployment) (node : HgsNode) (operation : Operation) (sequence : Nat := 0)
    (actor : Option Nat := none) : Except ServerError HgsDeployment :=
  insertJob req plan (newJob req plan node operation sequence actor
    (plan.approvalExpiresAt.getD plan.planExpiresAt))

/-- The statuses in which an inspection may be requested. -/
def inspectable (reconciliation : Bool) : PlanStatus → Bool
  | .draft | .blocked | .ready => true
  | .failed | .cancelled | .reconciliationRequired => reconciliation
  | _ => false

/-- One node of `request_inspection`; an inspection for reconciliation has its own expiry. -/
def inspectNode (tenant : Tenant) (actor : Option Nat) (reconciliation : Bool)
    (plan : HgsDeployment) (node : HgsNode) : Except ServerError HgsDeployment := do
  throwIf ((← liveIdentity req node tenant) = false) (conflict "node_identity_changed")
  let plan ← insertJob req plan (newJob req plan node .inspect 0 actor
    (if reconciliation then req.now + readinessAge
      else plan.approvalExpiresAt.getD plan.planExpiresAt))
  return plan.saveNode { node with status := .inspecting }

/-- The nodes of `request_inspection` one after another. -/
def inspectNodes (tenant : Tenant) (actor : Option Nat) (reconciliation : Bool) :
    HgsDeployment → List HgsNode → Except ServerError HgsDeployment
  | plan, [] => .ok plan
  | plan, node :: nodes => do
    let plan ← inspectNode req tenant actor reconciliation plan node
    inspectNodes tenant actor reconciliation plan nodes

def requestInspection (tenant : Tenant) (actor : Option Nat) (reconciliation : Bool)
    (plan : HgsDeployment) : Except ServerError HgsDeployment := do
  throwIf (inspectable reconciliation plan.status = false ∨ plan.busy = true)
    (conflict "inspection_unavailable")
  throwIf (plan.planExpiresAt ≤ req.now ∧ reconciliation = false) (conflict "plan_expired")
  let plan ← inspectNodes req tenant actor reconciliation plan plan.nodes
  return if reconciliation then plan else { plan with status := .inspecting }

/-- The checks of a node before an approval. -/
def readyNode (tenant : Tenant) (plan : HgsDeployment) (node : HgsNode) :
    Except ServerError Bool := do
  let live ← liveIdentity req node tenant
  return live && node.observedAt.any (fresh req.now readinessAge) &&
    node.readiness.any fun o => (readinessBlockers req.runtime.unicode (plan.configuration node) o
      node.hostname node.role true).isEmpty

/-- The checks of the nodes one after another. -/
def readyNodes (tenant : Tenant) (plan : HgsDeployment) : List HgsNode → Except ServerError Unit
  | [] => .ok ()
  | node :: nodes => do
    throwIf ((← readyNode req tenant plan node) = false) (conflict "readiness_expired_or_blocked")
    readyNodes tenant plan nodes

def authorize (tenant : Tenant) (user : Nat) (document : Value) (plan : HgsDeployment) :
    Except ServerError HgsDeployment := do
  match document with
  | .obj members =>
    throwIf (keysAre members ["plan_digest", "confirm"] = false ∨
      document.get? "confirm" ≠ some (.bool true)) rejected
  | _ => throw rejected
  throwIf (plan.status ≠ .ready ∨ plan.revoked = true ∨ plan.approvedAt.isSome = true)
    (conflict "plan_not_ready")
  throwIf (document.get? "plan_digest" ≠ some (.str plan.planDigest) ∨
    plan.unchanged req.runtime = false) (conflict "plan_changed")
  throwIf (plan.planExpiresAt ≤ req.now) (conflict "plan_expired")
  readyNodes req tenant plan plan.nodes
  match plan.nodes.head? with
  | none => throw .valueError
  | some node =>
    let approved := { plan with
      approvedBy := some user, approvedAt := some req.now
      approvalExpiresAt := some plan.planExpiresAt, status := .running }
    createJob req (approved.saveNode { node with status := .running }) node .installRole

/-! ## Fences -/

/-- A job that a fence withdraws. -/
def HgsJob.withdrawn (job : HgsJob) (code : String) (now : Time) : HgsJob :=
  if job.status.unclaimed then
    { job with status := .cancelled, resultCode := code, completedAt := some now }
  else job

/-- Cancel the queued and offered jobs of a plan. -/
def cancelUnclaimed (now : Time) (code : String) (plan : HgsDeployment) : HgsDeployment :=
  { plan with jobs := plan.jobs.map (·.withdrawn code now) }

def fence (now : Time) (code : String) (plan : HgsDeployment) : HgsDeployment :=
  { cancelUnclaimed now code plan with
    authorityRevokedAt := plan.authorityRevokedAt <|> some now
    blockers := sortedSet (plan.blockers ++ [code])
    status := if plan.uncertain then .reconciliationRequired else .cancelled }

def cancel (plan : HgsDeployment) : Except ServerError HgsDeployment := do
  throwIf (plan.status = .succeeded ∨ plan.status = .cancelled) (conflict "already_complete")
  return fence req.now "cancelled_by_operator" plan

def authorityCurrent (tenant : Tenant) (plan : HgsDeployment) (job : HgsJob) : Bool :=
  if tenant.purpose != .hgs || tenant.status != .active || decide (job.expiresAt ≤ req.now) ||
      !plan.unchanged req.runtime ||
      !job.requestedBy.any (fun user => req.directory.manages req.now user tenant) then false
  else if job.operation = .inspect then true
  else !plan.revoked && (plan.status == .running || plan.status == .waitingForReboot) &&
    plan.approvedAt.isSome && plan.approvalExpiresAt.any (fun t => decide (req.now < t)) &&
    plan.approvedBy.any fun user => req.directory.manages req.now user tenant

/-- What follows the result of an inspection: it never grants write authority. -/
def afterInspection (plan : HgsDeployment) : HgsDeployment :=
  if plan.jobs.any fun j => j.operation == .inspect && j.status.active then plan
  else if !(plan.status == .inspecting || plan.status == .draft || plan.status == .blocked ||
      plan.status == .ready) || plan.revoked then plan
  else
    let blockers := sortedSet (plan.nodes.flatMap (·.blockers))
    { plan with blockers, status := if blockers.isEmpty then .ready else .blocked }

/-- The step behind a finished one: the next of its node, or the first of the next node. -/
def nextStep (plan : HgsDeployment) (node : HgsNode) (job : HgsJob) :
    Except ServerError HgsDeployment :=
  match (nodeSteps node.role)[job.sequence + 1]? with
  | some operation => do
    let plan ← createJob req plan node operation (job.sequence + 1)
    return { plan with status := .running }
  | none =>
    let plan := plan.saveNode { node with status := .succeeded }
    match plan.nodes.find? fun n => decide (node.ordinal < n.ordinal) with
    | some following => do
      let plan ← createJob req (plan.saveNode { following with status := .running }) following
        .installRole
      return { plan with status := .running }
    | none => return { plan with status := .succeeded }

def afterResult (plan : HgsDeployment) (node : HgsNode) (job : HgsJob) :
    Except ServerError HgsDeployment :=
  if plan.revoked && !plan.jobs.any (fun j => j.status.active || j.unresolved) then
    .ok { plan with status := .cancelled }
  else if job.operation = .inspect then .ok (afterInspection plan)
  else if plan.revoked || plan.status == .cancelled || plan.status == .reconciliationRequired then
    .ok plan
  else nextStep req plan node job

/-! ## Results -/

/-- `("install_role", "create_forest", "join_node", "reboot")`. -/
def mayReboot : Operation → Bool
  | .installRole | .createForest | .joinNode | .reboot => true
  | _ => false

/-- The checks of a result document, whatever the state of its job. -/
def readReceipt (plan : HgsDeployment) (node : HgsNode) (job : HgsJob) (document : Value) :
    Except ServerError Receipt := do
  match document with
  | .obj members =>
    throwIf (keysAre members ["status", "result_code", "observation"] = false) rejected
    match (document.str? "status").bind Status.ofText?, document.str? "result_code",
        document.get? "observation" with
    | some status, some resultCode, some observed =>
      throwIf (resultCodes.contains resultCode = false) rejected
      if status = .succeeded ∨ status = .rebootRequired then
        let o ← validateObservation observed
        throwIf (hostLabel req.runtime.unicode o.computerName ≠
          hostLabel req.runtime.unicode node.hostname) rejected
        throwIf (status = .succeeded ∧ postconditionHolds req.runtime.unicode job.operation
          (plan.configuration node) o = false) rejected
        throwIf (status = .rebootRequired ∧ mayReboot job.operation = false) rejected
        return ⟨status, resultCode, some o⟩
      else if observed = .obj [] then return ⟨status, resultCode, none⟩
      else return ⟨status, resultCode, some (← validateObservation observed)⟩
    | _, _, _ => throw rejected
  | _ => throw rejected

/-- A failure of a step that was never claimed. -/
def Receipt.unclaimedFailure (r : Receipt) : Bool :=
  r.status == .failed && unclaimedFailures.contains r.resultCode

/-- A result for a job that is terminal: the receipt again, or the proof that a cancelled step was
not executed. -/
def acceptAgain (plan : HgsDeployment) (job : HgsJob) (r : Receipt) :
    Except ServerError HgsDeployment :=
  if job.status = .cancelled ∧ job.receipt = none ∧ r.unclaimedFailure then
    .ok (plan.saveJob { job with receipt := some r })
  else if job.receipt = some r then .ok plan
  else .error rejected

/-- The boot of a receipt's observation. -/
def Receipt.bootId (r : Receipt) : String := (r.observation.map (·.bootId)).getD ""

/-- A result that a job in its state may have. -/
def HgsJob.reportable (job : HgsJob) (r : Receipt) : Bool :=
  (job.status.claimed || job.status.unclaimed && r.unclaimedFailure) &&
    !(job.operation == .reboot && r.status == .succeeded && job.prebootId != "" &&
      r.bootId == job.prebootId)

/-- The status a receipt gives its job. -/
def reportedStatus (plan : HgsDeployment) (job : HgsJob) (r : Receipt) : JobStatus :=
  match r.status with
  | .failed => .failed
  | .reconciliationRequired => .reconciliationRequired
  | .rebootRequired =>
    if job.operation = .reboot then .waitingForReboot
    else if plan.revoked && !readOnly job.operation then .reconciliationRequired
    else .succeeded
  | .succeeded =>
    if plan.revoked && !readOnly job.operation then .reconciliationRequired else .succeeded

def HgsJob.reported (plan : HgsDeployment) (job : HgsJob) (r : Receipt) : HgsJob :=
  { job with
    prebootId := if job.operation == .reboot && r.status == .rebootRequired && job.prebootId == ""
      then r.bootId else job.prebootId
    receipt := some r
    resultCode := r.resultCode
    status := reportedStatus plan job r
    completedAt := if reportedStatus plan job r = .waitingForReboot then job.completedAt
      else some req.now }

/-- The node with the observation of a receipt. -/
def HgsNode.observed (plan : HgsDeployment) (node : HgsNode) (job : HgsJob) (r : Receipt) : HgsNode :=
  let node := match r.observation with
    | none => node
    | some o => { node with
        readiness := some o
        observedAt := some req.now
        blockers := readinessBlockers req.runtime.unicode (plan.configuration node) o node.hostname
          node.role plan.approvedAt.isNone }
  if job.operation = .inspect then
    { node with
      status := if r.status ≠ .succeeded ∨ node.blockers ≠ [] then .blocked else .ready
      blockers := if r.status ≠ .succeeded then sortedSet (node.blockers ++ [r.resultCode])
        else node.blockers }
  else node

/-- A plan whose step failed or asks for reconciliation. -/
def stopped (status : PlanStatus) (code : String) (plan : HgsDeployment) : HgsDeployment :=
  { cancelUnclaimed req.now "prior_step_failed" plan with
    status, blockers := sortedSet (plan.blockers ++ [code]) }

/-- The plan with the receipt of a job, and what follows it. -/
def recordResult (plan : HgsDeployment) (node : HgsNode) (job : HgsJob) (r : Receipt) :
    Except ServerError HgsDeployment :=
  let reported := job.reported req plan r
  let waiting : PlanStatus := if plan.revoked then .reconciliationRequired else .waitingForReboot
  let saved : HgsDeployment := { plan.saveJob reported with
    status := if reported.status = .waitingForReboot then waiting else plan.status }
  let observed := node.observed req plan job r
  let saved := saved.saveNode observed
  if job.operation = .inspect then afterResult req saved observed reported
  else match r.status with
    | .failed => .ok (stopped req .failed r.resultCode saved)
    | .reconciliationRequired => .ok (stopped req .reconciliationRequired r.resultCode saved)
    | _ => if reported.status = .succeeded then afterResult req saved observed reported
        else .ok saved

def acceptResult (plan : HgsDeployment) (node : HgsNode) (job : HgsJob) (document : Value) :
    Except ServerError HgsDeployment := do
  let r ← readReceipt req plan node job document
  if job.status.terminal then acceptAgain plan job r
  else
    throwIf (job.reportable r = false) rejected
    recordResult req plan node job r

/-! ## Reconciliation -/

/-- The document of an observation, with sorted keys. -/
def observationDocument (o : Observation) : Value :=
  .obj [("attestation_mode", .str o.attestationMode), ("boot_id", .str o.bootId),
    ("computer_name", .str o.computerName),
    ("configured_encryption_thumbprint", .str o.configuredEncryptionThumbprint),
    ("configured_service_name", .str o.configuredServiceName),
    ("configured_signing_thumbprint", .str o.configuredSigningThumbprint),
    ("domain_joined", .bool o.domainJoined), ("domain_name", .str o.domainName),
    ("domain_role", .int o.domainRole), ("dsrm_secret_ready", .bool o.dsrmSecretReady),
    ("encryption_certificate_ready", .bool o.encryptionCertificateReady),
    ("feature_source_ready", .bool o.featureSourceReady), ("is_server", .bool o.isServer),
    ("join_secret_ready", .bool o.joinSecretReady),
    ("key_access_verified", .bool o.keyAccessVerified), ("mode_supported", .bool o.modeSupported),
    ("offline_source_policy_ready", .bool o.offlineSourcePolicyReady), ("os_build", .str o.osBuild),
    ("reboot_pending", .bool o.rebootPending), ("role_installed", .bool o.roleInstalled),
    ("service_healthy", .bool o.serviceHealthy),
    ("service_initialized", .bool o.serviceInitialized),
    ("signing_certificate_ready", .bool o.signingCertificateReady)]

/-- The job a reconciliation is about: the latest unresolved step. -/
def HgsDeployment.reconcilable (plan : HgsDeployment) : Option HgsJob :=
  plan.jobs.reverse.find? fun j => j.step && j.unresolved

/-- The latest successful inspection of the job's node since the job was created. -/
def HgsDeployment.inspectedSince (plan : HgsDeployment) (job : HgsJob) : Option HgsJob :=
  plan.jobs.reverse.find? fun j => j.node == job.node && j.operation == .inspect &&
    j.status == .succeeded && decide (job.createdAt < j.createdAt)

/-- An observation proves that an interrupted step took effect. -/
def proves (plan : HgsDeployment) (node : HgsNode) (job : HgsJob) (o : Observation) : Bool :=
  postconditionHolds req.runtime.unicode job.operation (plan.configuration node) o &&
    (job.operation != .reboot ||
      let previous := if job.prebootId = "" then (job.receipt.map (·.bootId)).getD ""
        else job.prebootId
      previous != "" && o.bootId != previous)

/-- What `reconciliation` shows. -/
structure Reconciliation where
  job : HgsJob
  observationDigest : String
  canResolve : Bool
  deriving DecidableEq

def reconciliation (plan : HgsDeployment) : Option Reconciliation := do
  let job ← plan.reconcilable
  let node ← plan.nodeOf job
  let latest := plan.inspectedSince job
  let observation := latest.bind fun j => j.receipt.bind (·.observation)
  let recent := latest.any fun j => j.completedAt.any (fresh req.now readinessAge)
  let valid := recent && observation.any (proves req plan node job)
  return {
    job
    observationDigest := (observation.map fun o => req.runtime.digest (observationDocument o)).getD ""
    canResolve := valid && plan.status == .reconciliationRequired }

def resolve (tenant : Tenant) (user : Nat) (document : Value) (plan : HgsDeployment) :
    Except ServerError HgsDeployment := do
  match document with
  | .obj members =>
    throwIf (keysAre members ["job_id", "plan_digest", "observation_digest", "confirm"] = false ∨
      document.get? "confirm" ≠ some (.bool true)) rejected
  | _ => throw rejected
  match reconciliation req plan with
  | none => throw (conflict "reconciliation_not_proven")
  | some state =>
    let job := state.job
    throwIf (state.canResolve = false ∨ document.get? "job_id" ≠ some (.str job.id) ∨
      document.get? "observation_digest" ≠ some (.str state.observationDigest) ∨
      document.get? "plan_digest" ≠ some (.str plan.planDigest) ∨
      plan.unchanged req.runtime = false) (conflict "reconciliation_not_proven")
    match plan.nodeOf job with
    | none => throw .notFound
    | some node =>
      throwIf ((← liveIdentity req node tenant) = false ∨ plan.busy = true)
        (conflict "reconciliation_not_proven")
      let release : Release := ⟨job.id, plan.planDigest, state.observationDigest, toString user,
        isoFormat req.now⟩
      let resolved := { job with
        reconciliationRelease := some release, status := .succeeded
        resultCode := "hgs_state_reconciled" }
      let plan := { plan.saveJob resolved with
        approvedBy := some user, approvedAt := some req.now
        planExpiresAt := req.now + planAge, approvalExpiresAt := some (req.now + planAge)
        authorityRevokedAt := none, blockers := [], status := .running }
      afterResult req plan node resolved

end

end Ipms.Server.Hgs
