import Ipms.Server.Gpo.Postcondition

/-
  Ipms.Server.Collections.Rollouts

  The rollout of a policy collection: its items, one for every domain and policy,
  each with the job that inspects and the job that writes.  Nothing watches the
  jobs; every refresh reads them again and moves the items along.
-/

namespace Ipms.Server.Collections

open Ipms.Server.Gpo

/-! ## Jobs -/

/-- What happens to a job between two refreshes, once the checks in front of it have passed. -/
inductive JobEvent where
  | expire (now : Time)
  | invalidate (reason : String) (now : Time)
  | approve (user : Nat) (approvedAt : Time)
  | claim (now : Time)
  | awaitApproval (code : String)
  | succeed (document : ResultDocument) (now : Time)
  | report (requiresReconciliation : Bool) (code : String) (guid : Option String) (digest : String)
      (now : Time)
  | reconcile

/-- The codes that close the journal of a job that had ended unclaimed. -/
def closingCodes : List String :=
  ["gpo_job_expired", "gpo_authority_expired", "gpo_enrollment_changed"]

/-- The part of `_result` about a failed job, or one that asks for reconciliation. -/
def reportFailure (job : GpoImportJob) (requiresReconciliation : Bool) (code : String)
    (guid : Option String) (digest : String) (now : Time) : GpoImportJob :=
  if job.status = .reconciliationRequired ∧ job.resultDigest ≠ "" ∧ job.resultDigest = digest then job
  else if job.status.terminal then
    if job.resultDigest = "" ∧ job.claimedAt = none ∧
        (job.status = .expired ∨ job.status = .failed) ∧ requiresReconciliation = false ∧
        guid = none ∧ code ∈ closingCodes then { job with resultDigest := digest }
    else job
  else
    let status :=
      if requiresReconciliation || guid.isSome || job.claimedAt.isSome then .reconciliationRequired
      else .failed
    { job with status, errorCode := code, gpoGuid := guid.getD job.gpoGuid, resultDigest := digest
               completedAt := if status.terminal then some now else none }

/-- A job that may succeed: a queued inspection, or a claimed write. -/
def receivable (job : GpoImportJob) : Bool :=
  if job.inspecting then job.status == .queued && job.claimedAt.isNone
  else job.status == .running && job.claimedAt.isSome

/-- A job after an event; an event that is not for the job leaves it. -/
def JobEvent.apply (job : GpoImportJob) : JobEvent → GpoImportJob
  | .expire now =>
    if expiring job.tenant now job then job.endUnlessClaimed .expired "gpo_job_expired" now else job
  | .invalidate reason now =>
    if job.status.active && job.status != .reconciliationRequired then
      job.endUnlessClaimed .failed reason now
    else job
  | .approve user approvedAt =>
    if job.writes && job.status.preExecution && job.claimedAt.isNone && job.approvedAt.isNone then
      job.approve user approvedAt
    else job
  | .claim now =>
    if job.writes && job.status.preExecution then
      { job with status := .running, claimedAt := some now, errorCode := "" }
    else job
  | .awaitApproval code =>
    if job.status.preExecution && job.approvedAt.isNone then
      { job with status := .awaitingApproval, errorCode := code }
    else job
  | .succeed document now =>
    match success job.assignment.core.operation with
    | some (status, _) => if receivable job then job.succeed status document now else job
    | none => job
  | .report requiresReconciliation code guid digest now =>
    reportFailure job requiresReconciliation code guid digest now
  | .reconcile =>
    if job.status = .reconciliationRequired then { job with status := .reconciled } else job

/-- A job that has ended stays as it ended. -/
theorem JobEvent.apply_terminal {job : GpoImportJob} (h : job.status.terminal = true) (e : JobEvent) :
    (e.apply job).status = job.status := by
  have hactive : job.status.active = false := by
    rw [JobStatus.terminal_eq, Bool.not_eq_true'] at h
    exact h
  have hpre : job.status.preExecution = false := by
    revert hactive
    cases job.status <;> decide
  cases e with
  | expire now => simp [JobEvent.apply, expiring, hactive]
  | invalidate reason now => simp [JobEvent.apply, hactive]
  | approve user approvedAt | claim now | awaitApproval code => simp [JobEvent.apply, hpre]
  | succeed document now =>
    have hno : receivable job = false := by
      unfold receivable
      revert h
      cases job.status <;> simp [JobStatus.terminal]
    simp only [JobEvent.apply, hno]
    split
    · rw [if_neg Bool.false_ne_true]
    · rfl
  | report requiresReconciliation code guid digest now =>
    show (reportFailure job requiresReconciliation code guid digest now).status = job.status
    unfold reportFailure
    split
    · rfl
    · split <;> rfl
  | reconcile =>
    have hno : job.status ≠ .reconciliationRequired := by
      intro hstatus
      rw [hstatus] at h
      cases h
    simp [JobEvent.apply, hno]

/-! ## Items -/

/-- `PolicyCollectionDeploymentItem.status`. -/
inductive ItemStatus where
  | pending | preparing | awaitingApproval | running | succeeded | failed | blocked
  | reconciliationRequired
  deriving DecidableEq

/-- `ITEM_ACTIVE`. -/
def ItemStatus.active : ItemStatus → Bool
  | preparing | awaitingApproval | running => true
  | _ => false

/-- `PolicyCollectionDeploymentItem`, with the rows of its jobs. -/
structure Item where
  sequence : Nat
  domainId : String
  /-- `selection['entry']['source'] == 'custom'` -/
  custom : Bool
  /-- `selection['binding']['domain_revision']` -/
  domainRevision : Int
  status : ItemStatus := .pending
  preflightJob : Option GpoImportJob := none
  writeJob : Option GpoImportJob := none
  errorCode : String := ""
  completedAt : Option Time := none
  deriving DecidableEq

/-- `PolicyCollectionDeployment.status`. -/
inductive DeploymentStatus where
  | queued | running | awaitingApproval | reconciliationRequired | succeeded | partially | failed
  deriving DecidableEq

/-- `PolicyCollectionDeployment`; the items are in the order of their sequence. -/
structure Deployment where
  tenant : String
  items : List Item
  status : DeploymentStatus := .queued
  completedAt : Option Time := none
  deriving DecidableEq

/-- A domain of a collection. -/
structure Binding where
  domainId : String
  domainRevision : Int
  deriving DecidableEq

/-- An executor of a domain. -/
structure ExecutorOption where
  eligible : Bool
  agentVersion : Nat × Nat × Nat
  deriving DecidableEq

/-- What a refresh finds around it: the clock, the domains and their executors, and what
`create_preflight` and `create_change` answer for an item. -/
structure Services where
  now : Time
  domainRevision : String → Int
  executorOptions : String → List ExecutorOption
  createPreflight : Item → Except ServerError GpoImportJob
  createChange : Item → Except ServerError GpoImportJob

/-- `_error_code`, as it is stored. -/
def storedErrorCode (e : ServerError) : String :=
  let code := match e with
    | .publicApiError code _ => code
    | .parseError _ => "parse_error"
    | .permissionDenied _ => "permission_denied"
    | .notFound => "not_found"
    | _ => "request_failed"
  String.ofList (code.toList.take 64)

/-- An error code, or the status that stands for it. -/
def errorOr (code : String) (status : JobStatus) : String := if code = "" then status.text else code

def Item.failWith (item : Item) (code : String) (at_ : Time) : Item :=
  { item with status := .failed, errorCode := code, completedAt := some at_ }

/-! ## Refresh -/

/-- An item after `expire_jobs`. -/
def Item.expireJobs (item : Item) (tenant : String) (now : Time) : Item :=
  let expire (job : GpoImportJob) : GpoImportJob :=
    if expiring tenant now job then job.endUnlessClaimed .expired "gpo_job_expired" now else job
  { item with preflightJob := item.preflightJob.map expire, writeJob := item.writeJob.map expire }

def Item.followWrite (item : Item) (job : GpoImportJob) (now : Time) : Item :=
  match job.status with
  | .linked =>
    { item with status := .succeeded, errorCode := ""
                completedAt := some (job.completedAt.getD now) }
  | .reconciliationRequired =>
    { item with status := .reconciliationRequired, errorCode := job.errorCode }
  | .failed | .expired | .deleted =>
    item.failWith (errorOr job.errorCode job.status) (job.completedAt.getD now)
  | .awaitingApproval => { item with status := .awaitingApproval }
  | .queued | .running => { item with status := .running }
  | _ => item

/-- The part of `refresh_deployment` about one item. -/
def Item.refresh (services : Services) (item : Item) : Except ServerError Item :=
  match item.writeJob, item.preflightJob with
  | some job, _ => .ok (item.followWrite job services.now)
  | none, none => .ok item
  | none, some job =>
    match job.status with
    | .inspected =>
      match services.createChange item with
      | .ok write =>
        .ok { item with
          writeJob := some write, errorCode := ""
          status := if write.status = .awaitingApproval then .awaitingApproval else .running }
      | .error e =>
        if e.api then .ok (item.failWith (storedErrorCode e) services.now) else .error e
    | .reconciliationRequired =>
      .ok { item with status := .reconciliationRequired, errorCode := job.errorCode }
    | .failed | .expired =>
      .ok (item.failWith (errorOr job.errorCode job.status)
        (job.completedAt.getD services.now))
    | _ => .ok item

/-- Change the item of a sequence number. -/
def updateItem (items : List Item) (sequence : Nat) (f : Item → Item) : List Item :=
  items.map fun item => if item.sequence = sequence then f item else item

/-- An item after which nothing of its domain may run. -/
def ItemStatus.stops : ItemStatus → Bool
  | failed | blocked | reconciliationRequired => true
  | _ => false

/-- Block what is still pending in a domain. -/
def blockPending (items : List Item) (domainId : String) (now : Time) : List Item :=
  items.map fun item =>
    if item.domainId = domainId ∧ item.status = .pending then
      { item with status := .blocked, errorCode := "previous_policy_failed"
                  completedAt := some now }
    else item

/-- The minimum agent of an item. -/
def requiredAgent (item : Item) : Nat × Nat × Nat := if item.custom then (0, 2, 48) else Db.minimumAgent

/-- The executors that may run an item. -/
def executors (services : Services) (item : Item) : List ExecutorOption :=
  (services.executorOptions item.domainId).filter fun row =>
    row.eligible && versionAtLeast row.agentVersion (requiredAgent item)

/-- The part of `_dispatch_domain` about the item whose turn it is. -/
def Item.dispatch (services : Services) (item : Item) : Except ServerError Item :=
  if services.domainRevision item.domainId ≠ item.domainRevision then
    .ok (item.failWith "domain_revision_changed" services.now)
  else if executors services item = [] then
    .ok (item.failWith "executor_unavailable" services.now)
  else match services.createPreflight item with
    | .ok job => .ok { item with preflightJob := some job, status := .preparing, errorCode := "" }
    | .error e => if e.api then .ok (item.failWith (storedErrorCode e) services.now) else .error e

def dispatchDomain (services : Services) (items : List Item) (domainId : String) :
    Except ServerError (List Item) :=
  let ofDomain := items.filter fun item => item.domainId = domainId
  if ofDomain.any fun item => item.status.active then .ok items
  else match ofDomain.find? fun item => item.status = .pending with
    | none => .ok items
    | some pending =>
      let preceding := ofDomain.filter fun item => item.sequence < pending.sequence
      if preceding.any fun item => item.status.stops then
        .ok (blockPending items domainId services.now)
      else if preceding.any fun item => item.status ≠ .succeeded then .ok items
      else match pending.dispatch services with
        | .ok item => .ok (updateItem items pending.sequence fun _ => item)
        | .error e => .error e

/-- `_dispatch_domain` for the domain of every item: the default order of the items, by sequence
and identity, is part of what `distinct` compares, so a domain comes up once for each of its items. -/
def dispatchDomains (services : Services) : List Item → List String → Except ServerError (List Item)
  | items, [] => .ok items
  | items, domainId :: rest =>
    match dispatchDomain services items domainId with
    | .ok items => dispatchDomains services items rest
    | .error e => .error e

def deploymentStatus (items : List Item) : DeploymentStatus :=
  let statuses := items.map Item.status
  if statuses ≠ [] ∧ statuses.all (· == .succeeded) then .succeeded
  else if .reconciliationRequired ∈ statuses then .reconciliationRequired
  else if .awaitingApproval ∈ statuses then .awaitingApproval
  else if statuses.any ItemStatus.active then .running
  else if .pending ∈ statuses then if .succeeded ∈ statuses then .running else .queued
  else if .succeeded ∈ statuses then .partially
  else .failed

/-- The statuses a deployment completes with. -/
def DeploymentStatus.complete : DeploymentStatus → Bool
  | succeeded | partially | failed | reconciliationRequired => true
  | _ => false

/-- The items after one another. -/
def refreshItems (services : Services) : List Item → Except ServerError (List Item)
  | [] => .ok []
  | item :: rest =>
    match item.refresh services with
    | .error e => .error e
    | .ok item =>
      match refreshItems services rest with
      | .error e => .error e
      | .ok rest => .ok (item :: rest)

def refreshDeployment (services : Services) (d : Deployment) : Except ServerError Deployment :=
  match refreshItems services (d.items.map fun item => item.expireJobs d.tenant services.now) with
  | .error e => .error e
  | .ok items =>
    match dispatchDomains services items (items.map Item.domainId) with
    | .error e => .error e
    | .ok items =>
      let status := deploymentStatus items
      .ok { d with items, status
                   completedAt := if status.complete then some services.now else none }

/-! ## Runs -/

/-- The items of a new deployment: for every domain the policies of the collection in order, each
a custom one or not. -/
def newItems (bindings : List Binding) (entries : List Bool) : List Item :=
  (bindings.flatMap fun binding => entries.map fun custom => (binding, custom)).mapIdx
    fun index (binding, custom) =>
      { sequence := index + 1, domainId := binding.domainId, custom
        domainRevision := binding.domainRevision }

def newDeployment (tenant : String) (bindings : List Binding) (entries : List Bool) : Deployment :=
  { tenant, items := newItems bindings entries }

/-- What happens to a deployment. -/
inductive Event where
  | preflight (sequence : Nat) (event : JobEvent)
  | write (sequence : Nat) (event : JobEvent)
  | refresh (services : Services)

/-- A deployment after an event; a refresh that raises is rolled back. -/
def step (d : Deployment) : Event → Deployment
  | .preflight sequence event =>
    { d with items := updateItem d.items sequence fun item =>
        { item with preflightJob := item.preflightJob.map event.apply } }
  | .write sequence event =>
    { d with items := updateItem d.items sequence fun item =>
        { item with writeJob := item.writeJob.map event.apply } }
  | .refresh services =>
    match refreshDeployment services d with
    | .ok d => d
    | .error _ => d

/-- A deployment after one event after another. -/
def run (d : Deployment) (events : List Event) : Deployment := events.foldl step d

theorem run_append (d : Deployment) (before after : List Event) :
    run d (before ++ after) = run (run d before) after := List.foldl_append

end Ipms.Server.Collections
