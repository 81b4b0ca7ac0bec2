import Ipms.ManagementJson.Size
import Ipms.Server.Gpo.Release
import Ipms.Server.HyperV.Replays

/-
  Ipms.Server.Replays

  Requests that are made again under the key of a job, of all kinds: a pilot, an
  inspection and a change of a group policy, and a management job of a machine.
-/

namespace Ipms.Server

open Ipms.Lib Ipms.ManagementJson

/-! ## Accepted requests -/

/-- A group-policy request that was accepted, with the state after a run of the system behind it. -/
inductive Gpo.Accepted (c : Gpo.Catalogue) (tenant : Tenant) (user : User)
    (config : Gpo.DomainSecuritySettings) (r : Gpo.Creation) (key : String) : Gpo.State → Prop where
  | intro {now : Time} {id : String} {db db' : Gpo.Db} {ls : List Gpo.Label} {s : Gpo.State} :
      (Gpo.create c now tenant user config id r).exec db = .ok (key, db') →
      Run (Gpo.Step c) ⟨db', now⟩ ls s → Accepted c tenant user config r key s

/-- A request for a management job that was accepted in a run of the system, with the state after
the run; `finding` is what the check of its parameters found. -/
inductive HyperV.Accepted (r : HyperV.State.JobRequest) (job : HyperV.ManagementJob)
    (finding : Option ServerError) : HyperV.State → Prop where
  | intro {blank s t u : HyperV.State} {ls ks : List (HyperV.Event × HyperV.Reply)} {id : String}
      {findings : HyperV.Findings} :
      blank.Blank → Run HyperV.Step blank ls s →
      s.createManagementJob id r findings = .ok (t, job) → Run HyperV.Step t ks u →
      findings.parameters = finding → Accepted r job finding u

/-! ## The same request, and another one -/

/-- When a request that was accepted returns its job again and changes nothing, and when one with the
same key is refused. -/
theorem creation_repeated_iff (c : Gpo.Catalogue) :
    (∀ tenant user config r key s, Gpo.Accepted c tenant user config r key s →
      (∀ now tenant' user' config' id, tenant'.id = tenant.id → user'.id = user.id →
        config'.id = config.id →
          ((Gpo.create c now tenant' user' config' id r).exec s.db = .ok (key, s.db) ↔
            Gpo.Admitted c now tenant' user' config' s.db r ∧ s.db.RequesterKnown r.key)) ∧
      (∀ now tenant' user' config' id r', r'.key = r.key →
        (tenant'.id, user'.id, config'.id, r') ≠ (tenant.id, user.id, config.id, r) →
          (∃ e, (Gpo.create c now tenant' user' config' id r').exec s.db = .error e) ∨
            Collide (r'.document config'.id) (r.document config.id))) ∧
    (∀ r job finding s, HyperV.Accepted r job finding s →
      (∀ id findings, findings.parameters = finding →
        ((∃ found, s.createManagementJob id r findings = .ok (s, found) ∧ found.id = job.id) ↔
          s.Authorized r)) ∧
      (∀ id findings r', r'.requestId = r.requestId → r' ≠ r →
        (∃ e, s.createManagementJob id r' findings = .error e) ∨
          Collide r'.document r.document)) := by
  constructor
  · rintro tenant user config r key s ⟨haccepted, hrun⟩
    constructor
    · intro now tenant' user' config' id htenant huser hconfig
      exact Gpo.create_again haccepted hrun htenant huser hconfig
    · intro now tenant' user' config' id r' hkey hother
      exact Gpo.create_other haccepted hrun hkey hother
  · rintro r job finding s ⟨hblank, hbefore, haccepted, hafter, rfl⟩
    constructor
    · intro id findings hparameters
      exact HyperV.create_again hblank hbefore haccepted hafter hparameters
    · intro id findings r' hid hother
      exact HyperV.create_other hblank hbefore haccepted hafter hid hother

/-! ### An inspection whose domain controller is gone -/

namespace Gpo

open Txn
open Ipms.Agent.Gpo (ManagedJob seconds)

/-- A catalogue with one component of one profile. -/
def replayCatalogue : Catalogue :=
  { sampleContent with
    profileComponents := fun _ _ => [sampleDraft.backupId]
    artifactBytes := fun _ => some []
    deployable := fun _ => some ["member-server"]
    deployableIds := []
    word := alphanumeric }

def replayConfig : DomainSecuritySettings where
  id := sampleDraft.scopeId
  tenant := "t"
  domainName := "corp.example"
  revision := 1
  tierOus := ⟨[], ["OU=Servers,DC=corp,DC=example"], []⟩
  gpoNameTemplate := "IPMS-T{tier}-{scope}-{target}-{purpose}-v{version}"
  baselineOrder := []

/-- The domain controller. -/
def replaySystem : WindowsServer where
  id := "00000000-0000-4000-8000-0000000000aa"
  tenant := "t"
  sourceId := "urn:e"
  inventorySource := "agent"
  operatingSystemRole := "domain-controller"
  domainName := "corp.example"
  fqdn := "dc1.corp.example"
  agentVersion := "0.2.50"

/-- The tables before the request: there is no job yet. -/
def replayDb : Db :=
  { sampleDb with
    domains := .single replayConfig, systems := .single replaySystem, policies := .empty
    jobs := .empty, reconciliations := .empty }

/-- The request of an inspection for an import. -/
def replayData : SelectionData where
  revision := 1
  systemId := replaySystem.id
  baselineId := sampleDraft.baselineId
  backupId := sampleDraft.backupId
  tier := "1"
  target := "Servers"
  targetOus := ["OU=Servers,DC=corp,DC=example"]
  version := "1.0.0"
  idempotencyKey := sampleDraft.jobId
  operation := .importManagedGpo
  managedId := none
  adoptJobId := none
  override := none
  domainRootConfirmed := none

deriving instance DecidableEq for Executor
deriving instance DecidableEq for Selection

/-- What the request selects. -/
def replaySelection : Selection where
  component := {
    artifactSha256 := "aaaaaaaaaaaaaaaaaaaaaaaaaaaaaaaaaaaaaaaaaaaaaaaaaaaaaaaaaaaaaaaa"
    scope := .machine
    files := []
    name := "MSFT Windows Server 2025 - Member Server"
    purpose := "Member" }
  profile := "member-server"
  tier := 1
  target := "Servers"
  name := "IPMS-T1-C-Servers-MS-WS2025-Member-v1.0.0"
  executor := ⟨replaySystem, sampleEnrollment, {
    enrollment := "e", agentVersion := "0.2.50", domainDnsName := "corp.example"
    domainGuid := sampleDraft.domainGuid, forestDnsName := "corp.example"
    dcFqdn := "dc1.corp.example", role := "writable-domain-controller", gpmcAvailable := true
    resultCode := "ready_for_approval", observedAt := sampleTime }⟩
  override := none
  targets := ["OU=Servers,DC=corp,DC=example"]

set_option maxRecDepth 20000 in
theorem replaySelection_found : replayDb.selection replayCatalogue sampleTime sampleTenant
    (sampleUser 1) replayConfig replayData = .ok replaySelection := by
  decide +kernel

/-- The assignment of the inspection, without its digest. -/
def replayAssignment : ManagedJob :=
  let a := inspectionOf replayConfig
    { key := replayData.idempotencyKey, operation := .importManagedGpo
      baselineId := replayData.baselineId, backupId := replayData.backupId
      version := replayData.version }
    replaySelection replaySelection.name
    (newPolicy replayCatalogue sampleTenant replayConfig replayData replaySelection ""
      "C-MS-WS2025-Member" sampleDraft.managedId none)
    none (wholeSeconds (sampleTime + seconds 900))
  { a with inputDigest := digest (undigested a.toJson) }

/-- The policy the request makes; its key is a digest that is not evaluated. -/
def replayPolicy (logical : String) : ManagedGpoPolicy :=
  newPolicy replayCatalogue sampleTenant replayConfig replayData replaySelection logical
    "C-MS-WS2025-Member" sampleDraft.managedId none

theorem length_digest (v : Value) : (digest v).toList.length = 64 := by
  have h := sha_digest v
  unfold sha at h
  exact beq_iff_eq.mp (Bool.and_eq_true_iff.mp h).1

theorem length_render_digest (v : Value) : (renderString (digest v)).length ≤ 6 * (4 * 64) + 2 := by
  have hbytes : (utf8 (digest v)).length ≤ 4 * (digest v).toList.length := by
    unfold utf8
    induction (digest v).toList with
    | nil => exact Nat.le_refl 0
    | cons c cs ih =>
      rw [List.flatMap_cons, List.length_append, String.length_utf8EncodeChar, List.length_cons]
      have hsize := Char.utf8Size_le_four c
      omega
  rw [length_digest] at hbytes
  have hstring := (length_renderString_bounds (digest v)).2
  omega

/-- An assignment without its digest. -/
def bare (a : ManagedJob) : ManagedJob := { a with inputDigest := "" }

theorem length_withDigest (a : ManagedJob) : (render a.toJson).length + 2 =
    (render (bare a).toJson).length + (renderString a.inputDigest).length := by
  have hempty : (renderString "").length = 2 := by decide
  unfold bare Agent.Gpo.ManagedJob.toJson Agent.Gpo.ManagedJob.members Agent.Gpo.ManagedJob.schema
    Agent.Gpo.ManagedJob.overrideJob
  simp only [List.cons_append, List.nil_append, render, renderMembers, List.length_append,
    List.length_cons, List.length_nil, hempty]
  omega

theorem length_replayAssignment : (canonical replayAssignment.toJson).length ≤ 24576 := by
  have hbase : (render (bare replayAssignment).toJson).length ≤ 2000 := by decide +kernel
  have hdigest : (renderString replayAssignment.inputDigest).length ≤ 6 * (4 * 64) + 2 :=
    length_render_digest _
  have hlength := length_withDigest replayAssignment
  rw [canonical_eq_render]
  omega

/-- What the inspection is for. -/
def replayIntent : Intent where
  key := replayData.idempotencyKey
  operation := .importManagedGpo
  baselineId := replayData.baselineId
  backupId := replayData.backupId
  version := replayData.version

theorem replayAssignment_planned (db : Db) (logical : String) :
    db.inspectionAssignment replayConfig replayIntent replaySelection (replayPolicy logical)
      (wholeSeconds (sampleTime + seconds 900)) = .ok replayAssignment := by
  unfold Db.inspectionAssignment
  refine bind_eq_ok.mpr ⟨(), rfl, bind_eq_ok.mpr ⟨none, rfl, ?_⟩⟩
  refine bind_eq_ok.mpr ⟨(), throwIf_eq_ok.mpr ?_, rfl⟩
  exact Nat.not_lt.mpr length_replayAssignment

theorem replay_retry (sha256 : String) :
    replayDb.retry sampleTenant (sampleUser 1).id replayData.idempotencyKey sha256 = .ok none := rfl

theorem replay_idle (guid : String) :
    (idle sampleTenant guid sampleTime).exec replayDb = .ok ((), replayDb) := rfl

theorem replay_policy {logical : String} : (selectedPolicy replayCatalogue sampleTime sampleTenant
    replayConfig replayData replaySelection logical sampleDraft.managedId).exec replayDb =
      .ok (replayPolicy logical, { replayDb with policies := .single (replayPolicy logical) }) := rfl

theorem replay_accepted : ∃ db', (createPreflight replayCatalogue sampleTime sampleTenant
    (sampleUser 1) replayConfig (.selection replayData) sampleDraft.managedId).exec replayDb =
      .ok (sampleDraft.jobId, db') ∧ db'.RequesterKnown sampleDraft.jobId := by
  obtain ⟨logical, hlogical⟩ : ∃ logical, logicalKey replayCatalogue replayData.baselineId
      replaySelection = .ok logical := ⟨_, rfl⟩
  let job := replayDb.newJob replayCatalogue.toContent sampleTenant replayConfig
    replaySelection.executor 1 (.managed replayAssignment)
    ((PreflightData.selection replayData).digest replayConfig.id) .queued sampleTime
    (wholeSeconds (sampleTime + seconds 900))
  refine ⟨{ replayDb with policies := .single (replayPolicy logical), jobs := .single job }, ?_,
    job, rfl, Option.some_ne_none 1⟩
  unfold createPreflight createSelected
  simp only [exec_get_bind, exec_ofExcept_bind, replaySelection_found, replay_retry, Except.ok.injEq,
    exists_eq_left']
  refine exec_bind_ok.mpr ⟨(), replayDb, replay_idle _, exec_ofExcept_bind.mpr ⟨logical, hlogical, ?_⟩⟩
  refine exec_bind_ok.mpr ⟨_, _, replay_policy, ?_⟩
  unfold createInspection
  simp only [exec_get_bind, exec_ofExcept_bind]
  refine ⟨replayAssignment, replayAssignment_planned _ logical, ?_⟩
  rfl

theorem executorFor_of_selection {c : Catalogue} {now : Time} {db : Db} {tenant : Tenant}
    {user : User} {config : DomainSecuritySettings} {data : SelectionData} {s : Selection}
    (h : db.selection c now tenant user config data = .ok s) :
    (db.executorFor tenant.id data.systemId).isSome = true := by
  unfold Db.selection at h
  obtain ⟨⟨⟩, -, h⟩ := bind_eq_ok.mp h
  split at h
  · cases h
  · obtain ⟨⟨⟩, -, h⟩ := bind_eq_ok.mp h
    obtain ⟨⟨⟩, -, h⟩ := bind_eq_ok.mp h
    obtain ⟨⟨⟩, -, h⟩ := bind_eq_ok.mp h
    obtain ⟨⟨⟩, -, h⟩ := bind_eq_ok.mp h
    obtain ⟨_, -, h⟩ := bind_eq_ok.mp h
    split at h
    · cases h
    · obtain ⟨_, -, h⟩ := bind_eq_ok.mp h
      obtain ⟨_, -, h⟩ := bind_eq_ok.mp h
      obtain ⟨⟨⟩, -, h⟩ := bind_eq_ok.mp h
      obtain ⟨_, -, h⟩ := bind_eq_ok.mp h
      obtain ⟨_, -, h⟩ := bind_eq_ok.mp h
      split at h
      · cases h
      · next executor hexecutor =>
          rw [(Option.filter_eq_some_iff.mp hexecutor).1]
          rfl

/-- The domain controller is taken out of the inventory. -/
def replayRemoval : Surroundings where
  tenants := replayDb.tenants
  users := replayDb.users
  memberships := replayDb.memberships
  enrollments := replayDb.enrollments
  systems := .empty
  reports := replayDb.reports
  maintenancePending := replayDb.maintenancePending
  retirements := replayDb.retirements

/-- The request was accepted, and its job is there; the same request is refused all the same. -/
theorem creation_refused_again : ∃ s : State,
    Accepted replayCatalogue sampleTenant (sampleUser 1) replayConfig
      (.preflight (.selection replayData)) sampleDraft.jobId s ∧
    s.db.RequesterKnown sampleDraft.jobId ∧
    ∀ id, ∃ e, (create replayCatalogue sampleTime sampleTenant (sampleUser 1) replayConfig id
      (.preflight (.selection replayData))).exec s.db = .error e := by
  obtain ⟨db', haccepted, hknown⟩ := replay_accepted
  have hstep : Step replayCatalogue ⟨db', sampleTime⟩ ⟨.surround replayRemoval, sampleTime, none⟩
      ⟨db'.surround replayRemoval, sampleTime⟩ := by
    refine ⟨Int.le_refl _, ?_, rfl, rfl⟩
    intro id hid
    cases hid
  refine ⟨_, .intro haccepted (.single hstep), hknown, fun id => ?_⟩
  have hkey : (db'.surround replayRemoval).jobs.get? sampleDraft.jobId = db'.jobs.get? _ := rfl
  obtain ⟨j, hj, -⟩ := hknown
  cases hresult : (create replayCatalogue sampleTime sampleTenant (sampleUser 1) replayConfig id
      (.preflight (.selection replayData))).exec (db'.surround replayRemoval) with
  | error e => exact ⟨e, rfl⟩
  | ok answer =>
    obtain ⟨⟨selection, hselection⟩, -⟩ := (create_existing (hkey.trans hj)).mp hresult
    exact absurd (executorFor_of_selection hselection) Bool.false_ne_true

end Gpo

end Ipms.Server
