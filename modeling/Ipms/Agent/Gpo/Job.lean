import Ipms.Agent.Gpo.Snapshot
import Ipms.Crypto.Sha256

/-
  Ipms.Agent.Gpo.Job

  The assignments the agent accepts: the unlinked pilot of schemas 1 and 2, and
  the managed operations of schemas 3 and 4, the last with a sparse override.
  `parseJob` reads the exact document and makes every structural check.
-/

namespace Ipms.Agent.Gpo

open Ipms.Lib Ipms.ManagementJson Ipms.Crypto Value

/-- The job error. -/
def invalidJob : Exn := operationError "gpo_invalid_job"

/-- The operations of the contract. -/
inductive Operation where
  | createUnlinkedPilot | inspectManagedGpo | importManagedGpo | importAndLinkManagedGpo
  | linkManagedGpo | activateManagedGpo | deactivateManagedGpo | deleteManagedGpo
  deriving DecidableEq

namespace Operation

def text : Operation → String
  | createUnlinkedPilot => "create_unlinked_pilot"
  | inspectManagedGpo => "inspect_managed_gpo"
  | importManagedGpo => "import_managed_gpo"
  | importAndLinkManagedGpo => "import_and_link_managed_gpo"
  | linkManagedGpo => "link_managed_gpo"
  | activateManagedGpo => "activate_managed_gpo"
  | deactivateManagedGpo => "deactivate_managed_gpo"
  | deleteManagedGpo => "delete_managed_gpo"

/-- Every operation. -/
def all : List Operation :=
  [createUnlinkedPilot, inspectManagedGpo, importManagedGpo, importAndLinkManagedGpo,
    linkManagedGpo, activateManagedGpo, deactivateManagedGpo, deleteManagedGpo]

def ofText (s : String) : Option Operation := all.find? fun op => op.text == s

theorem ofText_text (op : Operation) : ofText op.text = some op := by
  cases op <;> decide

/-- `import_operation`. -/
def isImport : Operation → Bool
  | importManagedGpo | importAndLinkManagedGpo => true
  | _ => false

/-- `link_operation`. -/
def isLink : Operation → Bool
  | linkManagedGpo | importAndLinkManagedGpo => true
  | _ => false

/-- `managed_operation`. -/
def isManaged : Operation → Bool
  | createUnlinkedPilot | inspectManagedGpo => false
  | _ => true

end Operation

/-- What a compiled component applies to. -/
inductive Scope where
  | machine | user | domain | other
  deriving DecidableEq

/-- A compiled component: its artifact, its scope and the files of its backup. -/
structure Component where
  artifactSha256 : String
  scope : Scope
  files : List String
  deriving DecidableEq

/-- What the compiled source says about one setting. -/
structure SettingDescriptor where
  settingId : String
  editable : Bool
  valueType : String
  min : Int
  max : Int
  maxLength : Nat
  maxItems : Nat
  kind : String
  file : String
  enumOptions : List Value

/-- The settings of a component that an override may select from. -/
structure OverrideComponent where
  baselineId : String
  backupId : String
  artifactSha256 : String
  settings : List SettingDescriptor

/-- The compiled catalog: components by baseline and backup, and their settings. -/
structure Catalog where
  lookupComponent : String → String → Option Component
  overrideComponents : List OverrideComponent

/-- One selected setting of an override. -/
structure OverrideEntry where
  settingId : String
  value : Value
  deriving DecidableEq

/-- The override fields of a schema-4 job. -/
structure Override where
  overrideId : String
  overrideRevision : Int
  overrideSha256 : String
  entries : List OverrideEntry
  deriving DecidableEq

/-- The two confirmations of an activation. -/
structure SafetyReview where
  managementAccess : Bool
  recoveryAccess : Bool
  deriving DecidableEq

/-- The fields of every job. -/
structure JobCore where
  jobId : String
  inputDigest : String
  operation : Operation
  domainDnsName : String
  domainGuid : String
  forestDnsName : String
  executorDcFqdn : String
  scopeId : String
  scopeRevision : Int
  targetTier : Int
  baselineId : String
  profile : String
  backupId : String
  artifactSha256 : String
  pilotDisplayName : String
  expiresAt : String
  deriving DecidableEq

/-- A managed job of schema 3, or of schema 4 with an override. -/
structure ManagedJob extends JobCore where
  approvalMode : String
  managedId : String
  managedRevision : Int
  gpoGuid : String
  ownerMarker : String
  targetOus : List String
  linkOrders : List Int
  preflightId : String
  expectedState : Option Snapshot
  intendedOperation : Operation
  safetyReview : SafetyReview
  override : Option Override
  deriving DecidableEq

/-- A job: the pilot, approved locally or in the portal, or a managed job. -/
inductive Job where
  | pilot (core : JobCore) (portal : Bool)
  | managed (job : ManagedJob)
  deriving DecidableEq

/-- The fields every job has. -/
def Job.core : Job → JobCore
  | .pilot core _ => core
  | .managed job => job.toJobCore

def ManagedJob.overrideJob (j : ManagedJob) : Bool := j.override.isSome

def ManagedJob.schema (j : ManagedJob) : Int := if j.overrideJob then 4 else 3

def Job.schema : Job → Int
  | .pilot _ false => 1
  | .pilot _ true => 2
  | .managed job => job.schema

def ManagedJob.inspection (j : ManagedJob) : Bool := j.operation == .inspectManagedGpo

/-- `inspection` of any job; a pilot never is one. -/
def Job.inspection : Job → Bool
  | .pilot _ _ => false
  | .managed job => job.inspection

/-! ## Documents -/

/-- The document of an override entry. -/
def OverrideEntry.toJson (e : OverrideEntry) : Value :=
  .obj [("setting_id", .str e.settingId), ("value", e.value)]

/-- The fields of an override entry document. -/
def OverrideEntry.read (v : Value) : Option OverrideEntry := do
  let settingId ← v.str? "setting_id"
  let value ← v.get? "value"
  pure { settingId, value }

/-- The document of the override entries. -/
def entriesJson (entries : List OverrideEntry) : Value := .arr (entries.map OverrideEntry.toJson)

/-- The document of a safety review. -/
def SafetyReview.toJson (r : SafetyReview) : Value :=
  .obj [("management_access", .bool r.managementAccess), ("recovery_access", .bool r.recoveryAccess)]

/-- The document of an expected state, null when nothing is expected yet. -/
def expectedStateJson (s : Option Snapshot) : Value := (s.map Snapshot.toJson).getD .null

/-- The document of a pilot job. -/
def pilotJson (c : JobCore) (portal : Bool) : Value :=
  .obj ((if portal then [("approval_mode", .str "portal")] else []) ++
    [("artifact_sha256", .str c.artifactSha256), ("backup_id", .str c.backupId),
    ("baseline_id", .str c.baselineId), ("domain_dns_name", .str c.domainDnsName),
    ("domain_guid", .str c.domainGuid), ("executor_dc_fqdn", .str c.executorDcFqdn),
    ("expires_at", .str c.expiresAt), ("forest_dns_name", .str c.forestDnsName),
    ("input_digest", .str c.inputDigest), ("job_id", .str c.jobId),
    ("operation", .str c.operation.text), ("pilot_display_name", .str c.pilotDisplayName),
    ("profile", .str c.profile), ("schema", .int (if portal then 2 else 1)),
    ("scope_id", .str c.scopeId), ("scope_revision", .int c.scopeRevision),
    ("target_tier", .int c.targetTier)])

/-- The override members of a managed job document. -/
def overrideMembers : Option Override → List (String × Value)
  | none => []
  | some o =>
    [("override_entries", entriesJson o.entries), ("override_id", .str o.overrideId),
      ("override_revision", .int o.overrideRevision),
      ("override_sha256", .str o.overrideSha256)]

/-- The members of a managed job document. -/
def ManagedJob.members (j : ManagedJob) : List (String × Value) :=
  [("approval_mode", .str j.approvalMode), ("artifact_sha256", .str j.artifactSha256),
    ("backup_id", .str j.backupId), ("baseline_id", .str j.baselineId),
    ("domain_dns_name", .str j.domainDnsName), ("domain_guid", .str j.domainGuid),
    ("executor_dc_fqdn", .str j.executorDcFqdn),
    ("expected_state", expectedStateJson j.expectedState), ("expires_at", .str j.expiresAt),
    ("forest_dns_name", .str j.forestDnsName), ("gpo_guid", .str j.gpoGuid),
    ("input_digest", .str j.inputDigest),
    ("intended_operation", .str j.intendedOperation.text), ("job_id", .str j.jobId),
    ("link_orders", .arr (j.linkOrders.map .int)), ("managed_id", .str j.managedId),
    ("managed_revision", .int j.managedRevision), ("operation", .str j.operation.text)] ++
    (overrideMembers j.override ++
    [("owner_marker", .str j.ownerMarker), ("pilot_display_name", .str j.pilotDisplayName),
    ("preflight_id", .str j.preflightId), ("profile", .str j.profile),
    ("safety_review", j.safetyReview.toJson), ("schema", .int j.schema),
    ("scope_id", .str j.scopeId), ("scope_revision", .int j.scopeRevision),
    ("target_ous", .arr (j.targetOus.map .str)), ("target_tier", .int j.targetTier)])

/-- The document of a managed job. -/
def ManagedJob.toJson (j : ManagedJob) : Value := .obj j.members

/-- The document of a job. -/
def Job.toJson : Job → Value
  | .pilot core portal => pilotJson core portal
  | .managed job => job.toJson

/-- The fields every job document has. -/
def JobCore.read (v : Value) : Option JobCore := do
  let jobId ← v.str? "job_id"
  let inputDigest ← v.str? "input_digest"
  let operation ← Operation.ofText (← v.str? "operation")
  let domainDnsName ← v.str? "domain_dns_name"
  let domainGuid ← v.str? "domain_guid"
  let forestDnsName ← v.str? "forest_dns_name"
  let executorDcFqdn ← v.str? "executor_dc_fqdn"
  let scopeId ← v.str? "scope_id"
  let scopeRevision ← v.int? "scope_revision"
  let targetTier ← v.int? "target_tier"
  let baselineId ← v.str? "baseline_id"
  let profile ← v.str? "profile"
  let backupId ← v.str? "backup_id"
  let artifactSha256 ← v.str? "artifact_sha256"
  let pilotDisplayName ← v.str? "pilot_display_name"
  let expiresAt ← v.str? "expires_at"
  pure { jobId, inputDigest, operation, domainDnsName, domainGuid, forestDnsName, executorDcFqdn,
         scopeId, scopeRevision, targetTier, baselineId, profile, backupId, artifactSha256,
         pilotDisplayName, expiresAt }

/-- The expected state of a job document. -/
def readExpectedState (v : Value) : Option (Option Snapshot) :=
  match v.get? "expected_state" with
  | some .null => some none
  | some state => (Snapshot.read state).map some
  | none => none

/-- The override of a job document. -/
def Override.read (v : Value) : Option Override := do
  let overrideId ← v.str? "override_id"
  let overrideRevision ← v.int? "override_revision"
  let overrideSha256 ← v.str? "override_sha256"
  let entries ← (← v.arr? "override_entries").mapM OverrideEntry.read
  pure { overrideId, overrideRevision, overrideSha256, entries }

/-- The text of a string value. -/
def readStr : Value → Option String
  | .str s => some s
  | _ => none

/-- The number of an integer value. -/
def readInt : Value → Option Int
  | .int n => some n
  | _ => none

/-- The safety review of a document. -/
def SafetyReview.read (v : Value) : Option SafetyReview := do
  let managementAccess ← v.bool? "management_access"
  let recoveryAccess ← v.bool? "recovery_access"
  pure { managementAccess, recoveryAccess }

/-- The fields of a managed job document, with its override for schema 4. -/
def ManagedJob.read (v : Value) (override : Option Override) : Option ManagedJob := do
  let core ← JobCore.read v
  let approvalMode ← v.str? "approval_mode"
  let managedId ← v.str? "managed_id"
  let managedRevision ← v.int? "managed_revision"
  let gpoGuid ← v.str? "gpo_guid"
  let ownerMarker ← v.str? "owner_marker"
  let targetOus ← (← v.arr? "target_ous").mapM readStr
  let linkOrders ← (← v.arr? "link_orders").mapM readInt
  let preflightId ← v.str? "preflight_id"
  let expectedState ← readExpectedState v
  let intendedOperation ← Operation.ofText (← v.str? "intended_operation")
  let safetyReview ← SafetyReview.read (← v.get? "safety_review")
  pure { core with approvalMode, managedId, managedRevision, gpoGuid, ownerMarker, targetOus,
                   linkOrders, preflightId, expectedState, intendedOperation, safetyReview,
                   override }

/-- The fields of a job document, by its schema. -/
def Job.read (v : Value) : Option Job := do
  let schema ← v.int? "schema"
  if schema = 1 then pure (.pilot (← JobCore.read v) false)
  else if schema = 2 then pure (.pilot (← JobCore.read v) true)
  else if schema = 3 then pure (.managed (← ManagedJob.read v none))
  else if schema = 4 then pure (.managed (← ManagedJob.read v (some (← Override.read v))))
  else none

/-- Read a job document that has exactly the members of its schema. -/
def Job.decode : Value → Option Job := Value.exactly Job.toJson Job.read

/-! ### A job is read back from its document -/

theorem JobCore.read_pilotJson (c : JobCore) (portal : Bool) :
    JobCore.read (pilotJson c portal) = some c := by
  cases portal <;>
  simp [JobCore.read, pilotJson, str?, int?, get?, List.lookup,
    Operation.ofText_text]

theorem JobCore.read_managedJson (j : ManagedJob) : JobCore.read j.toJson = some j.toJobCore := by
  cases h : j.override <;>
  simp [JobCore.read, ManagedJob.toJson, ManagedJob.members, overrideMembers, h, str?, int?, get?,
    List.lookup, Operation.ofText_text]

theorem Override.read_managedJson {j : ManagedJob} {o : Override} (h : j.override = some o) :
    Override.read j.toJson = some o := by
  have hentries : (o.entries.map OverrideEntry.toJson).mapM OverrideEntry.read = some o.entries :=
    mapM_read_toJson (fun e => by
      simp [OverrideEntry.read, OverrideEntry.toJson, str?, get?, List.lookup]) _
  simp [Override.read, ManagedJob.toJson, ManagedJob.members, overrideMembers, entriesJson, h, hentries, str?,
    int?, arr?, get?, List.lookup]

theorem readExpectedState_managedJson (j : ManagedJob) :
    readExpectedState j.toJson = some j.expectedState := by
  have hget : j.toJson.get? "expected_state" = some (expectedStateJson j.expectedState) := by
    simp [ManagedJob.toJson, ManagedJob.members, get?, List.lookup]
  unfold readExpectedState
  rw [hget]
  cases j.expectedState with
  | none => rfl
  | some s =>
    show (Snapshot.read s.toJson).map some = _
    rw [Snapshot.read_toJson]
    rfl

theorem ManagedJob.read_toJson (j : ManagedJob) : ManagedJob.read j.toJson j.override = some j := by
  have hous : (j.targetOus.map str).mapM readStr = some j.targetOus :=
    mapM_read_toJson (fun _ => (rfl : readStr (str _) = some _)) _
  have horders : (j.linkOrders.map int).mapM readInt = some j.linkOrders :=
    mapM_read_toJson (fun _ => (rfl : readInt (int _) = some _)) _
  have hsafety : SafetyReview.read j.safetyReview.toJson = some j.safetyReview := rfl
  simp only [ManagedJob.read, JobCore.read_managedJson, readExpectedState_managedJson]
  cases h : j.override <;>
  simp [ManagedJob.toJson, ManagedJob.members, overrideMembers, h, hous, horders, hsafety, str?, int?,
    arr?, get?, List.lookup, Operation.ofText_text] <;>
  simp [← h]

theorem Job.read_toJson (job : Job) : Job.read job.toJson = some job := by
  cases job with
  | pilot core portal =>
    have hschema : (pilotJson core portal).int? "schema" = some (if portal then 2 else 1) := by
      cases portal <;> simp [pilotJson, int?, get?, List.lookup]
    simp only [Job.read, Job.toJson, hschema, JobCore.read_pilotJson]
    cases portal <;> rfl
  | managed j =>
    have hschema : j.toJson.int? "schema" = some j.schema := by
      cases h : j.override <;>
      simp [ManagedJob.toJson, ManagedJob.members, overrideMembers, h, int?, get?, List.lookup]
    simp only [Job.read, Job.toJson, hschema]
    cases h : j.override with
    | none =>
      have hread := ManagedJob.read_toJson j
      rw [h] at hread
      simp [ManagedJob.schema, ManagedJob.overrideJob, h, hread]
    | some o =>
      have hread := ManagedJob.read_toJson j
      rw [h] at hread
      simp [ManagedJob.schema, ManagedJob.overrideJob, h, hread, Override.read_managedJson h]

theorem Job.decode_eq_some {v : Value} {job : Job} : Job.decode v = some job ↔ v = job.toJson :=
  exactly_eq_some Job.read_toJson

theorem Job.toJson_injective : Function.Injective Job.toJson := by
  intro a b h
  have ha := Job.decode_eq_some.mpr (rfl : a.toJson = a.toJson)
  rw [h, Job.decode_eq_some.mpr rfl] at ha
  exact (Option.some.inj ha).symm

end Ipms.Agent.Gpo
