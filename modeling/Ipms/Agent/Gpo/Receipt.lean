import Ipms.Agent.Gpo.Validate

/-
  Ipms.Agent.Gpo.Receipt

  Portal approvals and results.  A result document is read into a receipt whose
  evidence is absent, that of a pilot, or that of a managed operation.
-/

namespace Ipms.Agent.Gpo

open Ipms.Lib Ipms.ManagementJson Value

/-! ## Portal approvals -/

/-- The approval of a portal job. -/
structure Approval where
  jobId : String
  inputDigest : String
  deviceUri : String
  domainGuid : String
  targetTier : Int
  operation : String
  requestedBy : String
  approvedBy : String
  approvedAt : String
  expiresAt : String
  policyRevision : Int
  fourEyesRequired : Bool
  deriving DecidableEq

/-- The document of an approval. -/
def Approval.toJson (a : Approval) : Value :=
  .obj [("approved_at", .str a.approvedAt), ("approved_by", .str a.approvedBy),
    ("device_uri", .str a.deviceUri), ("domain_guid", .str a.domainGuid),
    ("expires_at", .str a.expiresAt), ("four_eyes_required", .bool a.fourEyesRequired),
    ("input_digest", .str a.inputDigest), ("job_id", .str a.jobId),
    ("operation", .str a.operation), ("policy_revision", .int a.policyRevision),
    ("requested_by", .str a.requestedBy), ("schema", .int 1), ("target_tier", .int a.targetTier)]

/-- The fields of an approval document. -/
def Approval.read (v : Value) : Option Approval := do
  let jobId ← v.str? "job_id"
  let inputDigest ← v.str? "input_digest"
  let deviceUri ← v.str? "device_uri"
  let domainGuid ← v.str? "domain_guid"
  let targetTier ← v.int? "target_tier"
  let operation ← v.str? "operation"
  let requestedBy ← v.str? "requested_by"
  let approvedBy ← v.str? "approved_by"
  let approvedAt ← v.str? "approved_at"
  let expiresAt ← v.str? "expires_at"
  let policyRevision ← v.int? "policy_revision"
  let fourEyesRequired ← v.bool? "four_eyes_required"
  pure { jobId, inputDigest, deviceUri, domainGuid, targetTier, operation, requestedBy,
         approvedBy, approvedAt, expiresAt, policyRevision, fourEyesRequired }

/-- Read an approval document that has exactly an approval's members. -/
def Approval.decode : Value → Option Approval := Value.exactly Approval.toJson Approval.read

theorem Approval.decode_eq_some {v : Value} {a : Approval} :
    Approval.decode v = some a ↔ v = a.toJson :=
  exactly_eq_some fun a => by
    simp [Approval.read, Approval.toJson, str?, int?, bool?, get?,
      List.lookup]

/-- Whether a job is approved in the portal. -/
def Job.portalMode : Job → Bool
  | .pilot _ portal => portal
  | .managed j => j.approvalMode == "portal"

/-- One hour before the end of the job until its end. -/
def approvedInTime (approvedAt expiresAt : String) : Bool :=
  match expiry? approvedAt, expiry? expiresAt with
  | some approved, some expires =>
    decide (approved < expires) && decide (expires - seconds 3600 ≤ approved)
  | _, _ => false

/-- The structural checks of an approval against its job and device. -/
def Approval.valid (a : Approval) (job : Job) (uri : String) : Bool :=
  job.portalMode && clean uri 512 && a.deviceUri == uri && positive a.policyRevision &&
    a.targetTier == job.core.targetTier && a.jobId == job.core.jobId &&
    a.inputDigest == job.core.inputDigest && a.domainGuid == job.core.domainGuid &&
    a.operation == job.core.operation.text && a.expiresAt == job.core.expiresAt &&
    principal a.requestedBy && principal a.approvedBy &&
    !(a.fourEyesRequired && a.requestedBy == a.approvedBy) &&
    approvedInTime a.approvedAt job.core.expiresAt

/-- The approval error. -/
def invalidApproval : Exn := operationError "gpo_portal_approval_invalid"

/-- `parse_portal_approval`: stays valid for historical receipts. -/
def parsePortalApproval (value : Value) (job : Job) (uri : String) : Except Exn Approval :=
  match (Approval.decode value).filter (·.valid job uri) with
  | some a => .ok a
  | none => .error invalidApproval

theorem parsePortalApproval_eq_ok {v : Value} {job : Job} {uri : String} {a : Approval} :
    parsePortalApproval v job uri = .ok a ↔ v = a.toJson ∧ a.valid job uri = true := by
  unfold parsePortalApproval
  have h := Option.filter_eq_some_iff (o := Approval.decode v) (p := fun a => a.valid job uri)
    (a := a)
  rw [← Approval.decode_eq_some, ← h]
  cases (Approval.decode v).filter (·.valid job uri) <;> simp

/-- `unexpired`: the job ends in the future, within its schema's span. -/
def unexpired (job : Job) (now : Time) : Bool :=
  match expiry? job.core.expiresAt with
  | some t => decide (now < t) && decide (t ≤ now + seconds (if job.schema ≥ 3 then 900 else 3600))
  | none => false

def portalApprovalCurrent (a : Approval) (job : Job) (uri : String) (now : Time) : Bool :=
  a.valid job uri && unexpired job now && (expiry? a.approvedAt).any fun t => decide (t ≤ now)

/-! ## Results -/

/-- The statuses of a result. -/
inductive Status where
  | staged | failed | awaitingLocalApproval | awaitingPortalApproval | requiresReconciliation
  | inspected | linked | activated | deactivated | deleted
  deriving DecidableEq

namespace Status

def text : Status → String
  | staged => "staged"
  | failed => "failed"
  | awaitingLocalApproval => "awaiting_local_approval"
  | awaitingPortalApproval => "awaiting_portal_approval"
  | requiresReconciliation => "requires_reconciliation"
  | inspected => "inspected"
  | linked => "linked"
  | activated => "activated"
  | deactivated => "deactivated"
  | deleted => "deleted"

/-- Every status. -/
def all : List Status :=
  [staged, failed, awaitingLocalApproval, awaitingPortalApproval, requiresReconciliation,
    inspected, linked, activated, deactivated, deleted]

def ofText (s : String) : Option Status := all.find? fun st => st.text == s

theorem ofText_text (st : Status) : ofText st.text = some st := by
  cases st <;> decide

end Status

/-- The evidence of an unlinked pilot. -/
structure PilotEvidence where
  computerEnabled : Bool
  userEnabled : Bool
  unlinked : Bool
  domainDnsName : String
  domainGuid : String
  dcFqdn : String
  deriving DecidableEq

/-- The evidence of a managed operation: the state after it. -/
structure ManagedEvidence where
  operation : Operation
  managedId : String
  state : Snapshot
  preparedArtifactSha256 : String
  backupId : String
  backupManifestSha256 : String
  overrideSha256 : Option String
  deriving DecidableEq

/-- The evidence of a result. -/
inductive Evidence where
  | none
  | pilot (evidence : PilotEvidence)
  | managed (evidence : ManagedEvidence)
  deriving DecidableEq

/-- A result. -/
structure Receipt where
  status : Status
  resultCode : String
  gpoGuid : Option String
  evidence : Evidence
  deriving DecidableEq

/-- The document of a pilot's evidence. -/
def PilotEvidence.toJson (e : PilotEvidence) : Value :=
  .obj [("computer_enabled", .bool e.computerEnabled), ("dc_fqdn", .str e.dcFqdn),
    ("domain_dns_name", .str e.domainDnsName), ("domain_guid", .str e.domainGuid),
    ("unlinked", .bool e.unlinked), ("user_enabled", .bool e.userEnabled)]

def ManagedEvidence.schema (e : ManagedEvidence) : Int := if e.overrideSha256.isSome then 4 else 3

/-- The document of managed evidence. -/
def ManagedEvidence.toJson (e : ManagedEvidence) : Value :=
  .obj ([("backup_id", .str e.backupId), ("backup_manifest_sha256", .str e.backupManifestSha256),
    ("managed_id", .str e.managedId), ("operation", .str e.operation.text)] ++
    ((e.overrideSha256.map fun s => ("override_sha256", Value.str s)).toList ++
    [("prepared_artifact_sha256", .str e.preparedArtifactSha256), ("schema", .int e.schema),
    ("state", e.state.toJson)]))

/-- The document of evidence. -/
def Evidence.toJson : Evidence → Value
  | .none => .null
  | .pilot e => e.toJson
  | .managed e => e.toJson

/-- A text or null. -/
def optionalText (s : Option String) : Value := (s.map Value.str).getD .null

/-- The document of a result. -/
def Receipt.toJson (r : Receipt) : Value :=
  .obj [("evidence", r.evidence.toJson), ("gpo_guid", optionalText r.gpoGuid),
    ("result_code", .str r.resultCode), ("status", .str r.status.text)]

/-- The fields of a pilot's evidence. -/
def PilotEvidence.read (v : Value) : Option PilotEvidence := do
  let computerEnabled ← v.bool? "computer_enabled"
  let userEnabled ← v.bool? "user_enabled"
  let unlinked ← v.bool? "unlinked"
  let domainDnsName ← v.str? "domain_dns_name"
  let domainGuid ← v.str? "domain_guid"
  let dcFqdn ← v.str? "dc_fqdn"
  pure { computerEnabled, userEnabled, unlinked, domainDnsName, domainGuid, dcFqdn }

/-- The fields of managed evidence. -/
def ManagedEvidence.read (v : Value) : Option ManagedEvidence := do
  let operation ← Operation.ofText (← v.str? "operation")
  let managedId ← v.str? "managed_id"
  let state ← Snapshot.read (← v.get? "state")
  let preparedArtifactSha256 ← v.str? "prepared_artifact_sha256"
  let backupId ← v.str? "backup_id"
  let backupManifestSha256 ← v.str? "backup_manifest_sha256"
  pure { operation, managedId, state, preparedArtifactSha256, backupId, backupManifestSha256,
         overrideSha256 := v.str? "override_sha256" }

/-- The fields of evidence: managed evidence is what carries a schema. -/
def Evidence.read (v : Value) : Option Evidence :=
  match v with
  | .null => some .none
  | v => if (v.get? "schema").isSome then (ManagedEvidence.read v).map .managed
      else (PilotEvidence.read v).map .pilot

/-- The text under a key that may be null. -/
def readOptionalText (v : Value) (key : String) : Option (Option String) :=
  match v.get? key with
  | some .null => some none
  | some (.str s) => some (some s)
  | _ => none

/-- The fields of a result. -/
def Receipt.read (v : Value) : Option Receipt := do
  let status ← Status.ofText (← v.str? "status")
  let resultCode ← v.str? "result_code"
  let gpoGuid ← readOptionalText v "gpo_guid"
  let evidence ← Evidence.read (← v.get? "evidence")
  pure { status, resultCode, gpoGuid, evidence }

/-- Read a result document that has exactly a result's members. -/
def Receipt.decode : Value → Option Receipt := Value.exactly Receipt.toJson Receipt.read

theorem ManagedEvidence.read_toJson (e : ManagedEvidence) :
    ManagedEvidence.read e.toJson = some e := by
  obtain ⟨op, id, state, artifact, bid, bhash, overrides⟩ := e
  cases overrides <;>
  simp [ManagedEvidence.read, ManagedEvidence.toJson, str?, get?, List.lookup,
    Operation.ofText_text, Snapshot.read_toJson]

theorem Evidence.read_toJson (e : Evidence) : Evidence.read e.toJson = some e := by
  cases e with
  | none => rfl
  | pilot e => rfl
  | managed e =>
    have hschema : (e.toJson.get? "schema").isSome = true := by
      obtain ⟨op, id, state, artifact, bid, bhash, overrides⟩ := e
      cases overrides <;> simp [ManagedEvidence.toJson, get?, List.lookup]
    have hread : Evidence.read e.toJson = if (e.toJson.get? "schema").isSome then
        (ManagedEvidence.read e.toJson).map Evidence.managed
        else (PilotEvidence.read e.toJson).map Evidence.pilot := rfl
    show Evidence.read e.toJson = _
    rw [hread, hschema, ManagedEvidence.read_toJson]
    rfl

theorem Receipt.read_toJson (r : Receipt) : Receipt.read r.toJson = some r := by
  obtain ⟨status, code, guid, evidence⟩ := r
  cases guid <;>
  simp [Receipt.read, Receipt.toJson, optionalText, readOptionalText, str?, get?,
    List.lookup, Status.ofText_text, Evidence.read_toJson]

theorem Receipt.decode_eq_some {v : Value} {r : Receipt} :
    Receipt.decode v = some r ↔ v = r.toJson :=
  exactly_eq_some Receipt.read_toJson

/-! ### Checks -/

/-- The outcome and code each managed operation ends with. -/
def successOutcome : Operation → Option (Status × String)
  | .createUnlinkedPilot => none
  | .inspectManagedGpo => some (.inspected, "gpo_inspected")
  | .importManagedGpo => some (.staged, "gpo_prepared")
  | .importAndLinkManagedGpo | .linkManagedGpo => some (.linked, "gpo_linked")
  | .activateManagedGpo => some (.activated, "gpo_activated")
  | .deactivateManagedGpo => some (.deactivated, "gpo_deactivated")
  | .deleteManagedGpo => some (.deleted, "gpo_deleted")

/-- Operations that write content prepared from an artifact. -/
def Operation.prepares (op : Operation) : Bool := op.isImport || op == .activateManagedGpo

/-- Operations that back the policy up first. -/
def Operation.backsUp (op : Operation) : Bool :=
  op == .activateManagedGpo || op == .deleteManagedGpo

def validManagedResult (r : Receipt) (e : ManagedEvidence) : Bool :=
  e.overrideSha256.all digest && validUuid e.managedId && e.state.valid &&
    successOutcome e.operation == some (r.status, r.resultCode) &&
    (if e.state.guid = "" then
      r.gpoGuid == none && (r.status == .inspected || r.status == .deleted)
     else r.gpoGuid == some e.state.guid) &&
    (if e.operation.prepares then digest e.preparedArtifactSha256
     else e.preparedArtifactSha256 == "") &&
    (if e.backupId = "" then e.backupManifestSha256 == "" && !e.operation.backsUp
     else validUuid e.backupId && digest e.backupManifestSha256 && e.operation.backsUp)

/-- Codes that only a success carries. -/
def successCodes : List String :=
  ["gpo_inspected", "gpo_prepared", "gpo_linked", "gpo_activated", "gpo_deactivated",
    "gpo_deleted", "gpo_staged_unlinked"]

/-- `valid_result`. -/
def Receipt.valid (r : Receipt) : Bool :=
  knownCode r.resultCode &&
    match r.evidence with
    | .managed e => validManagedResult r e
    | .pilot e =>
      r.status == .staged && r.resultCode == "gpo_staged_unlinked" &&
        (r.gpoGuid.any fun id => validUuid id && !protectedGpo id) &&
        !e.computerEnabled && !e.userEnabled && e.unlinked && dns e.domainDnsName &&
        validUuid e.domainGuid && dns e.dcFqdn
    | .none =>
      (r.status == .failed || r.status == .awaitingLocalApproval ||
          r.status == .awaitingPortalApproval || r.status == .requiresReconciliation) &&
        (r.gpoGuid.all fun id => validUuid id && !protectedGpo id) &&
        !successCodes.contains r.resultCode &&
        (r.status != .awaitingLocalApproval || r.resultCode == "gpo_local_approval_required") &&
        (r.status != .awaitingPortalApproval || r.resultCode == "gpo_portal_approval_required") &&
        (r.status == .requiresReconciliation || r.gpoGuid == none)

/-- `result`: a receipt that passes its own checks. -/
def result (status : Status) (code : String) (guid : String := "") (evidence : Evidence := .none) :
    Except Exn Receipt :=
  let r : Receipt :=
    { status, resultCode := code, gpoGuid := if guid = "" then none else some guid, evidence }
  if r.valid then .ok r else .error invalidJob

theorem result_eq_ok {status : Status} {code guid : String} {evidence : Evidence} {r : Receipt} :
    result status code guid evidence = .ok r ↔
      r = { status, resultCode := code, gpoGuid := if guid = "" then none else some guid, evidence }
        ∧ r.valid = true := by
  unfold result
  constructor
  · intro h
    by_cases hv : Receipt.valid
        { status, resultCode := code, gpoGuid := if guid = "" then none else some guid, evidence }
    · simp only [hv, ↓reduceIte, Except.ok.injEq] at h
      exact ⟨h.symm, h ▸ hv⟩
    · simp [hv] at h
  · rintro ⟨rfl, hv⟩
    simp only [hv, ↓reduceIte]

theorem result_failed_provider :
    result .failed "gpo_provider_failed" =
      .ok ⟨.failed, "gpo_provider_failed", none, .none⟩ := by decide

def managedEvidence (j : ManagedJob) (state : Snapshot) (backupId : String := "")
    (backupHash : String := "") : ManagedEvidence :=
  { operation := j.operation, managedId := j.managedId, state,
    preparedArtifactSha256 := if j.operation.prepares then j.artifactSha256 else "",
    backupId, backupManifestSha256 := backupHash,
    overrideSha256 := j.override.map (·.overrideSha256) }

end Ipms.Agent.Gpo
