import Ipms.Lib.Fallible
import Ipms.Agent.Gpo.Text
import Ipms.ManagementJson.Value

/-
  Ipms.Agent.Hgs.Contract

  The Host Guardian Service contract of the agent: the assignment of a step, the
  observation of a node, the result of a step, and the conditions a step has
  before and after it.
-/

namespace Ipms.Agent.Hgs

open Ipms.Lib Ipms.ManagementJson Value

/-- A JSON object, as its members in key order. -/
abbrev Object := List (String × Value)

/-- `error("hgs_contract_invalid")`. -/
def contractInvalid : Exn := ⟨"hgs_contract_invalid"⟩

/-- `error("hgs_observation_invalid")`. -/
def observationInvalid : Exn := ⟨"hgs_observation_invalid"⟩

/-! ## Texts -/

/-- Printable ASCII text within a length. -/
def safeText (s : String) (maximum : Nat) (empty : Bool := false) : Bool :=
  (empty || s != "") && decide (Gpo.size s ≤ maximum) &&
    s.toList.all fun c => decide (32 ≤ c.toNat) && decide (c.toNat < 127)

def label (s : String) : Bool := Gpo.dnsLabel s.toList

/-- `dns`: labels with at least one dot between them. -/
def dns (s : String) : Bool :=
  decide (Gpo.size s ≤ 253) && s.toList.contains '.' && (s.toList.splitOn '.').all Gpo.dnsLabel

/-- An uppercase hexadecimal digit. -/
def upperHex (c : Char) : Bool :=
  decide ('0' ≤ c) && decide (c ≤ '9') || decide ('A' ≤ c) && decide (c ≤ 'F')

/-- A certificate thumbprint: `hex(s, 40, true)`. -/
def thumbprint (s : String) : Bool := s.toList.length == 40 && s.toList.all upperHex

/-- A reference to a secret. -/
def reference (s : String) (empty : Bool := false) : Bool :=
  (empty || s != "") && decide (Gpo.size s ≤ 64) && s.toList.all fun c =>
    (decide ('a' ≤ c) && decide (c ≤ 'z')) || (decide ('A' ≤ c) && decide (c ≤ 'Z')) ||
      Gpo.digit c || c == '-' || c == '_'

/-- A letter of the Latin alphabet. -/
def letter (c : Char) : Bool :=
  (decide ('a' ≤ c) && decide (c ≤ 'z')) || (decide ('A' ≤ c) && decide (c ≤ 'Z'))

/-- A character no source path may have. -/
def unsafePathChar (c : Char) : Bool :=
  c == '"' || c == '<' || c == '>' || c == '|' || c == '?' || c == '*' || c == '$' || c == ';' ||
    c == Char.ofNat 96 || c == '\r' || c == '\n'

/-- A path below a drive, without alternate streams, wildcards and parent directories. -/
def sourcePath (s : String) : Bool :=
  safeText s 240 && match s.toList with
    | drive :: ':' :: '\\' :: rest =>
      !rest.isEmpty && letter drive && !rest.contains ':' &&
        !s.toList.any unsafePathChar && !s.toList.tails.any ("..".toList).isPrefixOf
    | _ => false

/-- A digit or separator of an address. -/
def addressChar (c : Char) : Bool :=
  Gpo.digit c || (decide ('a' ≤ c) && decide (c ≤ 'f')) || (decide ('A' ≤ c) && decide (c ≤ 'F')) ||
    c == '.' || c == ':'

/-- The URI of an agent. -/
def deviceUri (s : String) : Bool :=
  "urn:ipms:agent:".toList.isPrefixOf s.toList && Gpo.validUuid (String.ofList (s.toList.drop 15))

/-! ## Assignments -/

/-- The operations of a step. -/
inductive Operation where
  | inspect | installRole | createForest | joinNode | initializeHgs | verify | reboot
  deriving DecidableEq

/-- The contract name of an operation. -/
def Operation.text : Operation → String
  | inspect => "inspect"
  | installRole => "install_role"
  | createForest => "create_forest"
  | joinNode => "join_node"
  | initializeHgs => "initialize"
  | verify => "verify"
  | reboot => "reboot"

/-- The operation of a contract name. -/
def Operation.ofText? (s : String) : Option Operation :=
  [inspect, installRole, createForest, joinNode, initializeHgs, verify, reboot].find? (·.text == s)

theorem Operation.ofText_text (op : Operation) : ofText? op.text = some op := by
  cases op <;> decide

/-- The operations that change nothing. -/
def Operation.readOnly : Operation → Bool
  | inspect | verify => true
  | _ => false

/-- The roles of a node. -/
inductive NodeRole where
  | primary | additional
  deriving DecidableEq

/-- The contract name of a role. -/
def NodeRole.text : NodeRole → String
  | primary => "primary"
  | additional => "additional"

/-- The role of a contract name. -/
def NodeRole.ofText? (s : String) : Option NodeRole := [primary, additional].find? (·.text == s)

theorem NodeRole.ofText_text (role : NodeRole) : ofText? role.text = some role := by
  cases role <;> decide

/-- The configuration of a step. -/
structure Config where
  profile : String
  attestationMode : String
  domainName : String
  serviceName : String
  featureSource : String
  signingThumbprint : String
  encryptionThumbprint : String
  dsrmSecretRef : String
  joinSecretRef : String
  allowReboot : Bool
  nodeRole : NodeRole
  primaryServer : String
  deriving DecidableEq

/-- The assignment of a step. -/
structure Job where
  jobId : String
  deploymentId : String
  tenantId : String
  enrollmentId : String
  deviceUri : String
  planDigest : String
  operation : Operation
  config : Config
  expiresAt : Int
  deriving DecidableEq

/-- The document of a configuration. -/
def Config.toJson (c : Config) : Value :=
  .obj [("allow_reboot", .bool c.allowReboot), ("attestation_mode", .str c.attestationMode),
    ("domain_name", .str c.domainName), ("dsrm_secret_ref", .str c.dsrmSecretRef),
    ("encryption_thumbprint", .str c.encryptionThumbprint), ("feature_source", .str c.featureSource),
    ("join_secret_ref", .str c.joinSecretRef), ("node_role", .str c.nodeRole.text),
    ("primary_server", .str c.primaryServer), ("profile", .str c.profile),
    ("service_name", .str c.serviceName), ("signing_thumbprint", .str c.signingThumbprint)]

/-- The document of an assignment. -/
def Job.toJson (j : Job) : Value :=
  .obj [("config", j.config.toJson), ("deployment_id", .str j.deploymentId),
    ("device_uri", .str j.deviceUri), ("enrollment_id", .str j.enrollmentId),
    ("expires_at", .int j.expiresAt), ("job_id", .str j.jobId),
    ("operation", .str j.operation.text), ("plan_digest", .str j.planDigest),
    ("schema_version", .int 1), ("tenant_id", .str j.tenantId)]

/-- Read the fields of a configuration. -/
def Config.read (v : Value) : Option Config := do
  return {
    profile := ← v.str? "profile"
    attestationMode := ← v.str? "attestation_mode"
    domainName := ← v.str? "domain_name"
    serviceName := ← v.str? "service_name"
    featureSource := ← v.str? "feature_source"
    signingThumbprint := ← v.str? "signing_thumbprint"
    encryptionThumbprint := ← v.str? "encryption_thumbprint"
    dsrmSecretRef := ← v.str? "dsrm_secret_ref"
    joinSecretRef := ← v.str? "join_secret_ref"
    allowReboot := ← v.bool? "allow_reboot"
    nodeRole := ← NodeRole.ofText? (← v.str? "node_role")
    primaryServer := ← v.str? "primary_server" }

/-- Read the fields of an assignment. -/
def Job.read (v : Value) : Option Job := do
  return {
    jobId := ← v.str? "job_id"
    deploymentId := ← v.str? "deployment_id"
    tenantId := ← v.str? "tenant_id"
    enrollmentId := ← v.str? "enrollment_id"
    deviceUri := ← v.str? "device_uri"
    planDigest := ← v.str? "plan_digest"
    operation := ← Operation.ofText? (← v.str? "operation")
    config := ← Config.read (← v.get? "config")
    expiresAt := ← v.int? "expires_at" }

/-- The checks of a configuration. -/
def Config.valid (c : Config) : Bool :=
  (c.profile == "vtpm" || c.profile == "shielded") &&
    (c.attestationMode == "host_key" || c.attestationMode == "tpm") &&
    (c.profile != "shielded" || c.attestationMode == "tpm") &&
    dns c.domainName && label c.serviceName && sourcePath c.featureSource &&
    thumbprint c.signingThumbprint && thumbprint c.encryptionThumbprint &&
    c.signingThumbprint != c.encryptionThumbprint &&
    reference c.dsrmSecretRef && reference c.joinSecretRef true &&
    (match c.nodeRole with
      | .primary => c.primaryServer == ""
      | .additional => c.joinSecretRef != "" && c.primaryServer != "" &&
          decide (Gpo.size c.primaryServer ≤ 45) && c.primaryServer.toList.all addressChar)

/-- The checks of an assignment. -/
def Job.valid (j : Job) : Bool :=
  Gpo.validUuid j.jobId && Gpo.validUuid j.deploymentId && Gpo.validUuid j.tenantId &&
    Gpo.validUuid j.enrollmentId && Hgs.deviceUri j.deviceUri && Gpo.digest j.planDigest &&
    j.config.valid &&
    (j.operation != .createForest || j.config.nodeRole == .primary) &&
    (j.operation != .joinNode || j.config.nodeRole == .additional) && decide (0 < j.expiresAt)

/-- `parse_job`: exactly the members of an assignment, and the checks of each. -/
def parseJob (input : Value) : Except Exn Job :=
  match (Value.exactly Job.toJson Job.read input).filter Job.valid with
  | some job => .ok job
  | none => .error contractInvalid

theorem Config.read_toJson (c : Config) : Config.read c.toJson = some c := by
  simp [Config.read, Config.toJson, str?, bool?, get?, List.lookup,
    NodeRole.ofText_text]

theorem Job.read_toJson (j : Job) : Job.read j.toJson = some j := by
  simp [Job.read, Job.toJson, str?, int?, get?, List.lookup,
    Operation.ofText_text, Config.read_toJson]

theorem parseJob_eq_ok {v : Value} {job : Job} :
    parseJob v = .ok job ↔ v = job.toJson ∧ job.valid = true := by
  unfold parseJob
  have hfilter : (exactly Job.toJson Job.read v).filter Job.valid = some job ↔
      v = job.toJson ∧ job.valid = true := by
    rw [Option.filter_eq_some_iff, exactly_eq_some Job.read_toJson]
  rw [← hfilter]
  cases (exactly Job.toJson Job.read v).filter Job.valid <;> simp

def unexpired (j : Job) (now : Int) : Bool := decide (now < j.expiresAt)

def boundTo (j : Job) (uri : String) : Bool := j.deviceUri == uri

/-! ## Observations -/

def text (o : Object) (key : String) : Except Exn String := do (← (Value.obj o).at! key).asStr

def flag (o : Object) (key : String) : Except Exn Bool := do (← (Value.obj o).at! key).asBool

def number (o : Object) (key : String) : Except Exn Int := do (← (Value.obj o).at! key).asInt

/-- The observation of a node. -/
structure Observation where
  osBuild : String
  isServer : Bool
  computerName : String
  domainName : String
  domainJoined : Bool
  domainRole : Int
  roleInstalled : Bool
  serviceInitialized : Bool
  attestationMode : String
  signingCertificateReady : Bool
  encryptionCertificateReady : Bool
  featureSourceReady : Bool
  dsrmSecretReady : Bool
  joinSecretReady : Bool
  rebootPending : Bool
  bootId : String
  serviceHealthy : Bool
  keyAccessVerified : Bool
  modeSupported : Bool
  offlineSourcePolicyReady : Bool
  configuredServiceName : String
  configuredSigningThumbprint : String
  configuredEncryptionThumbprint : String
  deriving DecidableEq

/-- Read the members of an observation. -/
def Observation.read (o : Object) : Except Exn Observation := do
  return {
    osBuild := ← text o "os_build"
    isServer := ← flag o "is_server"
    computerName := ← text o "computer_name"
    domainName := ← text o "domain_name"
    domainJoined := ← flag o "domain_joined"
    domainRole := ← number o "domain_role"
    roleInstalled := ← flag o "role_installed"
    serviceInitialized := ← flag o "service_initialized"
    attestationMode := ← text o "attestation_mode"
    signingCertificateReady := ← flag o "signing_certificate_ready"
    encryptionCertificateReady := ← flag o "encryption_certificate_ready"
    featureSourceReady := ← flag o "feature_source_ready"
    dsrmSecretReady := ← flag o "dsrm_secret_ready"
    joinSecretReady := ← flag o "join_secret_ready"
    rebootPending := ← flag o "reboot_pending"
    bootId := ← text o "boot_id"
    serviceHealthy := ← flag o "service_healthy"
    keyAccessVerified := ← flag o "key_access_verified"
    modeSupported := ← flag o "mode_supported"
    offlineSourcePolicyReady := ← flag o "offline_source_policy_ready"
    configuredServiceName := ← text o "configured_service_name"
    configuredSigningThumbprint := ← text o "configured_signing_thumbprint"
    configuredEncryptionThumbprint := ← text o "configured_encryption_thumbprint" }

/-- The members of an observation. -/
def observationNames : List String :=
  ["os_build", "is_server", "computer_name", "domain_name", "domain_joined", "domain_role",
    "role_installed", "service_initialized", "attestation_mode", "signing_certificate_ready",
    "encryption_certificate_ready", "feature_source_ready", "dsrm_secret_ready",
    "join_secret_ready", "reboot_pending", "boot_id", "service_healthy", "key_access_verified",
    "mode_supported", "offline_source_policy_ready", "configured_service_name",
    "configured_signing_thumbprint", "configured_encryption_thumbprint"]

/-- The number of members of an observation. -/
def observationSize : Nat := 23

/-! ### Reading an observation -/

variable {key : String} {o : Object}

theorem text_get {s : String} (h : text o key = .ok s) : ∃ v, (obj o).get? key = some v := by
  obtain ⟨v, hv, _⟩ := bind_eq_ok.mp h
  exact ⟨v, at!_eq_ok.mp hv⟩

theorem flag_get {b : Bool} (h : flag o key = .ok b) : ∃ v, (obj o).get? key = some v := by
  obtain ⟨v, hv, _⟩ := bind_eq_ok.mp h
  exact ⟨v, at!_eq_ok.mp hv⟩

variable {β : Type} {b : β}

theorem member_bind {α : Type} {as : Value → Except Exn α} {f : α → Except Exn β}
    (h : ((do as (← (obj o).at! key)) >>= f) = .ok b) :
    (∃ v, (obj o).get? key = some v) ∧ ∃ a, f a = .ok b := by
  obtain ⟨a, hread, hrest⟩ := bind_eq_ok.mp h
  obtain ⟨v, hv, _⟩ := bind_eq_ok.mp hread
  exact ⟨⟨v, at!_eq_ok.mp hv⟩, a, hrest⟩

theorem text_bind {f : String → Except Exn β} (h : (text o key >>= f) = .ok b) :
    (∃ v, (obj o).get? key = some v) ∧ ∃ a, f a = .ok b := member_bind h

theorem flag_bind {f : Bool → Except Exn β} (h : (flag o key >>= f) = .ok b) :
    (∃ v, (obj o).get? key = some v) ∧ ∃ a, f a = .ok b := member_bind h

theorem number_bind {f : Int → Except Exn β} (h : (number o key >>= f) = .ok b) :
    (∃ v, (obj o).get? key = some v) ∧ ∃ a, f a = .ok b := member_bind h

/-- What is known of the members of an observation that was read. -/
structure Members (members : Object) (o : Observation) : Prop where
  names : ∀ name ∈ observationNames, ∃ v, (Value.obj members).get? name = some v
  osBuild : text members "os_build" = .ok o.osBuild
  rebootPending : flag members "reboot_pending" = .ok o.rebootPending
  bootId : text members "boot_id" = .ok o.bootId

/-- An observation that is read has every member. -/
theorem read_members {members : Object} {o : Observation} (h : Observation.read members = .ok o) :
    Members members o := by
  unfold Observation.read at h
  obtain ⟨build, hbuild, h⟩ := bind_eq_ok.mp h
  obtain ⟨h₂, _, h⟩ := flag_bind h
  obtain ⟨h₃, _, h⟩ := text_bind h
  obtain ⟨h₄, _, h⟩ := text_bind h
  obtain ⟨h₅, _, h⟩ := flag_bind h
  obtain ⟨h₆, _, h⟩ := number_bind h
  obtain ⟨h₇, _, h⟩ := flag_bind h
  obtain ⟨h₈, _, h⟩ := flag_bind h
  obtain ⟨h₉, _, h⟩ := text_bind h
  obtain ⟨h₁₀, _, h⟩ := flag_bind h
  obtain ⟨h₁₁, _, h⟩ := flag_bind h
  obtain ⟨h₁₂, _, h⟩ := flag_bind h
  obtain ⟨h₁₃, _, h⟩ := flag_bind h
  obtain ⟨h₁₄, _, h⟩ := flag_bind h
  obtain ⟨pending, hpending, h⟩ := bind_eq_ok.mp h
  obtain ⟨boot, hboot, h⟩ := bind_eq_ok.mp h
  obtain ⟨h₁₇, _, h⟩ := flag_bind h
  obtain ⟨h₁₈, _, h⟩ := flag_bind h
  obtain ⟨h₁₉, _, h⟩ := flag_bind h
  obtain ⟨h₂₀, _, h⟩ := flag_bind h
  obtain ⟨h₂₁, _, h⟩ := text_bind h
  obtain ⟨h₂₂, _, h⟩ := text_bind h
  obtain ⟨h₂₃, _, h⟩ := text_bind h
  have h₁ := text_get hbuild
  have h₁₅ := flag_get hpending
  have h₁₆ := text_get hboot
  rw [← pure_eq_ok.mp h]
  refine ⟨fun name hname => ?_, hbuild, hpending, hboot⟩
  simp only [observationNames, List.mem_cons, List.not_mem_nil, or_false] at hname
  rcases hname with rfl | rfl | rfl | rfl | rfl | rfl | rfl | rfl | rfl | rfl | rfl | rfl | rfl |
    rfl | rfl | rfl | rfl | rfl | rfl | rfl | rfl | rfl | rfl
  all_goals assumption

/-- The checks of the members of an observation. -/
def Observation.valid (o : Observation) : Bool :=
  safeText o.osBuild 12 && safeText o.computerName 63 && safeText o.domainName 253 true &&
    safeText o.bootId 64 && decide (0 ≤ o.domainRole) && decide (o.domainRole ≤ 5) &&
    (o.attestationMode == "none" || o.attestationMode == "host_key" || o.attestationMode == "tpm") &&
    safeText o.configuredServiceName 253 true &&
    (o.configuredSigningThumbprint == "" || thumbprint o.configuredSigningThumbprint) &&
    (o.configuredEncryptionThumbprint == "" || thumbprint o.configuredEncryptionThumbprint)

/-- `validate_observation`, returning the members it read. -/
def validateObservation (o : Object) : Except Exn Observation :=
  if o.length ≠ observationSize then .error observationInvalid
  else match Observation.read o with
    | .ok observed => if observed.valid then .ok observed else .error observationInvalid
    | .error _ => .error observationInvalid

theorem validateObservation_eq_ok {members : Object} {o : Observation} :
    validateObservation members = .ok o ↔
      members.length = observationSize ∧ Observation.read members = .ok o ∧ o.valid = true := by
  unfold validateObservation
  by_cases hlength : members.length = observationSize
  · rw [if_neg (not_not_intro hlength)]
    cases hread : Observation.read members with
    | error e => exact ⟨fun h => (nomatch h), fun h => nomatch h.2.1⟩
    | ok o' =>
      by_cases hvalid : o'.valid = true
      · dsimp only
        rw [if_pos hvalid]
        constructor
        · intro h
          cases h
          exact ⟨hlength, rfl, hvalid⟩
        · exact fun h => h.2.1
      · dsimp only
        rw [if_neg hvalid]
        constructor
        · exact fun h => nomatch h
        · rintro ⟨_, hsame, h⟩
          cases hsame
          exact absurd h hvalid
  · rw [if_pos hlength]
    exact ⟨fun h => (nomatch h), fun h => absurd h.1 hlength⟩

def validObservation (o : Object) : Bool := (validateObservation o).isOk

/-! ## Results -/

/-- The statuses of a result. -/
inductive Status where
  | succeeded | failed | reconciliationRequired | rebootRequired
  deriving DecidableEq

/-- The contract name of a status. -/
def Status.text : Status → String
  | succeeded => "succeeded"
  | failed => "failed"
  | reconciliationRequired => "reconciliation_required"
  | rebootRequired => "reboot_required"

/-- The status of a contract name. -/
def Status.ofText? (s : String) : Option Status :=
  [succeeded, failed, reconciliationRequired, rebootRequired].find? (·.text == s)

theorem Status.ofText_text (status : Status) : ofText? status.text = some status := by
  cases status <;> decide

/-- Every code a result may carry. -/
def resultCodes : List String :=
  ["hgs_inspected", "hgs_verified", "hgs_step_succeeded", "hgs_reboot_required",
    "hgs_reboot_observed", "hgs_job_expired", "hgs_authority_lost", "hgs_prerequisite_failed",
    "hgs_provider_failed", "hgs_postcondition_failed", "hgs_reconciliation_required",
    "hgs_unsupported_platform"]

/-- The result of a step. -/
structure Receipt where
  status : Status
  resultCode : String
  observation : Object
  deriving DecidableEq

/-- The members of a result. -/
def Receipt.members (r : Receipt) : Object :=
  [("observation", .obj r.observation), ("result_code", .str r.resultCode),
    ("status", .str r.status.text)]

/-- The document of a result. -/
def Receipt.toJson (r : Receipt) : Value := .obj r.members

/-- Read the fields of a result. -/
def Receipt.read (v : Value) : Option Receipt := do
  match ← v.get? "observation" with
  | .obj observed =>
    return {
      status := ← Status.ofText? (← v.str? "status")
      resultCode := ← v.str? "result_code"
      observation := observed }
  | _ => none

theorem Receipt.read_toJson (r : Receipt) : Receipt.read r.toJson = some r := by
  simp [Receipt.read, Receipt.toJson, Receipt.members, str?, get?, List.lookup,
    Status.ofText_text]

/-- The checks of a result: only a failure may come without an observation. -/
def Receipt.valid (r : Receipt) : Bool :=
  resultCodes.contains r.resultCode && (r.observation == [] || validObservation r.observation) &&
    (r.observation != [] || r.status == .failed || r.status == .reconciliationRequired)

/-- `validate_result`, returning the result it read. -/
def validateResult (v : Value) : Except Exn Receipt :=
  match (Value.exactly Receipt.toJson Receipt.read v).filter Receipt.valid with
  | some r => .ok r
  | none => .error contractInvalid

theorem validateResult_eq_ok {v : Value} {r : Receipt} :
    validateResult v = .ok r ↔ v = r.toJson ∧ r.valid = true := by
  unfold validateResult
  have hfilter : (exactly Receipt.toJson Receipt.read v).filter Receipt.valid = some r ↔
      v = r.toJson ∧ r.valid = true := by
    rw [Option.filter_eq_some_iff, exactly_eq_some Receipt.read_toJson]
  rw [← hfilter]
  cases (exactly Receipt.toJson Receipt.read v).filter Receipt.valid <;> simp

def result (status : Status) (code : String) (observed : Object := []) : Except Exn Receipt :=
  let r : Receipt := ⟨status, code, observed⟩
  if r.valid then .ok r else .error contractInvalid

theorem result_eq_ok {status : Status} {code : String} {observed : Object} {r : Receipt} :
    result status code observed = .ok r ↔ r = ⟨status, code, observed⟩ ∧ r.valid = true := by
  unfold result
  by_cases h : (⟨status, code, observed⟩ : Receipt).valid = true
  · rw [if_pos h, Except.ok.injEq]
    constructor
    · rintro rfl
      exact ⟨rfl, h⟩
    · exact fun heq => heq.1.symm
  · rw [if_neg h]
    simp only [reduceCtorEq, false_iff, not_and]
    rintro rfl
    exact h

/-! ## Conditions of a step -/

/-- The service of an observation is the one a configuration describes. -/
def configuredAs (c : Config) (o : Observation) : Bool :=
  o.configuredServiceName == c.serviceName && o.configuredSigningThumbprint == c.signingThumbprint &&
    o.configuredEncryptionThumbprint == c.encryptionThumbprint

/-- The node is a controller of the planned domain. -/
def inDomain (c : Config) (o : Observation) : Bool :=
  o.domainJoined && o.domainName == c.domainName && decide (4 ≤ o.domainRole)

/-- The conditions of `prerequisites` on a valid observation. -/
def prerequisitesHold (j : Job) (o : Observation) : Bool :=
  let c := j.config
  let op := j.operation
  if op = .inspect then true
  else if !o.isServer || (o.osBuild != "20348" && o.osBuild != "26100") || !o.modeSupported then false
  else if o.serviceInitialized && o.attestationMode != c.attestationMode then false
  else if o.serviceInitialized && (op == .initializeHgs || op == .verify) && !configuredAs c o then false
  else if op = .reboot then !o.rebootPending || c.allowReboot
  else if op = .installRole then
    o.featureSourceReady && o.offlineSourcePolicyReady && !o.domainJoined
  else if o.rebootPending then false
  else if op = .createForest ∨ op = .joinNode then
    o.roleInstalled && !o.domainJoined && o.dsrmSecretReady && (op != .joinNode || o.joinSecretReady)
  else o.roleInstalled && inDomain c o && o.signingCertificateReady && o.encryptionCertificateReady

def prerequisites (j : Job) (o : Object) : Except Exn Bool := do
  return prerequisitesHold j (← validateObservation o)

/-- The conditions of `postcondition` for initialize and verify. -/
def serviceReady (j : Job) (o : Observation) : Bool :=
  let c := j.config
  o.roleInstalled && o.serviceInitialized && o.attestationMode == c.attestationMode &&
    inDomain c o && !o.rebootPending && o.signingCertificateReady && o.encryptionCertificateReady &&
    configuredAs c o && o.keyAccessVerified &&
    (j.operation != .verify || (o.serviceHealthy && o.keyAccessVerified && !o.rebootPending))

def postcondition (j : Job) (before after : Object) : Except Exn Bool := do
  let o ← validateObservation after
  match j.operation with
  | .inspect => return true
  | .reboot =>
    if before = [] then return false
    else return (← text before "boot_id") != o.bootId && !o.rebootPending
  | .installRole => return o.roleInstalled
  | .createForest | .joinNode => return inDomain j.config o
  | .initializeHgs | .verify => return serviceReady j o

/-! ## A sample step -/

/-- A sample configuration. -/
def sampleConfig : Config where
  profile := "vtpm"
  attestationMode := "tpm"
  domainName := "g.h"
  serviceName := "s"
  featureSource := "C:\\s"
  signingThumbprint := String.ofList (List.replicate 40 'A')
  encryptionThumbprint := String.ofList (List.replicate 40 'B')
  dsrmSecretRef := "d"
  joinSecretRef := ""
  allowReboot := true
  nodeRole := .primary
  primaryServer := ""

/-- A sample identifier. -/
def sampleUuid : String := "00000000-0000-4000-8000-000000000000"

/-- A sample assignment of an operation. -/
def sampleJob (op : Operation) : Job where
  jobId := sampleUuid
  deploymentId := sampleUuid
  tenantId := sampleUuid
  enrollmentId := sampleUuid
  deviceUri := "urn:ipms:agent:00000000-0000-4000-8000-000000000000"
  planDigest := String.ofList (List.replicate 64 '0')
  operation := op
  config := sampleConfig
  expiresAt := 1

/-- A sample observation, with a reboot pending or not. -/
def sampleObservation (pending : Bool) (build : String := "20348") : Object :=
  [("attestation_mode", .str "none"), ("boot_id", .str "b"), ("computer_name", .str "n"),
    ("configured_encryption_thumbprint", .str ""), ("configured_service_name", .str ""),
    ("configured_signing_thumbprint", .str ""), ("domain_joined", .bool false),
    ("domain_name", .str ""), ("domain_role", .int 2), ("dsrm_secret_ready", .bool true),
    ("encryption_certificate_ready", .bool true), ("feature_source_ready", .bool true),
    ("is_server", .bool true), ("join_secret_ready", .bool true),
    ("key_access_verified", .bool false), ("mode_supported", .bool true),
    ("offline_source_policy_ready", .bool true), ("os_build", .str build),
    ("reboot_pending", .bool pending), ("role_installed", .bool true),
    ("service_healthy", .bool false), ("service_initialized", .bool false),
    ("signing_certificate_ready", .bool true)]

example : (sampleJob .reboot).valid = true := by decide

example : validObservation (sampleObservation true) = true := by decide

end Ipms.Agent.Hgs
