import Ipms.Agent.Hgs.Contract
import Ipms.Server.Document

/-
  Ipms.Server.Hgs.Contract

  The Host Guardian Service contract of the control plane: the checks of an
  observation, the steps of a node, what blocks a node and what proves a step.
-/

namespace Ipms.Server.Hgs

open Ipms.ManagementJson
open Ipms.Agent.Hgs (Object Operation NodeRole Config Observation)

/-- `reject`. -/
def rejected : ServerError := .validationError "hgs_contract_invalid"

/-! ## Texts -/

/-- `text`: printable ASCII within lengths. -/
def text (s : String) (minimum : Nat := 1) (maximum : Nat := 255) : Bool :=
  decide (minimum ≤ len s) && decide (len s ≤ maximum) &&
    s.toList.all fun c => decide (32 ≤ c.toNat) && decide (c.toNat < 127)

/-- `str.lower`: the letters of ASCII text by themselves, other text by the tables. -/
def lower (unicode : Unicode) (s : String) : String :=
  if s.toList.all fun c => decide (c.toNat < 128) then String.ofList (s.toList.map Char.toLower)
  else unicode.lower s

/-- `.lower().split(".")[0]`. -/
def hostLabel (unicode : Unicode) (s : String) : List Char :=
  (lower unicode s).toList.takeWhile (· ≠ '.')

def readOnly : Operation → Bool
  | .inspect | .verify => true
  | _ => false

def resultCodes : List String :=
  ["hgs_inspected", "hgs_verified", "hgs_step_succeeded", "hgs_reboot_required",
    "hgs_reboot_observed", "hgs_job_expired", "hgs_authority_lost", "hgs_prerequisite_failed",
    "hgs_provider_failed", "hgs_postcondition_failed", "hgs_reconciliation_required",
    "hgs_unsupported_platform"]

def unclaimedFailures : List String :=
  ["hgs_job_expired", "hgs_authority_lost", "hgs_prerequisite_failed", "hgs_provider_failed",
    "hgs_unsupported_platform"]

def nodeSteps (role : NodeRole) : List Operation :=
  [.installRole, .reboot, if role = .primary then .createForest else .joinNode, .reboot,
    .initializeHgs, .verify]

/-! ## Observations -/

/-- `OBSERVATIONS`. -/
def observationKeys : List String :=
  ["is_server", "domain_joined", "role_installed", "service_initialized",
    "signing_certificate_ready", "encryption_certificate_ready", "feature_source_ready",
    "dsrm_secret_ready", "join_secret_ready", "reboot_pending", "service_healthy",
    "key_access_verified", "mode_supported", "offline_source_policy_ready", "os_build",
    "computer_name", "domain_name", "domain_role", "attestation_mode", "boot_id",
    "configured_service_name", "configured_signing_thumbprint", "configured_encryption_thumbprint"]

/-- `[0-9]{1,16}`. -/
def buildNumber (s : String) : Bool :=
  decide (1 ≤ len s) && decide (len s ≤ 16) && s.toList.all Agent.Gpo.digit

/-- `(?:[0-9A-F]{40})?`. -/
def configuredThumbprint (s : String) : Bool := s == "" || Agent.Hgs.thumbprint s

/-- The checks of the members of an observation. -/
def observationValid (o : Observation) : Bool :=
  decide (0 ≤ o.domainRole) && decide (o.domainRole ≤ 5) &&
    (o.attestationMode == "none" || o.attestationMode == "host_key" || o.attestationMode == "tpm") &&
    text o.osBuild 1 16 && text o.computerName 1 255 && text o.domainName 0 253 &&
    text o.bootId 1 64 && buildNumber o.osBuild && text o.configuredServiceName 0 253 &&
    configuredThumbprint o.configuredSigningThumbprint &&
    configuredThumbprint o.configuredEncryptionThumbprint

/-- `validate_observation`, returning the members it read. -/
def validateObservation (value : Value) : Except ServerError Observation :=
  match value with
  | .obj members =>
    if keysAre members observationKeys then
      match Observation.read members with
      | .ok o => if observationValid o then .ok o else .error rejected
      | .error _ => .error rejected
    else .error rejected
  | _ => .error rejected

/-- The service of an observation is the one a configuration describes. -/
def configuredAs (unicode : Unicode) (config : Config) (o : Observation) : Bool :=
  lower unicode o.configuredServiceName == config.serviceName &&
    o.configuredSigningThumbprint == config.signingThumbprint &&
    o.configuredEncryptionThumbprint == config.encryptionThumbprint

def blocker (condition : Bool) (code : String) : List String := if condition then [code] else []

def readinessBlockers (unicode : Unicode) (config : Config) (o : Observation) (hostname : String)
    (role : NodeRole) (initial : Bool) : List String :=
  blocker (initial && o.domainJoined) "fresh_workgroup_node_required" ++
  blocker (!o.isServer || !(o.osBuild == "20348" || o.osBuild == "26100"))
    "unsupported_windows_version" ++
  blocker (hostLabel unicode o.computerName != hostLabel unicode hostname)
    "node_identity_changed" ++
  blocker (o.domainJoined && lower unicode o.domainName != config.domainName)
    "different_domain_membership" ++
  blocker (o.serviceInitialized && o.attestationMode != config.attestationMode)
    "attestation_mode_mismatch" ++
  blocker (o.serviceInitialized && !configuredAs unicode config o) "hgs_configuration_mismatch" ++
  blocker (!o.signingCertificateReady || !o.encryptionCertificateReady)
    "certificate_private_key_unavailable" ++
  blocker (!o.roleInstalled && (!o.featureSourceReady || !o.offlineSourcePolicyReady))
    "offline_feature_source_unavailable" ++
  blocker (decide (o.domainRole < 4) && !o.dsrmSecretReady) "dsrm_secret_unavailable" ++
  blocker (role == .additional && decide (o.domainRole < 4) && !o.joinSecretReady)
    "join_secret_unavailable" ++
  blocker (!o.modeSupported) "provider_unavailable" ++
  blocker (!config.allowReboot && (o.rebootPending || !o.roleInstalled || decide (o.domainRole < 4)))
    "planned_reboot_not_authorized"

/-- The node is a controller of the planned domain. -/
def inDomain (unicode : Unicode) (config : Config) (o : Observation) : Bool :=
  o.domainJoined && lower unicode o.domainName == config.domainName && decide (4 ≤ o.domainRole)

/-- The conditions of `postcondition` on a valid observation. -/
def postconditionHolds (unicode : Unicode) (operation : Operation) (config : Config)
    (o : Observation) : Bool :=
  let ready := !o.rebootPending && o.roleInstalled && inDomain unicode config o &&
    o.serviceInitialized && o.attestationMode == config.attestationMode && o.keyAccessVerified &&
    o.signingCertificateReady && o.encryptionCertificateReady && configuredAs unicode config o
  match operation with
  | .inspect => true
  | .installRole => o.roleInstalled
  | .createForest | .joinNode => inDomain unicode config o
  | .reboot => !o.rebootPending
  | .initializeHgs => ready
  | .verify => ready && o.serviceHealthy && o.keyAccessVerified

def postcondition (unicode : Unicode) (operation : Operation) (config : Config)
    (observation : Value) : Except ServerError Bool := do
  return postconditionHolds unicode operation config (← validateObservation observation)

end Ipms.Server.Hgs
