import Ipms.Server.Hgs.Contract

/-
  Ipms.Server.Hgs.PlanDocument

  The document of a new plan: the checks of each member, and what is read.
-/

namespace Ipms.Server.Hgs

open Ipms.Lib Ipms.ManagementJson
open Ipms.Agent.Hgs (Object)

/-- The `config` of a plan: the members named in `CONFIG_FIELDS`. -/
structure PlanConfig where
  featureSource : String
  signingThumbprint : String
  encryptionThumbprint : String
  dsrmSecretRef : String
  joinSecretRef : String
  allowReboot : Bool
  primaryServer : String
  deriving DecidableEq

/-- The members of a plan document. -/
structure PlanDocument where
  name : String
  profile : String
  attestationMode : String
  domainName : String
  serviceName : String
  config : PlanConfig
  nodeIds : List String
  deriving DecidableEq

def planFields : List String :=
  ["feature_source", "signing_thumbprint", "encryption_thumbprint", "dsrm_secret_ref",
    "join_secret_ref", "allow_reboot", "primary_server", "name", "profile", "attestation_mode",
    "domain_name", "service_name", "node_ids"]

/-! ## The checks of the members -/

/-- `[a-z0-9]`. -/
def lowerAlnum (c : Char) : Bool := decide ('a' ≤ c) && decide (c ≤ 'z') || Agent.Gpo.digit c

/-- `[a-z0-9](?:[a-z0-9-]{0,61}[a-z0-9])?`. -/
def dnsLabel (label : List Char) : Bool :=
  decide (1 ≤ label.length) && decide (label.length ≤ 63) && label.head?.any lowerAlnum &&
    label.getLast?.any lowerAlnum && label.all fun c => lowerAlnum c || c == '-'

def dns (s : String) : Bool :=
  text s 3 253 && s.toList.contains '.' && (s.toList.splitOn '.').all dnsLabel

/-- `[a-z][a-z0-9-]{0,61}[a-z0-9]|[a-z]`. -/
def serviceLabel (s : String) : Bool :=
  dnsLabel s.toList && s.toList.head?.any fun c => !Agent.Gpo.digit c

/-- The checks of `feature_source`. -/
def featureSource (s : String) : Bool :=
  text s 4 240 && match s.toList with
    | drive :: ':' :: '\\' :: rest =>
      Agent.Hgs.letter drive && !rest.isEmpty &&
        !rest.any (fun c => ['<', '>', '"', '|', '?', '*', ':'].contains c) &&
        !s.toList.tails.any ("..".toList).isPrefixOf &&
        !s.toList.any (fun c => ['$', ';', Char.ofNat 96].contains c) &&
        !(s.toList.splitOn '\\').any (· == ['.'])
    | _ => false

/-- `[0-9A-Fa-f]{40}`, returning it in capitals. -/
def thumbprint (s : String) : Option String :=
  if len s = 40 ∧ s.toList.all fun c => Agent.Gpo.lowerHex c.toLower then
    some (String.ofList (s.toList.map Char.toUpper))
  else none

/-- `[A-Za-z0-9_-]{0,64}`. -/
def secretRef (s : String) : Bool :=
  decide (len s ≤ 64) &&
    s.toList.all fun c => Agent.Hgs.letter c || Agent.Gpo.digit c || c == '_' || c == '-'

/-- The texts of a list of identifiers. -/
def identifiers (items : List Value) : Option (List String) := items.mapM uuidValue

/-- The checks of a plan document's values; `usableAddress` is whether `ipaddress.ip_address`
accepts a text, and what it returns is neither unspecified, loopback nor multicast. -/
def planValid (usableAddress : String → Bool) (d : PlanDocument) : Bool :=
  text d.name 1 128 && d.name.toList.head? != some ' ' && d.name.toList.getLast? != some ' ' &&
    (d.profile == "vtpm" || d.profile == "shielded") &&
    (d.attestationMode == "host_key" || d.attestationMode == "tpm") &&
    (d.profile != "shielded" || d.attestationMode == "tpm") &&
    dns d.domainName && decide ((d.domainName.toList.takeWhile (· ≠ '.')).length ≤ 15) &&
    text d.serviceName 1 63 && serviceLabel d.serviceName && featureSource d.config.featureSource &&
    d.config.signingThumbprint != d.config.encryptionThumbprint &&
    secretRef d.config.dsrmSecretRef && secretRef d.config.joinSecretRef &&
    d.config.dsrmSecretRef != "" && decide (1 ≤ d.nodeIds.length) && decide (d.nodeIds.length ≤ 8) &&
    decide d.nodeIds.Nodup && text d.config.primaryServer 0 45 &&
    !d.config.primaryServer.toList.contains '%' &&
    (d.config.primaryServer == "" || usableAddress d.config.primaryServer) &&
    (decide (d.nodeIds.length ≤ 1) ||
      (d.config.primaryServer != "" && d.config.joinSecretRef != ""))

/-- Read the members of a plan document. -/
def PlanDocument.read (v : Value) : Option PlanDocument := do
  let nodeIds ← match ← v.get? "node_ids" with
    | .arr items => identifiers items
    | _ => none
  return {
    name := ← v.str? "name"
    profile := ← v.str? "profile"
    attestationMode := ← v.str? "attestation_mode"
    domainName := ← v.str? "domain_name"
    serviceName := ← v.str? "service_name"
    config := {
      featureSource := ← v.str? "feature_source"
      signingThumbprint := ← thumbprint (← v.str? "signing_thumbprint")
      encryptionThumbprint := ← thumbprint (← v.str? "encryption_thumbprint")
      dsrmSecretRef := ← v.str? "dsrm_secret_ref"
      joinSecretRef := ← v.str? "join_secret_ref"
      allowReboot := ← v.bool? "allow_reboot"
      primaryServer := ← v.str? "primary_server" }
    nodeIds := nodeIds }

def validatePlan (usableAddress : String → Bool) (document : Value) :
    Except ServerError PlanDocument :=
  match document with
  | .obj members =>
    if keysAre members planFields then
      match (PlanDocument.read document).filter (planValid usableAddress) with
      | some d => .ok d
      | none => .error rejected
    else .error rejected
  | _ => .error rejected

end Ipms.Server.Hgs
