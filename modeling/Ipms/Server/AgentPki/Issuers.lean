import Ipms.Lib.Table
import Ipms.Lib.Transaction
import Ipms.Server.AgentPki.Certificates
import Ipms.Server.Tenancy

/-
  Ipms.Server.AgentPki.Issuers

  The certificate authorities of a tenant's agents.  A tenant configures its PKI
  once; a managed issuer is rotated, rolled back and retired, and agents enroll
  and renew under the issuer that is active.
-/

namespace Ipms.Server.AgentPki

open Ipms.Lib Ipms.Crypto

/-! ## Tables -/

/-- `AgentPkiPolicy.TrustMode`. -/
inductive TrustMode where
  | ipmsManaged | externalIssuingCa | externalCertificates
  deriving DecidableEq

structure AgentPkiPolicy where
  id : String
  tenant : String
  trustMode : TrustMode
  gatewayDnsName : String
  rootCertificate : Certificate
  rootFingerprintSha256 : String
  rootRecoveryExportedAt : Option Time
  certificateLifetimeDays : Nat
  renewalWindowDays : Nat
  deriving DecidableEq

/-- `AgentIssuer.Status`. -/
inductive IssuerStatus where
  | active | overlap | retired
  deriving DecidableEq

structure AgentIssuer where
  id : String
  tenant : String
  policy : String
  status : IssuerStatus
  certificate : Certificate
  chain : List Certificate
  fingerprintSha256 : String
  serialNumber : String
  privateKey : Option SealedKey
  external : Bool
  notBefore : Time
  notAfter : Time
  retiredAt : Option Time
  deriving DecidableEq

structure AgentGatewayIdentity where
  id : String
  tenant : String
  policy : String
  issuer : Option String
  certificate : Certificate
  chain : List Certificate
  fingerprintSha256 : String
  privateKey : SealedKey
  notBefore : Time
  notAfter : Time
  rotatedAt : Option Time
  deriving DecidableEq

/-- `AgentPkiRecoveryMaterial`: the bundle, and the digest it was stored with. -/
structure AgentPkiRecoveryMaterial where
  id : String
  tenant : String
  policy : String
  bundle : RecoveryBundle
  bundleSha256 : String
  downloadedAt : Option Time
  deriving DecidableEq

/-- `AgentEnrollment.Platform`. -/
inductive Platform where
  | windows | linux
  deriving DecidableEq

/-- `AgentEnrollment.Status`. -/
inductive EnrollmentStatus where
  | pending | active | revoked | removed
  deriving DecidableEq

structure AgentEnrollment where
  id : String
  tenant : String
  deviceId : String
  deviceUri : String
  displayName : String
  platform : Platform
  status : EnrollmentStatus
  issuer : Option String
  certificate : Option Certificate
  certificateFingerprintSha256 : String
  certificateSerialNumber : String
  certificateNotBefore : Option Time
  certificateNotAfter : Option Time
  keyAlgorithm : String
  deriving DecidableEq

structure AgentEnrollmentToken where
  tenant : String
  enrollment : String
  tokenDigest : String
  gatewayFingerprintSha256 : String
  expiresAt : Time
  usedAt : Option Time
  createdBy : String
  deriving DecidableEq

structure AgentRevocation where
  tenant : String
  enrollment : String
  certificateSerialNumber : String
  reason : String
  revokedBy : String
  deriving DecidableEq

/-- The tables of the agent PKI. -/
structure Db where
  tenants : Table Tenant String Tenant.id
  policies : Table AgentPkiPolicy String AgentPkiPolicy.id
  issuers : Table AgentIssuer String AgentIssuer.id
  identities : Table AgentGatewayIdentity String AgentGatewayIdentity.id
  materials : Table AgentPkiRecoveryMaterial String AgentPkiRecoveryMaterial.id
  enrollments : Table AgentEnrollment String AgentEnrollment.id
  tokens : Table AgentEnrollmentToken String AgentEnrollmentToken.tokenDigest
  revocations : Table AgentRevocation String AgentRevocation.enrollment

/-- A request: a transaction over the tables. -/
abbrev Request (α : Type) := Txn Db ServerError α

/-- What the code asks of its libraries. -/
structure Library where
  /-- `certificate_fingerprint` -/
  fingerprint : Certificate → String
  /-- the SHA-256 of a recovery bundle -/
  bundleSha256 : RecoveryBundle → String
  /-- the bytes a recovery bundle takes -/
  bundleSize : PrivateKey → Certificate → Nat
  /-- the host name of a network location -/
  hostname : String → Option String

/-- What a request draws at random. -/
structure Draws where
  rootKey : PrivateKey
  issuerKey : PrivateKey
  gatewayKey : PrivateKey
  rootSerial : Nat
  issuerSerial : Nat
  leafSerial : Nat
  policy : String
  issuer : String
  identity : String
  other : String
  token : String
  deriving DecidableEq

/-! ## Rows -/

/-- `objects.get`: the one row that was found. -/
def one {α : Type} (found : List α) : Except ServerError α :=
  match found with
  | [a] => pure a
  | [] => throw .doesNotExist
  | _ => throw .multipleObjectsReturned

/-- A row that exists. -/
def present {α : Type} (found : Option α) : Except ServerError α :=
  match found with
  | some a => pure a
  | none => throw .doesNotExist

/-- Insert a row no other row conflicts with in a unique column. -/
def inserted {α κ : Type} {key : α → κ} [DecidableEq κ] (t : Table α κ key) (conflict : α → Bool)
    (a : α) : Except ServerError (Table α κ key) := do
  throwIf (t.rows.any conflict = true) .integrityError
  match t.insert a with
  | some t => pure t
  | none => throw .integrityError

/-- `AgentPkiPolicy.objects.create`. -/
def createPolicy (policy : AgentPkiPolicy) : Request Unit := do
  let db ← get
  let policies ← Txn.ofExcept (inserted db.policies (fun p => p.tenant == policy.tenant) policy)
  set { db with policies }

/-- The insertion of an issuer: its fingerprint is unique, and its serial number in its tenant. -/
def createIssuer (issuer : AgentIssuer) : Request Unit := do
  let db ← get
  let issuers ← Txn.ofExcept (inserted db.issuers (fun i =>
    i.fingerprintSha256 == issuer.fingerprintSha256 ||
      i.tenant == issuer.tenant && i.serialNumber == issuer.serialNumber) issuer)
  set { db with issuers }

/-- The insertion of a gateway identity: a policy has one, and its fingerprint is unique. -/
def createIdentity (identity : AgentGatewayIdentity) : Request Unit := do
  let db ← get
  let identities ← Txn.ofExcept (inserted db.identities (fun g =>
    g.policy == identity.policy || g.fingerprintSha256 == identity.fingerprintSha256) identity)
  set { db with identities }

/-- `AgentEnrollment.objects.create`. -/
def createEnrollment (enrollment : AgentEnrollment) : Request Unit := do
  let db ← get
  let enrollments ← Txn.ofExcept (inserted db.enrollments (fun e =>
    e.deviceUri == enrollment.deviceUri ||
      e.tenant == enrollment.tenant && e.deviceId == enrollment.deviceId) enrollment)
  set { db with enrollments }

def Db.requireActiveTenant (db : Db) (id : String) : Except ServerError Tenant :=
  match (db.tenants.get? id).filter fun t => t.status == .active with
  | some tenant => pure tenant
  | none => throw (.validationError "tenant_inactive")

def Db.policyOf (db : Db) (tenant : String) : Except ServerError AgentPkiPolicy :=
  one (db.policies.rows.filter fun p => p.tenant == tenant)

def AgentIssuer.activeIn (tenant : String) (i : AgentIssuer) : Bool :=
  i.tenant == tenant && i.status == .active

def Db.activeIssuer (db : Db) (tenant : String) : Except ServerError AgentIssuer :=
  one (db.issuers.rows.filter (AgentIssuer.activeIn tenant))

/-- An issuer of a tenant that is kept for its certificates. -/
def Db.overlapIssuer (db : Db) (tenant id : String) : Except ServerError AgentIssuer :=
  present ((db.issuers.get? id).filter fun i => i.tenant == tenant && i.status == .overlap)

section
variable (lib : Library) (now : Time) (draws : Draws)

/-! ## Configuration -/

/-- The refusal of a second configuration. -/
def Db.refuseConfigured (db : Db) (tenant : String) : Except ServerError Unit :=
  throwIf (db.policies.rows.any (fun p => p.tenant == tenant) = true)
    (.validationError "Agent PKI is already configured for this tenant.")

/-- A policy with the defaults of its periods. -/
def newPolicy (tenant gatewayDnsName : String) (trustMode : TrustMode) (root : Certificate)
    (exportedAt : Option Time) : AgentPkiPolicy where
  id := draws.policy
  tenant
  trustMode
  gatewayDnsName
  rootCertificate := root
  rootFingerprintSha256 := lib.fingerprint root
  rootRecoveryExportedAt := exportedAt
  certificateLifetimeDays := 30
  renewalWindowDays := 10

/-- An active issuer with the columns of its certificate. -/
def newIssuer (tenant policy : String) (certificate : Certificate) (chain : List Certificate)
    (privateKey : Option SealedKey) (external : Bool) : AgentIssuer where
  id := draws.issuer
  tenant
  policy
  status := .active
  certificate
  chain
  fingerprintSha256 := lib.fingerprint certificate
  serialNumber := certificate.serialText
  privateKey
  external
  notBefore := certificate.notBefore
  notAfter := certificate.notAfter
  retiredAt := none

def storeGatewayIdentity (tenant policy : String) (issuer : Option String)
    (certificate : Certificate) (privateKey : PrivateKey) (chain : List Certificate) :
    Request Unit :=
  createIdentity
    { id := draws.identity, tenant, policy, issuer, certificate, chain
      fingerprintSha256 := lib.fingerprint certificate
      privateKey := encryptPrivateKey privateKey (gatewayAssociatedData tenant draws.identity)
      notBefore := certificate.notBefore
      notAfter := certificate.notAfter
      rotatedAt := none }

/-- What `create_managed_hierarchy` makes. -/
structure Hierarchy where
  rootCert : Certificate
  issuerCert : Certificate
  gatewayCert : Certificate
  recovery : RecoveryBundle

def createManagedHierarchy (gatewayDnsName passphrase : String) : Except ServerError Hierarchy := do
  throwIf (gatewayDnsName = "" ∨ lib.hostname gatewayDnsName ≠ some gatewayDnsName)
    (.validationError "The Agent Gateway DNS name is invalid.")
  throwIf (passphrase.utf8ByteSize < 20)
    (.validationError "The Root recovery passphrase must contain at least 20 bytes.")
  let rootCert := authorityCertificate now "IPMS Agent Root CA" draws.rootKey draws.rootSerial
    (days 3650) 1 (nameOf "IPMS Agent Root CA") draws.rootKey
  let issuerCert := issueManagedIssuer now draws.rootKey rootCert draws.issuerKey draws.issuerSerial
  let gatewayCert := issueGatewayIdentity now draws.issuerKey issuerCert gatewayDnsName
    draws.gatewayKey draws.leafSerial
  pure ⟨rootCert, issuerCert, gatewayCert,
    ⟨lib.bundleSize draws.rootKey rootCert, draws.rootKey, true, passphrase, some rootCert⟩⟩

def createManagedPkiRecords (tenant gatewayDnsName passphrase : String) (exportedAt : Option Time) :
    Request (AgentPkiPolicy × RecoveryBundle) := do
  let db ← get
  Txn.ofExcept (db.refuseConfigured tenant)
  let h ← Txn.ofExcept (createManagedHierarchy lib now draws gatewayDnsName passphrase)
  let policy := newPolicy lib draws tenant gatewayDnsName .ipmsManaged h.rootCert exportedAt
  createPolicy policy
  createIssuer (newIssuer lib draws tenant policy.id h.issuerCert [h.rootCert]
    (some (encryptPrivateKey draws.issuerKey (issuerAssociatedData tenant draws.issuer))) false)
  storeGatewayIdentity lib draws tenant policy.id (some draws.issuer) h.gatewayCert draws.gatewayKey
    [h.issuerCert, h.rootCert]
  pure (policy, h.recovery)

/-- `bootstrap_managed_pki`; `written` is whether the recovery output could be written. -/
def bootstrapManagedPki (tenant gatewayDnsName passphrase : String) (written : Bool) :
    Request Unit := do
  let _ ← createManagedPkiRecords lib now draws tenant gatewayDnsName passphrase (some now)
  throwIf (written = false) .valueError

def prepareManagedPki (tenant gatewayDnsName passphrase : String) : Request Unit := do
  let (policy, recovery) ← createManagedPkiRecords lib now draws tenant gatewayDnsName passphrase none
  let db ← get
  let materials ← Txn.ofExcept (inserted db.materials
    (fun m => m.tenant == tenant || m.policy == policy.id)
    ⟨draws.other, tenant, policy.id, recovery, lib.bundleSha256 recovery, none⟩)
  set { db with materials }

def downloadManagedPkiRecovery (tenant : String) : Request Unit := do
  let db ← get
  let material ← Txn.ofExcept (one (db.materials.rows.filter fun m => m.tenant == tenant))
  throwIf (lib.bundleSha256 material.bundle ≠ material.bundleSha256)
    (.validationError "The Root recovery material integrity check failed.")
  set { db with materials := db.materials.save { material with downloadedAt := some now } }

def confirmManagedPkiRecovery (tenant bundleSha256 : String) : Request Unit := do
  let db ← get
  let material ← Txn.ofExcept (one (db.materials.rows.filter fun m => m.tenant == tenant))
  throwIf (material.downloadedAt = none)
    (.validationError "The Root recovery material must be downloaded first.")
  throwIf (material.bundleSha256 ≠ asciiLower bundleSha256)
    (.validationError "The Root recovery material digest does not match.")
  let policy ← Txn.ofExcept (present (db.policies.get? material.policy))
  set { db with
    materials := db.materials.delete material.id
    policies := db.policies.save { policy with rootRecoveryExportedAt := some now } }

def configureExternalIssuingPki (tenant gatewayDnsName : String) (issuerCert chainCert : Certificate)
    (issuerKey : PrivateKey) : Request Unit := do
  let db ← get
  Txn.ofExcept (db.refuseConfigured tenant)
  Txn.ofExcept (validateCaCertificate now issuerCert true)
  Txn.ofExcept (validateCaCertificate now chainCert false)
  throwIf (issuerKey.publicKey ≠ issuerCert.publicKey)
    (.validationError "The external issuing CA certificate and key do not match.")
  Txn.ofExcept (issuerCert.verifyDirectlyIssuedBy chainCert
    "The external issuing CA chain is not valid.")
  let policy := newPolicy lib draws tenant gatewayDnsName .externalIssuingCa chainCert none
  createPolicy policy
  createIssuer (newIssuer lib draws tenant policy.id issuerCert [chainCert]
    (some (encryptPrivateKey issuerKey (issuerAssociatedData tenant draws.issuer))) true)
  let gatewayCert := issueGatewayIdentity now issuerKey issuerCert gatewayDnsName draws.gatewayKey
    draws.leafSerial
  storeGatewayIdentity lib draws tenant policy.id (some draws.issuer) gatewayCert draws.gatewayKey
    [issuerCert, chainCert]

def configureExternalCertificatePki (tenant gatewayDnsName : String) (gatewayCert : Certificate)
    (gatewayKey : PrivateKey) (gatewayChain : List Certificate) (agentIssuerCert : Certificate) :
    Request Unit := do
  let db ← get
  Txn.ofExcept (db.refuseConfigured tenant)
  Txn.ofExcept (validateGatewayCertificate now gatewayCert gatewayKey gatewayDnsName)
  match gatewayChain with
  | [] => throw (.validationError "The Gateway certificate chain is empty.")
  | issuing :: _ => do
    Txn.ofExcept (validateCaCertificate now issuing false)
    Txn.ofExcept (gatewayCert.verifyDirectlyIssuedBy issuing
      "The Gateway certificate chain is not valid.")
  Txn.ofExcept (validateCaCertificate now agentIssuerCert false)
  let policy := newPolicy lib draws tenant gatewayDnsName .externalCertificates agentIssuerCert none
  createPolicy policy
  createIssuer (newIssuer lib draws tenant policy.id agentIssuerCert [] none true)
  storeGatewayIdentity lib draws tenant policy.id none gatewayCert gatewayKey gatewayChain

def importExternalAgentCertificate (tenant displayName : String) (certificate : Certificate) :
    Request Unit := do
  let db ← get
  let _ ← Txn.ofExcept (one (db.policies.rows.filter fun p =>
    p.tenant == tenant && p.trustMode == .externalCertificates))
  let issuer ← Txn.ofExcept (db.activeIssuer tenant)
  let invalid := "The external Agent certificate is invalid."
  Txn.ofExcept (certificate.verifyDirectlyIssuedBy issuer.certificate invalid)
  let basic ← Txn.ofExcept (extension certificate.basic invalid)
  let usage ← Txn.ofExcept (extension certificate.usage invalid)
  let eku ← Txn.ofExcept (extension certificate.eku invalid)
  let san ← Txn.ofExcept (extension certificate.san invalid)
  throwIf (basic.ca = true ∨ usage.digitalSignature = false ∨ usage.keyCertSign = true)
    (.validationError "The external Agent certificate key usage is invalid.")
  throwIf (.clientAuth ∉ eku ∨ eku.length ≠ 1)
    (.validationError "The external Agent certificate EKU is invalid.")
  match san.uris with
  | [uri] => do
    throwIf (deviceUriPattern uri = false)
      (.validationError "The external Agent device URI is invalid.")
    throwIf (certificate.current now = false)
      (.validationError "The external Agent certificate is not currently valid.")
    createEnrollment
      { id := draws.other, tenant, displayName, platform := .windows, status := .active
        deviceId := String.ofList (uri.toList.drop "urn:ipms:agent:".length), deviceUri := uri
        issuer := some issuer.id, certificate := some certificate
        certificateFingerprintSha256 := lib.fingerprint certificate
        certificateSerialNumber := certificate.serialText
        certificateNotBefore := some certificate.notBefore
        certificateNotAfter := some certificate.notAfter
        keyAlgorithm := certificate.keyAlgorithm }
  | _ => throw (.validationError "The external Agent device URI is invalid.")

/-! ## Rotation -/

def replaceGatewayIdentity (policy : AgentPkiPolicy) (issuer : AgentIssuer)
    (issuerKey : PrivateKey) : Request Unit := do
  let db ← get
  let identity ← Txn.ofExcept (one (db.identities.rows.filter fun g => g.policy == policy.id))
  let gatewayCert := issueGatewayIdentity now issuerKey issuer.certificate policy.gatewayDnsName
    draws.gatewayKey draws.leafSerial
  throwIf ((db.identities.rows.any fun g =>
    g.id != identity.id && g.fingerprintSha256 == lib.fingerprint gatewayCert) = true)
    .integrityError
  let identity := { identity with
    privateKey := encryptPrivateKey draws.gatewayKey
      (gatewayAssociatedData policy.tenant identity.id)
    issuer := some issuer.id
    certificate := gatewayCert
    chain := issuer.certificate :: issuer.chain
    fingerprintSha256 := lib.fingerprint gatewayCert
    notBefore := gatewayCert.notBefore
    notAfter := gatewayCert.notAfter
    rotatedAt := some now }
  set { db with identities := db.identities.save identity }

def rotateManagedIssuer (tenant : String) (recovery : RecoveryBundle) (passphrase : String) :
    Request Unit := do
  let db ← get
  let policy ← Txn.ofExcept (db.policyOf tenant)
  throwIf (policy.trustMode ≠ .ipmsManaged)
    (.validationError "Managed issuer rotation requires IPMS-managed trust mode.")
  let (rootKey, rootCert) ← Txn.ofExcept (loadManagedRootRecovery recovery passphrase)
  throwIf (lib.fingerprint rootCert ≠ policy.rootFingerprintSha256 ∨
      rootCert ≠ policy.rootCertificate)
    (.validationError "The Root recovery bundle does not belong to this tenant.")
  let oldIssuer ← Txn.ofExcept (db.activeIssuer tenant)
  let issuerCert := issueManagedIssuer now rootKey rootCert draws.issuerKey draws.issuerSerial
  let issuer := newIssuer lib draws tenant policy.id issuerCert [policy.rootCertificate]
    (some (encryptPrivateKey draws.issuerKey (issuerAssociatedData tenant draws.issuer))) false
  createIssuer issuer
  modify fun db => { db with issuers := db.issuers.save { oldIssuer with status := .overlap } }
  replaceGatewayIdentity lib now draws policy issuer draws.issuerKey

def rollbackManagedIssuer (tenant issuerId : String) : Request Unit := do
  let db ← get
  let policy ← Txn.ofExcept (db.policyOf tenant)
  throwIf (policy.trustMode ≠ .ipmsManaged)
    (.validationError "Managed issuer rollback requires IPMS-managed trust mode.")
  let current ← Txn.ofExcept (db.activeIssuer tenant)
  let target ← Txn.ofExcept (db.overlapIssuer tenant issuerId)
  match target.privateKey with
  | none => throw (.validationError "The rollback issuer has no protected private key.")
  | some secret => do
    let targetKey ← Txn.ofExcept
      (decryptPrivateKey secret (issuerAssociatedData tenant target.id))
    modify fun db => { db with issuers := db.issuers.save { current with status := .overlap } }
    modify fun db => { db with issuers := db.issuers.save { target with status := .active } }
    replaceGatewayIdentity lib now draws policy { target with status := .active } targetKey

/-- An enrollment keeps an issuer from retirement. -/
def AgentEnrollment.holds (issuer : String) (e : AgentEnrollment) : Bool :=
  e.issuer == some issuer && e.status == .active &&
    e.certificateNotAfter.any fun t => decide (now < t)

def retireOverlapIssuer (tenant issuerId : String) : Request Unit := do
  let db ← get
  let issuer ← Txn.ofExcept (db.overlapIssuer tenant issuerId)
  throwIf (db.enrollments.rows.any (AgentEnrollment.holds now issuer.id) = true)
    (.validationError "The issuer still has unexpired active Agent certificates.")
  let issuer := { issuer with status := .retired, retiredAt := some now }
  set { db with issuers := db.issuers.save issuer }

/-! ## Enrollment -/

/-- `create_enrollment_token`; the raw token is drawn. -/
def createEnrollmentToken (tenant displayName : String) (platform : Platform)
    (lifetimeMinutes : Int) (actor : String) : Request Unit := do
  let db ← get
  let _ ← Txn.ofExcept (db.requireActiveTenant tenant)
  throwIf (¬(5 ≤ lifetimeMinutes ∧ lifetimeMinutes ≤ 1440))
    (.validationError "Enrollment token lifetime must be between 5 and 1440 minutes.")
  let policy ← Txn.ofExcept (db.policyOf tenant)
  throwIf (policy.trustMode = .externalCertificates)
    (.validationError "Bootstrap tokens are unavailable in external-certificate mode.")
  throwIf (policy.trustMode = .ipmsManaged ∧ policy.rootRecoveryExportedAt = none)
    (.validationError "The Agent PKI recovery export has not been confirmed.")
  let identity ← Txn.ofExcept (one (db.identities.rows.filter fun g => g.policy == policy.id))
  createEnrollment
    { id := draws.other, tenant, displayName, platform, status := .pending
      deviceId := draws.identity, deviceUri := "urn:ipms:agent:" ++ draws.identity
      issuer := none, certificate := none, certificateFingerprintSha256 := ""
      certificateSerialNumber := "", certificateNotBefore := none, certificateNotAfter := none
      keyAlgorithm := "" }
  let db ← get
  let tokens ← Txn.ofExcept (inserted db.tokens (fun _ => false)
    { tenant, enrollment := draws.other, tokenDigest := sha256 (encode draws.token.toList)
      gatewayFingerprintSha256 := identity.fingerprintSha256
      expiresAt := now + minutes lifetimeMinutes, usedAt := none, createdBy := actor })
  set { db with tokens }

/-- The columns of a certificate that an enrollment takes over from its issuer. -/
def AgentEnrollment.certified (e : AgentEnrollment) (issuer : AgentIssuer)
    (certificate : Certificate) (keyAlgorithm : String) : AgentEnrollment :=
  { e with
    issuer := some issuer.id
    certificate := some certificate
    certificateFingerprintSha256 := lib.fingerprint certificate
    certificateSerialNumber := certificate.serialText
    certificateNotBefore := some certificate.notBefore
    certificateNotAfter := some certificate.notAfter
    keyAlgorithm }

/-- The certificate the active issuer of a tenant signs, with the issuer. -/
def Db.issueUnderActive (db : Db) (tenant deviceUri refusal : String) (csrSize : Nat)
    (csr : Option Csr) (lifetimeDays : AgentIssuer → Except ServerError Nat) :
    Except ServerError (AgentIssuer × Certificate × String) := do
  let issuer ← db.activeIssuer tenant
  match issuer.privateKey with
  | none => throw (.validationError refusal)
  | some secret => do
    let (csr, keyAlgorithm) ← validateAgentCsr csrSize csr
    let issuerKey ← decryptPrivateKey secret (issuerAssociatedData tenant issuer.id)
    let lifetimeDays ← lifetimeDays issuer
    let certificate ← issueAgentCertificate now issuerKey issuer.certificate csr keyAlgorithm
      deviceUri lifetimeDays draws.leafSerial
    pure (issuer, certificate, keyAlgorithm)

def enrollAgent (rawToken : String) (csrSize : Nat) (csr : Option Csr)
    (gatewayTenant : Option String) : Request Unit := do
  let db ← get
  let invalid := ServerError.validationError "The enrollment token is invalid or expired."
  match db.tokens.get? (sha256 (encode rawToken.toList)) with
  | none => throw invalid
  | some token => do
    let _ ← Txn.ofExcept (db.requireActiveTenant token.tenant)
    throwIf (token.usedAt.isSome = true ∨ token.expiresAt ≤ now) invalid
    throwIf ((gatewayTenant.any fun t => t != token.tenant) = true)
      (.validationError "The enrollment token does not belong to this Gateway endpoint.")
    let enrollment ← Txn.ofExcept (present (db.enrollments.get? token.enrollment))
    throwIf (enrollment.status ≠ .pending) (.validationError "The enrollment is not pending.")
    let (issuer, certificate, keyAlgorithm) ← Txn.ofExcept
      (db.issueUnderActive now draws token.tenant enrollment.deviceUri
        "The active issuer cannot issue Agent certificates." csrSize csr
        fun issuer => do
          let policy ← present (db.policies.get? issuer.policy)
          pure policy.certificateLifetimeDays)
    let enrollment := { enrollment.certified lib issuer certificate keyAlgorithm with
      status := .active }
    set { db with
      enrollments := db.enrollments.save enrollment
      tokens := db.tokens.save { token with usedAt := some now } }

def renewAgentCertificate (enrollmentId tenant : String) (csrSize : Nat) (csr : Option Csr) :
    Request Unit := do
  let db ← get
  let _ ← Txn.ofExcept (db.requireActiveTenant tenant)
  let enrollment ← Txn.ofExcept
    (present ((db.enrollments.get? enrollmentId).filter fun e => e.status == .active))
  let policy ← Txn.ofExcept (db.policyOf enrollment.tenant)
  match enrollment.certificateNotAfter with
  | none => throw (.validationError "The Agent certificate expiry is unavailable.")
  | some notAfter => do
    throwIf (now + days policy.renewalWindowDays < notAfter)
      (.validationError "The Agent certificate is not in its renewal window.")
    let (issuer, certificate, keyAlgorithm) ← Txn.ofExcept
      (db.issueUnderActive now draws enrollment.tenant enrollment.deviceUri
        "The active issuer cannot renew Agent certificates." csrSize csr
        fun _ => pure policy.certificateLifetimeDays)
    let enrollment := enrollment.certified lib issuer certificate keyAlgorithm
    set { db with enrollments := db.enrollments.save enrollment }

end

/-! ## Withdrawal -/

def revokeAgent (enrollmentId actor reason : String) : Request Unit := do
  let db ← get
  let enrollment ← Txn.ofExcept (present (db.enrollments.get? enrollmentId))
  if enrollment.status = .revoked then pure ()
  else do
    let revocations ← Txn.ofExcept (inserted db.revocations (fun _ => false)
      ⟨enrollment.tenant, enrollmentId, enrollment.certificateSerialNumber, reason, actor⟩)
    set { db with
      enrollments := db.enrollments.save { enrollment with status := .revoked }, revocations }

def Db.deleteUnusedTokens (db : Db) (enrollmentId : String) : Db :=
  { db with tokens := ⟨db.tokens.rows.filter fun t => t.enrollment != enrollmentId || t.usedAt.isSome,
      List.Nodup.sublist (List.filter_sublist.map _) db.tokens.nodup⟩ }

/-- The removal of an agent; `removable` is whether its contact state and its jobs allow it. -/
def removeAgent (enrollmentId tenant actor : String) (removable : Bool) : Request Unit := do
  let db ← get
  let _ ← Txn.ofExcept (db.requireActiveTenant tenant)
  let enrollment ← Txn.ofExcept (present ((db.enrollments.get? enrollmentId).filter fun e =>
    e.tenant == tenant && e.status != .removed))
  throwIf (removable = false) (.publicApiError "agent_removal_not_allowed" 409)
  if enrollment.status = .active then revokeAgent enrollmentId actor "administrative_removal"
  modify fun db => { db with
    enrollments := db.enrollments.save { enrollment with status := .removed } }
  modify fun db => db.deleteUnusedTokens enrollmentId

/-- The end of a deployment: its unused tokens go, and after the update of an agent that was
enrolled already its own enrollment is revoked. -/
def finishDeployment (enrollmentId : String) (succeeded updatedExistingAgent : Bool) :
    Request Unit := do
  if succeeded = false ∨ updatedExistingAgent = true then
    modify fun db => db.deleteUnusedTokens enrollmentId
  if succeeded = true ∧ updatedExistingAgent = true then
    modify fun db => { db with
      enrollments := db.enrollments.mapRows
        (fun e =>
          if e.id = enrollmentId ∧ e.status = .pending then { e with status := .revoked } else e)
        fun e => by split <;> rfl }

/-- A tenant's new status, and `apply_tenant_status_change`. -/
def changeTenantStatus (now : Time) (id : String) (status : TenantStatus) : Request Unit := do
  let db ← get
  let tenant ← Txn.ofExcept (present (db.tenants.get? id))
  set { db with tenants := db.tenants.save { tenant with status } }
  if status ≠ .active ∧ status ≠ tenant.status then
    modify fun db => { db with
      enrollments := db.enrollments.mapRows
        (fun e => if e.tenant = id ∧ e.status = .pending then { e with status := .removed } else e)
        fun e => by split <;> rfl
      tokens := db.tokens.mapRows
        (fun t => if t.tenant = id ∧ t.usedAt = none then { t with usedAt := some now } else t)
        fun t => by split <;> rfl }

end Ipms.Server.AgentPki
