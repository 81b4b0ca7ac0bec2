import Ipms.Lib.Fallible
import Ipms.Server.Document
import Ipms.Server.Text

/-
  Ipms.Server.AgentPki.Certificates

  Certificates and the keys that sign them.  A key is the name of its pair, a
  signature the name of the key it verifies under, and a sealed key can be opened
  with the associated data it was sealed with and with no other.
-/

namespace Ipms.Server.AgentPki

open Ipms.Lib

/-! ## Keys -/

/-- A private key, by its pair. -/
structure PrivateKey where
  pair : Nat
  deriving DecidableEq

/-- A public key, by its pair. -/
structure PublicKey where
  pair : Nat
  deriving DecidableEq

/-- The public key of a pair. -/
def PrivateKey.publicKey (key : PrivateKey) : PublicKey := ⟨key.pair⟩

/-- A private key under the master key, with the associated data of its encryption. -/
structure SealedKey where
  key : PrivateKey
  associatedData : String
  deriving DecidableEq

def encryptPrivateKey (key : PrivateKey) (associatedData : String) : SealedKey :=
  ⟨key, associatedData⟩

def decryptPrivateKey (secret : SealedKey) (associatedData : String) :
    Except ServerError PrivateKey := do
  throwIf (secret.associatedData ≠ associatedData) .invalidTag
  pure secret.key

def issuerAssociatedData (tenant issuer : String) : String :=
  s!"ipms:agent-pki:v1:{tenant}:issuer:{issuer}"

def gatewayAssociatedData (tenant identity : String) : String :=
  s!"ipms:agent-pki:v1:{tenant}:gateway:{identity}"

/-! ## Certificates -/

/-- A purpose of an extended key usage. -/
inductive ExtendedKeyUsage where
  | serverAuth | clientAuth
  | other (oid : String)
  deriving DecidableEq

/-- `x509.BasicConstraints`. -/
structure BasicConstraints where
  ca : Bool
  pathLength : Option Nat
  deriving DecidableEq

/-- `x509.KeyUsage`, of which the code reads three bits. -/
structure KeyUsage where
  digitalSignature : Bool
  keyCertSign : Bool
  crlSign : Bool
  deriving DecidableEq

/-- `x509.SubjectAlternativeName`. -/
structure SubjectAlternativeName where
  dnsNames : List String
  uris : List String
  deriving DecidableEq

/-- A distinguished name, attribute by attribute. -/
abbrev Name := List (String × String)

/-- A certificate; an extension it lacks is nothing. -/
structure Certificate where
  subject : Name
  issuer : Name
  publicKey : PublicKey
  keyAlgorithm : String
  serialNumber : Nat
  notBefore : Time
  notAfter : Time
  basic : Option BasicConstraints
  usage : Option KeyUsage
  eku : Option (List ExtendedKeyUsage)
  san : Option SubjectAlternativeName
  /-- the key its signature verifies under -/
  signer : PublicKey
  deriving DecidableEq

/-- A certificate is issued by a key under a subject. -/
def Certificate.IssuedBy (certificate authority : Certificate) : Prop :=
  certificate.issuer = authority.subject ∧ certificate.signer = authority.publicKey

/-- `verify_directly_issued_by`: a wrong name is a value error, a wrong signature is not. -/
def Certificate.verifyDirectlyIssuedBy (certificate authority : Certificate) (message : String) :
    Except ServerError Unit := do
  throwIf (certificate.issuer ≠ authority.subject) (.validationError message)
  throwIf (certificate.signer ≠ authority.publicKey) .invalidSignature

/-- A serial number in the text of the tables. -/
def Certificate.serialText (certificate : Certificate) : String :=
  String.ofList (Nat.toDigits 16 certificate.serialNumber)

/-- A certificate is within its validity window, as imports check it. -/
def Certificate.current (certificate : Certificate) (now : Time) : Bool :=
  decide (certificate.notBefore ≤ now) && decide (now < certificate.notAfter)

/-- An extension, or the error of a certificate that lacks it. -/
def extension {α : Type} (found : Option α) (message : String) : Except ServerError α :=
  match found with
  | some value => pure value
  | none => throw (.validationError message)

def validateCaCertificate (now : Time) (certificate : Certificate) (requirePathZero : Bool) :
    Except ServerError Unit := do
  let incomplete := "The imported CA certificate profile is incomplete."
  let basic ← extension certificate.basic incomplete
  let usage ← extension certificate.usage incomplete
  throwIf (basic.ca = false ∨ requirePathZero = true ∧ basic.pathLength ≠ some 0)
    (.validationError "The imported certificate is not a dedicated issuing CA.")
  throwIf (usage.keyCertSign = false ∨ usage.crlSign = false)
    (.validationError "The imported CA key usage is invalid.")
  throwIf (certificate.current now = false)
    (.validationError "The imported CA certificate is not currently valid.")

def validateGatewayCertificate (now : Time) (certificate : Certificate) (key : PrivateKey)
    (dnsName : String) : Except ServerError Unit := do
  throwIf (key.publicKey ≠ certificate.publicKey)
    (.validationError "The Gateway certificate and private key do not match.")
  let incomplete := "The Gateway certificate profile is incomplete."
  let basic ← extension certificate.basic incomplete
  let usage ← extension certificate.usage incomplete
  let eku ← extension certificate.eku incomplete
  let san ← extension certificate.san incomplete
  throwIf (basic.ca = true ∨ usage.digitalSignature = false ∨ usage.keyCertSign = true)
    (.validationError "The Gateway certificate key usage is invalid.")
  throwIf (.serverAuth ∉ eku ∨ eku.length ≠ 1)
    (.validationError "The Gateway certificate EKU is invalid.")
  throwIf (dnsName ∉ san.dnsNames)
    (.validationError "The Gateway certificate DNS identity is invalid.")
  throwIf (certificate.current now = false)
    (.validationError "The Gateway certificate is not currently valid.")

/-! ## Issuance -/

/-- Minutes, in the unit of a time. -/
def minutes (n : Int) : Int := n * 60000000

/-- Days, in the unit of a time. -/
def days (n : Int) : Int := minutes (n * 1440)

/-- `_name`. -/
def nameOf (commonName : String) : Name :=
  [("O", "Alvestrasza Corporation"), ("CN", commonName)]

/-- The certificate of a CA of the managed hierarchy. -/
def authorityCertificate (now : Time) (commonName : String) (key : PrivateKey) (serial : Nat)
    (lifetime : Int) (pathLength : Nat) (issuer : Name) (signer : PrivateKey) : Certificate where
  subject := nameOf commonName
  issuer
  publicKey := key.publicKey
  keyAlgorithm := "secp384r1"
  serialNumber := serial
  notBefore := wholeSeconds (now - minutes 5)
  notAfter := wholeSeconds (now + lifetime)
  basic := some ⟨true, some pathLength⟩
  usage := some ⟨false, true, true⟩
  eku := none
  san := none
  signer := signer.publicKey

def issueLeaf (now : Time) (issuerKey : PrivateKey) (issuerCert : Certificate)
    (publicKey : PublicKey) (keyAlgorithm : String) (serial : Nat) (commonName : String)
    (san : SubjectAlternativeName) (eku : ExtendedKeyUsage) (lifetime : Int) : Certificate where
  subject := nameOf commonName
  issuer := issuerCert.subject
  publicKey
  keyAlgorithm
  serialNumber := serial
  notBefore := wholeSeconds (now - minutes 5)
  notAfter := wholeSeconds (now + lifetime)
  basic := some ⟨false, none⟩
  usage := some ⟨true, false, false⟩
  eku := some [eku]
  san := some san
  signer := issuerKey.publicKey

/-- `issue_gateway_identity`, under a new key. -/
def issueGatewayIdentity (now : Time) (issuerKey : PrivateKey) (issuerCert : Certificate)
    (gatewayDnsName : String) (gatewayKey : PrivateKey) (serial : Nat) : Certificate :=
  issueLeaf now issuerKey issuerCert gatewayKey.publicKey "secp256r1" serial "IPMS Agent Gateway"
    ⟨[gatewayDnsName], []⟩ .serverAuth (days 90)

/-- `issue_managed_issuer`, under a new key. -/
def issueManagedIssuer (now : Time) (rootKey : PrivateKey) (rootCert : Certificate)
    (issuerKey : PrivateKey) (serial : Nat) : Certificate :=
  authorityCertificate now "IPMS Agent Issuing CA" issuerKey serial (days 1095) 0 rootCert.subject
    rootKey

/-! ## Recovery bundles and requests -/

/-- An encrypted root bundle, as `load_managed_root_recovery` reads it. -/
structure RecoveryBundle where
  size : Nat
  key : PrivateKey
  ellipticCurve : Bool
  passphrase : String
  certificate : Option Certificate
  deriving DecidableEq

def loadManagedRootRecovery (recovery : RecoveryBundle) (passphrase : String) :
    Except ServerError (PrivateKey × Certificate) := do
  throwIf (recovery.size > 65536)
    (.validationError "The Root recovery bundle exceeds the maximum size.")
  let certificate ← extension recovery.certificate "The Root recovery bundle is incomplete."
  throwIf (recovery.passphrase ≠ passphrase)
    (.validationError "The Root recovery bundle or passphrase is invalid.")
  throwIf (recovery.ellipticCurve = false)
    (.validationError "The managed Root private-key algorithm is invalid.")
  throwIf (recovery.key.publicKey ≠ certificate.publicKey)
    (.validationError "The Root recovery key and certificate do not match.")
  pure (recovery.key, certificate)

/-- The algorithm of a requested key. -/
inductive KeyAlgorithm where
  | rsa (keySize : Nat)
  | ec (curve : String)
  | ed25519
  | other
  deriving DecidableEq

/-- A certificate request that could be parsed. -/
structure Csr where
  publicKey : PublicKey
  algorithm : KeyAlgorithm
  signatureValid : Bool
  deriving DecidableEq

/-- `validate_agent_csr`, of a text of a size and what the parser makes of it. -/
def validateAgentCsr (size : Nat) (parsed : Option Csr) : Except ServerError (Csr × String) := do
  throwIf (size > 16384) (.validationError "The CSR exceeds the maximum size.")
  let csr ← extension parsed "The CSR is not valid PEM."
  throwIf (csr.signatureValid = false) (.validationError "The CSR signature is invalid.")
  match csr.algorithm with
  | .rsa keySize => do
    throwIf (keySize < 3072) (.validationError "RSA Agent keys must be at least 3072 bits.")
    pure (csr, s!"rsa-{keySize}")
  | .ec curve => do
    throwIf (curve ∉ ["secp256r1", "secp384r1"])
      (.validationError "The Agent EC curve is not allowed.")
    pure (csr, curve)
  | .ed25519 => pure (csr, "ed25519")
  | .other => throw (.validationError "The Agent public-key algorithm is not allowed.")

/-- `DEVICE_URI_PATTERN`: an identifier of version 4 behind its prefix. -/
def deviceUriPattern (uri : String) : Bool :=
  let pre := "urn:ipms:agent:".toList
  let uuid := uri.toList.drop pre.length
  pre.isPrefixOf uri.toList && uuidText (String.ofList uuid) && uuid.getD 14 ' ' == '4' &&
    ['8', '9', 'a', 'b'].contains (uuid.getD 19 ' ')

example : deviceUriPattern "urn:ipms:agent:0f8fad5b-d9cb-469f-a165-70867728950e" = true := by
  decide +kernel

def issueAgentCertificate (now : Time) (issuerKey : PrivateKey) (issuerCert : Certificate)
    (csr : Csr) (keyAlgorithm : String) (deviceUri : String) (lifetimeDays : Nat) (serial : Nat) :
    Except ServerError Certificate := do
  throwIf (deviceUriPattern deviceUri = false) (.validationError "The Agent device URI is invalid.")
  pure (issueLeaf now issuerKey issuerCert csr.publicKey keyAlgorithm serial "IPMS Agent"
    ⟨[], [deviceUri]⟩ .clientAuth (days lifetimeDays))

section
variable {now : Time} {issuerKey : PrivateKey} {issuerCert : Certificate}

theorem issueLeaf_issuedBy {publicKey : PublicKey} {keyAlgorithm commonName : String} {serial : Nat}
    {san : SubjectAlternativeName} {eku : ExtendedKeyUsage} {lifetime : Int}
    (h : issuerKey.publicKey = issuerCert.publicKey) :
    (issueLeaf now issuerKey issuerCert publicKey keyAlgorithm serial commonName san eku
      lifetime).IssuedBy issuerCert :=
  ⟨rfl, h⟩

theorem issueAgentCertificate_issuedBy {csr : Csr} {keyAlgorithm deviceUri : String}
    {lifetimeDays serial : Nat} {certificate : Certificate}
    (h : issueAgentCertificate now issuerKey issuerCert csr keyAlgorithm deviceUri lifetimeDays
      serial = .ok certificate)
    (hkey : issuerKey.publicKey = issuerCert.publicKey) : certificate.IssuedBy issuerCert := by
  unfold issueAgentCertificate at h
  obtain ⟨_, -, h⟩ := bind_eq_ok.mp h
  rw [← pure_eq_ok.mp h]
  exact issueLeaf_issuedBy hkey

theorem verifyDirectlyIssuedBy_ok {certificate authority : Certificate} {message : String}
    (h : certificate.verifyDirectlyIssuedBy authority message = .ok ()) :
    certificate.IssuedBy authority := by
  unfold Certificate.verifyDirectlyIssuedBy at h
  obtain ⟨_, hname, hsigner⟩ := bind_eq_ok.mp h
  exact ⟨not_not.mp (throwIf_eq_ok.mp hname), not_not.mp (throwIf_eq_ok.mp hsigner)⟩

theorem decryptPrivateKey_ok {secret : SealedKey} {associatedData : String} {key : PrivateKey}
    (h : decryptPrivateKey secret associatedData = .ok key) : key = secret.key := by
  unfold decryptPrivateKey at h
  obtain ⟨_, -, h⟩ := bind_eq_ok.mp h
  exact (pure_eq_ok.mp h).symm

end

end Ipms.Server.AgentPki
