import Mathlib.Data.List.Sort
import Ipms.Server.CanonicalJson
import Ipms.Server.Security.Evaluator

/-
  Ipms.Server.Security.Exchange

  The requests an agent makes about one scan job: it polls for an attempt and
  returns the pages of its evidence one by one.  A request that is rejected
  commits nothing.
-/

namespace Ipms.Server.Security

open Ipms.ManagementJson Ipms.Lib
open Ipms.Agent.Security (Object)

/-! ## Jobs -/

/-- The canonical text of a UUID. -/
abbrev Uuid := { s : String // uuidText s = true }

/-- The status of a job. -/
inductive ScanStatus where
  | queued | running | completed | failed | expired
  deriving DecidableEq

def ScanStatus.active : ScanStatus → Bool
  | .queued | .running => true
  | _ => false

structure BaselineAssessment extends Evaluation where
  observedAt : Time
  errorCode : String

/-- A `BaselineScanJob`. -/
structure ScanRow extends BaselineScanJob where
  id : Uuid
  manifestSha256 : String
  status : ScanStatus
  expiresAt : Time
  attemptId : Option Uuid
  attemptCount : Nat
  leaseExpiresAt : Option Time
  completedAt : Option Time
  pages : List (String × Value)
  pageHashes : List (String × String)
  errorCode : String
  assessment : Option BaselineAssessment

def queueAge : Time := 3600 * 1000000

def leaseAge : Time := 20 * 60 * 1000000

/-- A job as `queue_scans` creates it. -/
def ScanRow.queued (id : Uuid) (manifestSha256 profile operatingSystem : String) (now : Time) :
    ScanRow :=
  { id, manifestSha256, profile, operatingSystem
    status := .queued, expiresAt := now + queueAge
    attemptId := none, attemptCount := 0, leaseExpiresAt := none, completedAt := none
    pageCount := 0, evidenceSystem := [], pages := [], pageHashes := [], errorCode := ""
    assessment := none }

def ScanRow.finishFailed (row : ScanRow) (code : String) (expired : Bool) (now : Time) : ScanRow :=
  { row with
    status := if expired then .expired else .failed
    errorCode := code, completedAt := some now, pages := []
    assessment := row.assessment.map fun a =>
      { a with errorCode := "collection_failed", scopeVerified := false } }

/-- The age or the lease of a job has run out. -/
def ScanRow.overdue (row : ScanRow) (now : Time) : Bool :=
  row.status.active && (decide (row.expiresAt ≤ now) ||
    row.status == .running && row.leaseExpiresAt.any fun lease => decide (lease ≤ now))

/-- `expire_jobs`, for one job. -/
def ScanRow.expireJobs (row : ScanRow) (now : Time) : ScanRow :=
  if row.overdue now then row.finishFailed "expired" true now else row

/-! ## Requests -/

/-- What a request finds besides the job. -/
structure Circumstances where
  /-- `timezone.now` -/
  now : Time
  /-- the tenant, the enrollment and its certificate are current -/
  authorised : Bool
  /-- `version_supported` and the catalog's digest -/
  supported : Bool
  /-- no earlier job of the enrollment is offered instead -/
  reached : Bool
  /-- `scope_current` -/
  scopeCurrent : Bool
  /-- `uuid.uuid4` -/
  uuid : Uuid

/-- A request of an agent whose members are those of its action. -/
inductive Exchange where
  | poll
  | result (jobId attemptId manifestSha256 : Value) (document : PageDocument)
  | failed (jobId attemptId manifestSha256 errorCode : Value)
  /-- a request about another job of the tenant -/
  | other

/-- What a request is answered. -/
inductive Reply where
  | offer (jobId attemptId : Uuid) (totalControls : Nat) (expiresAt : Time)
  | noOffer
  | accepted (complete : Bool)
  deriving DecidableEq

def uuidField (value : Value) : Except ServerError Uuid :=
  match value with
  | .str s => if h : uuidText s = true then .ok ⟨s, h⟩ else .error rejected
  | _ => .error rejected

/-- A poll starts an attempt of the job, or ends the job. -/
def poll (manifest : ScanManifest) (c : Circumstances) (row : ScanRow) : Reply × ScanRow :=
  if !c.supported || !c.reached || !row.status.active then (.noOffer, row)
  else if !c.scopeCurrent || decide (3 ≤ row.attemptCount) then
    (.noOffer, row.finishFailed
      (if row.attemptCount < 3 then "scope_changed" else "attempt_limit") false c.now)
  else
    let total := manifest.controls.length
    let lease := min (c.now + leaseAge) row.expiresAt
    (.offer row.id c.uuid total lease,
      { row with
        status := .running, attemptId := some c.uuid, attemptCount := row.attemptCount + 1
        leaseExpiresAt := some lease
        pages := [], pageHashes := [], evidenceSystem := [], pageCount := 0
        assessment := some { summary [] with
          totalControls := total, unknownControls := total, scopeVerified := false
          observedAt := c.now, errorCode := "" } })

/-! ## Pages -/

/-- The identifier of an observed control. -/
def controlId (control : Value) : Option String :=
  match control.get? "control_id" with
  | some (.str id) => some id
  | _ => none

/-- The observed controls of a page. -/
def observed : Value → List Value
  | .arr controls => controls
  | _ => []

/-- The identifiers of the observed controls of a page. -/
def controlIds (controls : Value) : List String := (observed controls).filterMap controlId

/-- The observations of pages by identifier; of two with one identifier the later one counts. -/
def observations (pages : List Value) : List (String × Value) :=
  ((pages.flatMap observed).filterMap fun control => (controlId control).map (·, control)).reverse

/-- `pages[key] = controls`. -/
def setItem (pages : List (String × Value)) (key : String) (controls : Value) :
    List (String × Value) :=
  if pages.any (·.1 == key) then pages.map fun p => if p.1 = key then (key, controls) else p
  else pages ++ [(key, controls)]

/-- The length of the canonical JSON of the pages. -/
def pagesSize (pages : List (String × Value)) : Nat :=
  (canonical (.obj (pages.insertionSort fun p q => keyLe p q = true))).length

/-- The bound of the canonical JSON of the pages. -/
def maxPagesSize : Nat := 2 * 1024 * 1024

/-- `page_count` and `system` as a job stores them. -/
def ScanRow.recording (row : ScanRow) (key digest : String) (document : PageDocument) : ScanRow :=
  { row with
    pages := setItem row.pages key document.controls
    pageHashes := row.pageHashes ++ [(key, digest)]
    pageCount := match document.pageCount with
      | .int count => count.toNat
      | _ => 0
    evidenceSystem := match document.system with
      | .obj system => system
      | _ => [] }

/-- Every control of the manifest has an observation, and nothing else has one. -/
def complete (manifest : ScanManifest) (pages : List Value) : Bool :=
  let ids := (observations pages).map (·.1)
  ids.all manifest.checked.controls.contains && manifest.checked.controls.all ids.contains

/-- A job with a new page: the last one completes it. -/
def settlePage (manifest : ScanManifest) (now : Time) (row : ScanRow) :
    Except ServerError (Reply × ScanRow) :=
  if row.pages.length = row.pageCount then do
    let pages := row.pages.map (·.2)
    throwIf (complete manifest pages = false) rejected
    let result ← evaluate manifest (observations pages) (.obj row.evidenceSystem)
    return (.accepted true,
      { row with
        assessment := row.assessment.map fun a => { a with toEvaluation := result, observedAt := now }
        status := .completed, completedAt := some now, pages := [] })
  else .ok (.accepted false, row)

/-- A result page of the current attempt. -/
def recordPage (manifest : ScanManifest) (now : Time) (row : ScanRow) (document : PageDocument) :
    Except ServerError (Reply × ScanRow) := do
  let (key, digest) ← validatePage row.toBaselineScanJob manifest.checked document
  match row.pageHashes.lookup key with
  | some stored => do
    throwIf (stored ≠ digest) rejected
    return (.accepted (row.status == .completed), row)
  | none => do
    throwIf (row.status ≠ .running) rejected
    throwIf ((row.pages.flatMap (controlIds ·.2)).any (controlIds document.controls).contains = true)
      rejected
    let row := row.recording key digest document
    throwIf (maxPagesSize < pagesSize row.pages) rejected
    settlePage manifest now row

/-- The error codes an agent may report. -/
def errorCodes : List String :=
  ["collection_failed", "unsupported_manifest", "cancelled", "scope_changed"]

/-- A report that the current attempt failed. -/
def recordFailed (now : Time) (row : ScanRow) (errorCode : Value) :
    Except ServerError (Reply × ScanRow) :=
  match errorCode with
  | .str code => do
    throwIf (code ∉ errorCodes) rejected
    if row.status = .running then return (.accepted true, row.finishFailed code false now)
    else do
      throwIf (row.status ≠ .failed ∨ row.errorCode ≠ code) rejected
      return (.accepted true, row)
  | _ => .error rejected

/-- A request about the current attempt of a job; a job whose scope has changed is ended. -/
def addressed (c : Circumstances) (row : ScanRow) (jobId attemptId manifestSha256 : Value)
    (handle : Except ServerError (Reply × ScanRow)) : Except ServerError (Reply × ScanRow) := do
  throwIf ((← uuidField jobId) ≠ row.id) rejected
  throwIf (row.attemptId ≠ some (← uuidField attemptId)) rejected
  throwIf (manifestSha256 ≠ .str row.manifestSha256) rejected
  if c.scopeCurrent = false then
    return (.accepted true,
      if row.status.active then row.finishFailed "scope_changed" false c.now else row)
  else handle

/-- `security_exchange`, as one job sees it. -/
def securityExchange (manifest : ScanManifest) (c : Circumstances) (row : ScanRow)
    (request : Exchange) : Except ServerError (Reply × ScanRow) := do
  throwIf (c.authorised = false) rejected
  let row := row.expireJobs c.now
  match request with
  | .poll => return poll manifest c row
  | .result jobId attemptId manifestSha256 document =>
    addressed c row jobId attemptId manifestSha256 (recordPage manifest c.now row document)
  | .failed jobId attemptId manifestSha256 errorCode =>
    addressed c row jobId attemptId manifestSha256 (recordFailed c.now row errorCode)
  | .other => return (.noOffer, row)

end Ipms.Server.Security
