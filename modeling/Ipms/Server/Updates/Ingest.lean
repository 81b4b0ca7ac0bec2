import Mathlib.Data.List.Sort
import Ipms.Lib.Table
import Ipms.Lib.Transaction
import Ipms.Server.Document
import Ipms.Server.Tenancy

/-
  Ipms.Server.Updates.Ingest

  The reception of WSUS snapshots.  A source keeps a receipt of every snapshot it
  accepted, with the digest of its canonical document, and the catalogue and the
  computer reports of the newest three.
-/

namespace Ipms.Server.Updates

open Ipms.Lib Ipms.ManagementJson Ipms.Crypto

/-! ## Documents -/

/-- `UpdateSerializer`. -/
structure Update where
  updateId : String
  revision : Nat
  title : String
  kbArticles : List String
  products : List String
  classification : String
  severity : String
  deriving DecidableEq

/-- `StateSerializer`. -/
structure UpdateState where
  updateId : String
  revision : Nat
  state : String
  deriving DecidableEq

/-- `ComputerSerializer`. -/
structure Computer where
  computerId : String
  fqdn : String
  reportedAt : Option Time
  updates : List UpdateState
  deriving DecidableEq

/-- The validated fields of a `SnapshotSerializer`. -/
structure SnapshotData where
  schemaVersion : Nat
  snapshotId : String
  observedAt : Time
  complete : Bool
  scope : String
  updates : List Update
  computers : List Computer
  deriving DecidableEq

/-- `update_key`. -/
def Update.key (u : Update) : String × Nat := (u.updateId, u.revision)

/-- `update_key`. -/
def UpdateState.key (u : UpdateState) : String × Nat := (u.updateId, u.revision)

/-- The checks of one computer against the snapshot it stands in. -/
def Computer.check (data : SnapshotData) (c : Computer) : Except ServerError Unit := do
  throwIf (c.reportedAt.any fun t => decide (data.observedAt < t))
    (.validationError "Report is newer than snapshot.")
  throwIf (¬(c.updates.map UpdateState.key).Nodup ∨
      ¬∀ u ∈ c.updates, u.key ∈ data.updates.map Update.key)
    (.validationError "Duplicate or unknown update revision in report.")

/-- `SnapshotSerializer.validate`. -/
def SnapshotData.validate (data : SnapshotData) (now : Time) : Except ServerError SnapshotData := do
  throwIf (data.complete = false) (.validationError "Only complete snapshots can be published.")
  throwIf (now + 300000000 < data.observedAt) (.validationError "Observation is in the future.")
  throwIf (¬(data.updates.map Update.key).Nodup) (.validationError "Duplicate update revision.")
  throwIf (¬(data.computers.map Computer.computerId).Nodup)
    (.validationError "Duplicate WSUS computer.")
  data.computers.forM (Computer.check data)
  throwIf ((data.computers.map fun c => c.updates.length).sum > 10000)
    (.validationError "Too many installation states.")
  pure data

/-! ## Canonical documents -/

/-- Date and time of day of a time from the year 1 on, to the second. -/
def civilTime (t : Time) : List Char :=
  let secs := (t / 1000000 + 62135596800).toNat
  let (year, dayOfYear) := yearOfDays (secs / 86400 / 365 + 1) 1 (secs / 86400)
  let (month, day) := monthOfDays year 12 1 dayOfYear
  padded 4 year ++ ['-'] ++ padded 2 month ++ ['-'] ++ padded 2 (day + 1) ++ ['T'] ++
    padded 2 (secs / 3600 % 24) ++ [':'] ++ padded 2 (secs / 60 % 60) ++ [':'] ++
    padded 2 (secs % 60)

/-- A time of `DjangoJSONEncoder`: of the microseconds the first three digits. -/
def encodeTime (t : Time) : String :=
  let micros := (t % 1000000).toNat
  String.ofList (civilTime t ++ (if micros = 0 then [] else '.' :: (padded 6 micros).take 3) ++ ['Z'])

example : encodeTime 1789036245123456 = "2026-09-10T10:30:45.123Z" := by decide +kernel

/-- The document of an update. -/
def Update.toJson (u : Update) : Value :=
  .obj [("classification", .str u.classification), ("kb_articles", .arr (u.kbArticles.map .str)),
    ("products", .arr (u.products.map .str)), ("revision", .int u.revision),
    ("severity", .str u.severity), ("title", .str u.title), ("update_id", .str u.updateId)]

/-- The document of the state of an update. -/
def UpdateState.toJson (u : UpdateState) : Value :=
  .obj [("revision", .int u.revision), ("state", .str u.state), ("update_id", .str u.updateId)]

/-- The document of a computer. -/
def Computer.toJson (c : Computer) : Value :=
  .obj [("computer_id", .str c.computerId), ("fqdn", .str c.fqdn),
    ("reported_at", (c.reportedAt.map fun t => Value.str (encodeTime t)).getD .null),
    ("updates", .arr (c.updates.map UpdateState.toJson))]

/-- The document of a snapshot. -/
def SnapshotData.toJson (data : SnapshotData) : Value :=
  .obj [("complete", .bool data.complete), ("computers", .arr (data.computers.map Computer.toJson)),
    ("observed_at", .str (encodeTime data.observedAt)), ("schema_version", .int data.schemaVersion),
    ("scope", .str data.scope), ("snapshot_id", .str data.snapshotId),
    ("updates", .arr (data.updates.map Update.toJson))]

/-- The digest of the canonical document, which is in ASCII. -/
def SnapshotData.digest (data : SnapshotData) : String :=
  sha256 (encode ((dumps data.toJson).flatMap escapeAscii))

/-! ## Tables -/

structure UpdateSource where
  id : String
  tenant : String
  name : String
  scope : String
  wsusHost : String
  wsusPort : Nat
  wsusUseSsl : Bool
  wsusChangedAt : Option Time
  enabled : Bool
  tokenHash : String
  currentSnapshot : Option String
  deriving DecidableEq

structure WsusSnapshot where
  id : String
  source : String
  snapshotId : String
  digest : String
  observedAt : Time
  receivedAt : Time
  updates : List Update
  updateCount : Nat
  computerCount : Nat
  deriving DecidableEq

structure WsusComputerReport where
  snapshot : String
  computerId : String
  fqdn : String
  reportedAt : Option Time
  updates : List UpdateState
  deriving DecidableEq

/-- The tables of the update sources. -/
structure Db where
  tenants : Table Tenant String Tenant.id
  sources : Table UpdateSource String UpdateSource.id
  snapshots : Table WsusSnapshot String WsusSnapshot.id
  computers : List WsusComputerReport

/-- A request: a transaction over the tables. -/
abbrev Request (α : Type) := Txn Db ServerError α

namespace Db

/-- `source.snapshots`. -/
def receipts (db : Db) (source : String) : List WsusSnapshot :=
  db.snapshots.rows.filter fun s => s.source == source

/-- `order_by("-observed_at")`. -/
def newestFirst (snapshots : List WsusSnapshot) : List WsusSnapshot :=
  snapshots.insertionSort fun s t => t.observedAt ≤ s.observedAt

/-- The receipt under an identifier the source chose. -/
def prior (db : Db) (source snapshotId : String) : Option WsusSnapshot :=
  (db.receipts source).find? fun s => s.snapshotId == snapshotId

/-- The snapshot a new one has to be newer than. -/
def latest (db : Db) (source : UpdateSource) : Option WsusSnapshot :=
  match source.currentSnapshot with
  | some id => db.snapshots.get? id
  | none => (newestFirst (db.receipts source.id)).head?

/-- The snapshots of a source whose data stays. -/
def keep (db : Db) (source : String) : List String :=
  ((newestFirst (db.receipts source)).take 3).map WsusSnapshot.id

/-- A snapshot of the source whose data goes. -/
def pruned (db : Db) (source : String) (s : WsusSnapshot) : Bool :=
  s.source == source && !(db.keep source).contains s.id

/-- Drop the data of all but the newest snapshots of a source. -/
def prune (db : Db) (source : String) : Db :=
  { db with
    computers := db.computers.filter fun r =>
      !db.snapshots.rows.any fun s => db.pruned source s && s.id == r.snapshot
    snapshots := db.snapshots.mapRows
      (fun s => if db.pruned source s then { s with updates := [] } else s)
      fun s => by split <;> rfl }

end Db

/-! ## Reception -/

/-- What a request was authenticated as: the source as it was read then. -/
structure AuthSource where
  id : String
  tenant : String
  tokenHash : String
  deriving DecidableEq

/-- The receipt and the data of a new snapshot. -/
def newSnapshot (source : String) (data : SnapshotData) (id : String) (now : Time) : WsusSnapshot :=
  { id, source, snapshotId := data.snapshotId, digest := data.digest, observedAt := data.observedAt
    receivedAt := now, updates := data.updates, updateCount := data.updates.length
    computerCount := data.computers.length }

/-- The report of a computer in a snapshot. -/
def newReport (id : String) (c : Computer) : WsusComputerReport :=
  { snapshot := id, computerId := c.computerId, fqdn := c.fqdn, reportedAt := c.reportedAt
    updates := c.updates }

/-- Store a new snapshot, make it the current one and drop the data of older ones. -/
def publish (source : UpdateSource) (data : SnapshotData) (id : String) (now : Time) :
    Request (WsusSnapshot × Bool) := do
  let db ← get
  match db.snapshots.insert (newSnapshot source.id data id now) with
  | none => throw .integrityError
  | some snapshots => do
    throwIf (¬(data.computers.map Computer.computerId).Nodup) .integrityError
    let published : Db :=
      { db with
        snapshots
        computers := data.computers.map (newReport id) ++ db.computers
        sources := db.sources.save { source with currentSnapshot := some id } }
    set (published.prune source.id)
    pure (newSnapshot source.id data id now, true)

/-- `ingest`, of validated data; the snapshot gets the free `id`. -/
def ingest (auth : AuthSource) (data : SnapshotData) (id : String) (now : Time) :
    Request (WsusSnapshot × Bool) := do
  let db ← get
  match db.tenants.get? auth.tenant, db.sources.get? auth.id with
  | some tenant, some source => do
    throwIf (tenant.status ≠ .active ∨ source.enabled = false ∨ source.tokenHash ≠ auth.tokenHash)
      (.authenticationFailed "Source authority was withdrawn.")
    throwIf (data.scope ≠ source.scope) (.publicApiError "wsus_scope_mismatch" 400)
    match db.prior source.id data.snapshotId with
    | some prior => do
      throwIf (prior.digest ≠ data.digest) (.publicApiError "wsus_snapshot_conflict" 409)
      pure (prior, false)
    | none => do
      throwIf (source.wsusChangedAt.any fun t => decide (data.observedAt ≤ t))
        (.publicApiError "wsus_snapshot_predates_configuration" 409)
      throwIf ((db.latest source).any fun l => decide (data.observedAt ≤ l.observedAt))
        (.publicApiError "wsus_snapshot_out_of_order" 409)
      throwIf ((db.receipts source.id).length ≥ 10000)
        (.publicApiError "wsus_receipt_limit" 409)
      publish source data id now
  | _, _ => throw .notFound

/-- `SnapshotReceiveView.post`, of a request authenticated as a source. -/
def receive (auth : AuthSource) (data : SnapshotData) (id : String) (now : Time) :
    Request (WsusSnapshot × Bool) := do
  let data ← Txn.ofExcept (data.validate now)
  ingest auth data id now

/-! ## Configuration -/

/-- A WSUS endpoint. -/
structure Endpoint where
  host : String
  port : Nat
  useSsl : Bool
  deriving DecidableEq

def UpdateSource.endpoint (s : UpdateSource) : Endpoint := ⟨s.wsusHost, s.wsusPort, s.wsusUseSsl⟩

/-- The source of a request that may change it; `allowed` is what `manage` answers. -/
def selectedSource (tenant pk : String) (allowed : Bool) : Request UpdateSource := do
  let db ← get
  throwIf (allowed = false) (.publicApiError "forbidden" 403)
  throwIf (((db.tenants.get? tenant).any fun t => t.status == .active) = false)
    (.publicApiError "not_found" 404)
  match (db.sources.get? pk).filter fun s => s.tenant == tenant with
  | none => throw .notFound
  | some source => pure source

/-- `SourceListView.post`; the source gets the free `id` and the digest of a new token. -/
def createSource (tenant name scope : String) (endpoint : Option Endpoint) (allowed : Bool)
    (id tokenHash : String) : Request Unit := do
  let db ← get
  throwIf (allowed = false) (.publicApiError "forbidden" 403)
  throwIf (((db.tenants.get? tenant).any fun t => t.status == .active) = false)
    (.publicApiError "not_found" 404)
  throwIf ((db.sources.rows.filter fun s => s.tenant == tenant).length ≥ 20)
    (.publicApiError "wsus_source_limit" 400)
  let endpoint := endpoint.getD ⟨"", 8531, true⟩
  match db.sources.insert
      { id, tenant, name, scope, wsusHost := endpoint.host, wsusPort := endpoint.port
        wsusUseSsl := endpoint.useSsl, wsusChangedAt := none, enabled := true, tokenHash
        currentSnapshot := none } with
  | none => throw .integrityError
  | some sources => set { db with sources }

/-- A source after a change of its configuration.  Another endpoint takes the current snapshot away:
the catalogue of the old server is not attributed to the new one. -/
def UpdateSource.change (source : UpdateSource) (enabled : Option Bool)
    (endpoint : Option Endpoint) (now : Time) : UpdateSource :=
  let changed := { source with enabled := enabled.getD source.enabled }
  match endpoint with
  | none => changed
  | some e =>
    let configured :=
      { changed with wsusHost := e.host, wsusPort := e.port, wsusUseSsl := e.useSsl }
    if e = source.endpoint then configured
    else { configured with currentSnapshot := none, wsusChangedAt := some now }

/-- `SourceDetailView.patch`. -/
def patchSource (tenant pk : String) (enabled : Option Bool) (endpoint : Option Endpoint)
    (allowed : Bool) (now : Time) : Request Unit := do
  let source ← selectedSource tenant pk allowed
  throwIf (enabled = none ∧ endpoint = none)
    (.validationError "Supply a configuration change.")
  modify fun db => { db with sources := db.sources.save (source.change enabled endpoint now) }

/-- `SourceRotateView.post`. -/
def rotateToken (tenant pk : String) (allowed : Bool) (tokenHash : String) : Request Unit := do
  let source ← selectedSource tenant pk allowed
  modify fun db => { db with sources := db.sources.save { source with tokenHash } }

end Ipms.Server.Updates
