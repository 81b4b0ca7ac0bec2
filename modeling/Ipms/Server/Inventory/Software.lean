import Mathlib.Data.List.Sort
import Ipms.Server.AgentPki.Issuers
import Ipms.Server.Document

/-
  Ipms.Server.Inventory.Software

  The reception of software inventories.  An agent sends a snapshot of its
  packages page by page; the portal stores the pages as they come, completes the
  snapshot when it has them all, and then drops the agent's other snapshots.
-/

namespace Ipms.Server.Inventory

open Ipms.Lib Ipms.ManagementJson
open Ipms.Server.AgentPki (AgentEnrollment Platform inserted)

/-! ## Tables -/

/-- `SoftwarePackage.UpdateState`. -/
inductive UpdateState where
  | current | available | unknown
  deriving DecidableEq

/-- The columns of a `SoftwarePackage` that a page gives. -/
structure SoftwarePackage where
  sourceId : String
  name : String
  installedVersion : String
  availableVersion : String
  publisher : String
  packageType : String
  updateState : UpdateState
  isOsComponent : Bool
  deriving DecidableEq

/-- A stored package of a snapshot. -/
structure PackageRow where
  tenant : String
  snapshot : String
  package : SoftwarePackage
  deriving DecidableEq

/-- The unique columns of a stored package. -/
def PackageRow.key (r : PackageRow) : String × String := (r.snapshot, r.package.sourceId)

/-- `SoftwareInventorySnapshot.Status`. -/
inductive SnapshotStatus where
  | receiving | completed
  deriving DecidableEq

structure SoftwareInventorySnapshot where
  id : String
  tenant : String
  enrollment : String
  platform : Platform
  status : SnapshotStatus
  pageCount : Nat
  receivedPages : List Nat
  rebootRequired : Option Bool
  updateScanStatus : String
  lastUpdateScanAt : Option Time
  lastUpdateInstallAt : Option Time
  windowsUpdateEvidence : Value
  packageCount : Nat
  updatesAvailable : Nat
  completedAt : Option Time
  deriving DecidableEq

/-- The tables of the inventory. -/
structure Db where
  tenants : Table Tenant String Tenant.id
  /-- the servers and Linux systems, by platform, tenant and device -/
  systems : List (Platform × String × String)
  snapshots : Table SoftwareInventorySnapshot String SoftwareInventorySnapshot.id
  packages : Table PackageRow (String × String) PackageRow.key
  lastSeenAt : List (String × Time)

/-- A request: a transaction over the tables. -/
abbrev Request (α : Type) := Txn Db ServerError α

/-- What the code asks of Python and its libraries. -/
structure Python where
  /-- the text of `uuid.UUID(str(value))` -/
  uuid : Value → Option String
  /-- `parse_datetime`, of a text with a time zone -/
  parseDatetime : String → Except ServerError (Option Time)
  /-- the data of a valid `AgentUpdateEvidenceSerializer` -/
  evidence : Value → Option Value

/-! ## Documents -/

/-- A check of a document that fails with a validation error. -/
def invalid {α : Type} (message : String) : Except ServerError α :=
  throw (.validationError message)

/-- A value that is there, or the error of a document without it. -/
def required {α : Type} (found : Option α) (message : String) : Except ServerError α :=
  match found with
  | some a => pure a
  | none => invalid message

/-- The members of an object with exactly the given keys, in any order. -/
def checkFields (document : Value) (fields : List String) (message : String) :
    Except ServerError Unit :=
  match document with
  | .obj members => throwIf (keysAre members fields = false) (.validationError message)
  | _ => invalid message

/-- `document.get`. -/
def member (document : Value) (name : String) : Value := (document.get? name).getD .null

def boundedObjectString (document : Value) (name : String) (maximum : Nat) :
    Except ServerError String :=
  match (document.get? name).getD (.str "") with
  | .str text =>
    if len text ≤ maximum then pure (String.ofList (strip text.toList))
    else invalid s!"The Agent inventory field is invalid: {name}."
  | _ => invalid s!"The Agent inventory field is invalid: {name}."

/-- A value of `SoftwarePackage.UpdateState.values`. -/
def UpdateState.of? : String → Option UpdateState
  | "current" => some .current
  | "update-available" => some .available
  | "unknown" => some .unknown
  | _ => none

/-- The keys of a package. -/
def packageFields : List String :=
  ["source_id", "name", "installed_version", "available_version", "publisher", "package_type",
    "update_state", "is_os_component"]

def boolean? : Value → Option Bool
  | .bool b => some b
  | _ => none

/-- One package of a page, behind the identities seen before it. -/
def boundedSoftwarePackage (seen : List String) (value : Value) :
    Except ServerError SoftwarePackage := do
  let wrong := "The Agent software package is invalid."
  checkFields value packageFields wrong
  let sourceId ← boundedObjectString value "source_id" 255
  let name ← boundedObjectString value "name" 255
  let installedVersion ← boundedObjectString value "installed_version" 255
  let availableVersion ← boundedObjectString value "available_version" 255
  let publisher ← boundedObjectString value "publisher" 255
  let packageType ← boundedObjectString value "package_type" 32
  let updateState ← boundedObjectString value "update_state" 24
  throwIf (sourceId = "" ∨ sourceId ∈ seen ∨ name = "" ∨ packageType = "") (.validationError wrong)
  let updateState ← required (UpdateState.of? updateState) wrong
  let isOsComponent ← required (boolean? (member value "is_os_component")) wrong
  throwIf (updateState = .available ∧ availableVersion = "")
    (.validationError "An available software update requires a version.")
  pure { sourceId, name, installedVersion, availableVersion, publisher, packageType, updateState
         isOsComponent }

/-- The packages of a page, one after the other. -/
def readPackages : List Value → List String → Except ServerError (List SoftwarePackage)
  | [], _ => pure []
  | value :: values, seen => do
    let package ← boundedSoftwarePackage seen value
    let packages ← readPackages values (package.sourceId :: seen)
    pure (package :: packages)

def boundedSoftwarePackages : Value → Except ServerError (List SoftwarePackage)
  | .arr values => do
    throwIf (values.length > 128)
      (.validationError "The Agent software package page is invalid.")
    readPackages values []
  | _ => invalid "The Agent software package page is invalid."

def boundedOptionalTimestamp (py : Python) (value : Value) : Except ServerError (Option Time) :=
  match value with
  | .null => pure none
  | .str text => do
    if text = "" then pure none
    else do
      throwIf (len text > 64)
        (.validationError "The Agent software-inventory timestamp is invalid.")
      match ← py.parseDatetime text with
      | some t => pure (some t)
      | none => invalid "The Agent software-inventory timestamp is invalid."
  | _ => invalid "The Agent software-inventory timestamp is invalid."

/-- The keys of a software inventory document. -/
def softwareFields : List String :=
  ["schema_version", "platform", "snapshot_id", "page_index", "page_count", "reboot_required",
    "update_scan_status", "last_update_scan_at", "last_update_install_at", "packages"]

/-- A value of `SoftwareInventorySnapshot.Platform.values`. -/
def platformOf? : Value → Option Platform
  | .str "windows" => some .windows
  | .str "linux" => some .linux
  | _ => none

/-- A page, as far as it is checked before the agent's system is looked up. -/
structure Page where
  snapshotId : String
  platform : Platform
  pageIndex : Nat
  pageCount : Nat
  rebootRequired : Option Bool
  updateScanStatus : String
  windowsUpdateEvidence : Value
  packages : List SoftwarePackage
  deriving DecidableEq

/-- The evidence of a document of schema 2; a document of schema 1 has none. -/
def readEvidence (py : Python) (platform : Platform) (document : Value) :
    Except ServerError Value := do
  if member document "schema_version" = .str "2" then do
    throwIf (platform ≠ .windows)
      (.validationError "Installed Windows update evidence requires a Windows Agent.")
    required (py.evidence (member document "windows_update_evidence"))
      "The Agent installed update evidence is invalid."
  else pure (.obj [])

/-- The index of a page and how many there are. -/
def pageNumbers (document : Value) : Option (Nat × Nat) :=
  match member document "page_index", member document "page_count" with
  | .int index, .int count =>
    if 1 ≤ count ∧ count ≤ 64 ∧ 0 ≤ index ∧ index < count then some (index.toNat, count.toNat)
    else none
  | _, _ => none

/-- A value that may be null or a boolean. -/
def readReboot (value : Value) : Except ServerError (Option Bool) :=
  match value with
  | .null => pure none
  | value => do
    let reboot ← required (boolean? value) "The Agent reboot-required value is invalid."
    pure (some reboot)

/-- The checks of a page's own fields. -/
def readPage (py : Python) (enrollment : AgentEnrollment) (document : Value)
    (agentVersion : String) : Except ServerError Page := do
  checkFields document
    (if member document "schema_version" = .str "2"
      then softwareFields ++ ["windows_update_evidence"] else softwareFields)
    "The Agent software inventory document is invalid."
  throwIf (member document "schema_version" ≠ .str "1" ∧ member document "schema_version" ≠ .str "2")
    (.validationError "The Agent software inventory schema is invalid.")
  throwIf (¬(1 ≤ len agentVersion ∧ len agentVersion ≤ 64))
    (.validationError "The Agent version is invalid.")
  let platform ← required (platformOf? (member document "platform"))
    "The Agent software inventory platform is invalid."
  throwIf (platform ≠ enrollment.platform)
    (.validationError "The Agent software platform does not match enrollment.")
  let windowsUpdateEvidence ← readEvidence py platform document
  let snapshotId ← required (py.uuid (member document "snapshot_id"))
    "The Agent software snapshot identity is invalid."
  let numbers ← required (pageNumbers document) "The Agent software inventory page is invalid."
  let rebootRequired ← readReboot (member document "reboot_required")
  let updateScanStatus ← boundedObjectString document "update_scan_status" 32
  throwIf (updateScanStatus ∉ ["current", "updates-available", "unknown", "unavailable"])
    (.validationError "The Agent update scan status is invalid.")
  let packages ← boundedSoftwarePackages (member document "packages")
  pure { snapshotId, platform, pageIndex := numbers.1, pageCount := numbers.2, rebootRequired
         updateScanStatus, windowsUpdateEvidence, packages }

/-! ## Confirmation -/

def Db.requireActiveTenant (db : Db) (id : String) : Except ServerError Tenant :=
  match (db.tenants.get? id).filter fun t => t.status == .active with
  | some tenant => pure tenant
  | none => invalid "tenant_inactive"

def Page.opens (page : Page) (enrollment : AgentEnrollment)
    (lastUpdateScanAt lastUpdateInstallAt : Option Time) : SoftwareInventorySnapshot where
  id := page.snapshotId
  tenant := enrollment.tenant
  enrollment := enrollment.id
  platform := page.platform
  status := .receiving
  pageCount := page.pageCount
  receivedPages := []
  rebootRequired := page.rebootRequired
  updateScanStatus := page.updateScanStatus
  lastUpdateScanAt
  lastUpdateInstallAt
  windowsUpdateEvidence := page.windowsUpdateEvidence
  packageCount := 0
  updatesAvailable := 0
  completedAt := none

/-- A page continues a snapshot that is being received and that it would have opened alike. -/
def SoftwareInventorySnapshot.continuedBy (snapshot opened : SoftwareInventorySnapshot) : Prop :=
  snapshot.tenant = opened.tenant ∧ snapshot.enrollment = opened.enrollment ∧
    snapshot.platform = opened.platform ∧ snapshot.pageCount = opened.pageCount ∧
    snapshot.status = .receiving ∧ snapshot.rebootRequired = opened.rebootRequired ∧
    snapshot.updateScanStatus = opened.updateScanStatus ∧
    snapshot.windowsUpdateEvidence = opened.windowsUpdateEvidence ∧
    snapshot.lastUpdateScanAt = opened.lastUpdateScanAt ∧
    snapshot.lastUpdateInstallAt = opened.lastUpdateInstallAt

instance (snapshot opened : SoftwareInventorySnapshot) :
    Decidable (snapshot.continuedBy opened) :=
  inferInstanceAs (Decidable (_ ∧ _))

/-- `get_or_create`, and the scope of a snapshot that was there. -/
def getOrCreateSnapshot (opened : SoftwareInventorySnapshot) : Request SoftwareInventorySnapshot := do
  let db ← get
  match db.snapshots.get? opened.id with
  | some snapshot => do
    throwIf (¬snapshot.continuedBy opened)
      (.validationError "The Agent software snapshot scope is invalid.")
    pure snapshot
  | none => do
    let snapshots ← Txn.ofExcept (inserted db.snapshots (fun _ => false) opened)
    set { db with snapshots }
    pure opened

/-- The stored packages of a snapshot. -/
def Db.packagesOf (db : Db) (snapshot : String) : List SoftwarePackage :=
  (db.packages.rows.filter fun r => r.snapshot == snapshot).map PackageRow.package

def bulkCreate (tenant snapshot : String) (packages : List SoftwarePackage)
    (stored : Table PackageRow (String × String) PackageRow.key) :
    Except ServerError (Table PackageRow (String × String) PackageRow.key) :=
  packages.foldlM (fun t package => inserted t (fun _ => false) ⟨tenant, snapshot, package⟩) stored

/-- A snapshot that has all its pages. -/
def Db.completed (db : Db) (now : Time) (snapshot : SoftwareInventorySnapshot) :
    SoftwareInventorySnapshot :=
  { snapshot with
    status := .completed
    completedAt := some now
    packageCount := (db.packagesOf snapshot.id).length
    updatesAvailable := (db.packagesOf snapshot.id).countP fun p => p.updateState == .available }

/-- A snapshot of an agent other than the given one. -/
def SoftwareInventorySnapshot.supersededBy (snapshot : SoftwareInventorySnapshot)
    (s : SoftwareInventorySnapshot) : Bool :=
  s.enrollment == snapshot.enrollment && s.id != snapshot.id

/-- Delete the agent's other snapshots, and their packages with them. -/
def Db.dropSuperseded (db : Db) (snapshot : SoftwareInventorySnapshot) : Db :=
  { db with
    snapshots := ⟨db.snapshots.rows.filter fun s => !snapshot.supersededBy s,
      List.Nodup.sublist (List.filter_sublist.map _) db.snapshots.nodup⟩
    packages := ⟨db.packages.rows.filter fun r =>
        !(db.snapshots.get? r.snapshot).any fun s => snapshot.supersededBy s,
      List.Nodup.sublist (List.filter_sublist.map _) db.packages.nodup⟩ }

def confirmSoftwareInventory (py : Python) (now : Time) (enrollment : AgentEnrollment)
    (document : Value) (agentVersion : String) : Request Unit := do
  let db ← get
  let _ ← Txn.ofExcept (db.requireActiveTenant enrollment.tenant)
  let page ← Txn.ofExcept (readPage py enrollment document agentVersion)
  throwIf ((page.platform, enrollment.tenant, enrollment.deviceUri) ∉ db.systems)
    (.validationError "Agent inventory is required before software inventory.")
  let scanAt ← Txn.ofExcept (boundedOptionalTimestamp py (member document "last_update_scan_at"))
  let installAt ← Txn.ofExcept
    (boundedOptionalTimestamp py (member document "last_update_install_at"))
  let snapshot ← getOrCreateSnapshot (page.opens enrollment scanAt installAt)
  throwIf (page.pageIndex ∈ snapshot.receivedPages)
    (.validationError "The Agent software inventory page was already received.")
  let db ← get
  throwIf ((db.packagesOf snapshot.id).any (fun p =>
      (page.packages.map SoftwarePackage.sourceId).contains p.sourceId) = true)
    (.validationError "The Agent software package is duplicated across pages.")
  let packages ← Txn.ofExcept
    (bulkCreate enrollment.tenant snapshot.id page.packages db.packages)
  let snapshot := { snapshot with
    receivedPages := List.insertionSort (· ≤ ·) (snapshot.receivedPages ++ [page.pageIndex]) }
  set { db with packages, snapshots := db.snapshots.save snapshot }
  if snapshot.receivedPages.length = snapshot.pageCount then
    modify fun db =>
      ({ db with snapshots := db.snapshots.save (db.completed now snapshot) } : Db).dropSuperseded
        snapshot
  modify fun db => { db with lastSeenAt := (enrollment.id, now) :: db.lastSeenAt }

end Ipms.Server.Inventory
