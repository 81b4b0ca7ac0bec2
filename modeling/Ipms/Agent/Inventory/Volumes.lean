import Ipms.Agent.JsonText

/-
  Ipms.Agent.Inventory.Volumes

  The fixed volumes a Windows and a Linux agent report: which ones, and the text
  of the list.  Sizes and percentages are 64-bit numbers of the machine.
-/

namespace Ipms.Agent.Inventory

open Ipms.ManagementJson

/-- One entry of the list, in the members and the order both agents write. -/
def volumeDoc (name label filesystem : Bytes) (total free percent : Nat) : Doc := .obj
  [("name", .text name), ("label", .text label), ("filesystem", .text filesystem),
    ("total_bytes", .nat total), ("free_bytes", .nat free), ("used_percent", .nat percent)]

/-- `(used * 100 + total / 2) / total`, in the arithmetic of the machine. -/
def usedPercent (total free : UInt64) : UInt64 := ((total - free) * 100 + total / 2) / total

/-! ## Windows -/

/-- A drive of `GetLogicalDriveStringsW`, and what the calls about it give. -/
structure Drive where
  root : Wide
  /-- `GetDriveTypeW` is `DRIVE_FIXED` -/
  fixed : Bool
  /-- the total and the free bytes of `GetDiskFreeSpaceExW` -/
  space : Option (UInt64 × UInt64)
  /-- the label and the file system of `GetVolumeInformationW` -/
  label : Wide
  filesystem : Wide

/-- A drive that is reported. -/
structure WindowsVolume where
  root : Wide
  label : Wide
  filesystem : Wide
  total : UInt64
  free : UInt64

/-- A fixed drive of a size that is known. -/
def Drive.volume? (d : Drive) : Option WindowsVolume :=
  if d.fixed then
    match d.space with
    | some (total, free) =>
      if total = 0 then none else some ⟨d.root, d.label, d.filesystem, total, free⟩
    | none => none
  else none

/-- The drives of the loop of `fixed_volumes_json`, which ends behind the 64th. -/
def fixedVolumes (drives : List Drive) : List WindowsVolume := (drives.filterMap Drive.volume?).take 64

/-- The text of an entry; the percentage is cast to `unsigned`. -/
def WindowsVolume.doc (v : WindowsVolume) : Doc :=
  volumeDoc (toUtf8 v.root) (toUtf8 v.label) (toUtf8 v.filesystem) v.total.toNat v.free.toNat
    (usedPercent v.total v.free).toUInt32.toNat

def fixedVolumesJson (drives : List Drive) : Bytes :=
  (Doc.arr ((fixedVolumes drives).map WindowsVolume.doc)).write .question

/-! ## Linux -/

/-- `std::isspace`. -/
def isspace (b : UInt8) : Bool := b == 32 || decide (9 ≤ b.toNat) && decide (b.toNat ≤ 13)

def trim (value : Bytes) : Bytes :=
  ((value.dropWhile isspace).reverse.dropWhile isspace).reverse

def bounded (value : Bytes) (limit : Nat) : Bytes := (trim value).take limit

/-- An entry of the mount table, and the block counts of `statvfs`. -/
structure MountEntry where
  fsname : Bytes
  dir : Bytes
  type : Bytes
  /-- `f_blocks`, `f_bavail` and `f_frsize` -/
  status : Option (UInt64 × UInt64 × UInt64)

def excludedFilesystems : List String :=
  ["autofs", "cgroup", "cgroup2", "debugfs", "devpts", "devtmpfs", "efivarfs", "fusectl", "hugetlbfs",
    "mqueue", "overlay", "proc", "pstore", "securityfs", "squashfs", "sysfs", "tmpfs", "tracefs"]

/-- A mount that is reported. -/
structure LinuxVolume where
  dir : Bytes
  type : Bytes
  total : UInt64
  free : UInt64

/-- The size and the free bytes of a mount, when they make sense. -/
def MountEntry.volume? (e : MountEntry) : Option LinuxVolume :=
  match e.status with
  | some (blocks, available, size) =>
    let total := blocks * size
    let free := available * size
    if total = 0 ∨ free > total then none else some ⟨e.dir, e.type, total, free⟩
  | none => none

/-- An entry the loop does not pass over at once. -/
def MountEntry.eligible (e : MountEntry) : Bool :=
  e.fsname.head? == some 47 && !(excludedFilesystems.map utf8).contains e.type

/-- The loop of `volumes_json`: the directories it has seen and how many mounts it has written. -/
def volumesFrom : List MountEntry → List Bytes → Nat → List LinuxVolume
  | [], _, _ => []
  | e :: entries, seen, emitted =>
    if emitted ≥ 64 ∨ e.eligible = false ∨ seen.contains e.dir then volumesFrom entries seen emitted
    else
      match e.volume? with
      | none => volumesFrom entries (e.dir :: seen) emitted
      | some v => v :: volumesFrom entries (e.dir :: seen) (emitted + 1)

/-- The mounts `volumes_json` writes. -/
def volumes (entries : List MountEntry) : List LinuxVolume := volumesFrom entries [] 0

/-- The text of an entry. -/
def LinuxVolume.doc (v : LinuxVolume) : Doc :=
  volumeDoc (bounded v.dir 16) [] (bounded v.type 64) v.total.toNat v.free.toNat
    (usedPercent v.total v.free).toNat

def volumesJson (entries : List MountEntry) : Bytes :=
  (Doc.arr ((volumes entries).map LinuxVolume.doc)).write .escaped

theorem length_bounded (value : Bytes) (limit : Nat) : (bounded value limit).length ≤ limit :=
  List.length_take_le _ _

theorem length_fixedVolumes (drives : List Drive) : (fixedVolumes drives).length ≤ 64 :=
  List.length_take_le _ _

theorem length_volumesFrom (entries : List MountEntry) (seen : List Bytes) (emitted : Nat)
    (h : emitted ≤ 64) : (volumesFrom entries seen emitted).length + emitted ≤ 64 := by
  induction entries generalizing seen emitted with
  | nil =>
    rw [volumesFrom, List.length_nil]
    omega
  | cons e entries ih =>
    rw [volumesFrom]
    split
    · exact ih _ _ h
    · next hskip =>
        split
        · exact ih _ _ h
        · have hrest := ih (e.dir :: seen) (emitted + 1) (by omega)
          rw [List.length_cons]
          omega

theorem length_volumes (entries : List MountEntry) : (volumes entries).length ≤ 64 :=
  length_volumesFrom entries [] 0 (by decide)

end Ipms.Agent.Inventory
