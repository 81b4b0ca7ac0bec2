import Ipms.Crypto.Sha256
import Ipms.Lib.Fallible
import Ipms.Lib.LittleEndian

/-
  Ipms.Importer.Artifacts

  The bundles of the policy backups: the encoder of the importer, and the trust
  descriptors that it derives from the same files.  The catalog of descriptors is
  rendered twice, as the table compiled into the agent and as that of the server.
-/

namespace Ipms.Importer

open Ipms.ManagementJson
open Ipms.Crypto (sha256)
open Ipms.Lib (throwIf)
open Ipms.Lib.LittleEndian (value slice spans framed table table_cons length_framed length_bytes
  eq_framed_append_iff Tiles tiles_table)

/-! ## The encoder -/

/-- `MAGIC`, "IPMSGPO1". -/
def magic : Bytes := [0x49, 0x50, 0x4d, 0x53, 0x47, 0x50, 0x4f, 0x31]

def maxFiles : Nat := 16

def maxFileBytes : Nat := 512 * 1024

def maxArtifactBytes : Nat := 1024 * 1024

/-- A dictionary of files: the bytes under each path. -/
structure Files where
  items : List (String × Bytes)
  nodup : (items.map (·.1)).Nodup

/-- `sorted(files)`, each name with its bytes. -/
def Files.sorted (files : Files) : List (String × Bytes) :=
  files.items.mergeSort fun a b => decide (a.1 ≤ b.1)

/-- The contents in the order of the names. -/
def Files.contents (files : Files) : List Bytes := files.sorted.map (·.2)

/-- The errors of the encoder. -/
inductive ArtifactError where
  | valueError (message : String)
  deriving DecidableEq

def encodeArtifact (files : Files) : Except ArtifactError Bytes := do
  throwIf (¬(0 < files.items.length ∧ files.items.length ≤ maxFiles) ∨
      ∃ item ∈ files.items, ¬(0 < item.2.length ∧ item.2.length ≤ maxFileBytes))
    (.valueError "GPO artifact file count or size exceeds bounds")
  throwIf (12 + (files.items.map fun item => 4 + item.2.length).sum > maxArtifactBytes)
    (.valueError "GPO artifact exceeds size limit")
  return magic ++ Lib.LittleEndian.bytes 4 files.items.length ++ table 4 files.contents

/-! ## The descriptors -/

structure FileDescriptor where
  path : String
  bytes : Nat
  sha256 : String
  deriving DecidableEq

/-- `component_descriptor`: what the decoders of a bundle read of it. -/
structure Component where
  baselineId : String
  backupId : String
  name : String
  artifactSha256 : String
  artifactSize : Nat
  files : List FileDescriptor
  deriving DecidableEq

def describeFile (item : String × Bytes) : FileDescriptor :=
  { path := item.1, bytes := item.2.length, sha256 := sha256 item.2 }

/-- `descriptor.update` of `build_catalog`: what it derives from the files of a backup and from
their encoding. -/
def describe (baselineId backupId name : String) (files : Files) (artifact : Bytes) : Component :=
  { baselineId, backupId, name
    artifactSha256 := sha256 artifact
    artifactSize := artifact.length
    files := files.sorted.map describeFile }

/-- A pinned component was derived from files that the encoder accepts. -/
def Pinned (c : Component) : Prop :=
  ∃ files artifact, encodeArtifact files = .ok artifact ∧
    c = describe c.baselineId c.backupId c.name files artifact

/-- The catalog that the importer renders for the agent and for the server. -/
structure Catalog where
  components : List Component
  pinned : ∀ c ∈ components, Pinned c
  distinct : (components.map fun c => (c.baselineId, c.backupId)).Nodup

/-! ## What the encoder accepts -/

theorem Files.perm_sorted (files : Files) : files.sorted.Perm files.items :=
  List.mergeSort_perm _ _

@[simp] theorem Files.length_sorted (files : Files) : files.sorted.length = files.items.length :=
  files.perm_sorted.length_eq

@[simp] theorem Files.mem_sorted {files : Files} {item : String × Bytes} :
    item ∈ files.sorted ↔ item ∈ files.items :=
  files.perm_sorted.mem_iff

theorem length_table (contents : List Bytes) :
    (table 4 contents).length = (contents.map fun data => 4 + data.length).sum := by
  induction contents with
  | nil => rfl
  | cons data rest ih =>
    rw [table_cons, List.length_append, length_framed, ih, List.map_cons, List.sum_cons]

/-- What an encoding consists of, and the bounds it keeps. -/
structure Encoded (files : Files) (artifact : Bytes) : Prop where
  some_file : 0 < files.items.length
  few_files : files.items.length ≤ maxFiles
  small_files : ∀ data ∈ files.contents, data.length ≤ maxFileBytes
  small : artifact.length ≤ maxArtifactBytes
  eq : artifact = magic ++ Lib.LittleEndian.bytes 4 files.items.length ++ table 4 files.contents

theorem encoded_of_encodeArtifact {files : Files} {artifact : Bytes}
    (h : encodeArtifact files = .ok artifact) : Encoded files artifact := by
  obtain ⟨⟨⟩, hbounds, h⟩ := Lib.bind_eq_ok.mp h
  obtain ⟨⟨⟩, htotal, h⟩ := Lib.bind_eq_ok.mp h
  have heq := (Lib.pure_eq_ok.mp h).symm
  have hbounds := Lib.throwIf_eq_ok.mp hbounds
  have htotal := Lib.throwIf_eq_ok.mp htotal
  push Not at hbounds htotal
  obtain ⟨⟨hsome, hfew⟩, hsmall⟩ := hbounds
  have hsum : (files.items.map fun item => 4 + item.2.length).sum =
      (files.contents.map fun data => 4 + data.length).sum := by
    rw [Files.contents, List.map_map]
    exact ((files.perm_sorted.map _).sum_nat).symm
  refine ⟨hsome, hfew, ?_, ?_, heq⟩
  · intro data hdata
    obtain ⟨item, hitem, rfl⟩ := List.mem_map.mp hdata
    exact (hsmall item (Files.mem_sorted.mp hitem)).2
  · rw [heq, List.length_append, List.length_append, length_bytes, length_table, ← hsum]
    show 8 + 4 + _ ≤ _
    omega

theorem Pinned.bounds {c : Component} (h : Pinned c) :
    0 < c.files.length ∧ c.files.length ≤ maxFiles ∧ (∀ f ∈ c.files, f.bytes ≤ maxFileBytes) ∧
      c.artifactSize ≤ maxArtifactBytes := by
  obtain ⟨files, artifact, hencode, hc⟩ := h
  have hencoded := encoded_of_encodeArtifact hencode
  have hfiles : c.files = files.sorted.map describeFile := congrArg Component.files hc
  have hlength : c.files.length = files.items.length := by
    rw [hfiles, List.length_map, Files.length_sorted]
  refine ⟨hlength ▸ hencoded.some_file, hlength ▸ hencoded.few_files, ?_, ?_⟩
  · intro f hf
    rw [hfiles] at hf
    obtain ⟨item, hitem, rfl⟩ := List.mem_map.mp hf
    exact hencoded.small_files item.2 (List.mem_map_of_mem hitem)
  · rw [hc]
    exact hencoded.small

/-! ## What the decoders look for -/

/-- A content as a descriptor pins it, of at most `limit` bytes. -/
def Fits (limit : Nat) (f : FileDescriptor) (content : Bytes) : Prop :=
  content.length = f.bytes ∧ content.length ≤ limit ∧ sha256 content = f.sha256

/-- What one turn of a decoder asks of the bytes from an offset on. -/
def Turn (limit : Nat) (bytes : Bytes) (offset : Nat) (f : FileDescriptor) : Prop :=
  offset + 4 ≤ bytes.length ∧ value (slice bytes (offset, 4)) = f.bytes ∧ f.bytes ≤ limit ∧
    offset + 4 + f.bytes ≤ bytes.length ∧ sha256 (slice bytes (offset + 4, f.bytes)) = f.sha256

/-- From an offset on, the bytes hold the table of contents that fit the descriptors. -/
def Holds (limit : Nat) (bytes : Bytes) (offset : Nat) (items : List FileDescriptor)
    (contents : List Bytes) : Prop :=
  List.Forall₂ (Fits limit) items contents ∧ ∃ rest, bytes.drop offset = table 4 contents ++ rest

variable {limit offset : Nat} {bytes : Bytes} {f : FileDescriptor} {items : List FileDescriptor}
  {contents : List Bytes}

theorem holds_nil_iff : Holds limit bytes offset [] contents ↔ contents = [] := by
  constructor
  · rintro ⟨h, -⟩
    exact List.forall₂_nil_left_iff.mp h
  · rintro rfl
    exact ⟨.nil, bytes.drop offset, rfl⟩

/-- The table of a descriptor and more is read in one turn and the turns behind it. -/
theorem holds_cons_iff (hlimit : limit < 256 ^ 4) (hoffset : offset ≤ bytes.length) :
    Holds limit bytes offset (f :: items) contents ↔
      Turn limit bytes offset f ∧ ∃ rest,
        contents = slice bytes (offset + 4, f.bytes) :: rest ∧
          Holds limit bytes (offset + 4 + f.bytes) items rest := by
  constructor
  · rintro ⟨hfits, tail, hdrop⟩
    cases hfits with
    | cons hfit hrest =>
      rename_i content contents
      obtain ⟨hlength, hsmall, hsha⟩ := hfit
      rw [table_cons, List.append_assoc] at hdrop
      obtain ⟨hfour, hvalue, htake, hnext⟩ :=
        (eq_framed_append_iff (Nat.lt_of_le_of_lt hsmall hlimit)).mp hdrop
      have hroom : content.length ≤ ((bytes.drop offset).drop 4).length := by
        rw [← htake]
        exact List.length_take_le' _ _
      have hslice : slice bytes (offset + 4, f.bytes) = content := by
        rw [slice, ← List.drop_drop, ← hlength]
        exact htake
      simp only [List.length_drop] at hfour hroom
      refine ⟨⟨by omega, hvalue.trans hlength, hlength ▸ hsmall, by omega, hslice ▸ hsha⟩,
        contents, by rw [hslice], hrest, tail, ?_⟩
      rw [← hnext, List.drop_drop, hlength, Nat.add_assoc]
  · rintro ⟨⟨hfour, hvalue, hsmall, hroom, hsha⟩, contents, rfl, hrest, tail, hnext⟩
    have hlength : (slice bytes (offset + 4, f.bytes)).length = f.bytes := by
      rw [slice, List.length_take, List.length_drop]
      omega
    refine ⟨.cons ⟨hlength, hlength.trans_le hsmall, hsha⟩ hrest, tail, ?_⟩
    rw [table_cons, List.append_assoc]
    refine (eq_framed_append_iff (by omega)).mpr ⟨?_, hvalue.trans hlength.symm, ?_, ?_⟩
    · rw [List.length_drop]
      omega
    · rw [List.drop_drop, hlength, slice]
    · rw [hlength, List.drop_drop, ← hnext, Nat.add_assoc]

theorem Holds.of_bounds {bound : Nat} (h : Holds limit bytes offset items contents)
    (hitems : ∀ f ∈ items, f.bytes ≤ bound) : Holds bound bytes offset items contents := by
  obtain ⟨hfits, htable⟩ := h
  refine ⟨?_, htable⟩
  clear htable
  induction hfits with
  | nil => exact .nil
  | cons hfit _ ih =>
    obtain ⟨hlength, -, hsha⟩ := hfit
    refine .cons ⟨hlength, ?_, hsha⟩ (ih fun f hf => hitems f (List.mem_cons_of_mem _ hf))
    rw [hlength]
    exact hitems _ List.mem_cons_self

/-- A bundle of a component: the magic, the number of files and the table of their contents, and
nothing behind it. -/
structure Bundle (limit : Nat) (c : Component) (bytes : Bytes) (contents : List Bytes) : Prop where
  header : 12 ≤ bytes.length
  magic : bytes.take 8 = magic
  count : value (slice bytes (8, 4)) = c.files.length
  holds : Holds limit bytes 12 c.files contents
  stop : 12 + (table 4 contents).length = bytes.length

theorem Bundle.eq {c : Component} (h : Bundle limit c bytes contents) :
    bytes = Importer.magic ++ Lib.LittleEndian.bytes 4 c.files.length ++ table 4 contents := by
  obtain ⟨hheader, hmagic, hcount, ⟨-, rest, hdrop⟩, hstop⟩ := h
  have hrest : rest = [] := by
    have hlength := congrArg List.length hdrop
    rw [List.length_drop, List.length_append] at hlength
    exact List.length_eq_zero_iff.mp (by omega)
  have hslice : slice bytes (8, 4) = Lib.LittleEndian.bytes 4 c.files.length := by
    refine Lib.LittleEndian.eq_bytes ?_ hcount
    rw [slice, List.length_take, List.length_drop]
    omega
  calc bytes = bytes.take 8 ++ ((bytes.drop 8).take 4 ++ (bytes.drop 8).drop 4) := by
        rw [List.take_append_drop, List.take_append_drop]
    _ = Importer.magic ++ (Lib.LittleEndian.bytes 4 c.files.length ++ table 4 contents) := by
        rw [hmagic, ← hslice, List.drop_drop, hdrop, hrest, List.append_nil, slice]
    _ = _ := (List.append_assoc _ _ _).symm

theorem Bundle.tiles {c : Component} (hlimit : limit < 256 ^ 4) (h : Bundle limit c bytes contents) :
    Tiles 4 bytes 12 bytes.length (spans 4 12 contents) ∧
      (spans 4 12 contents).map (slice bytes) = contents := by
  obtain ⟨hfits, rest, hdrop⟩ := h.holds
  have hsmall : ∀ content ∈ contents, content.length < 256 ^ 4 := by
    intro content hcontent
    obtain ⟨n, hn, rfl⟩ := List.mem_iff_getElem.mp hcontent
    have hfit := (List.forall₂_iff_get.mp hfits).2 n (by rw [hfits.length_eq]; exact hn) hn
    exact Nat.lt_of_le_of_lt hfit.2.1 hlimit
  have htiles := tiles_table hsmall hdrop h.header
  rwa [h.stop] at htiles

theorem bundle_of_encoded {files : Files} {artifact : Bytes} (h : Encoded files artifact)
    (baselineId backupId name : String) :
    Bundle maxFileBytes (describe baselineId backupId name files artifact) artifact files.contents := by
  have hcount : (describe baselineId backupId name files artifact).files.length =
      files.items.length := by
    show (files.sorted.map describeFile).length = _
    rw [List.length_map, Files.length_sorted]
  have hmagic : Importer.magic.length = 8 := rfl
  have hwidth := length_bytes 4 files.items.length
  have hfew := h.few_files
  have heq : artifact = Importer.magic ++ (Lib.LittleEndian.bytes 4 files.items.length ++
      table 4 files.contents) := by rw [h.eq, List.append_assoc]
  have hlength : artifact.length = 12 + (table 4 files.contents).length := by
    rw [heq, List.length_append, List.length_append, hmagic, hwidth]
    omega
  have hdrop : artifact.drop 8 = Lib.LittleEndian.bytes 4 files.items.length ++
      table 4 files.contents := by rw [heq, List.drop_left' hmagic]
  refine ⟨by omega, by rw [heq, List.take_left' hmagic], ?_, ⟨?_, [], ?_⟩, hlength.symm⟩
  · rw [hcount, slice, hdrop, List.take_left' hwidth]
    exact Lib.LittleEndian.value_bytes (by unfold maxFiles at hfew; omega)
  · have hfits : ∀ item ∈ files.sorted, Fits maxFileBytes (describeFile item) item.2 := fun item hitem =>
      ⟨rfl, h.small_files item.2 (List.mem_map_of_mem hitem), rfl⟩
    show List.Forall₂ _ (files.sorted.map describeFile) (files.sorted.map (·.2))
    rw [List.forall₂_map_left_iff, List.forall₂_map_right_iff]
    exact List.forall₂_same.mpr hfits
  · rw [List.append_nil, show 12 = 8 + 4 from rfl, ← List.drop_drop, hdrop, List.drop_left' hwidth]

end Ipms.Importer
