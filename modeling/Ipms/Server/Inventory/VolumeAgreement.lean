import Ipms.Lib.Fallible
import Ipms.Agent.Inventory.Volumes
import Ipms.Server.Inventory.Software

/-
  Ipms.Server.Inventory.VolumeAgreement

  When the portal accepts the fixed volumes an agent reports.  The agents compute
  the percentage in 64 bits and cut or convert texts in ways of their own; the
  portal computes it exactly and takes the list or refuses the whole message.
-/

namespace Ipms.Server.Inventory

open Ipms.ManagementJson Ipms.Lib
open Ipms.Agent (Doc Control Wide readText wideChars toUtf8 loads_write plainItems_iff readItems_eq_mapM)
open Ipms.Agent.Inventory (Drive WindowsVolume MountEntry LinuxVolume volumeDoc usedPercent
  fixedVolumes fixedVolumesJson volumes volumesJson)

/-! ## The portal's check -/

/-- A volume as the portal stores it. -/
structure FixedVolume where
  name : String
  label : String
  filesystem : String
  totalBytes : Int
  freeBytes : Int
  usedPercent : Int
  deriving DecidableEq

/-- An integer between two bounds. -/
def boundedInteger (value : Value) (low high : Int) (message : String) : Except ServerError Int :=
  match value with
  | .int n => if low ≤ n ∧ n ≤ high then pure n else invalid message
  | _ => invalid message

def expectedPercent (total free : Int) : Int := ((total - free) * 100 + total / 2) / total

/-- An entry is an object of at most eight members. -/
def checkVolumeEntry : Value → Except ServerError Unit
  | .obj members =>
    throwIf (members.length > 8) (.validationError "The Agent fixed-volume entry is invalid.")
  | _ => invalid "The Agent fixed-volume entry is invalid."

/-- One entry of the list. -/
def boundedFixedVolume (value : Value) : Except ServerError FixedVolume := do
  checkVolumeEntry value
  let name ← boundedObjectString value "name" 16
  let label ← boundedObjectString value "label" 255
  let filesystem ← boundedObjectString value "filesystem" 64
  throwIf (name = "") (.validationError "The Agent fixed-volume capacity is invalid.")
  let totalBytes ← boundedInteger (member value "total_bytes") 1 (2 ^ 63 - 1)
    "The Agent fixed-volume capacity is invalid."
  let freeBytes ← boundedInteger (member value "free_bytes") 0 totalBytes
    "The Agent fixed-volume free space is invalid."
  let usedPercent ← boundedInteger (member value "used_percent") 0 100
    "The Agent fixed-volume utilization is invalid."
  throwIf (usedPercent ≠ expectedPercent totalBytes freeBytes)
    (.validationError "The Agent fixed-volume utilization is inconsistent.")
  pure { name, label, filesystem, totalBytes, freeBytes, usedPercent }

def boundedFixedVolumes : Value → Except ServerError (List FixedVolume)
  | .arr values => do
    throwIf (values.length > 64) (.validationError "The Agent fixed-volume list is invalid.")
    values.mapM boundedFixedVolume
  | _ => invalid "The Agent fixed-volume list is invalid."

/-- The portal takes the list that a text stands for. -/
def VolumesAccepted (text : Bytes) : Prop :=
  ∃ value stored, loads text = some value ∧ boundedFixedVolumes value = .ok stored

/-! ## One entry -/

/-- A text of an entry that the portal takes. -/
def TextFits (control : Control) (text : Bytes) (maximum : Nat) : Prop :=
  ∃ s, readText control text = some s ∧ len s ≤ maximum

/-- A name that the portal takes: it is not blank. -/
def NameFits (control : Control) (name : Bytes) : Prop :=
  ∃ s, readText control name = some s ∧ len s ≤ 16 ∧ strip s.toList ≠ []

variable {maximum : Nat}

theorem boundedObjectString_eq_ok {members : List (String × Value)} {key s t : String}
    (h : members.lookup key = some (.str s)) :
    boundedObjectString (.obj members) key maximum = .ok t ↔
      len s ≤ maximum ∧ String.ofList (strip s.toList) = t := by
  have hget : (Value.obj members).get? key = some (.str s) := h
  unfold boundedObjectString
  rw [hget, Option.getD_some]
  show (if len s ≤ maximum then _ else _) = _ ↔ _
  split
  · next hle => simp [pure_eq_ok, hle]
  · next hle => simp [hle, invalid, throw, throwThe, MonadExceptOf.throw]

theorem boundedInteger_eq_ok {n m low high : Int} {message : String} :
    boundedInteger (.int n) low high message = .ok m ↔ (low ≤ n ∧ n ≤ high) ∧ n = m := by
  show (if low ≤ n ∧ n ≤ high then _ else _) = _ ↔ _
  split
  · next hle => simp [pure_eq_ok, hle]
  · next hle => simp [hle, invalid, throw, throwThe, MonadExceptOf.throw]

variable {control : Control}

theorem volumeDoc_read {name label filesystem : Bytes} {total free percent : Nat} {value : Value} :
    (volumeDoc name label filesystem total free percent).read control = some value ↔
      ∃ n l f, readText control name = some n ∧ readText control label = some l ∧
        readText control filesystem = some f ∧ value = .obj [("name", .str n), ("label", .str l),
          ("filesystem", .str f), ("total_bytes", .int total), ("free_bytes", .int free),
          ("used_percent", .int percent)] := by
  unfold volumeDoc
  simp only [Doc.read, Agent.readMembers, Option.bind_eq_bind, Option.pure_def]
  cases readText control name with
  | none => simp
  | some n =>
    cases readText control label with
    | none => simp
    | some l =>
      cases readText control filesystem with
      | none => simp
      | some f => simp [eq_comm]

/-- When the portal takes an entry. -/
theorem boundedFixedVolume_iff {n l f : String} {total free percent : Int} :
    (∃ v, boundedFixedVolume (.obj [("name", .str n), ("label", .str l), ("filesystem", .str f),
      ("total_bytes", .int total), ("free_bytes", .int free), ("used_percent", .int percent)]) =
        .ok v) ↔
      (len n ≤ 16 ∧ strip n.toList ≠ []) ∧ len l ≤ 255 ∧ len f ≤ 64 ∧
        (1 ≤ total ∧ total ≤ 2 ^ 63 - 1) ∧ (0 ≤ free ∧ free ≤ total) ∧
        (0 ≤ percent ∧ percent ≤ 100) ∧ percent = expectedPercent total free := by
  constructor
  · rintro ⟨v, h⟩
    unfold boundedFixedVolume at h
    obtain ⟨_, -, h⟩ := bind_eq_ok.mp h
    obtain ⟨name, hname, h⟩ := bind_eq_ok.mp h
    obtain ⟨label, hlabel, h⟩ := bind_eq_ok.mp h
    obtain ⟨filesystem, hfilesystem, h⟩ := bind_eq_ok.mp h
    obtain ⟨_, hblank, h⟩ := bind_eq_ok.mp h
    obtain ⟨t, htotal, h⟩ := bind_eq_ok.mp h
    obtain ⟨g, hfree, h⟩ := bind_eq_ok.mp h
    obtain ⟨p, hpercent, h⟩ := bind_eq_ok.mp h
    obtain ⟨_, hexact, -⟩ := bind_eq_ok.mp h
    obtain ⟨hn, rfl⟩ := (boundedObjectString_eq_ok rfl).mp hname
    obtain ⟨hl, -⟩ := (boundedObjectString_eq_ok rfl).mp hlabel
    obtain ⟨hf, -⟩ := (boundedObjectString_eq_ok rfl).mp hfilesystem
    obtain ⟨ht, rfl⟩ := boundedInteger_eq_ok.mp htotal
    obtain ⟨hg, rfl⟩ := boundedInteger_eq_ok.mp hfree
    obtain ⟨hp, rfl⟩ := boundedInteger_eq_ok.mp hpercent
    rw [throwIf_eq_ok] at hblank hexact
    refine ⟨⟨hn, ?_⟩, hl, hf, ht, hg, hp, not_not.mp hexact⟩
    intro hempty
    exact hblank (by rw [hempty])
  · rintro ⟨⟨hn, hblank⟩, hl, hf, ht, hg, hp, hexact⟩
    refine ⟨⟨String.ofList (strip n.toList), String.ofList (strip l.toList),
      String.ofList (strip f.toList), total, free, percent⟩, bind_eq_ok.mpr ⟨(), throwIf_eq_ok.mpr (show ¬ 6 > 8 by decide), ?_⟩⟩
    refine bind_eq_ok.mpr ⟨_, (boundedObjectString_eq_ok rfl).mpr ⟨hn, rfl⟩, ?_⟩
    refine bind_eq_ok.mpr ⟨_, (boundedObjectString_eq_ok rfl).mpr ⟨hl, rfl⟩, ?_⟩
    refine bind_eq_ok.mpr ⟨_, (boundedObjectString_eq_ok rfl).mpr ⟨hf, rfl⟩, ?_⟩
    refine bind_eq_ok.mpr ⟨(), throwIf_eq_ok.mpr ?_, ?_⟩
    · intro hempty
      exact hblank (String.ofList_eq_empty_iff.mp hempty)
    refine bind_eq_ok.mpr ⟨_, boundedInteger_eq_ok.mpr ⟨ht, rfl⟩, ?_⟩
    refine bind_eq_ok.mpr ⟨_, boundedInteger_eq_ok.mpr ⟨hg, rfl⟩, ?_⟩
    refine bind_eq_ok.mpr ⟨_, boundedInteger_eq_ok.mpr ⟨hp, rfl⟩, ?_⟩
    exact bind_eq_ok.mpr ⟨(), throwIf_eq_ok.mpr (not_not.mpr hexact), rfl⟩

theorem volumeDoc_iff {name label filesystem : Bytes} {total free percent : Nat} :
    (∃ value, (volumeDoc name label filesystem total free percent).read control = some value ∧
      ∃ v, boundedFixedVolume value = .ok v) ↔
      NameFits control name ∧ TextFits control label 255 ∧ TextFits control filesystem 64 ∧
        (1 ≤ total ∧ total < 2 ^ 63) ∧ free ≤ total ∧ percent ≤ 100 ∧
        percent = ((total - free) * 100 + total / 2) / total := by
  have hexact : free ≤ total → expectedPercent total free =
      (((total - free) * 100 + total / 2) / total : Nat) := by
    intro hle
    unfold expectedPercent
    push_cast [hle]
    rfl
  constructor
  · rintro ⟨value, hread, hbounded⟩
    obtain ⟨n, l, f, hn, hl, hf, rfl⟩ := volumeDoc_read.mp hread
    obtain ⟨hname, hlabel, hfilesystem, htotal, hfree, hpercent, heq⟩ :=
      boundedFixedVolume_iff.mp hbounded
    have hle : free ≤ total := by omega
    rw [hexact hle] at heq
    refine ⟨⟨n, hn, hname⟩, ⟨l, hl, hlabel⟩, ⟨f, hf, hfilesystem⟩, ⟨by omega, by omega⟩, hle,
      by omega, ?_⟩
    exact_mod_cast heq
  · rintro ⟨⟨n, hn, hname⟩, ⟨l, hl, hlabel⟩, ⟨f, hf, hfilesystem⟩, ⟨hone, hmax⟩, hle, hpercent, heq⟩
    refine ⟨_, volumeDoc_read.mpr ⟨n, l, f, hn, hl, hf, rfl⟩, boundedFixedVolume_iff.mpr ?_⟩
    refine ⟨hname, hlabel, hfilesystem, ⟨by omega, by omega⟩, ⟨by omega, by omega⟩,
      ⟨by omega, by omega⟩, ?_⟩
    rw [hexact hle, heq]

/-! ## The percentage -/

/-- The used bytes, hundredfold and rounded, before they are divided. -/
def scaled (total free : UInt64) : Nat := (total.toNat - free.toNat) * 100 + total.toNat / 2

variable {total free : UInt64}

theorem toNat_usedPercent (h : free.toNat ≤ total.toNat) :
    (usedPercent total free).toNat = scaled total free % 2 ^ 64 / total.toNat := by
  have hsub : (total - free).toNat = total.toNat - free.toNat :=
    UInt64.toNat_sub_of_le _ _ (UInt64.le_iff_toNat_le.mpr h)
  unfold usedPercent scaled
  rw [UInt64.toNat_div, UInt64.toNat_add, UInt64.toNat_mul, UInt64.toNat_div, hsub,
    show (100 : UInt64).toNat = 100 from rfl, show (2 : UInt64).toNat = 2 from rfl, Nat.mod_add_mod]

theorem percent_le (hpos : 0 < total.toNat) : scaled total free / total.toNat ≤ 100 := by
  have hle : scaled total free < 101 * total.toNat := by
    unfold scaled
    omega
  have hlt : scaled total free / total.toNat < 101 := (Nat.div_lt_iff_lt_mul hpos).mpr hle
  omega

/-- The percentage of the machine is exact when the product fits into 64 bits; otherwise it is two
at least too small. -/
theorem usedPercent_exact (hpos : 0 < total.toNat) (hmax : total.toNat < 2 ^ 63)
    (hle : free.toNat ≤ total.toNat) :
    (usedPercent total free).toNat = scaled total free / total.toNat ↔ scaled total free < 2 ^ 64 := by
  rw [toNat_usedPercent hle]
  constructor
  · intro heq
    by_contra hover
    have hsplit : scaled total free % 2 ^ 64 + 2 ^ 64 ≤ scaled total free := by omega
    have htwo : (scaled total free % 2 ^ 64 + 2 * total.toNat) / total.toNat ≤
        scaled total free / total.toNat := Nat.div_le_div_right (by omega)
    rw [Nat.add_mul_div_right _ _ hpos] at htwo
    omega
  · intro hlt
    rw [Nat.mod_eq_of_lt hlt]

theorem toNat_cast (hpos : 0 < total.toNat) (hle : free.toNat ≤ total.toNat) :
    (usedPercent total free).toUInt32.toNat = (usedPercent total free).toNat := by
  rw [UInt64.toNat_toUInt32]
  refine Nat.mod_eq_of_lt ?_
  rw [toNat_usedPercent hle, Nat.div_lt_iff_lt_mul hpos]
  by_cases hlt : scaled total free < 2 ^ 64
  · rw [Nat.mod_eq_of_lt hlt]
    unfold scaled
    omega
  · have hscaled : scaled total free < 101 * total.toNat := by
      unfold scaled
      omega
    omega

/-- The portal takes a list when it takes every entry. -/
theorem accepted_iff {docs : List Doc} (hplain : ∀ d ∈ docs, d.plain = true)
    (hlength : docs.length ≤ 64) : VolumesAccepted ((Doc.arr docs).write control) ↔
      ∀ d ∈ docs, ∃ value, d.read control = some value ∧ ∃ v, boundedFixedVolume value = .ok v := by
  have hload : loads ((Doc.arr docs).write control) = (docs.mapM (Doc.read control)).map .arr := by
    have hdoc : (Doc.arr docs).plain = true := plainItems_iff.mpr hplain
    rw [loads_write control hdoc, Doc.read, readItems_eq_mapM]
  have hlist (values : List Value) (hvalues : values.length ≤ 64) (stored : List FixedVolume) :
      boundedFixedVolumes (.arr values) = .ok stored ↔ values.mapM boundedFixedVolume = .ok stored := by
    unfold boundedFixedVolumes
    rw [bind_eq_ok]
    constructor
    · rintro ⟨_, -, h⟩
      exact h
    · intro h
      exact ⟨(), throwIf_eq_ok.mpr (by omega), h⟩
  have hread (values : List Value) (hvalues : docs.mapM (Doc.read control) = some values) :
      values.length ≤ 64 := by
    rw [← (mapM_eq_some_iff.mp hvalues).length_eq]
    exact hlength
  unfold VolumesAccepted
  rw [hload, ← mapM_mapM_isOk]
  constructor
  · rintro ⟨value, stored, hvalue, hbounded⟩
    obtain ⟨values, hvalues, rfl⟩ := Option.map_eq_some_iff.mp hvalue
    exact ⟨values, stored, hvalues, (hlist values (hread values hvalues) stored).mp hbounded⟩
  · rintro ⟨values, stored, hvalues, hbounded⟩
    refine ⟨.arr values, stored, by rw [hvalues]; rfl, ?_⟩
    exact (hlist values (hread values hvalues) stored).mpr hbounded

theorem volumeDoc_plain (name label filesystem : Bytes) (total free percent : Nat) :
    (volumeDoc name label filesystem total free percent).plain = true := by
  have hkeys : (["name", "label", "filesystem", "total_bytes", "free_bytes", "used_percent"].all
      Agent.plainKey && decide ["name", "label", "filesystem", "total_bytes", "free_bytes",
        "used_percent"].Nodup) = true := by
    decide +kernel
  simpa [volumeDoc, Doc.plain, Agent.plainMembers] using hkeys

/-! ## Texts -/

/-- The characters of a wide text, without those that are not well formed. -/
def shownChars (text : Wide) : List Char := ((wideChars text).getD []).map Control.question.shown

theorem readText_toUtf8 (text : Wide) :
    readText .question (toUtf8 text) = some (String.ofList (shownChars text)) := by
  unfold readText toUtf8
  rw [decode_encode]
  rfl

theorem textFits_toUtf8 {text : Wide} : TextFits .question (toUtf8 text) maximum ↔
    ((wideChars text).getD []).length ≤ maximum := by
  unfold TextFits
  rw [readText_toUtf8]
  simp [len, shownChars]

theorem nameFits_toUtf8 {text : Wide} : NameFits .question (toUtf8 text) ↔
    ((wideChars text).getD []).length ≤ 16 ∧ strip (shownChars text) ≠ [] := by
  unfold NameFits
  rw [readText_toUtf8]
  simp [len, shownChars]

variable {text : Bytes}

theorem length_of_decode {cs : List Char} (h : decode text = some cs) :
    cs.length ≤ text.length := by
  rw [decode_eq_some_iff.mp h]
  clear h
  induction cs with
  | nil => exact le_rfl
  | cons c cs ih =>
    have hpos := length_utf8EncodeChar_pos c
    rw [encode_cons, List.length_append, List.length_cons]
    omega

theorem readText_escaped {s : String} :
    readText .escaped text = some s ↔ decode text = some s.toList := by
  unfold readText
  have hshown (cs : List Char) : cs.map Control.escaped.shown = cs := List.map_id cs
  cases decode text with
  | none => simp
  | some cs =>
    rw [Option.map_some, hshown, Option.some.injEq, Option.some.injEq]
    constructor
    · rintro rfl
      exact String.toList_ofList.symm
    · rintro rfl
      exact String.ofList_toList

theorem textFits_escaped (h : text.length ≤ maximum) :
    TextFits .escaped text maximum ↔ (decode text).isSome = true := by
  unfold TextFits
  simp only [readText_escaped]
  constructor
  · rintro ⟨s, hs, -⟩
    rw [hs]
    rfl
  · intro hsome
    obtain ⟨cs, hcs⟩ := Option.isSome_iff_exists.mp hsome
    refine ⟨String.ofList cs, by rw [hcs, String.toList_ofList], ?_⟩
    have hle := length_of_decode hcs
    simp only [len, String.toList_ofList]
    omega

theorem nameFits_escaped (h : text.length ≤ 16) :
    NameFits .escaped text ↔ ∃ cs, decode text = some cs ∧ strip cs ≠ [] := by
  unfold NameFits
  simp only [readText_escaped]
  constructor
  · rintro ⟨s, hs, -, hblank⟩
    exact ⟨s.toList, hs, hblank⟩
  · rintro ⟨cs, hcs, hblank⟩
    refine ⟨String.ofList cs, by rw [hcs, String.toList_ofList], ?_, by rwa [String.toList_ofList]⟩
    have hle := length_of_decode hcs
    simp only [len, String.toList_ofList]
    omega

/-! ## Agreement -/

/-- A Windows volume whose product fits into 64 bits, whose counters are in order and whose texts are
not too long; the name is not blank. -/
structure WindowsFits (v : WindowsVolume) : Prop where
  name : ((wideChars v.root).getD []).length ≤ 16
  shown : strip (shownChars v.root) ≠ []
  label : ((wideChars v.label).getD []).length ≤ 255
  filesystem : ((wideChars v.filesystem).getD []).length ≤ 64
  size : v.total.toNat < 2 ^ 63
  free : v.free.toNat ≤ v.total.toNat
  product : (v.total.toNat - v.free.toNat) * 100 + v.total.toNat / 2 < 2 ^ 64

/-- A Linux volume whose product fits into 64 bits and whose texts, cut to their bytes, are UTF-8; the
name is not blank. -/
structure LinuxFits (v : LinuxVolume) : Prop where
  name : ∃ cs, decode (Agent.Inventory.bounded v.dir 16) = some cs ∧ strip cs ≠ []
  filesystem : (decode (Agent.Inventory.bounded v.type 64)).isSome = true
  size : v.total.toNat < 2 ^ 63
  product : (v.total.toNat - v.free.toNat) * 100 + v.total.toNat / 2 < 2 ^ 64

theorem percent_iff (hpos : 0 < total.toNat) (hmax : total.toNat < 2 ^ 63)
    (hle : free.toNat ≤ total.toNat) :
    ((usedPercent total free).toNat ≤ 100 ∧ (usedPercent total free).toNat =
      ((total.toNat - free.toNat) * 100 + total.toNat / 2) / total.toNat) ↔
      (total.toNat - free.toNat) * 100 + total.toNat / 2 < 2 ^ 64 := by
  constructor
  · rintro ⟨-, heq⟩
    exact (usedPercent_exact hpos hmax hle).mp heq
  · intro hlt
    have heq := (usedPercent_exact hpos hmax hle).mpr hlt
    refine ⟨?_, heq⟩
    rw [heq]
    exact percent_le hpos

theorem windowsVolume_iff {v : WindowsVolume} (hpos : 0 < v.total.toNat) :
    (∃ value, v.doc.read .question = some value ∧ ∃ w, boundedFixedVolume value = .ok w) ↔
      WindowsFits v := by
  unfold WindowsVolume.doc
  rw [volumeDoc_iff, nameFits_toUtf8, textFits_toUtf8, textFits_toUtf8]
  constructor
  · rintro ⟨⟨hname, hshown⟩, hlabel, hfilesystem, ⟨-, hmax⟩, hle, hpercent⟩
    rw [toNat_cast hpos hle, percent_iff hpos hmax hle] at hpercent
    exact ⟨hname, hshown, hlabel, hfilesystem, hmax, hle, hpercent⟩
  · intro h
    refine ⟨⟨h.name, h.shown⟩, h.label, h.filesystem, ⟨hpos, h.size⟩, h.free, ?_⟩
    rw [toNat_cast hpos h.free, percent_iff hpos h.size h.free]
    exact h.product

theorem linuxVolume_iff {v : LinuxVolume} (hpos : 0 < v.total.toNat)
    (hle : v.free.toNat ≤ v.total.toNat) :
    (∃ value, v.doc.read .escaped = some value ∧ ∃ w, boundedFixedVolume value = .ok w) ↔
      LinuxFits v := by
  have hlabel : TextFits .escaped [] 255 :=
    (textFits_escaped (Nat.zero_le 255)).mpr (by
      rw [show ([] : Bytes) = encode [] from rfl, decode_encode]
      rfl)
  unfold LinuxVolume.doc
  rw [volumeDoc_iff, nameFits_escaped (Agent.Inventory.length_bounded _ _),
    textFits_escaped (Agent.Inventory.length_bounded _ _)]
  constructor
  · rintro ⟨hname, -, hfilesystem, ⟨-, hmax⟩, -, hpercent⟩
    rw [percent_iff hpos hmax hle] at hpercent
    exact ⟨hname, hfilesystem, hmax, hpercent⟩
  · intro h
    refine ⟨h.name, hlabel, h.filesystem, ⟨hpos, h.size⟩, hle, ?_⟩
    rw [percent_iff hpos h.size hle]
    exact h.product

theorem toNat_pos {n : UInt64} (h : n ≠ 0) : 0 < n.toNat := by
  rw [Nat.pos_iff_ne_zero]
  intro hzero
  exact h (UInt64.toNat_inj.mp hzero)

theorem fixedVolumes_pos {drives : List Drive} {v : WindowsVolume} (h : v ∈ fixedVolumes drives) :
    0 < v.total.toNat := by
  obtain ⟨d, -, hd⟩ := List.mem_filterMap.mp (List.mem_of_mem_take h)
  unfold Drive.volume? at hd
  split at hd
  · split at hd
    · split at hd
      · cases hd
      · next hne => cases hd; exact toNat_pos hne
    · cases hd
  · cases hd

theorem volumesFrom_ordered {v : LinuxVolume} (entries : List MountEntry) (seen : List Bytes)
    (emitted : Nat) (h : v ∈ Agent.Inventory.volumesFrom entries seen emitted) :
    0 < v.total.toNat ∧ v.free.toNat ≤ v.total.toNat := by
  induction entries generalizing seen emitted with
  | nil => cases h
  | cons e entries ih =>
    rw [Agent.Inventory.volumesFrom] at h
    split at h
    · exact ih _ _ h
    · split at h
      · exact ih _ _ h
      · next w hw =>
          rcases List.mem_cons.mp h with rfl | h
          · unfold MountEntry.volume? at hw
            split at hw
            · simp only at hw
              split at hw
              · cases hw
              · next hne =>
                  cases hw
                  rw [not_or] at hne
                  exact ⟨toNat_pos hne.1, UInt64.le_iff_toNat_le.mp (UInt64.not_lt.mp hne.2)⟩
            · cases hw
          · exact ih _ _ h

theorem fixedVolumesJson_accepted (drives : List Drive) :
    VolumesAccepted (fixedVolumesJson drives) ↔ ∀ v ∈ fixedVolumes drives, WindowsFits v := by
  have hplain : ∀ d ∈ (fixedVolumes drives).map WindowsVolume.doc, d.plain = true :=
    List.forall_mem_map.mpr fun _ _ => volumeDoc_plain ..
  have hlist : VolumesAccepted (fixedVolumesJson drives) ↔ _ := accepted_iff hplain (by
    rw [List.length_map]
    exact Agent.Inventory.length_fixedVolumes drives)
  rw [hlist, List.forall_mem_map]
  exact forall₂_congr fun v hv => windowsVolume_iff (fixedVolumes_pos hv)

theorem volumesJson_accepted (entries : List MountEntry) :
    VolumesAccepted (volumesJson entries) ↔ ∀ v ∈ volumes entries, LinuxFits v := by
  have hplain : ∀ d ∈ (volumes entries).map LinuxVolume.doc, d.plain = true :=
    List.forall_mem_map.mpr fun _ _ => volumeDoc_plain ..
  have hlist : VolumesAccepted (volumesJson entries) ↔ _ := accepted_iff hplain (by
    rw [List.length_map]
    exact Agent.Inventory.length_volumes entries)
  rw [hlist, List.forall_mem_map]
  refine forall₂_congr fun v hv => ?_
  obtain ⟨hpos, hle⟩ := volumesFrom_ordered entries [] 0 hv
  exact linuxVolume_iff hpos hle

/-- When the portal takes the fixed volumes of an agent, on either platform. -/
theorem fixed_volumes_accepted_iff (drives : List Drive) (entries : List MountEntry) :
    (VolumesAccepted (fixedVolumesJson drives) ↔ ∀ v ∈ fixedVolumes drives, WindowsFits v) ∧
    (VolumesAccepted (volumesJson entries) ↔ ∀ v ∈ volumes entries, LinuxFits v) :=
  ⟨fixedVolumesJson_accepted drives, volumesJson_accepted entries⟩

/-- A full drive of 200 petabytes. -/
def hugeDrive : Drive :=
  { root := [67, 58, 92], fixed := true, space := some (200000000000000000, 0), label := []
    filesystem := [78, 84, 70, 83] }

/-- A mount on `/srv/daten-größe`, whose sixteenth byte is the first of two of a character. -/
def cutMount : MountEntry :=
  { fsname := utf8 "/dev/sda1", dir := utf8 "/srv/daten-größe", type := utf8 "ext4"
    status := some (1000, 500, 4096) }

/-- The portal refuses the product that wraps around and the name that is cut in a character. -/
theorem fixed_volumes_refused :
    ¬ VolumesAccepted (fixedVolumesJson [hugeDrive]) ∧ ¬ VolumesAccepted (volumesJson [cutMount]) := by
  constructor
  · rw [fixedVolumesJson_accepted]
    intro h
    have hfits := h ⟨[67, 58, 92], [], [78, 84, 70, 83], 200000000000000000, 0⟩ List.mem_cons_self
    exact absurd hfits.product (by decide)
  · rw [volumesJson_accepted]
    intro h
    have hmem : (⟨cutMount.dir, cutMount.type, 4096000, 2048000⟩ : LinuxVolume) ∈
        volumes [cutMount] := by
      have hvolumes : volumes [cutMount] = [⟨cutMount.dir, cutMount.type, 4096000, 2048000⟩] := by
        have heligible : cutMount.eligible = true := by decide +kernel
        rw [volumes, Agent.Inventory.volumesFrom, if_neg (by simp [heligible])]
        rfl
      rw [hvolumes]
      exact List.mem_cons_self
    obtain ⟨cs, hcs, -⟩ := (h _ hmem).name
    have hnone : decode (Agent.Inventory.bounded cutMount.dir 16) = none := by decide +kernel
    rw [hnone] at hcs
    cases hcs

end Ipms.Server.Inventory
