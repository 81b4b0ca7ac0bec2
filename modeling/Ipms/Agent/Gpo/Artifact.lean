import Ipms.Importer.Artifacts

/-
  Ipms.Agent.Gpo.Artifact

  The agent's decoder of a bundle.  It walks the bytes by an offset, in machine
  words: the difference of two sizes wraps.  A read outside the bytes, which C++
  leaves undefined, is an outcome of its own, and never happens.
-/

namespace Ipms.Agent.Gpo.Artifact

open Ipms.ManagementJson
open Ipms.Crypto (sha256)
open Ipms.Importer (FileDescriptor magic Turn Holds Bundle holds_nil_iff holds_cons_iff)
open Ipms.Lib (throwIf throwIf_bind ok_bind bind_eq_ok throwIf_eq_ok pure_eq_ok)
open Ipms.Lib.LittleEndian (value slice table spans table_cons length_framed)

/-! ## The decoder -/

def maximumArtifactBytes : Nat := 1024 * 1024

def maximumFileBytes : Nat := 512 * 1024

def maximumFiles : Nat := 16

/-- How decoding ends without the files. -/
inductive ArtifactFault where
  | thrown (e : Exn)
  | outOfRange
  deriving DecidableEq

/-- `fail`. -/
def artifactInvalid : ArtifactFault := .thrown (operationError "gpo_artifact_invalid")

/-- `component`: the table is searched from the front. -/
def component (catalog : Importer.Catalog) (baselineId backupId artifactSha256 : String) :
    Option Importer.Component :=
  (catalog.components.find? fun c => c.baselineId == baselineId && c.backupId == backupId).filter
    fun c => c.artifactSha256 == artifactSha256

/-- `bytes.size() - offset`, a `size_t`. -/
def remaining (bytes : Bytes) (offset : Nat) : Nat := (bytes.length + 2 ^ 64 - offset) % 2 ^ 64

/-- Bytes that are read one by one, or as a `subspan`. -/
def readSpan (bytes : Bytes) (span : Nat × Nat) : Except ArtifactFault Bytes := do
  throwIf (¬span.1 + span.2 ≤ bytes.length) .outOfRange
  return slice bytes span

/-- `u32`: a number, and the offset behind it. -/
def u32 (bytes : Bytes) (offset : Nat) : Except ArtifactFault (Nat × Nat) := do
  throwIf (remaining bytes offset < 4) artifactInvalid
  let v ← readSpan bytes (offset, 4)
  return (value v, offset + 4)

/-- The loop over the files of the descriptor: their spans, and the offset behind the last. -/
def decodeFiles (bytes : Bytes) : List FileDescriptor → Nat →
    Except ArtifactFault (List (Nat × Nat) × Nat)
  | [], offset => return ([], offset)
  | f :: rest, offset => do
    let (size, offset) ← u32 bytes offset
    throwIf (size ≠ f.bytes ∨ size > maximumFileBytes ∨ size > remaining bytes offset)
      artifactInvalid
    let content ← readSpan bytes (offset, size)
    throwIf (sha256 content ≠ f.sha256) artifactInvalid
    let (files, stop) ← decodeFiles bytes rest (offset + size)
    return ((offset, size) :: files, stop)

/-- `decode_artifact`: the spans of the files. -/
def decodeArtifact (c : Importer.Component) (bytes : Bytes) :
    Except ArtifactFault (List (Nat × Nat)) := do
  throwIf (bytes.length < 12 ∨ bytes.length > maximumArtifactBytes ∨ bytes.length ≠ c.artifactSize ∨
      c.files = [] ∨ c.files.length > maximumFiles ∨ bytes.take 8 ≠ magic ∨
      sha256 bytes ≠ c.artifactSha256)
    artifactInvalid
  let (count, offset) ← u32 bytes 8
  throwIf (count ≠ c.files.length) artifactInvalid
  let (files, stop) ← decodeFiles bytes c.files offset
  throwIf (stop ≠ bytes.length) artifactInvalid
  return files

/-! ## Reads stay inside the bytes -/

section
variable {bytes : Bytes} {offset : Nat} {items : List FileDescriptor}

theorem remaining_eq (hoffset : offset ≤ bytes.length) (hsize : bytes.length < 2 ^ 64) :
    remaining bytes offset = bytes.length - offset := by
  unfold remaining
  rw [show bytes.length + 2 ^ 64 - offset = bytes.length - offset + 2 ^ 64 by omega,
    Nat.add_mod_right]
  exact Nat.mod_eq_of_lt (by omega)

theorem readSpan_eq {span : Nat × Nat} (h : span.1 + span.2 ≤ bytes.length) :
    readSpan bytes span = .ok (slice bytes span) := by
  unfold readSpan
  rw [throwIf_bind, if_neg (not_not_intro h)]
  rfl

theorem u32_eq (hoffset : offset ≤ bytes.length) (hsize : bytes.length < 2 ^ 64) :
    u32 bytes offset = if offset + 4 ≤ bytes.length
      then .ok (value (slice bytes (offset, 4)), offset + 4) else .error artifactInvalid := by
  unfold u32
  rw [remaining_eq hoffset hsize, throwIf_bind]
  by_cases h : offset + 4 ≤ bytes.length
  · rw [if_neg (by omega), if_pos h, readSpan_eq h]
    rfl
  · rw [if_pos (by omega), if_neg h]

/-- One turn of the loop: its reads are in range, whatever lengths the bytes declare. -/
theorem decodeFiles_cons {f : FileDescriptor} {rest : List FileDescriptor}
    (hoffset : offset ≤ bytes.length) (hsize : bytes.length < 2 ^ 64) :
    (Turn maximumFileBytes bytes offset f ∧ decodeFiles bytes (f :: rest) offset = (do
        let (files, stop) ← decodeFiles bytes rest (offset + 4 + f.bytes)
        return ((offset + 4, f.bytes) :: files, stop))) ∨
      ¬Turn maximumFileBytes bytes offset f ∧
        decodeFiles bytes (f :: rest) offset = .error artifactInvalid := by
  rw [decodeFiles, u32_eq hoffset hsize]
  by_cases hfour : offset + 4 ≤ bytes.length
  · rw [if_pos hfour, ok_bind]
    dsimp only
    rw [throwIf_bind, remaining_eq hfour hsize]
    by_cases hrefused : value (slice bytes (offset, 4)) ≠ f.bytes ∨
        value (slice bytes (offset, 4)) > maximumFileBytes ∨
        value (slice bytes (offset, 4)) > bytes.length - (offset + 4)
    · rw [if_pos hrefused]
      refine .inr ⟨?_, rfl⟩
      rintro ⟨-, hvalue, hmax, hrange, -⟩
      omega
    · rw [if_neg hrefused]
      push Not at hrefused
      obtain ⟨hvalue, hmax, hleft⟩ := hrefused
      rw [hvalue] at hmax hleft ⊢
      have hrange : offset + 4 + f.bytes ≤ bytes.length := by omega
      rw [readSpan_eq hrange, ok_bind, throwIf_bind]
      by_cases hsha : sha256 (slice bytes (offset + 4, f.bytes)) = f.sha256
      · rw [if_neg (not_not_intro hsha)]
        exact .inl ⟨⟨hfour, hvalue, hmax, hrange, hsha⟩, rfl⟩
      · rw [if_pos hsha]
        exact .inr ⟨fun h => hsha h.2.2.2.2, rfl⟩
  · rw [if_neg hfour]
    exact .inr ⟨fun h => hfour h.1, rfl⟩

/-- The loop succeeds on the table of contents that fit, and finds where they stand. -/
theorem decodeFiles_eq_ok_iff (hoffset : offset ≤ bytes.length) (hsize : bytes.length < 2 ^ 64)
    {found : List (Nat × Nat) × Nat} :
    decodeFiles bytes items offset = .ok found ↔
      ∃ contents, Holds maximumFileBytes bytes offset items contents ∧
        found = (spans 4 offset contents, offset + (table 4 contents).length) := by
  induction items generalizing offset found with
  | nil =>
    simp only [holds_nil_iff, exists_eq_left]
    exact pure_eq_ok.trans eq_comm
  | cons f rest ih =>
    simp only [holds_cons_iff (by decide : maximumFileBytes < 256 ^ 4) hoffset]
    rcases decodeFiles_cons hoffset hsize with ⟨hturn, heq⟩ | ⟨hturn, heq⟩
    · have hnext : offset + 4 + f.bytes ≤ bytes.length := hturn.2.2.2.1
      have hlength : (slice bytes (offset + 4, f.bytes)).length = f.bytes := by
        rw [slice, List.length_take, List.length_drop]
        omega
      have htable : ∀ contents, offset + 4 + f.bytes + (table 4 contents).length =
          offset + (table 4 (slice bytes (offset + 4, f.bytes) :: contents)).length := by
        intro contents
        rw [table_cons, List.length_append, length_framed, hlength]
        omega
      rw [heq, bind_eq_ok]
      constructor
      · rintro ⟨found', hfound, hreturn⟩
        obtain ⟨contents, hholds, rfl⟩ := (ih hnext).mp hfound
        refine ⟨_, ⟨hturn, contents, rfl, hholds⟩, ?_⟩
        rw [← pure_eq_ok.mp hreturn, spans, hlength, ← htable]
      · rintro ⟨-, ⟨-, contents, rfl, hholds⟩, rfl⟩
        refine ⟨_, (ih hnext).mpr ⟨contents, hholds, rfl⟩, pure_eq_ok.mpr ?_⟩
        rw [spans, hlength, ← htable]
    · rw [heq]
      constructor
      · intro h
        cases h
      · rintro ⟨-, ⟨hturn', -⟩, -⟩
        exact absurd hturn' hturn

theorem decodeFiles_inRange (hoffset : offset ≤ bytes.length) (hsize : bytes.length < 2 ^ 64) :
    decodeFiles bytes items offset ≠ .error .outOfRange := by
  induction items generalizing offset with
  | nil => exact nofun
  | cons f rest ih =>
    rcases decodeFiles_cons hoffset hsize with ⟨hturn, heq⟩ | ⟨-, heq⟩
    · rw [heq]
      intro h
      cases hcase : decodeFiles bytes rest (offset + 4 + f.bytes) with
      | error e =>
        rw [hcase] at h
        cases h
        exact ih hturn.2.2.2.1 hcase
      | ok found =>
        rw [hcase] at h
        cases h
    · rw [heq]
      exact nofun

/-- What the decoder asks of a component and of the bytes as a whole. -/
structure Admitted (c : Importer.Component) (bytes : Bytes) : Prop where
  bounded : bytes.length ≤ maximumArtifactBytes
  size : bytes.length = c.artifactSize
  some_file : c.files ≠ []
  few_files : c.files.length ≤ maximumFiles
  digest : sha256 bytes = c.artifactSha256

/-- A bundle is decoded, to the places of its files, when it is admitted and nothing else is
wrong with it. -/
theorem decodeArtifact_eq_ok_iff {c : Importer.Component} {found : List (Nat × Nat)} :
    decodeArtifact c bytes = .ok found ↔ Admitted c bytes ∧
      ∃ contents, Bundle maximumFileBytes c bytes contents ∧ found = spans 4 12 contents := by
  unfold decodeArtifact
  rw [throwIf_bind]
  split
  case isTrue hrefused =>
    constructor
    · exact nofun
    · rintro ⟨⟨hbounded, hsize, hsome, hfew, hdigest⟩, contents, hbundle, -⟩
      have hheader := hbundle.header
      rcases hrefused with h | h | h | h | h | h | h
      · omega
      · omega
      · exact absurd hsize h
      · exact absurd h hsome
      · omega
      · exact absurd hbundle.magic h
      · exact absurd hdigest h
  case isFalse hadmitted =>
    push Not at hadmitted
    obtain ⟨hheader, hbounded, hsize, hsome, hfew, hmagic, hdigest⟩ := hadmitted
    have hword : bytes.length < 2 ^ 64 := Nat.lt_of_le_of_lt hbounded (by decide)
    rw [u32_eq (by omega) hword, if_pos (by omega), ok_bind]
    dsimp only
    rw [throwIf_bind]
    by_cases hcount : value (slice bytes (8, 4)) = c.files.length
    · rw [if_neg (not_not_intro hcount), bind_eq_ok]
      constructor
      · rintro ⟨⟨files, stop⟩, hfiles, h⟩
        obtain ⟨contents, hholds, heq⟩ := (decodeFiles_eq_ok_iff hheader hword).mp hfiles
        cases heq
        obtain ⟨⟨⟩, hstop, hreturn⟩ := bind_eq_ok.mp h
        have hend := Classical.not_not.mp (throwIf_eq_ok.mp hstop)
        exact ⟨⟨hbounded, hsize, hsome, hfew, hdigest⟩, contents,
          ⟨hheader, hmagic, hcount, hholds, hend⟩, (pure_eq_ok.mp hreturn).symm⟩
      · rintro ⟨-, contents, hbundle, rfl⟩
        refine ⟨_, (decodeFiles_eq_ok_iff hheader hword).mpr ⟨contents, hbundle.holds, rfl⟩, ?_⟩
        dsimp only
        rw [throwIf_bind, if_neg (not_not_intro hbundle.stop)]
        rfl
    · rw [if_pos hcount]
      constructor
      · intro h
        cases h
      · rintro ⟨-, contents, hbundle, -⟩
        exact absurd hbundle.count hcount

theorem decodeArtifact_inRange {c : Importer.Component} :
    decodeArtifact c bytes ≠ .error .outOfRange := by
  unfold decodeArtifact
  rw [throwIf_bind]
  split
  case isTrue => exact nofun
  case isFalse hadmitted =>
    push Not at hadmitted
    obtain ⟨hheader, hbounded, -⟩ := hadmitted
    have hword : bytes.length < 2 ^ 64 := Nat.lt_of_le_of_lt hbounded (by decide)
    rw [u32_eq (by omega) hword, if_pos (by omega), ok_bind]
    dsimp only
    rw [throwIf_bind]
    split
    · exact nofun
    · cases hcase : decodeFiles bytes c.files (8 + 4) with
      | error e =>
        intro h
        cases h
        exact decodeFiles_inRange hheader hword hcase
      | ok found =>
        rw [ok_bind]
        rw [throwIf_bind]
        split <;> exact nofun

end

end Ipms.Agent.Gpo.Artifact
