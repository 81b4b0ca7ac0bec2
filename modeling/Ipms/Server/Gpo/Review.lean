import Ipms.Agent.Gpo.Artifact
import Ipms.Agent.JsonText

/-
  Ipms.Server.Gpo.Review

  The server's decoder of a bundle, which verifies it once more before an
  approver sees its report, and the agreement of the encoder and both decoders:
  what the server shows is what the agent applies.
-/

namespace Ipms.Server.Gpo

open Ipms.ManagementJson
open Ipms.Crypto (sha256)
open Ipms.Importer (Component FileDescriptor Catalog Files magic maxFileBytes Turn Holds Bundle
  holds_nil_iff holds_cons_iff Pinned describe describeFile encodeArtifact encoded_of_encodeArtifact
  bundle_of_encoded)
open Ipms.Agent.Gpo.Artifact (component decodeArtifact decodeArtifact_eq_ok_iff
  decodeArtifact_inRange)
open Ipms.Lib (throwIf throwIf_bind ok_bind bind_eq_ok throwIf_eq_ok pure_eq_ok)
open Ipms.Lib.LittleEndian (value slice table spans Tiles table_nil table_cons length_framed)

/-! ## The text of a report -/

/-- The UTF-16 units of bytes, of either order. -/
def units (big : Bool) : Bytes → Option (List UInt16)
  | [] => some []
  | [_] => none
  | first :: second :: rest =>
    let (low, high) := if big then (second, first) else (first, second)
    (units big rest).map (UInt16.ofNat (low.toNat + 256 * high.toNat) :: ·)

/-- `value.decode`, as UTF-16 behind the mark of either byte order, and else as UTF-8 behind its
own mark or none. -/
def decodeReport (value : Bytes) : Option (List Char) :=
  if value.take 2 = [0xff, 0xfe] then (units false (value.drop 2)).bind Agent.wideChars
  else if value.take 2 = [0xfe, 0xff] then (units true (value.drop 2)).bind Agent.wideChars
  else if value.take 3 = [0xef, 0xbb, 0xbf] then decode (value.drop 3)
  else decode value

/-! ## The review -/

/-- How a review ends without an answer. -/
inductive ReviewError where
  | validationError (message : String)
  | structError
  deriving DecidableEq

def maxArtifact : Nat := 1048576

/-- `components.get`: of equal keys a dictionary keeps the last. -/
def componentsGet (catalog : Catalog) (baselineId backupId : String) : Option Component :=
  catalog.components.reverse.find? fun c => c.baselineId == baselineId && c.backupId == backupId

/-- `artifact_bytes`, over the files of the cache that can be read. -/
def artifactBytes (cache : String → Option Bytes) (c : Component) : Except ReviewError Bytes :=
  match cache (c.artifactSha256 ++ ".ipmsgpo") with
  | none => throw (.validationError "GPO artifact cache is unavailable or changed.")
  | some content => do
    throwIf (content.length ≠ c.artifactSize ∨
        ¬(0 < content.length ∧ content.length ≤ maxArtifact) ∨ sha256 content ≠ c.artifactSha256)
      (.validationError "GPO artifact cache is unavailable or changed.")
    return content

/-- `struct.unpack_from('<I', content, offset)`. -/
def unpackFrom (content : Bytes) (offset : Nat) : Except ReviewError Nat := do
  throwIf (¬offset + 4 ≤ content.length) .structError
  return value (slice content (offset, 4))

/-- The variables of the loop, and where the values stood that it has read. -/
structure Progress where
  offset : Nat
  report : Option (List Char)
  slices : List (Nat × Nat)

/-- The loop over the files of the descriptor.  A slice of bytes ends where they end. -/
def reviewFiles (content : Bytes) : List FileDescriptor → Progress → Except ReviewError Progress
  | [], s => return s
  | item :: rest, s => do
    throwIf (s.offset + 4 > content.length) (.validationError "Truncated GPO review bundle.")
    let length ← unpackFrom content s.offset
    let offset := s.offset + 4
    let value := slice content (offset, length)
    throwIf (length ≠ item.bytes ∨ value.length ≠ length ∨ sha256 value ≠ item.sha256)
      (.validationError "GPO review file mismatch.")
    let report ←
      if item.path = "gpreport.xml" then
        match decodeReport value with
        | some text => pure (some text)
        | none => throw (.validationError "Invalid GPO review encoding.")
      else pure s.report
    reviewFiles content rest
      { offset := offset + length, report, slices := s.slices ++ [(offset, length)] }

/-- The review of a bundle: its report, and where its files stand. -/
def reviewBundle (c : Component) (content : Bytes) :
    Except ReviewError (List Char × List (Nat × Nat)) := do
  throwIf (content.length < 12 ∨ content.take 8 ≠ magic)
    (.validationError "Invalid GPO review bundle.")
  let count ← unpackFrom content 8
  throwIf (count ≠ c.files.length) (.validationError "Invalid GPO review bundle.")
  let s ← reviewFiles content c.files { offset := 12, report := none, slices := [] }
  match s.report with
  | some report =>
    throwIf (s.offset ≠ content.length) (.validationError "Invalid GPO review manifest.")
    return (report, s.slices)
  | none => throw (.validationError "Invalid GPO review manifest.")

/-- What a review shows, and the contents it has verified for it. -/
structure Review where
  componentName : String
  artifactSha256 : String
  files : List FileDescriptor
  reportXml : List Char
  contents : List Bytes

/-- `review_document`, up to what a production job or an override adds to it. -/
def reviewDocument (catalog : Catalog) (cache : String → Option Bytes)
    (baselineId backupId artifactSha256 : String) : Except ReviewError Review :=
  match (componentsGet catalog baselineId backupId).filter
      fun c => c.artifactSha256 == artifactSha256 with
  | none => throw (.validationError "GPO review content changed.")
  | some c => do
    let content ← artifactBytes cache c
    let (reportXml, slices) ← reviewBundle c content
    return { componentName := c.name, artifactSha256 := c.artifactSha256, files := c.files,
             reportXml, contents := slices.map (slice content) }

/-! ## What the review accepts -/

/-- The report that the loop ends with: of every file of that name the text, the last one kept. -/
def lastReport : List FileDescriptor → List Bytes → Option (List Char) → Option (Option (List Char))
  | item :: items, content :: contents, report =>
    if item.path = "gpreport.xml" then
      (decodeReport content).bind fun text => lastReport items contents (some text)
    else lastReport items contents report
  | _, _, report => some report

variable {c : Component}

section
variable {content : Bytes} {items : List FileDescriptor} {s t : Progress}

/-- The largest number in four bytes. -/
abbrev maxWord : Nat := 256 ^ 4 - 1

theorem unpackFrom_eq {offset : Nat} (h : offset + 4 ≤ content.length) :
    unpackFrom content offset = .ok (value (slice content (offset, 4))) := by
  unfold unpackFrom
  rw [throwIf_bind, if_neg (not_not_intro h)]
  rfl

/-- One turn of the loop. -/
theorem reviewFiles_cons (item : FileDescriptor) (rest : List FileDescriptor) (s : Progress) :
    (Turn maxWord content s.offset item ∧ reviewFiles content (item :: rest) s = (do
        let report ←
          if item.path = "gpreport.xml" then
            match decodeReport (slice content (s.offset + 4, item.bytes)) with
            | some text => pure (some text)
            | none => throw (.validationError "Invalid GPO review encoding.")
          else pure s.report
        reviewFiles content rest
          { offset := s.offset + 4 + item.bytes, report
            slices := s.slices ++ [(s.offset + 4, item.bytes)] })) ∨
      ¬Turn maxWord content s.offset item ∧
        ∃ message, reviewFiles content (item :: rest) s = .error (.validationError message) := by
  rw [reviewFiles, throwIf_bind]
  by_cases hfour : s.offset + 4 ≤ content.length
  · rw [if_neg (by omega), unpackFrom_eq hfour, ok_bind]
    dsimp only
    rw [throwIf_bind]
    have hsmall : value (slice content (s.offset, 4)) ≤ maxWord := by
      have hlt := Lib.LittleEndian.value_lt (slice content (s.offset, 4))
      have hlength : (slice content (s.offset, 4)).length = 4 := by
        rw [slice, List.length_take, List.length_drop]
        omega
      rw [hlength] at hlt
      exact Nat.le_pred_of_lt hlt
    have hlength : ∀ n, (slice content (s.offset + 4, n)).length = n ↔
        s.offset + 4 + n ≤ content.length := by
      intro n
      rw [slice, List.length_take, List.length_drop]
      omega
    by_cases hrefused : value (slice content (s.offset, 4)) ≠ item.bytes ∨
        (slice content (s.offset + 4, value (slice content (s.offset, 4)))).length ≠
          value (slice content (s.offset, 4)) ∨
        sha256 (slice content (s.offset + 4, value (slice content (s.offset, 4)))) ≠ item.sha256
    · rw [if_pos hrefused]
      refine .inr ⟨?_, _, rfl⟩
      rintro ⟨-, hvalue, -, hroom, hsha⟩
      rw [hvalue, Ne, Ne, hlength] at hrefused
      tauto
    · rw [if_neg hrefused]
      push Not at hrefused
      obtain ⟨hvalue, hroom, hsha⟩ := hrefused
      rw [hvalue] at hroom hsha hsmall ⊢
      exact .inl ⟨⟨hfour, hvalue, hsmall, (hlength _).mp hroom, hsha⟩, rfl⟩
  · rw [if_pos (by omega)]
    exact .inr ⟨fun h => hfour h.1, _, rfl⟩

/-- The loop succeeds on the table of contents that fit, when each report among them is a text. -/
theorem reviewFiles_eq_ok_iff (hoffset : s.offset ≤ content.length) :
    reviewFiles content items s = .ok t ↔ ∃ contents report,
      Holds maxWord content s.offset items contents ∧
        lastReport items contents s.report = some report ∧
        t = { offset := s.offset + (table 4 contents).length, report
              slices := s.slices ++ spans 4 s.offset contents } := by
  induction items generalizing s with
  | nil =>
    have hsame : ({ offset := s.offset + (table 4 []).length, report := s.report
                    slices := s.slices ++ spans 4 s.offset [] } : Progress) = s := by
      rw [table_nil, spans, List.append_nil]
      rfl
    constructor
    · intro h
      have heq : s = t := pure_eq_ok.mp h
      exact ⟨[], s.report, holds_nil_iff.mpr rfl, rfl, heq.symm.trans hsame.symm⟩
    · rintro ⟨contents, report, hholds, hlast, rfl⟩
      cases holds_nil_iff.mp hholds
      cases hlast
      rw [hsame]
      rfl
  | cons item rest ih =>
    simp only [holds_cons_iff (by decide : maxWord < 256 ^ 4) hoffset]
    rcases reviewFiles_cons item rest s with ⟨hturn, heq⟩ | ⟨hturn, message, heq⟩
    · have hnext : s.offset + 4 + item.bytes ≤ content.length := hturn.2.2.2.1
      have hlength : (slice content (s.offset + 4, item.bytes)).length = item.bytes := by
        rw [slice, List.length_take, List.length_drop]
        omega
      have hstop : ∀ contents report,
          ({ offset := s.offset + 4 + item.bytes + (table 4 contents).length, report
             slices := s.slices ++ [(s.offset + 4, item.bytes)] ++
              spans 4 (s.offset + 4 + item.bytes) contents } : Progress) =
            { offset := s.offset +
                (table 4 (slice content (s.offset + 4, item.bytes) :: contents)).length
              report
              slices := s.slices ++
                spans 4 s.offset (slice content (s.offset + 4, item.bytes) :: contents) } := by
        intro contents report
        rw [table_cons, List.length_append, length_framed, hlength, spans, hlength,
          List.append_assoc, List.singleton_append]
        simp only [Nat.add_assoc]
      have hrest : ∀ report, reviewFiles content rest
          { offset := s.offset + 4 + item.bytes, report
            slices := s.slices ++ [(s.offset + 4, item.bytes)] } = .ok t ↔ ∃ contents report',
            Holds maxWord content (s.offset + 4 + item.bytes) rest contents ∧
              lastReport rest contents report = some report' ∧
              t = { offset := s.offset +
                      (table 4 (slice content (s.offset + 4, item.bytes) :: contents)).length
                    report := report'
                    slices := s.slices ++
                      spans 4 s.offset (slice content (s.offset + 4, item.bytes) :: contents) } := by
        intro report
        rw [ih hnext]
        simp only [hstop]
      rw [heq]
      by_cases hpath : item.path = "gpreport.xml"
      · simp only [hpath, if_true]
        cases htext : decodeReport (slice content (s.offset + 4, item.bytes)) with
        | none =>
          constructor
          · intro h
            cases h
          · rintro ⟨-, report, ⟨-, contents, rfl, -⟩, hlast, -⟩
            rw [lastReport, if_pos hpath, htext] at hlast
            cases hlast
        | some text =>
          show reviewFiles content rest _ = .ok t ↔ _
          rw [hrest]
          constructor
          · rintro ⟨contents, report, hholds, hlast, rfl⟩
            refine ⟨_, report, ⟨hturn, contents, rfl, hholds⟩, ?_, rfl⟩
            rw [lastReport, if_pos hpath, htext]
            exact hlast
          · rintro ⟨-, report, ⟨-, contents, rfl, hholds⟩, hlast, rfl⟩
            rw [lastReport, if_pos hpath, htext] at hlast
            exact ⟨contents, report, hholds, hlast, rfl⟩
      · simp only [hpath, if_false]
        show reviewFiles content rest _ = .ok t ↔ _
        rw [hrest]
        constructor
        · rintro ⟨contents, report, hholds, hlast, rfl⟩
          refine ⟨_, report, ⟨hturn, contents, rfl, hholds⟩, ?_, rfl⟩
          rw [lastReport, if_neg hpath]
          exact hlast
        · rintro ⟨-, report, ⟨-, contents, rfl, hholds⟩, hlast, rfl⟩
          rw [lastReport, if_neg hpath] at hlast
          exact ⟨contents, report, hholds, hlast, rfl⟩
    · rw [heq]
      constructor
      · intro h
        cases h
      · rintro ⟨-, -, ⟨hturn', -⟩, -⟩
        exact absurd hturn' hturn

theorem reviewFiles_unpacks : reviewFiles content items s ≠ .error .structError := by
  induction items generalizing s with
  | nil => exact nofun
  | cons item rest ih =>
    rcases reviewFiles_cons item rest s with ⟨-, heq⟩ | ⟨-, message, heq⟩
    · rw [heq]
      by_cases hpath : item.path = "gpreport.xml"
      · simp only [hpath, if_true]
        cases decodeReport (slice content (s.offset + 4, item.bytes)) with
        | none => exact nofun
        | some text => exact ih
      · simp only [hpath, if_false]
        exact ih
    · rw [heq]
      exact nofun

/-- A bundle is reviewed when nothing is wrong with it and its last report is a text. -/
theorem reviewBundle_eq_ok_iff {answer : List Char × List (Nat × Nat)} :
    reviewBundle c content = .ok answer ↔ ∃ contents text,
      Bundle maxWord c content contents ∧ lastReport c.files contents none = some (some text) ∧
        answer = (text, spans 4 12 contents) := by
  unfold reviewBundle
  rw [throwIf_bind]
  split
  case isTrue hrefused =>
    constructor
    · exact nofun
    · rintro ⟨contents, text, hbundle, -⟩
      rcases hrefused with h | h
      · exact absurd hbundle.header (by omega)
      · exact absurd hbundle.magic h
  case isFalse hadmitted =>
    push Not at hadmitted
    obtain ⟨hheader, hmagic⟩ := hadmitted
    rw [unpackFrom_eq (by omega), ok_bind, throwIf_bind]
    by_cases hcount : value (slice content (8, 4)) = c.files.length
    · rw [if_neg (not_not_intro hcount), bind_eq_ok]
      constructor
      · rintro ⟨s, hfiles, h⟩
        obtain ⟨contents, report, hholds, hlast, rfl⟩ := (reviewFiles_eq_ok_iff hheader).mp hfiles
        cases report with
        | none => cases h
        | some text =>
          obtain ⟨⟨⟩, hstop, hreturn⟩ := bind_eq_ok.mp h
          have hend := Classical.not_not.mp (throwIf_eq_ok.mp hstop)
          exact ⟨contents, text, ⟨hheader, hmagic, hcount, hholds, hend⟩, hlast,
            (pure_eq_ok.mp hreturn).symm⟩
      · rintro ⟨contents, text, hbundle, hlast, rfl⟩
        refine ⟨_, (reviewFiles_eq_ok_iff hheader).mpr
          ⟨contents, some text, hbundle.holds, hlast, rfl⟩, ?_⟩
        dsimp only
        rw [throwIf_bind, if_neg (not_not_intro hbundle.stop)]
        rfl
    · rw [if_pos hcount]
      constructor
      · intro h
        cases h
      · rintro ⟨contents, text, hbundle, -⟩
        exact absurd hbundle.count hcount

theorem reviewBundle_unpacks : reviewBundle c content ≠ .error .structError := by
  unfold reviewBundle
  rw [throwIf_bind]
  split
  case isTrue => exact nofun
  case isFalse hadmitted =>
    push Not at hadmitted
    rw [unpackFrom_eq (by omega), ok_bind, throwIf_bind]
    split
    · exact nofun
    · cases hcase : reviewFiles content c.files { offset := 12, report := none, slices := [] } with
      | error e =>
        intro h
        cases h
        exact reviewFiles_unpacks hcase
      | ok s =>
        rw [ok_bind]
        cases s.report with
        | none => exact nofun
        | some text =>
          dsimp only
          rw [throwIf_bind]
          split <;> exact nofun

end

/-! ## The lookups -/

theorem componentsGet_eq (catalog : Catalog) (baselineId backupId : String) :
    componentsGet catalog baselineId backupId = catalog.components.find? fun c =>
      c.baselineId == baselineId && c.backupId == backupId := by
  unfold componentsGet
  cases hfind : catalog.components.find? fun c =>
      c.baselineId == baselineId && c.backupId == backupId with
  | none =>
    rw [List.find?_eq_none] at hfind ⊢
    exact fun c hc => hfind c (List.mem_reverse.mp hc)
  | some c =>
    have hc := List.mem_of_find?_eq_some hfind
    have hkey := List.find?_some hfind
    obtain ⟨c', hfind'⟩ := Option.isSome_iff_exists.mp (List.find?_isSome
      (p := fun c => c.baselineId == baselineId && c.backupId == backupId) |>.mpr
        ⟨c, List.mem_reverse.mpr hc, hkey⟩)
    have hc' := List.mem_reverse.mp (List.mem_of_find?_eq_some hfind')
    have hkey' := List.find?_some hfind'
    simp only [Bool.and_eq_true, beq_iff_eq] at hkey hkey'
    rw [hfind', List.inj_on_of_nodup_map catalog.distinct hc' hc
      (Prod.ext (hkey'.1.trans hkey.1.symm) (hkey'.2.trans hkey.2.symm))]

theorem componentsGet_filter (catalog : Catalog) (baselineId backupId artifactSha256 : String) :
    ((componentsGet catalog baselineId backupId).filter fun c => c.artifactSha256 == artifactSha256) =
      component catalog baselineId backupId artifactSha256 := by
  rw [componentsGet_eq]
  rfl

theorem mem_of_component {catalog : Catalog} {baselineId backupId artifactSha256 : String}
    (h : component catalog baselineId backupId artifactSha256 = some c) : c ∈ catalog.components :=
  List.mem_of_find?_eq_some (Option.filter_eq_some_iff.mp h).1

theorem component_of_mem {catalog : Catalog} (hc : c ∈ catalog.components) :
    component catalog c.baselineId c.backupId c.artifactSha256 = some c := by
  obtain ⟨c', hfind⟩ := Option.isSome_iff_exists.mp (List.find?_isSome
    (p := fun d => d.baselineId == c.baselineId && d.backupId == c.backupId) |>.mpr
      ⟨c, hc, by simp only [beq_self_eq_true, Bool.and_self]⟩)
  have hkey := List.find?_some hfind
  simp only [Bool.and_eq_true, beq_iff_eq] at hkey
  have hsame : c' = c := List.inj_on_of_nodup_map catalog.distinct
    (List.mem_of_find?_eq_some hfind) hc (Prod.ext hkey.1 hkey.2)
  unfold component
  rw [hfind, hsame]
  simp

theorem artifactBytes_eq_ok_iff {cache : String → Option Bytes} {content : Bytes} :
    artifactBytes cache c = .ok content ↔ cache (c.artifactSha256 ++ ".ipmsgpo") = some content ∧
      content.length = c.artifactSize ∧ (0 < content.length ∧ content.length ≤ maxArtifact) ∧
      sha256 content = c.artifactSha256 := by
  unfold artifactBytes
  cases cache (c.artifactSha256 ++ ".ipmsgpo") with
  | none =>
    constructor
    · intro h
      cases h
    · rintro ⟨h, -⟩
      cases h
  | some stored =>
    dsimp only
    rw [throwIf_bind]
    split
    case isTrue hrefused =>
      constructor
      · intro h
        cases h
      · rintro ⟨hstored, hsize, hbounds, hdigest⟩
        cases hstored
        tauto
    case isFalse hadmitted =>
      push Not at hadmitted
      constructor
      · intro h
        cases pure_eq_ok.mp h
        exact ⟨rfl, hadmitted⟩
      · rintro ⟨hstored, -⟩
        cases hstored
        rfl

theorem lastReport_of_not_mem {files : List (String × Bytes)} {report : Option (List Char)}
    (h : "gpreport.xml" ∉ files.map (·.1)) :
    lastReport (files.map describeFile) (files.map (·.2)) report = some report := by
  induction files with
  | nil => rfl
  | cons file rest ih =>
    rw [List.map_cons, List.mem_cons, not_or] at h
    show (if file.1 = "gpreport.xml" then _ else _) = _
    rw [if_neg (Ne.symm h.1)]
    exact ih h.2

theorem lastReport_of_mem {files : List (String × Bytes)} (hnodup : (files.map (·.1)).Nodup)
    {data : Bytes} {text : List Char} (hmem : ("gpreport.xml", data) ∈ files)
    (htext : decodeReport data = some text) (report : Option (List Char)) :
    lastReport (files.map describeFile) (files.map (·.2)) report = some (some text) := by
  induction files generalizing report with
  | nil => cases hmem
  | cons file rest ih =>
    rw [List.map_cons, List.nodup_cons] at hnodup
    show (if file.1 = "gpreport.xml" then _ else _) = _
    rcases List.mem_cons.mp hmem with rfl | hmem
    · rw [if_pos rfl]
      show (decodeReport data).bind _ = _
      rw [htext]
      exact lastReport_of_not_mem hnodup.1
    · have hname : "gpreport.xml" ∈ rest.map (·.1) := List.mem_map_of_mem hmem
      rw [if_neg fun (h : file.1 = _) => hnodup.1 (h ▸ hname)]
      exact ih hnodup.2 hmem report

theorem nodup_sorted (files : Files) : (files.sorted.map (·.1)).Nodup :=
  ((files.perm_sorted.map _).nodup_iff).mpr files.nodup

/-! ## The agreement -/

theorem decodeArtifact_of_review (hpinned : Pinned c) {content : Bytes} {contents : List Bytes}
    (hbundle : Bundle maxWord c content contents) (hsize : content.length = c.artifactSize)
    (hdigest : sha256 content = c.artifactSha256) :
    decodeArtifact c content = .ok (spans 4 12 contents) := by
  obtain ⟨hsome, hfew, hsmall, hartifact⟩ := hpinned.bounds
  refine decodeArtifact_eq_ok_iff.mpr ⟨⟨?_, hsize, ?_, hfew, hdigest⟩, contents, ?_, rfl⟩
  · rw [hsize]
    exact hartifact
  · exact List.ne_nil_of_length_pos hsome
  · exact { hbundle with holds := hbundle.holds.of_bounds hsmall }

theorem decoders_of_encodeArtifact {files : Files} {artifact : Bytes}
    (h : encodeArtifact files = .ok artifact) {data : Bytes} {text : List Char}
    (hmem : ("gpreport.xml", data) ∈ files.items) (htext : decodeReport data = some text)
    (baselineId backupId name : String) :
    decodeArtifact (describe baselineId backupId name files artifact) artifact =
        .ok (spans 4 12 files.contents) ∧
      reviewBundle (describe baselineId backupId name files artifact) artifact =
        .ok (text, spans 4 12 files.contents) ∧
      (spans 4 12 files.contents).map (slice artifact) = files.contents := by
  have hencoded := encoded_of_encodeArtifact h
  have hbundle := bundle_of_encoded hencoded baselineId backupId name
  have hword : Bundle maxWord (describe baselineId backupId name files artifact) artifact
      files.contents :=
    { hbundle with
      holds := hbundle.holds.of_bounds fun f hf => by
        obtain ⟨item, hitem, rfl⟩ := List.mem_map.mp hf
        exact (hencoded.small_files item.2 (List.mem_map_of_mem hitem)).trans (by decide) }
  refine ⟨decodeArtifact_of_review ⟨files, artifact, h, rfl⟩ hword rfl rfl, ?_,
    (hbundle.tiles (by decide)).2⟩
  refine reviewBundle_eq_ok_iff.mpr ⟨files.contents, text, hword, ?_, rfl⟩
  exact lastReport_of_mem (nodup_sorted files) (Importer.Files.mem_sorted.mpr hmem) htext none

/-- The encoder and both decoders agree.  A bundle that the server reviews the agent decodes for the
same component, to the same contents; the files that either decoder finds tile the bytes behind the
header, and neither reads outside them; and an encoding is read by both as the files it was made
of. -/
theorem bundle_agreement :
    (∀ (catalog : Catalog) (cache : String → Option Bytes)
      (baselineId backupId artifactSha256 : String) (review : Review),
      reviewDocument catalog cache baselineId backupId artifactSha256 = .ok review →
        ∃ c content found, component catalog baselineId backupId artifactSha256 = some c ∧
          cache (c.artifactSha256 ++ ".ipmsgpo") = some content ∧
          decodeArtifact c content = .ok found ∧ review.files = c.files ∧
          review.contents = found.map (slice content) ∧
          review.contents.length = review.files.length) ∧
      (∀ (c : Component) (content : Bytes),
        decodeArtifact c content ≠ .error .outOfRange ∧
        reviewBundle c content ≠ .error .structError ∧
        (∀ found, decodeArtifact c content = .ok found →
          Tiles 4 content 12 content.length found) ∧
        ∀ text found, reviewBundle c content = .ok (text, found) →
          Tiles 4 content 12 content.length found) ∧
      ∀ (files : Files) (artifact data : Bytes) (text : List Char)
        (baselineId backupId name : String),
        encodeArtifact files = .ok artifact → ("gpreport.xml", data) ∈ files.items →
        decodeReport data = some text →
        let c := describe baselineId backupId name files artifact
        (∃ found, decodeArtifact c artifact = .ok found ∧ reviewBundle c artifact = .ok (text, found) ∧
          (c.files.map (·.path)).zip (found.map (slice artifact)) = files.sorted) ∧
        ∀ (catalog : Catalog) (cache : String → Option Bytes), c ∈ catalog.components →
          cache (c.artifactSha256 ++ ".ipmsgpo") = some artifact →
          component catalog baselineId backupId c.artifactSha256 = some c ∧
          reviewDocument catalog cache baselineId backupId c.artifactSha256 =
            .ok { componentName := name, artifactSha256 := c.artifactSha256, files := c.files,
                  reportXml := text, contents := files.contents } := by
  refine ⟨?_, ?_, ?_⟩
  · intro catalog cache baselineId backupId artifactSha256 review h
    unfold reviewDocument at h
    rw [componentsGet_filter] at h
    cases hc : component catalog baselineId backupId artifactSha256 with
    | none =>
      rw [hc] at h
      cases h
    | some c =>
      rw [hc] at h
      obtain ⟨content, hcontent, h⟩ := bind_eq_ok.mp h
      obtain ⟨answer, hanswer, h⟩ := bind_eq_ok.mp h
      obtain ⟨hstored, hsize, -, hdigest⟩ := artifactBytes_eq_ok_iff.mp hcontent
      obtain ⟨contents, text, hbundle, -, rfl⟩ := reviewBundle_eq_ok_iff.mp hanswer
      have hslices := (hbundle.tiles (by decide)).2
      cases pure_eq_ok.mp h
      refine ⟨c, content, _, rfl, hstored,
        decodeArtifact_of_review (catalog.pinned c (mem_of_component hc)) hbundle hsize hdigest,
        rfl, rfl, ?_⟩
      show ((spans 4 12 contents).map (slice content)).length = c.files.length
      rw [hslices, hbundle.holds.1.length_eq]
  · intro c content
    refine ⟨decodeArtifact_inRange, reviewBundle_unpacks, ?_, ?_⟩
    · intro found hfound
      obtain ⟨-, contents, hbundle, rfl⟩ := decodeArtifact_eq_ok_iff.mp hfound
      exact (hbundle.tiles (by decide)).1
    · intro text found hfound
      obtain ⟨contents, text', hbundle, hlast, heq⟩ := reviewBundle_eq_ok_iff.mp hfound
      cases heq
      exact (hbundle.tiles (by decide)).1
  · intro files artifact data text baselineId backupId name hencode hmem htext c
    obtain ⟨hagent, hserver, hslices⟩ :=
      decoders_of_encodeArtifact hencode hmem htext baselineId backupId name
    refine ⟨⟨_, hagent, hserver, ?_⟩, ?_⟩
    · rw [hslices]
      show ((files.sorted.map describeFile).map (·.path)).zip (files.sorted.map (·.2)) = files.sorted
      rw [List.map_map]
      exact (List.zip_of_prod rfl rfl).symm
    · intro catalog cache hc hcache
      have hfound : component catalog baselineId backupId c.artifactSha256 = some c :=
        component_of_mem hc
      have hencoded := encoded_of_encodeArtifact hencode
      have hpositive : 0 < artifact.length := by
        have hheader := (bundle_of_encoded hencoded baselineId backupId name).header
        omega
      have hbytes : artifactBytes cache c = .ok artifact :=
        artifactBytes_eq_ok_iff.mpr ⟨hcache, rfl, ⟨hpositive, hencoded.small⟩, rfl⟩
      refine ⟨hfound, ?_⟩
      unfold reviewDocument
      rw [componentsGet_filter, hfound]
      show (artifactBytes cache c >>= _) = _
      rw [hbytes, ok_bind, hserver, ok_bind]
      dsimp only
      rw [hslices]
      rfl

/-! A backup of nothing but a report. -/

/-- "<GPO/>". -/
def reviewedReport : Bytes := [0x3c, 0x47, 0x50, 0x4f, 0x2f, 0x3e]

def reviewedFiles : Files := { items := [("gpreport.xml", reviewedReport)], nodup := by decide }

def reviewedArtifact : Bytes := magic ++ [1, 0, 0, 0, 6, 0, 0, 0] ++ reviewedReport

theorem reviewedFiles_contents : reviewedFiles.contents = [reviewedReport] := by
  show (List.mergeSort [("gpreport.xml", reviewedReport)] _).map _ = _
  rw [List.mergeSort_singleton]
  rfl

theorem reviewedFiles_encode : encodeArtifact reviewedFiles = .ok reviewedArtifact := by
  unfold encodeArtifact
  rw [reviewedFiles_contents]
  decide

def reviewedComponent : Component := describe "baseline" "backup" "Sample" reviewedFiles reviewedArtifact

def reviewedCatalog : Catalog where
  components := [reviewedComponent]
  pinned c hc := by
    cases List.mem_singleton.mp hc
    exact ⟨reviewedFiles, reviewedArtifact, reviewedFiles_encode, rfl⟩
  distinct := List.nodup_singleton _

theorem bundle_agreement_sample :
    ∃ review c content found,
      reviewDocument reviewedCatalog (fun _ => some reviewedArtifact) "baseline" "backup"
        reviewedComponent.artifactSha256 = .ok review ∧
      component reviewedCatalog "baseline" "backup" reviewedComponent.artifactSha256 = some c ∧
      decodeArtifact c content = .ok found ∧ review.reportXml = "<GPO/>".toList ∧
      review.contents = [reviewedReport] ∧ found.map (slice content) = [reviewedReport] := by
  obtain ⟨-, hreview⟩ := bundle_agreement.2.2 reviewedFiles reviewedArtifact reviewedReport
    "<GPO/>".toList "baseline" "backup" "Sample" reviewedFiles_encode List.mem_cons_self (by decide)
  obtain ⟨-, hanswer⟩ := hreview reviewedCatalog (fun _ => some reviewedArtifact) List.mem_cons_self rfl
  obtain ⟨c, content, found, hc, -, hagent, -, hfound, -⟩ := bundle_agreement.1 _ _ _ _ _ _ hanswer
  exact ⟨_, c, content, found, hanswer, hc, hagent, rfl, reviewedFiles_contents,
    hfound.symm.trans reviewedFiles_contents⟩

end Ipms.Server.Gpo
