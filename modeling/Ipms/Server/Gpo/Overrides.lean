import Ipms.Server.Gpo.Directory

/-
  Ipms.Server.Gpo.Overrides

  Sparse overrides pinned to compiled settings, and the patch an assignment
  carries of one.
-/

namespace Ipms.Server.Gpo

open Ipms.Lib Ipms.ManagementJson
open Ipms.Agent.Gpo (ManagedJob OverrideEntry Override)

/-- `_string`. -/
def safeString (text : String) (maximum : Nat) : Bool := bounded text maximum true

/-- `_sid` of an override value. -/
def overrideSid (s : String) : Bool :=
  "S-1-".toList.isPrefixOf s.toList && Agent.Gpo.sidParts ((s.toList.drop 4).splitOn '-')

/-- A value of a setting's type and bounds. -/
def validTyped (d : Setting) (value : Value) : Bool :=
  match d.valueType, value with
  | "integer", .int n => decide (d.min ≤ n) && decide (n ≤ d.max)
  | "string", .str text => safeString text d.maxLength
  | "string_list", .arr items =>
    decide (items.length ≤ d.maxItems) && decide items.Nodup &&
      items.all fun item => match item with
        | .str text => safeString text d.maxLength
        | _ => false
  | _, _ => false

/-- The identifiers of a privilege right. -/
def validIdentifiers (value : Value) : Bool :=
  match value with
  | .arr items => items.all fun item => match item with
      | .str text => overrideSid text
      | _ => false
  | _ => false

/-- The value checks of one entry. -/
def validOverrideValue (d : Setting) (value : Value) : Bool :=
  validTyped d value && (d.enumOptions.isEmpty || d.enumOptions.contains value) &&
    (d.kind != "privilege_right" || validIdentifiers value)

/-- The setting of an entry that may be selected. -/
def entrySetting (settings : List Setting) (e : OverrideEntry) : Option Setting :=
  (settings.find? fun d => d.settingId == e.settingId).filter fun d => d.editable

/-- `normalize_entries`; nothing where the code raises. -/
def normalizeEntries (settings : List Setting) (entries : List OverrideEntry)
    (keepBaseline : Bool := false) : Option (List OverrideEntry) :=
  if entries.length > 128 ∨ ¬(entries.map OverrideEntry.settingId).Nodup then none
  else do
    let kept ← entries.mapM fun e => do
      let d ← entrySetting settings e
      if validOverrideValue d e.value then pure (e, keepBaseline || e.value != d.baselineValue)
      else none
    let normalized := ((kept.filter Prod.snd).map Prod.fst).insertionSort fun e f =>
      e.settingId ≤ f.settingId
    if (canonical (Agent.Gpo.entriesJson normalized)).length > 8192 then none else some normalized

/-- The digested document of an override. -/
def patchJson (id : String) (revision : Int) (baselineId backupId artifactSha256 : String)
    (entries : List OverrideEntry) : Value :=
  .obj [("artifact_sha256", .str artifactSha256), ("backup_id", .str backupId),
    ("baseline_id", .str baselineId), ("entries", Agent.Gpo.entriesJson entries), ("id", .str id),
    ("revision", .int revision)]

def patchDocument (row : GpoOverride) : Value :=
  patchJson row.id row.revision row.baselineId row.backupId row.artifactSha256 row.entries

def assignmentPatch (row : GpoOverride) : Override :=
  { overrideId := row.id, overrideRevision := row.revision,
    overrideSha256 := digest (patchDocument row), entries := row.entries }

def patchValid (content : Content) (a : ManagedJob) (o : Override) : Bool :=
  uuidText o.overrideId && decide (1 ≤ o.overrideRevision) && decide (o.overrideRevision < 2 ^ 31) &&
    (match content.overrideComponents a.baselineId a.backupId with
     | none => false
     | some (artifact, settings) => artifact == a.artifactSha256 &&
         normalizeEntries settings o.entries true == some o.entries) &&
    !o.entries.isEmpty &&
    digest (patchJson o.overrideId o.overrideRevision a.baselineId a.backupId a.artifactSha256
      o.entries) == o.overrideSha256

def Db.currentPatch (db : Db) (content : Content) (a : ManagedJob) (o : Override) (tenant : String)
    (allowHistorical : Bool) : Bool :=
  patchValid content a o &&
    match (db.overrides.get? o.overrideId).filter fun row => row.tenant == tenant with
    | none => false
    | some row =>
      if allowHistorical then row.baselineId == a.baselineId && row.backupId == a.backupId &&
        row.artifactSha256 == a.artifactSha256
      else row.enabled && assignmentPatch row == o

end Ipms.Server.Gpo
