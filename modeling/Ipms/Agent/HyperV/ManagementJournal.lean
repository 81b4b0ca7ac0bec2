import Ipms.Lib.Fallible
import Ipms.Lib.Lookup
import Ipms.Agent.Security.Scan
import Ipms.ManagementJson.Recognition

/-
  Ipms.Agent.HyperV.ManagementJournal

  The record of one Hyper-V management operation, and its text on disk.  A valid
  record is written as one JSON document of nine members, which is read back as
  the same record; whatever text is read is written again as the same document.
-/

namespace Ipms.Agent.HyperV.ManagementJournal

open Ipms.Lib Ipms.ManagementJson
open Ipms.Agent.Gpo (digest digit lowerHex size uuidSeparator)
open Ipms.Agent.Security (Object)

def resultLimits : Limits := { documentBytes := 48 * 1024 }

def invalid : Exn := ⟨"Invalid Hyper-V management journal or transition."⟩

inductive Operation where
  | inspect | checkpointCreate | checkpointDelete | checkpointApply | settingsUpdate
  deriving DecidableEq

inductive Phase where
  | prepared | invoking | observing | terminal | requiresReconciliation
  deriving DecidableEq

/-- `binding`.  A text that is not UTF-8 passes none of the checks, so its texts are those of
JSON. -/
structure Binding where
  schema : UInt32 := 1
  jobId : String
  inputDigest : String
  enrollmentDeviceUri : String
  action : Operation
  vmSourceId : String
  deriving DecidableEq

structure Journal where
  identity : Binding
  state : Phase := .prepared
  providerJobRef : String := ""
  resultJson : Bytes := []
  deriving DecidableEq

/-! ## Names -/

/-- `name` of an operation. -/
def Operation.name : Operation → String
  | .inspect => "inspect"
  | .checkpointCreate => "checkpoint_create"
  | .checkpointDelete => "checkpoint_delete"
  | .checkpointApply => "checkpoint_apply"
  | .settingsUpdate => "settings_update"

def parseOperation (item : String) : Except Exn Operation :=
  match [Operation.inspect, .checkpointCreate, .checkpointDelete, .checkpointApply,
      .settingsUpdate].find? fun candidate => candidate.name == item with
  | some candidate => .ok candidate
  | none => .error invalid

/-- `name` of a phase. -/
def Phase.name : Phase → String
  | .prepared => "prepared"
  | .invoking => "invoking"
  | .observing => "observing"
  | .terminal => "terminal"
  | .requiresReconciliation => "requires_reconciliation"

def parsePhase (item : String) : Except Exn Phase :=
  match [Phase.prepared, .invoking, .observing, .terminal, .requiresReconciliation].find?
      fun candidate => candidate.name == item with
  | some candidate => .ok candidate
  | none => .error invalid

theorem parseOperation_name (o : Operation) : parseOperation o.name = .ok o := by
  cases o <;> rfl

theorem parsePhase_name (p : Phase) : parsePhase p.name = .ok p := by
  cases p <;> rfl

theorem parseOperation_eq_ok {item : String} {o : Operation} (h : parseOperation item = .ok o) :
    item = o.name := by
  unfold parseOperation at h
  split at h
  next candidate hfound =>
    cases h
    have hsame := List.find?_some hfound
    exact (eq_of_beq hsame).symm
  · cases h

theorem parsePhase_eq_ok {item : String} {p : Phase} (h : parsePhase item = .ok p) :
    item = p.name := by
  unfold parsePhase at h
  split at h
  next candidate hfound =>
    cases h
    have hsame := List.find?_some hfound
    exact (eq_of_beq hsame).symm
  · cases h

/-! ## Checks -/

def guid (text : List Char) : Bool :=
  text.length == 36 && text.zipIdx.all fun (c, i) =>
    if uuidSeparator i then c == '-' else lowerHex c

/-- `valid` of a binding. -/
def Binding.valid (item : Binding) : Bool :=
  let urn := "urn:ipms:agent:".toList
  let device := item.enrollmentDeviceUri.toList.drop urn.length
  item.schema == 1 && guid item.jobId.toList && guid item.vmSourceId.toList &&
    digest item.inputDigest && urn.isPrefixOf item.enrollmentDeviceUri.toList && guid device &&
    device[14]? == some '4' && [some '8', some '9', some 'a', some 'b'].contains device[19]?

/-- A character of the key of a provider job. -/
def keyCharacter (c : Char) : Bool :=
  decide ('a' ≤ c) && decide (c ≤ 'z') || decide ('A' ≤ c) && decide (c ≤ 'Z') ||
    digit c || [':', '-', '_', '.', '{', '}'].contains c

def localProviderJobReference (item : String) : Bool :=
  let text := item.toList
  if size item > 512 ∨ text.getLast? ≠ some '"' then false
  else
    match ["Msvm_ConcreteJob.InstanceID=\"".toList, "Msvm_MigrationJob.Name=\"".toList].find?
        fun head => head.isPrefixOf text with
    | none => false
    | some head =>
      let key := (text.drop head.length).dropLast
      !key.isEmpty && decide (key.length ≤ 256) && key.all keyCharacter

def Journal.basicValid (item : Journal) : Bool :=
  item.identity.valid &&
    (item.providerJobRef == "" || localProviderJobReference item.providerJobRef) &&
    match item.state with
    | .prepared | .invoking => item.providerJobRef == "" && item.resultJson == []
    | .observing => item.providerJobRef != "" && item.resultJson == []
    | .requiresReconciliation => item.resultJson == []
    | .terminal => item.resultJson != []

/-! ## Documents -/

/-- The result of a document: the recorded object, which stands as it is written, or null. -/
def resultOf (resultJson : Bytes) : Except Exn Value := do
  if resultJson = [] then return .null
  match ← parse resultJson resultLimits with
  | .obj members =>
    throwIf ((← serialize (.obj members) resultLimits) ≠ resultJson) invalid
    return .obj members
  | _ => throw invalid

/-- The members of a document, in key order. -/
def members (recorded : Journal) (result : Value) : Object :=
  [("enrollment_device_uri", .str recorded.identity.enrollmentDeviceUri),
    ("input_digest", .str recorded.identity.inputDigest), ("job_id", .str recorded.identity.jobId),
    ("operation", .str recorded.identity.action.name), ("phase", .str recorded.state.name),
    ("provider_job_ref", .str recorded.providerJobRef), ("result_json", result),
    ("schema", .int recorded.identity.schema.toNat),
    ("vm_source_id", .str recorded.identity.vmSourceId)]

def document (recorded : Journal) : Except Exn Value :=
  (resultOf recorded.resultJson).map fun result => .obj (members recorded result)

def encode (recorded : Journal) : Except Exn Bytes := do
  throwIf (recorded.basicValid = false) invalid
  serialize (← document recorded)

/-- `valid`: the document fits as well, its wrapper included. -/
def Journal.valid (item : Journal) : Bool :=
  item.basicValid && (document item >>= fun value => serialize value).toBool

def stringField (fields : Object) (key : String) : Except Exn String :=
  match fields.lookup key with
  | some (.str text) => .ok text
  | _ => .error invalid

/-- The recorded text of a result. -/
def resultText : Value → Except Exn Bytes
  | .obj members => serialize (.obj members) resultLimits
  | .null => .ok []
  | _ => .error invalid

/-- The journal of the members of a document. -/
def decodeFields (fields : Object) : Except Exn Journal := do
  throwIf (fields.length ≠ 9) invalid
  throwIf (fields.lookup "schema" ≠ some (.int 1)) invalid
  let jobId ← stringField fields "job_id"
  let inputDigest ← stringField fields "input_digest"
  let enrollmentDeviceUri ← stringField fields "enrollment_device_uri"
  let action ← parseOperation (← stringField fields "operation")
  let vmSourceId ← stringField fields "vm_source_id"
  let state ← parsePhase (← stringField fields "phase")
  let providerJobRef ← stringField fields "provider_job_ref"
  let some result := fields.lookup "result_json" | throw invalid
  let resultJson ← resultText result
  let recorded : Journal :=
    { identity := { jobId, inputDigest, enrollmentDeviceUri, action, vmSourceId }, state
      providerJobRef, resultJson }
  throwIf (recorded.valid = false) invalid
  return recorded

def decode (serialized : Bytes) : Except Exn Journal := do
  match ← parse serialized with
  | .obj fields => decodeFields fields
  | _ => throw invalid

theorem render_obj_ne_nil (members : Object) : render (.obj members) ≠ [] := by
  rw [render]
  exact List.cons_ne_nil _ _

/-- A recorded text is the text of its result, and the result is read back from it. -/
theorem resultText_iff {result : Value} {text : Bytes} :
    resultText result = .ok text ∧ wellFormed result = true ↔ resultOf text = .ok result := by
  unfold resultOf
  constructor
  · rintro ⟨h, hwf⟩
    cases result with
    | null =>
      cases h
      rfl
    | obj members =>
      have hread := parse_serialize hwf h
      have hne : text ≠ [] := by
        rw [resultText, serialize_eq] at h
        split_ifs at h
        cases h
        exact render_obj_ne_nil members
      rw [if_neg hne, hread]
      show (serialize (.obj members) resultLimits >>= _) = _
      rw [show serialize (.obj members) resultLimits = .ok text from h, ok_bind, throwIf_bind,
        if_neg (not_not.mpr rfl)]
      rfl
    | _ => cases h
  · intro h
    by_cases hempty : text = []
    · rw [if_pos hempty] at h
      cases h
      exact ⟨by rw [hempty]; rfl, rfl⟩
    · rw [if_neg hempty] at h
      obtain ⟨value, hread, h⟩ := bind_eq_ok.mp h
      have hwf := wellFormed_of_parse hread
      cases value with
      | obj members =>
        obtain ⟨written, hwritten, h⟩ := bind_eq_ok.mp h
        obtain ⟨_, hsame, h⟩ := bind_eq_ok.mp h
        cases h
        rw [throwIf_eq_ok, not_not] at hsame
        exact ⟨hsame ▸ hwritten, hwf⟩
      | _ => cases h

theorem members_sorted (recorded : Journal) (result : Value) :
    (members recorded result).Pairwise KeyLt := by
  have hkeys : ((members recorded result).map fun m => utf8 m.1).Pairwise (· < ·) := by
    simp only [members, List.map_cons, List.map_nil]
    decide
  rwa [List.pairwise_map] at hkeys

theorem decodeFields_members {recorded : Journal} {result : Value} (hvalid : recorded.valid = true)
    (hresult : resultOf recorded.resultJson = .ok result) :
    decodeFields (members recorded result) = .ok recorded := by
  have hschema : recorded.identity.schema = 1 := by
    have hbasic := hvalid
    simp only [Journal.valid, Journal.basicValid, Binding.valid, Bool.and_eq_true,
      beq_iff_eq] at hbasic
    exact hbasic.1.1.1.1.1.1.1.1.1.1
  have htext := (resultText_iff.mpr hresult).1
  have hlength : ¬(members recorded result).length ≠ 9 := not_not.mpr rfl
  have hone : ¬(members recorded result).lookup "schema" ≠ some (.int 1) := by
    rw [not_not, show (members recorded result).lookup "schema" =
      some (.int recorded.identity.schema.toNat) from rfl, hschema]
    rfl
  obtain ⟨⟨schema, jobId, inputDigest, uri, action, vm⟩, state, job, text⟩ := recorded
  cases hschema
  unfold decodeFields
  rw [throwIf_bind, if_neg hlength, throwIf_bind, if_neg hone]
  show (parseOperation action.name >>= fun action => parsePhase state.name >>= fun state =>
    resultText result >>= fun resultJson => _) = _
  rw [parseOperation_name, ok_bind, parsePhase_name, ok_bind, htext, ok_bind]
  exact throwIf_bind.trans (if_neg fun hinvalid => Bool.noConfusion (hvalid.symm.trans hinvalid))

theorem mem_of_stringField {fields : Object} {key text : String}
    (h : stringField fields key = .ok text) : (key, .str text) ∈ fields := by
  unfold stringField at h
  split at h
  next found =>
    cases h
    exact mem_of_lookup found
  · cases h

/-- What is read from sorted members is a valid journal, and they are those of its document. -/
theorem decodeFields_eq_ok {fields : Object} {recorded : Journal}
    (hwf : wellFormed (.obj fields) = true) (h : decodeFields fields = .ok recorded) :
    recorded.valid = true ∧ ∃ result, resultOf recorded.resultJson = .ok result ∧
      fields = members recorded result := by
  simp only [wellFormed, Bool.and_eq_true, decide_eq_true_eq, List.pairwise_map] at hwf
  obtain ⟨hsorted, hitems⟩ := hwf
  unfold decodeFields at h
  obtain ⟨_, hlength, h⟩ := bind_eq_ok.mp h
  obtain ⟨_, hschema, h⟩ := bind_eq_ok.mp h
  obtain ⟨jobId, hjob, h⟩ := bind_eq_ok.mp h
  obtain ⟨inputDigest, hdigest, h⟩ := bind_eq_ok.mp h
  obtain ⟨uri, huri, h⟩ := bind_eq_ok.mp h
  obtain ⟨operation, hoperation, h⟩ := bind_eq_ok.mp h
  obtain ⟨action, haction, h⟩ := bind_eq_ok.mp h
  obtain ⟨vm, hvm, h⟩ := bind_eq_ok.mp h
  obtain ⟨phase, hphase, h⟩ := bind_eq_ok.mp h
  obtain ⟨state, hstate, h⟩ := bind_eq_ok.mp h
  obtain ⟨job, hprovider, h⟩ := bind_eq_ok.mp h
  split at h
  next result hresult =>
    obtain ⟨text, htext, h⟩ := bind_eq_ok.mp h
    obtain ⟨_, hvalid, h⟩ := bind_eq_ok.mp h
    cases h
    rw [throwIf_eq_ok, not_not] at hlength hschema
    rw [throwIf_eq_ok, Bool.not_eq_false] at hvalid
    have hmem := mem_of_lookup hresult
    have hgood : wellFormed result = true := (wellFormedMembers_iff fields).mp hitems _ hmem
    refine ⟨hvalid, result, resultText_iff.mp ⟨htext, hgood⟩, ?_⟩
    cases parseOperation_eq_ok haction
    cases parsePhase_eq_ok hstate
    -- nine different keys are among nine members, so they are all of them
    have hdocument :=
      members_sorted ⟨⟨1, jobId, inputDigest, uri, action, vm⟩, state, job, text⟩ result
    have hsubset : members ⟨⟨1, jobId, inputDigest, uri, action, vm⟩, state, job, text⟩ result ⊆
        fields := by
      simp only [members, List.cons_subset, List.nil_subset, and_true]
      exact ⟨mem_of_stringField huri, mem_of_stringField hdigest, mem_of_stringField hjob,
        mem_of_stringField hoperation, mem_of_stringField hphase, mem_of_stringField hprovider,
        hmem, mem_of_lookup hschema, mem_of_stringField hvm⟩
    have hnodup : (members _ _).Nodup := hdocument.imp fun hlt heq =>
      absurd hlt (by rw [KeyLt, heq]; exact List.lt_irrefl _)
    have hperm := (hnodup.subperm hsubset).perm_of_length_le (by rw [hlength]; rfl)
    exact (eq_of_sorted hperm hdocument hsorted).symm
  · cases h

/-- A valid journal has a document, and the text of the document is its own. -/
theorem encode_of_valid {recorded : Journal} (hvalid : recorded.valid = true) :
    ∃ result text, resultOf recorded.resultJson = .ok result ∧
      serialize (.obj (members recorded result)) = .ok text ∧ encode recorded = .ok text ∧
      parse text = .ok (.obj (members recorded result)) := by
  have hboth := hvalid
  unfold Journal.valid at hboth
  rw [Bool.and_eq_true] at hboth
  obtain ⟨hbasic, hfits⟩ := hboth
  obtain ⟨text, htext⟩ : ∃ text,
      (document recorded >>= fun value => serialize value) = .ok text := by
    cases hrun : document recorded >>= fun value => serialize value with
    | ok text => exact ⟨text, rfl⟩
    | error e =>
      rw [hrun] at hfits
      cases hfits
  obtain ⟨value, hdocument, hwritten⟩ := bind_eq_ok.mp htext
  obtain ⟨result, hresult, rfl⟩ : ∃ result, resultOf recorded.resultJson = .ok result ∧
      .obj (members recorded result) = value := by
    unfold document at hdocument
    cases hresult : resultOf recorded.resultJson with
    | ok result =>
      rw [hresult] at hdocument
      exact ⟨result, rfl, Except.ok.inj hdocument⟩
    | error e =>
      rw [hresult] at hdocument
      cases hdocument
  have hgood := (resultText_iff.mpr hresult).2
  have hwf : wellFormed (.obj (members recorded result)) = true := by
    have hschema : int64 recorded.identity.schema.toNat = true := by
      have := recorded.identity.schema.toNat_lt
      exact int64_iff.mpr (by omega)
    simp only [wellFormed, Bool.and_eq_true, decide_eq_true_eq, List.pairwise_map]
    refine ⟨members_sorted recorded result, ?_⟩
    simp only [members, wellFormedMembers, wellFormed, hgood, hschema, Bool.and_true]
  refine ⟨result, text, hresult, hwritten, ?_, parse_serialize hwf hwritten⟩
  unfold encode
  rw [throwIf_bind, if_neg (by rw [hbasic]; exact Bool.noConfusion), hdocument, ok_bind]
  exact hwritten

/-- A valid journal is written and read back as it is.  What is read is a valid journal, and it is
written again as a text of the same document. -/
theorem journal_round_trip :
    (∀ recorded : { j : Journal // j.valid = true },
      ∃ text, encode recorded.val = .ok text ∧ decode text = .ok recorded.val) ∧
    ∀ (source : Bytes) (recorded : Journal), decode source = .ok recorded →
      recorded.valid = true ∧
        ∃ text, encode recorded = .ok text ∧ decode text = .ok recorded ∧
          parse text = parse source := by
  have hback : ∀ recorded : Journal, recorded.valid = true → ∀ result text,
      resultOf recorded.resultJson = .ok result →
      parse text = .ok (.obj (members recorded result)) → decode text = .ok recorded := by
    intro recorded hvalid result text hresult hread
    unfold decode
    rw [hread]
    exact decodeFields_members hvalid hresult
  constructor
  · rintro ⟨recorded, hvalid⟩
    obtain ⟨result, text, hresult, -, hencode, hread⟩ := encode_of_valid hvalid
    exact ⟨text, hencode, hback recorded hvalid result text hresult hread⟩
  · intro source recorded h
    unfold decode at h
    obtain ⟨value, hsource, h⟩ := bind_eq_ok.mp h
    cases value with
    | obj fields =>
      obtain ⟨hvalid, result, hresult, rfl⟩ := decodeFields_eq_ok (wellFormed_of_parse hsource) h
      obtain ⟨found, text, hfound, -, hencode, hread⟩ := encode_of_valid hvalid
      cases hresult.symm.trans hfound
      exact ⟨hvalid, text, hencode, hback recorded hvalid result text hresult hread,
        hread.trans hsource.symm⟩
    | _ => cases h

theorem valid_of_fits {item : Journal} (hbasic : item.basicValid = true)
    (hfits : (document item).toOption.any (fits ·) = true) : item.valid = true := by
  obtain ⟨value, hvalue, hfits⟩ := (Option.any_eq_true _ _).mp hfits
  rcases hdocument : document item with _ | found
  · rw [hdocument] at hvalue
    cases hvalue
  · rw [hdocument] at hvalue
    cases hvalue
    unfold Journal.valid
    rw [hbasic, hdocument, ok_bind, serialize_eq, if_pos hfits]
    rfl

example :
    let guid := "01234567-89ab-4def-8123-456789abcdef"
    let digest := String.ofList (List.replicate 64 'a')
    let recorded : Journal :=
      ⟨⟨1, guid, digest, "urn:ipms:agent:" ++ guid, .inspect, guid⟩, .prepared, "", []⟩
    recorded.valid = true :=
  valid_of_fits (by decide +kernel) (by decide +kernel)

end Ipms.Agent.HyperV.ManagementJournal
