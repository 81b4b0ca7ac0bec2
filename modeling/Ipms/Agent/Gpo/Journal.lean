import Ipms.Agent.Gpo.Receipt

/-
  Ipms.Agent.Gpo.Journal

  The durable record of one job on the agent, its document, and what a
  restarted agent accepts when it reads the document back.
-/

namespace Ipms.Agent.Gpo

open Ipms.Lib Ipms.ManagementJson Value

/-- There is no way back to `prepared` after an execution grant or a write. -/
inductive Phase where
  | prepared | granted | creating | created | importing | terminal | reconciliation
  deriving DecidableEq

namespace Phase

def name : Phase → String
  | prepared => "prepared"
  | granted => "granted"
  | creating => "creating"
  | created => "created"
  | importing => "importing"
  | terminal => "terminal"
  | reconciliation => "reconciliation"

/-- Every phase. -/
def all : List Phase := [prepared, granted, creating, created, importing, terminal, reconciliation]

def ofName (s : String) : Option Phase := all.find? fun p => p.name == s

theorem ofName_name (p : Phase) : ofName p.name = some p := by
  cases p <;> decide

/-- A phase that carries a result. -/
def completed (p : Phase) : Bool := p == terminal || p == reconciliation

end Phase

/-- The journal of a job. -/
structure Journal where
  assignment : Job
  deviceUri : String
  state : Phase := .prepared
  gpoGuid : String := ""
  grantDeadlineTick : Nat := 0
  result : Option Receipt := none
  portalApproval : Option Approval := none
  deriving DecidableEq

/-- A document or null. -/
def optionalJson {α : Type} (toJson : α → Value) (a : Option α) : Value := (a.map toJson).getD .null

/-- The members of a journal document; portal approvals exist from schema 2 on. -/
def Journal.toJson (j : Journal) : Value :=
  .obj ([("device_uri", .str j.deviceUri), ("gpo_guid", .str j.gpoGuid),
    ("grant_deadline_tick", .int j.grantDeadlineTick), ("job", j.assignment.toJson),
    ("phase", .str j.state.name)] ++
    ((if j.assignment.schema ≥ 2 then
        [("portal_approval", optionalJson Approval.toJson j.portalApproval)] else []) ++
    [("result", optionalJson Receipt.toJson j.result), ("schema", .int j.assignment.schema)]))

def journalDocument (j : Journal) : Except Exn Value := do
  throwIf ((j.grantDeadlineTick : Int) > int64Max) ⟨"JSON integer is outside the contract range."⟩
  throwIf (j.assignment.schema < 2 ∧ j.portalApproval ≠ none) invalidJob
  pure j.toJson

/-- A document that may be null. -/
def readOptional {α : Type} (decode : Value → Option α) (v : Value) (key : String) :
    Option (Option α) :=
  match v.get? key with
  | some .null => some none
  | some d => (decode d).map some
  | none => none

/-- The portal approval of a journal document, from schema 2 on. -/
def readPortalApproval (schema : Int) (v : Value) : Option (Option Approval) :=
  if schema ≥ 2 then readOptional Approval.decode v "portal_approval" else some none

/-- The fields of a journal document. -/
def Journal.read (v : Value) : Option Journal := do
  let assignment ← Job.decode (← v.get? "job")
  let deviceUri ← v.str? "device_uri"
  let state ← Phase.ofName (← v.str? "phase")
  let gpoGuid ← v.str? "gpo_guid"
  let grantDeadlineTick ← (← v.int? "grant_deadline_tick").toNat?
  let result ← readOptional Receipt.decode v "result"
  let portalApproval ← readPortalApproval assignment.schema v
  pure { assignment, deviceUri, state, gpoGuid, grantDeadlineTick, result, portalApproval }

/-- A success of a write job. -/
def Status.writeSuccess : Status → Bool
  | .staged | .linked | .activated | .deactivated | .deleted => true
  | _ => false

/-- Statuses that only a managed job ends with. -/
def Status.managedOnly : Status → Bool
  | .inspected | .linked | .activated | .deactivated | .deleted => true
  | _ => false

/-- The evidence of a managed success agrees with its job. -/
def ManagedEvidence.fits (e : ManagedEvidence) (j : ManagedJob) (status : Status) : Bool :=
  e.schema == j.schema && e.overrideSha256 == j.override.map (·.overrideSha256) &&
    e.operation == j.operation && e.managedId == j.managedId &&
    (!(status == .staged || status == .activated || j.operation == .importAndLinkManagedGpo) ||
      e.preparedArtifactSha256 == j.artifactSha256)

/-- The result of a completed journal agrees with its job and phase. -/
def Receipt.fits (r : Receipt) (j : Journal) : Bool :=
  !(decide (j.assignment.schema ≥ 2) && r.status.writeSuccess && j.portalApproval == none) &&
    (if j.state = .reconciliation then r.status == .requiresReconciliation
     else r.status.writeSuccess || r.status == .failed || r.status == .inspected) &&
    (match j.assignment with
     | .pilot _ _ =>
       !r.status.managedOnly && (match r.evidence with | .managed _ => false | _ => true)
     | .managed job =>
       r.status == .failed || r.status == .requiresReconciliation ||
         (match r.evidence with | .managed e => e.fits job r.status | _ => false)) &&
    (r.status != .inspected || j.assignment.inspection) &&
    (!j.assignment.inspection || r.status == .inspected || r.status == .failed) &&
    r.gpoGuid.getD "" == j.gpoGuid

/-- The cross-field checks `parse_journal` makes of a journal whose job is accepted. -/
def Journal.consistent (j : Journal) : Bool :=
  j.portalApproval.all (·.valid j.assignment j.deviceUri) && clean j.deviceUri 512 &&
    decide ((j.grantDeadlineTick : Int) ≤ int64Max) &&
    (j.gpoGuid == "" || validUuid j.gpoGuid && !protectedGpo j.gpoGuid) &&
    (!(j.state == .prepared || j.state == .granted || j.state == .creating) || j.gpoGuid == "") &&
    (j.state != .prepared || j.grantDeadlineTick == 0) &&
    (decide (j.assignment.schema < 2) ||
      j.portalApproval.isSome == decide (j.grantDeadlineTick > 0) &&
      !(j.portalApproval.isSome && j.state == .prepared) &&
      (j.portalApproval.isSome ||
        !(j.state == .creating || j.state == .created || j.state == .importing))) &&
    (!(j.state == .created || j.state == .importing) || j.gpoGuid != "") &&
    (if j.state.completed then j.result.any fun r => r.valid && r.fits j else j.result == none)

def parseJournal (catalog : Catalog) (v : Value) : Except Exn Journal :=
  match Value.exactly Journal.toJson Journal.read v with
  | none => throw invalidJob
  | some j => do
    let _ ← parseJob catalog j.assignment.toJson
    throwIf (!j.consistent) invalidJob
    pure j

/-! ## Closure -/

/-- A restarted agent that reads the journal's document gets the journal back. -/
def Journal.Closed (catalog : Catalog) (j : Journal) : Prop :=
  (journalDocument j >>= parseJournal catalog) = .ok j

/-- What makes a journal closed: an accepted job, consistent fields, and no portal
approval where the document has no place for one. -/
structure Journal.Wellformed (catalog : Catalog) (j : Journal) : Prop where
  accepted : j.assignment.Accepted catalog
  consistent : j.consistent = true
  approval : j.assignment.schema < 2 → j.portalApproval = none

theorem readOptional_get {α : Type} (toJson : α → Value) {decode : Value → Option α} {v : Value}
    {key : String} {a : Option α} (hnull : ∀ x, toJson x ≠ .null)
    (hdecode : ∀ x, decode (toJson x) = some x) (h : v.get? key = some (optionalJson toJson a)) :
    readOptional decode v key = some a := by
  unfold readOptional
  rw [h]
  cases a with
  | none => rfl
  | some x =>
    have hx : optionalJson toJson (some x) = toJson x := rfl
    rw [hx]
    split
    · next heq => exact absurd (Option.some.inj heq) (hnull x)
    · next heq =>
        cases heq
        rw [hdecode]
        rfl
    · next heq => exact nomatch heq

theorem Journal.read_toJson {j : Journal} (h : j.assignment.schema < 2 → j.portalApproval = none) :
    Journal.read j.toJson = some j := by
  have hresult : readOptional Receipt.decode j.toJson "result" = some j.result := by
    refine readOptional_get Receipt.toJson ?_ (fun r => Receipt.decode_eq_some.mpr rfl)
      ?_
    · intro r
      simp [Receipt.toJson]
    · by_cases hs : j.assignment.schema ≥ 2 <;> simp [Journal.toJson, get?, List.lookup, hs]
  have happroval : readPortalApproval j.assignment.schema j.toJson = some j.portalApproval := by
    unfold readPortalApproval
    by_cases hs : j.assignment.schema ≥ 2
    · rw [if_pos hs]
      refine readOptional_get Approval.toJson ?_
        (fun a => Approval.decode_eq_some.mpr rfl) ?_
      · intro a
        simp [Approval.toJson]
      · simp [Journal.toJson, get?, List.lookup, hs]
    · rw [if_neg hs, h (by omega)]
  have hjob : j.toJson.get? "job" = some j.assignment.toJson := by
    simp [Journal.toJson, get?, List.lookup]
  have huri : j.toJson.str? "device_uri" = some j.deviceUri := by
    simp [Journal.toJson, str?, get?, List.lookup]
  have hphase : j.toJson.str? "phase" = some j.state.name := by
    simp [Journal.toJson, str?, get?, List.lookup]
  have hguid : j.toJson.str? "gpo_guid" = some j.gpoGuid := by
    simp [Journal.toJson, str?, get?, List.lookup]
  have htick : j.toJson.int? "grant_deadline_tick" = some (j.grantDeadlineTick : Int) := by
    simp [Journal.toJson, int?, get?, List.lookup]
  have hassign : Job.decode j.assignment.toJson = some j.assignment := Job.decode_eq_some.mpr rfl
  have htoNat : (j.grantDeadlineTick : Int).toNat? = some j.grantDeadlineTick := rfl
  simp only [Journal.read, hjob, huri, hphase, hguid, htick, hresult, Option.bind_eq_bind,
    Option.bind_some, hassign, Phase.ofName_name, htoNat, happroval]
  rfl

/-- The closed journals are exactly the well-formed ones. -/
theorem Journal.closed_iff {catalog : Catalog} {j : Journal} :
    j.Closed catalog ↔ j.Wellformed catalog := by
  unfold Journal.Closed
  constructor
  · intro h
    obtain ⟨v, hdoc, hparse⟩ := bind_eq_ok.mp h
    obtain ⟨_, _, hdoc⟩ := bind_eq_ok.mp hdoc
    obtain ⟨_, hnone, hdoc⟩ := bind_eq_ok.mp hdoc
    rw [throwIf_eq_ok] at hnone
    cases hdoc
    unfold parseJournal at hparse
    cases hd : exactly Journal.toJson Journal.read j.toJson with
    | none => rw [hd] at hparse; exact nomatch hparse
    | some j' =>
      rw [hd] at hparse
      obtain ⟨job, hjob, hparse⟩ := bind_eq_ok.mp hparse
      obtain ⟨_, hcons, hparse⟩ := bind_eq_ok.mp hparse
      cases hparse
      obtain ⟨heq, hacc⟩ := parseJob_eq_ok.mp hjob
      have hacc' : j.assignment.Accepted catalog := Job.toJson_injective heq ▸ hacc
      refine ⟨hacc', by simpa using hcons, fun hs => ?_⟩
      by_contra hne
      exact hnone ⟨hs, hne⟩
  · rintro ⟨hacc, hcons, happ⟩
    have htick : (j.grantDeadlineTick : Int) ≤ int64Max := by
      simp only [Journal.consistent, Bool.and_eq_true, decide_eq_true_eq] at hcons
      exact hcons.1.1.1.1.1.1.2
    have hdoc : journalDocument j = .ok j.toJson := by
      unfold journalDocument
      refine bind_eq_ok.mpr ⟨(), throwIf_eq_ok.mpr (by omega), ?_⟩
      refine bind_eq_ok.mpr ⟨(), throwIf_eq_ok.mpr ?_, rfl⟩
      exact fun ⟨hs, hne⟩ => hne (happ hs)
    rw [hdoc]
    show parseJournal catalog j.toJson = .ok j
    unfold parseJournal
    rw [exactly_toJson (Journal.read_toJson happ)]
    refine bind_eq_ok.mpr ⟨j.assignment, parseJob_toJson hacc, ?_⟩
    exact bind_eq_ok.mpr ⟨(), throwIf_eq_ok.mpr (by simp [hcons]), rfl⟩

instance (catalog : Catalog) (j : Journal) : Decidable (j.Closed catalog) :=
  inferInstanceAs (Decidable (_ = _))

/-- `portal_approval_receipt`: the checks made before an approved job may run. -/
def portalApprovalReceipt (j : Journal) : Except Exn Approval := do
  throwIf (j.assignment.schema < 2 ∨ j.assignment.inspection = true ∨ j.state ≠ .granted ∨
    j.grantDeadlineTick = 0 ∨ j.gpoGuid ≠ "" ∨ j.result ≠ none) invalidApproval
  match j.portalApproval with
  | none => throw invalidApproval
  | some a => parsePortalApproval a.toJson j.assignment j.deviceUri

/-- `grant_current`: the grant has not ended and ends within fifteen seconds. -/
def grantCurrent (j : Journal) (nowTick : Nat) : Bool :=
  decide (j.grantDeadlineTick > nowTick) && decide (j.grantDeadlineTick - nowTick ≤ 15000)

end Ipms.Agent.Gpo
