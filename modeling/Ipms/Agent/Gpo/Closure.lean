import Ipms.Agent.Gpo.Answers

/-
  Ipms.Agent.Gpo.Closure

  Which journals a run passes to `save` can be loaded again.  Every journal a
  run saves is the one it started with, moved to another phase, policy and
  result; the rules below say when a moved journal is closed.
-/

namespace Ipms.Agent.Gpo

open Ipms.Lib Ipms.ManagementJson Ipms.Crypto

/-- A GUID a journal may carry. -/
def usableGuid (guid : String) : Bool := validUuid guid && !protectedGpo guid

/-- A journal moved to another phase, policy and result. -/
def Journal.moved (j : Journal) (state : Phase) (guid : String) (result : Option Receipt) :
    Journal :=
  { j with state, gpoGuid := guid, result }

theorem Journal.moved_self (j : Journal) : j.moved j.state j.gpoGuid j.result = j := rfl

section
variable {catalog : Catalog} {j : Journal}

/-- The rules for a moved journal to be closed. -/
theorem Journal.Wellformed.moved (h : j.Wellformed catalog) {state : Phase} {guid : String}
    {result : Option Receipt} (hstate : state ≠ .prepared)
    (hguid : guid = "" ∨ usableGuid guid = true)
    (hearly : state = .granted ∨ state = .creating → guid = "")
    (hlate : state = .created ∨ state = .importing → guid ≠ "")
    (happroved : state = .creating ∨ state = .created ∨ state = .importing →
      j.portalApproval.isSome = true)
    (hresult : if state.completed then
        ∃ r, result = some r ∧ r.valid = true ∧ r.fits (j.moved state guid result) = true
      else result = none) :
    (j.moved state guid result).Wellformed catalog := by
  refine ⟨h.accepted, ?_, h.approval⟩
  have hc := h.consistent
  simp only [Journal.consistent, Bool.and_eq_true] at hc ⊢
  obtain ⟨⟨⟨⟨⟨⟨⟨⟨happroval, huri⟩, htick⟩, -⟩, -⟩, -⟩, hportal⟩, -⟩, -⟩ := hc
  refine ⟨⟨⟨⟨⟨⟨⟨⟨happroval, huri⟩, htick⟩, ?_⟩, ?_⟩, ?_⟩, ?_⟩, ?_⟩, ?_⟩
  · rcases hguid with rfl | hu
    · rfl
    · simp only [usableGuid] at hu
      simp [Journal.moved, hu]
  · simp only [Journal.moved, Bool.or_eq_true, Bool.not_eq_true', Bool.or_eq_false_iff,
      beq_eq_false_iff_ne, beq_iff_eq]
    by_cases hs : state = .granted ∨ state = .creating
    · exact .inr (hearly hs)
    · exact .inl ⟨⟨hstate, fun h' => hs (.inl h')⟩, fun h' => hs (.inr h')⟩
  · simp [Journal.moved, hstate]
  · simp only [Bool.or_eq_true, Bool.and_eq_true] at hportal ⊢
    rcases hportal with hschema | ⟨⟨heq, -⟩, -⟩
    · exact .inl hschema
    · refine .inr ⟨⟨heq, by simp [Journal.moved, hstate]⟩, ?_⟩
      by_cases hs : state = .creating ∨ state = .created ∨ state = .importing
      · exact .inl (happroved hs)
      · simp only [not_or] at hs
        exact .inr (by simp [Journal.moved, hs])
  · by_cases hs : state = .created ∨ state = .importing
    · simp [Journal.moved, hlate hs]
    · simp only [not_or] at hs
      simp [Journal.moved, hs]
  · by_cases hs : state.completed = true
    · rw [if_pos hs] at hresult
      obtain ⟨r, rfl, hv, hf⟩ := hresult
      simp only [Journal.moved] at hf ⊢
      simp [hs, hv, hf]
    · rw [if_neg hs] at hresult
      simp [Journal.moved, hs, hresult]

/-! ### The journals of an execution -/

theorem Journal.Wellformed.open_ (h : j.Wellformed catalog) (happroved : j.portalApproval.isSome = true)
    {state : Phase} {guid : String} (hopen : state = .creating ∧ guid = "" ∨
      (state = .created ∨ state = .importing) ∧ usableGuid guid = true) :
    (j.moved state guid none).Wellformed catalog := by
  rcases hopen with ⟨rfl, rfl⟩ | ⟨hs, hu⟩
  · refine h.moved (by decide) (.inl rfl) (fun _ => rfl) (fun hs => ?_) (fun _ => happroved) rfl
    rcases hs with hs | hs <;> cases hs
  · have hne : guid ≠ "" := by
      rintro rfl
      exact absurd hu (by decide)
    refine h.moved ?_ (.inr hu) ?_ (fun _ => hne) (fun _ => happroved) ?_
    · rintro rfl
      rcases hs with hs | hs <;> cases hs
    · rintro (rfl | rfl) <;> rcases hs with hs | hs <;> cases hs
    · rcases hs with rfl | rfl <;> rfl

theorem Receipt.usable_of_valid {r : Receipt} (hv : r.valid = true) (he : r.evidence = .none) :
    r.gpoGuid.getD "" = "" ∨ usableGuid (r.gpoGuid.getD "") = true := by
  unfold Receipt.valid at hv
  rw [he] at hv
  simp only [Bool.and_eq_true] at hv
  cases hg : r.gpoGuid with
  | none => exact .inl rfl
  | some guid =>
    rw [hg] at hv
    exact .inr hv.2.1.1.1.1.2

theorem Journal.Wellformed.failed (h : j.Wellformed catalog) {r : Receipt} (hv : r.valid = true)
    (hstatus : r.status = .failed) (hguid : r.gpoGuid = none) (he : r.evidence = .none) :
    (j.moved .terminal "" (some r)).Wellformed catalog := by
  refine h.moved (by decide) (.inl rfl) (fun _ => rfl) ?_ ?_ ?_
  · rintro (hs | hs) <;> cases hs
  · rintro (hs | hs | hs) <;> cases hs
  · refine ⟨r, rfl, hv, ?_⟩
    cases hj : j.assignment <;>
    simp [Receipt.fits, Journal.moved, hj, hstatus, hguid, he, Status.writeSuccess,
      Status.managedOnly]

theorem Journal.Wellformed.reconciling (h : j.Wellformed catalog)
    (hwrite : j.assignment.inspection = false) {r : Receipt} (hv : r.valid = true)
    (hstatus : r.status = .requiresReconciliation) (he : r.evidence = .none) :
    (j.moved .reconciliation (r.gpoGuid.getD "") (some r)).Wellformed catalog := by
  refine h.moved (by decide) (Receipt.usable_of_valid hv he) ?_ ?_ ?_ ?_
  · rintro (hs | hs) <;> cases hs
  · rintro (hs | hs) <;> cases hs
  · rintro (hs | hs | hs) <;> cases hs
  · refine ⟨r, rfl, hv, ?_⟩
    have hw : (Journal.moved j .reconciliation (r.gpoGuid.getD "") (some r)).assignment.inspection
        = false := hwrite
    cases hj : j.assignment <;>
    simp [Receipt.fits, Journal.moved, hj, hstatus, he, Status.writeSuccess, Status.managedOnly,
      hj ▸ hwrite]

def successReceipt (j : ManagedJob) (status : Status) (code : String) (state : Snapshot)
    (backup : String × String) : Receipt :=
  { status, resultCode := code, gpoGuid := if state.guid = "" then none else some state.guid,
    evidence := .managed (managedEvidence j state backup.1 backup.2) }

/-- The journal of a success. -/
def Journal.succeeded (journal : Journal) (j : ManagedJob) (status : Status) (code : String)
    (state : Snapshot) (backup : String × String) : Journal :=
  journal.moved .terminal state.guid (some (successReceipt j status code state backup))

theorem Snapshot.guid_usable {s : Snapshot} (hv : s.valid = true) :
    s.guid = "" ∨ usableGuid s.guid = true := by
  cases hg : s.gpo with
  | none => exact .inl (by simp [Snapshot.guid, hg])
  | some g =>
    simp only [Snapshot.valid, hg, Option.all_some, Bool.and_eq_true] at hv
    have hgpo := hv.2
    simp only [Policy.valid, Bool.and_eq_true] at hgpo
    refine .inr ?_
    simp only [Snapshot.guid, hg, Option.map_some, Option.getD_some, usableGuid,
      Bool.and_eq_true]
    exact ⟨hgpo.1.1.1.1.1.1.1.1, hgpo.1.1.1.1.1.1.1.2⟩

theorem successReceipt_guid (j : ManagedJob) (status : Status) (code : String) (state : Snapshot)
    (backup : String × String) :
    (successReceipt j status code state backup).gpoGuid.getD "" = state.guid := by
  unfold successReceipt
  by_cases hg : state.guid = ""
  · simp [hg]
  · simp [hg]

theorem successOutcome_cases {op : Operation} {status : Status} {code : String}
    (h : successOutcome op = some (status, code)) :
    status = .inspected ∧ op = .inspectManagedGpo ∨
      status.writeSuccess = true ∧ op ≠ .inspectManagedGpo := by
  cases op <;> simp only [successOutcome, Option.some.injEq, Prod.mk.injEq, reduceCtorEq] at h <;>
  obtain ⟨rfl, -⟩ := h <;> simp [Status.writeSuccess]

theorem managedEvidence_fits {job : ManagedJob} {status : Status} {code : String}
    (state : Snapshot) (bid bhash : String)
    (h : successOutcome job.operation = some (status, code)) :
    (managedEvidence job state bid bhash).fits job status = true := by
  have hschema : (managedEvidence job state bid bhash).schema = job.schema := by
    cases ho : job.override <;>
    simp [ManagedEvidence.schema, managedEvidence, ManagedJob.schema, ManagedJob.overrideJob, ho]
  simp only [ManagedEvidence.fits, hschema]
  cases hop : job.operation <;>
    simp only [hop, successOutcome, Option.some.injEq, Prod.mk.injEq, reduceCtorEq] at h <;>
    obtain ⟨rfl, -⟩ := h <;>
    simp [managedEvidence, hop, Operation.prepares, Operation.isImport]

/-- A success can be recorded in the journal of its job once it is approved; an inspection
needs no approval. -/
theorem Journal.Wellformed.succeeded (h : j.Wellformed catalog) {job : ManagedJob}
    (hjob : j.assignment = .managed job) {status : Status} {code : String} {state : Snapshot}
    {backup : String × String} (hstate : state.valid = true)
    (hv : (successReceipt job status code state backup).valid = true)
    (happroved : job.inspection = false → j.portalApproval.isSome = true) :
    (j.succeeded job status code state backup).Wellformed catalog := by
  have houtcome := Receipt.outcome_of_valid hv rfl
  refine h.moved (by decide) (Snapshot.guid_usable hstate) ?_ ?_ ?_ ?_
  · rintro (hs | hs) <;> cases hs
  · rintro (hs | hs) <;> cases hs
  · rintro (hs | hs | hs) <;> cases hs
  · refine ⟨_, rfl, hv, ?_⟩
    change successOutcome job.operation = some (status, code) at houtcome
    have hguid := successReceipt_guid job status code state backup
    have hfits := managedEvidence_fits state backup.1 backup.2 houtcome
    have hevidence : (successReceipt job status code state backup).evidence =
      .managed (managedEvidence job state backup.1 backup.2) := rfl
    have hstatus : (successReceipt job status code state backup).status = status := rfl
    have hinspection : (Job.managed job).inspection = (job.operation == .inspectManagedGpo) := rfl
    simp only [Receipt.fits, Journal.moved, hjob, hguid, hevidence, hstatus, hfits, hinspection]
    rcases successOutcome_cases houtcome with ⟨rfl, hop⟩ | ⟨hsuccess, hop⟩
    · simp [hop, Status.writeSuccess]
    · have hportal := happroved (by simp [ManagedJob.inspection, hop])
      have hne : status ≠ .inspected := by
        rintro rfl
        exact absurd hsuccess (by decide)
      simp [hsuccess, hportal, hop, hne]

end

/-! ### The receipts of an accepted job -/

section
variable {catalog : Catalog} {j : ManagedJob}

theorem Job.Accepted.core (h : (Job.managed j).Accepted catalog) : j.toJobCore.valid false = true := by
  obtain ⟨_, hcore, _⟩ := bind_eq_ok.mp h.1
  simpa using throwIf_eq_ok.mp hcore

theorem Job.Accepted.managed (h : (Job.managed j).Accepted catalog) :
    validateManagedJob catalog j = .ok () := by
  obtain ⟨_, _, h⟩ := bind_eq_ok.mp h.1
  obtain ⟨_, hmanaged, _⟩ := bind_eq_ok.mp h
  exact hmanaged

theorem Job.Accepted.override (h : (Job.managed j).Accepted catalog) {o : Override}
    (ho : j.override = some o) : validateOverrideJob catalog j.toJobCore o = .ok () := by
  obtain ⟨_, _, h⟩ := bind_eq_ok.mp h.1
  obtain ⟨_, _, h⟩ := bind_eq_ok.mp h
  rwa [ho] at h

theorem Job.Accepted.managedId (h : (Job.managed j).Accepted catalog) :
    validUuid j.managedId = true := by
  obtain ⟨_, hid, _⟩ := bind_eq_ok.mp h.managed
  have hid := throwIf_eq_ok.mp hid
  simp only [Bool.or_eq_true, not_or, Bool.not_eq_true', Bool.not_eq_false] at hid
  exact hid.1.1

theorem Job.Accepted.artifact (h : (Job.managed j).Accepted catalog) :
    digest j.artifactSha256 = true := by
  have hfields := (Bool.and_eq_true_iff.mp h.core).1
  simp only [JobCore.validFields, Bool.and_eq_true] at hfields
  exact hfields.1.1.1.1.1.1.1.2

theorem Job.Accepted.overrideDigest (h : (Job.managed j).Accepted catalog) :
    (j.override.map (·.overrideSha256)).all digest = true := by
  cases ho : j.override with
  | none => rfl
  | some o =>
    obtain ⟨_, _, hov⟩ := bind_eq_ok.mp (h.override ho)
    obtain ⟨d, hd, hov⟩ := bind_eq_ok.mp hov
    obtain ⟨_, heq, _⟩ := bind_eq_ok.mp hov
    obtain ⟨text, _, hd⟩ := bind_eq_ok.mp hd
    cases hd
    have heq := not_not.mp (throwIf_eq_ok.mp heq)
    simp only [Option.map_some, Option.all_some]
    exact heq ▸ digest_sha256 text

/-- The backup that belongs to an operation's evidence. -/
def backupFits (op : Operation) (backup : String × String) : Bool :=
  if op.backsUp then validUuid backup.1 && digest backup.2 else backup == ("", "")

/-- The receipt of a success passes its own checks. -/
theorem successReceipt_valid (h : (Job.managed j).Accepted catalog) {status : Status} {code : String}
    {state : Snapshot} (backup : String × String)
    (houtcome : successOutcome j.operation = some (status, code)) (hstate : state.valid = true)
    (hguid : state.guid = "" → status = .inspected ∨ status = .deleted)
    (hbackup : backupFits j.operation backup = true) :
    (successReceipt j status code state backup).valid = true := by
  have hknown : knownCode code = true := by
    cases hop : j.operation <;>
      simp only [hop, successOutcome, Option.some.injEq, Prod.mk.injEq, reduceCtorEq] at houtcome <;>
      obtain ⟨-, rfl⟩ := houtcome <;> decide
  have hartifact : (if j.operation.prepares then digest (if j.operation.prepares then
      j.artifactSha256 else "") else (if j.operation.prepares then j.artifactSha256 else "") == "")
      = true := by
    by_cases hp : j.operation.prepares = true
    · simp [hp, h.artifact]
    · simp [hp]
  have hbid : (if backup.1 = "" then backup.2 == "" && !j.operation.backsUp
      else validUuid backup.1 && digest backup.2 && j.operation.backsUp) = true := by
    unfold backupFits at hbackup
    by_cases hb : j.operation.backsUp = true
    · rw [if_pos hb, Bool.and_eq_true] at hbackup
      rw [if_neg (validUuid_ne_empty hbackup.1)]
      simp [hbackup, hb]
    · rw [if_neg hb, beq_iff_eq] at hbackup
      simp [hbackup, hb]
  have hid : (if state.guid = "" then
      (if state.guid = "" then none else some state.guid) == (none : Option String) &&
        (status == .inspected || status == .deleted)
      else (if state.guid = "" then none else some state.guid) == some state.guid) = true := by
    by_cases hg : state.guid = ""
    · rcases hguid hg with rfl | rfl <;> simp [hg]
    · simp [hg]
  simp only [Receipt.valid, successReceipt, validManagedResult, managedEvidence, Bool.and_eq_true]
  refine ⟨hknown, ⟨⟨⟨⟨⟨⟨?_, h.managedId⟩, hstate⟩, ?_⟩, hid⟩, hartifact⟩, hbid⟩⟩
  · exact h.overrideDigest
  · simp [houtcome]

end

end Ipms.Agent.Gpo
