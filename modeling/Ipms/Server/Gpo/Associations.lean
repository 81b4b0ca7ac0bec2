import Ipms.Server.Gpo.Frame
import Ipms.Server.Gpo.Ownership

/-
  Ipms.Server.Gpo.Associations

  Whether an old association comes back.  A pilot is associated with its GPO
  until a managed policy owns that GPO; once the policy is deleted, what keeps
  the pilot from being associated again is a job of the fourth schema that names
  the GPO, and jobs of the third schema are not looked at.
-/

namespace Ipms.Server.Gpo

open Ipms.Lib Ipms.ManagementJson Txn
open Ipms.Agent.Gpo (Job ManagedJob JobCore)
open Ipms.Server.GroupPolicy (canonicalDomain utcTimestamp)

/-! ## Writes after an import -/

/-- A managed job was claimed, after a time, to write a GPO. -/
structure GpoImportJob.WritesAfter (k : GpoImportJob) (tenant domainGuid guid : String)
    (imported claimed : Time) : Prop where
  tenant : k.tenant = tenant
  domainGuid : k.domainGuid = domainGuid
  writes : k.writesTo guid = true
  time : k.claimedAt = some claimed
  after : imported < claimed

/-- A managed write to a GPO was claimed after a time. -/
def Db.WrittenAfter (db : Db) (tenant domainGuid guid : String) (imported : Time) : Prop :=
  ∃ k ∈ db.jobs.rows, ∃ claimed, k.WritesAfter tenant domainGuid guid imported claimed

/-- A staged pilot, and when it was imported. -/
structure GpoImportJob.Imported (j : GpoImportJob) (imported : Time) : Prop where
  pilot : ∃ a portal, j.assignment = .pilot a portal
  staged : j.status = .staged
  completed : j.completedAt = some imported

/-- Evidence the associations look at: a job of the fourth schema that names the GPO. -/
def Db.EvidencedBySchema4 (db : Db) (tenant domainGuid guid : String) : Prop :=
  ∃ m ∈ db.jobs.rows, m.tenant = tenant ∧ m.domainGuid = domainGuid ∧ m.gpoGuid = guid ∧
    m.assignment.schema = 4

/-- What the recorded jobs have to show of a write that was claimed after the import of a pilot of
its GPO.  Either a job of the fourth schema names the GPO as well, or no deletion of the GPO's
policy is on record after the claim, and an unfinished write does not report a GPO it was not
approved for. -/
def Db.EvidenceKept (db : Db) : Prop :=
  ∀ j ∈ db.jobs.rows, ∀ k ∈ db.jobs.rows, ∀ imported claimed, j.Imported imported →
    k.WritesAfter j.tenant j.domainGuid j.gpoGuid imported claimed →
    db.EvidencedBySchema4 j.tenant j.domainGuid j.gpoGuid ∨
      (k.status = .reconciliationRequired → k.settlesOn j.gpoGuid = true) ∧
        ∀ d ∈ db.jobs.rows, d.tenant = j.tenant → d.domainGuid = j.domainGuid →
          d.recordsDeletion j.gpoGuid = true → ∀ t, d.completedAt = some t → t < claimed

section
variable {c : Content} {now : Time} {db : Db} {j k : GpoImportJob}

theorem GpoImportJob.settlesOn_of_writesTo {guid : String} (h : k.writesTo guid = true)
    (hstatus : k.status ≠ .reconciliationRequired) : k.settlesOn guid = true := by
  unfold writesTo at h
  unfold settlesOn
  cases hassigned : k.assignment with
  | pilot core portal =>
    rw [hassigned] at h
    cases h
  | managed a =>
    rw [hassigned] at h
    simp only [Bool.and_eq_true, Bool.or_eq_true] at h ⊢
    refine ⟨h.1, ?_⟩
    rcases h.2 with hguid | hguid
    · exact .inl hguid
    · exact .inr ⟨hguid, by simpa using hstatus⟩

theorem Db.candidate_of_schema4 {tenant : String} {m : GpoImportJob}
    (hj : db.candidate tenant j = true) (htenant : m.tenant = j.tenant)
    (hdomain : m.domainGuid = j.domainGuid) (hguid : m.gpoGuid = j.gpoGuid)
    (hschema : m.assignment.schema = 4) : db.candidate tenant m = true := by
  unfold Db.candidate at hj ⊢
  simp only [Bool.and_eq_true] at hj ⊢
  rw [htenant, hdomain, hguid, hschema]
  exact ⟨⟨hj.1.1, by decide⟩, hj.2⟩

/-- Where the evidence is kept, no pilot is associated with a GPO that was written after it. -/
theorem Db.legacyBindings_unwritten {tenant : String} {later : Time} {b : Binding}
    (hledger : db.Ledger now) (hkept : db.EvidenceKept)
    (hb : b ∈ db.legacyBindings c later tenant) :
    ¬db.WrittenAfter tenant b.component.domainGuid b.gpoGuid b.importedAt := by
  rintro ⟨k, hk, claimed, hwrites⟩
  obtain ⟨j, hj, hcandidate, hcompleted, hguid, htrusted, hothers⟩ := Db.mem_legacyBindings hb
  obtain ⟨hpilot, hstaged, hcomponent⟩ := Db.trustedComponent_eq_some htrusted
  have hselected := hcandidate
  unfold Db.candidate at hselected
  simp only [Bool.and_eq_true, beq_iff_eq, bne_iff_ne, ne_eq, Bool.not_eq_true'] at hselected
  obtain ⟨⟨⟨htenant, hne⟩, -⟩, hunowned⟩ := hselected
  have hdomain : b.component.domainGuid = j.domainGuid := by
    rw [hcomponent]
    rfl
  rw [← htenant, hdomain, ← hguid] at hwrites
  rcases hkept j hj k hk _ _ ⟨hpilot, hstaged, hcompleted⟩ hwrites with hevidence | ⟨hnamed, hdeleted⟩
  · -- The job of the fourth schema is among the candidates, and not trusted.
    obtain ⟨m, hm, hmtenant, hmdomain, hmguid, hschema⟩ := hevidence
    have hmtrusted := hothers m hm (Db.candidate_of_schema4 hcandidate hmtenant hmdomain hmguid
      hschema) hmdomain (hmguid.trans hguid)
    obtain ⟨⟨a, portal, hassigned⟩, -, -⟩ := Db.trustedComponent_eq_some hmtrusted
    rw [hassigned] at hschema
    cases portal <;> cases hschema
  · -- The owner of the GPO is on record, and it is neither there nor deleted after the claim.
    have hsettles : k.settlesOn j.gpoGuid = true := by
      by_cases hstatus : k.status = .reconciliationRequired
      · exact hnamed hstatus
      · exact GpoImportJob.settlesOn_of_writesTo hwrites.writes hstatus
    have howner := (hledger.books k hk).owner j.gpoGuid claimed hne hsettles hwrites.time
    rw [hwrites.tenant, hwrites.domainGuid] at howner
    rcases howner with howned | ⟨d, hd, hdtenant, hddomain, hrecords, t, ht, hafter⟩
    · rw [htenant] at howned
      rw [howned] at hunowned
      cases hunowned
    · have hbefore := hdeleted d hd hdtenant hddomain hrecords t ht
      exact absurd hafter (not_le.mpr hbefore)

end

/-- The content with the component in the profile of member servers. -/
def memberCatalogue : Catalogue where
  toContent := { sampleContent with profileComponents := fun _ _ => [sampleDraft.backupId] }
  deployable _ := none
  deployableIds := []
  word := alphanumeric

/-- The assignment of the pilot, without its digest. -/
def importedDraft : JobCore :=
  { sampleDraft.toJobCore with
    jobId := "00000000-0000-4000-8000-000000000011", operation := .createUnlinkedPilot }

/-- The assignment of the pilot. -/
def importedAssignment : JobCore :=
  { importedDraft with inputDigest := digest (undigested (Job.pilot importedDraft false).toJson) }

/-- The evidence of the pilot. -/
def importedEvidence : Value :=
  stagedEvidence sampleDraft.domainDnsName sampleDraft.domainGuid sampleDraft.executorDcFqdn

/-- The pilot that made the GPO. -/
def importedPilot : GpoImportJob where
  id := importedDraft.jobId
  tenant := "t"
  domain := sampleDraft.scopeId
  enrollment := "e"
  system := "s"
  requestedBy := some 1
  policyRevision := 1
  fourEyesRequired := false
  authorizationRevision := 1
  domainGuid := sampleDraft.domainGuid
  requestSha256 := ""
  inputDigest := importedAssignment.inputDigest
  assignment := .pilot importedAssignment false
  pilotDisplayName := "IPMS"
  pilotNameKey := "ipms"
  status := .staged
  requestedAt := sampleTime
  expiresAt := sampleTime + 3600000000
  claimedAt := some (sampleTime + 1000000)
  completedAt := some (sampleTime + 2000000)
  gpoGuid := deletionJob.gpoGuid
  resultDigest := digest (Db.receiptJson (.str "staged") (.str "gpo_staged_unlinked")
    (.str deletionJob.gpoGuid) importedEvidence)
  resultEvidence := importedEvidence

def claimTime : Time := sampleTime + 3000000

/-- The deletion of the policy that took the GPO over, claimed after the pilot was imported. -/
def runningDeletion : GpoImportJob :=
  { importedPilot with
    id := deletionJob.jobId, inputDigest := deletionJob.inputDigest
    assignment := .managed deletionJob, status := .running, gpoGuid := "", resultDigest := ""
    resultEvidence := .obj [], claimedAt := some claimTime, completedAt := none }

/-- The policy that took the GPO over. -/
def adoptingPolicy : ManagedGpoPolicy :=
  { samplePolicy with gpoGuid := deletionJob.gpoGuid, state := .inactive }

/-- The tables before the result of the deletion. -/
def deletingDb : Db :=
  { sampleDb with
    policies := .single adoptingPolicy, jobs := ⟨[importedPilot, runningDeletion], by decide⟩
    reconciliations := .empty }

def deletionResult : ResultDocument where
  status := .str "deleted"
  resultCode := .str "gpo_deleted"
  gpoGuid := .null
  evidence := deletionEvidence.toJson

/-- The time of the result. -/
def deletionTime : Time := sampleTime + 4000000

/-- The tables after the result of the deletion. -/
def deletedDb : Db :=
  { deletingDb with
    policies := deletingDb.policies.delete adoptingPolicy.id
    jobs := deletingDb.jobs.save (runningDeletion.succeed .deleted deletionResult deletionTime) }

theorem adoptingPolicy_found : deletingDb.policyForJob runningDeletion = some adoptingPolicy := by
  decide

/-- The tables are ones the ledger allows. -/
theorem deletingDb_ledger : deletingDb.Ledger claimTime := by
  have hrow : ∀ k ∈ deletingDb.jobs.rows, k = importedPilot ∨ k = runningDeletion := by
    intro k hk
    simpa using (show k ∈ [importedPilot, runningDeletion] from hk)
  constructor
  · intro j hj k hk hjactive hkactive _ _
    rcases hrow j hj with rfl | rfl
    · cases hjactive
    · rcases hrow k hk with rfl | rfl
      · cases hkactive
      · rfl
  · intro k hk
    rcases hrow k hk with rfl | rfl
    · refine ⟨fun t ht => ?_, fun _ ha => (nomatch ha), fun _ ha => (nomatch ha),
        fun _ ha => (nomatch ha), fun _ _ _ hsettles => (nomatch hsettles)⟩
      cases ht
      decide
    · refine ⟨fun t ht => ?_, fun a ha _ => ?_, fun _ _ _ _ => rfl, fun a ha _ _ => ?_,
        fun guid t hne hsettles _ => ?_⟩
      · cases ht
        exact le_rfl
      · cases ha
        exact ⟨adoptingPolicy, adoptingPolicy_found, rfl, rfl⟩
      · cases ha
        exact ⟨sampleSnapshot, rfl, fun _ => ⟨_, rfl, rfl⟩⟩
      · obtain ⟨a, ha, -, hguid⟩ := GpoImportJob.settlesOn_managed_of hsettles
        cases ha
        rcases hguid with rfl | ⟨hguid, -⟩
        · exact .inl (by decide)
        · exact absurd hguid.symm hne

set_option maxRecDepth 20000 in
theorem deletionResult_accepted : postcondition memberCatalogue.toContent deletionJob
    deletionEvidence.toJson .null = .ok () := by
  decide +kernel

theorem deletionResult_recorded :
    (recordResult memberCatalogue.toContent deletionTime runningDeletion deletionResult).exec
      deletingDb = .ok ((), deletedDb) := by
  have hready : checkReceiving memberCatalogue.toContent deletingDb deletionTime runningDeletion
      deletionJob = .ok () := rfl
  have hfound := adoptingPolicy_found
  unfold recordResult
  rw [if_neg (by decide), if_neg (by decide)]
  simp only [show runningDeletion.assignment = .managed deletionJob from rfl]
  rw [exec_bind, exec_ofExcept, show reportsSuccess deletionResult = .ok true from rfl]
  simp only [Except.map, if_true]
  unfold receiveSuccess
  simp only [show success deletionJob.operation = some (.deleted, "gpo_deleted") from rfl]
  rw [exec_bind, exec_throwIf_of_not (by decide)]
  simp only
  rw [if_neg (by decide), exec_bind, exec_get]
  simp only
  rw [exec_bind, exec_ofExcept, hready]
  simp only [Except.map]
  rw [exec_bind, exec_ofExcept, show deletionResult.evidence = deletionEvidence.toJson from rfl,
    show deletionResult.gpoGuid = .null from rfl, deletionResult_accepted]
  simp only [Except.map, hfound]
  rw [exec_bind, exec_throwIf_of_not (by decide)]
  simp only
  rw [exec_bind, show (saveJob (runningDeletion.succeed .deleted deletionResult deletionTime)).exec
    deletingDb = .ok ((), { deletingDb with
      jobs := deletingDb.jobs.save (runningDeletion.succeed .deleted deletionResult deletionTime) })
    from rfl]
  simp only
  unfold receivePolicy
  rw [if_neg (by decide), if_pos (by decide)]
  rfl

/-- The result message of the deletion. -/
def deletionLabel : Label where
  event := .exchange sampleEnrollment.id (.job runningDeletion.id runningDeletion.inputDigest
    (.result deletionResult))
  time := deletionTime
  reply := some .accepted

theorem deletionStep :
    Step memberCatalogue ⟨deletingDb, claimTime⟩ deletionLabel ⟨deletedDb, deletionTime⟩ := by
  refine Step.exchange (by decide) ?_
  have hjob : (deletingDb.jobs.get? runningDeletion.id).filter
      (fun j => j.tenant == sampleTenant.id && j.enrollment == sampleEnrollment.id) =
        some runningDeletion :=
    Option.filter_eq_some_iff.mpr ⟨Table.get?_of_mem (t := deletingDb.jobs)
      (List.mem_cons_of_mem _ List.mem_cons_self), rfl⟩
  unfold exchange
  rw [exec_bind, exec_get]
  simp only [show deletingDb.enrollments.get? sampleEnrollment.id = some sampleEnrollment by decide,
    show deletingDb.tenants.get? sampleEnrollment.tenant = some sampleTenant by decide]
  rw [exec_bind, exec_throwIf_of_not (by decide)]
  show (answer memberCatalogue.toContent deletionTime sampleEnrollment sampleTenant
    (.job runningDeletion.id runningDeletion.inputDigest (.result deletionResult))).exec
      deletingDb = _
  unfold answer
  rw [exec_bind, exec_throwIf_of_not (by decide)]
  simp only
  rw [exec_bind, exec_get]
  simp only [hjob]
  rw [exec_bind, exec_throwIf_of_not (by simp)]
  unfold requestJob
  simp only [JobRequest.reconciliation]
  rw [exec_bind, deletionResult_recorded]
  rfl

theorem undigested_withPilotDigest (a : JobCore) (d : String) :
    undigested (Job.pilot { a with inputDigest := d } false).toJson =
      undigested (Job.pilot a false).toJson := rfl

/-- The pilot is trusted in any tables with the domain, the enrollment and the system. -/
theorem importedPilot_trusted {db : Db} (hdomains : db.domains = sampleDb.domains)
    (henrollments : db.enrollments = sampleDb.enrollments) (hsystems : db.systems = sampleDb.systems) :
    db.trustedComponent memberCatalogue.toContent deletionTime "t" importedPilot =
      some importedPilot.component := by
  have hdigest : digest (undigested (Job.pilot importedAssignment false).toJson) =
      importedAssignment.inputDigest := by
    show digest _ = digest _
    unfold importedAssignment
    rw [undigested_withPilotDigest]
  have happroved : db.originApproved importedPilot = true := rfl
  have hrows : db.tenantRows "t" importedPilot = true := by
    unfold Db.tenantRows
    rw [hdomains, henrollments, hsystems]
    decide +kernel
  have hexecutor : db.pilotExecutor importedPilot = true := by
    unfold Db.pilotExecutor
    rw [hdomains, henrollments, hsystems]
    decide +kernel
  have hstaged : stagedIdentity importedPilot = true := by
    decide +kernel
  have hordered : originOrdered deletionTime importedPilot = true := by
    decide +kernel
  have hassigned : pilotAssigned importedPilot importedAssignment = true := by
    have hform : (importedAssignment.operation == .createUnlinkedPilot &&
        importedAssignment.jobId == importedPilot.id &&
        importedAssignment.scopeId == importedPilot.domain &&
        decide (1 ≤ importedAssignment.scopeRevision) &&
        [0, 1, 2].contains importedAssignment.targetTier &&
        importedAssignment.domainGuid == importedPilot.domainGuid &&
        importedAssignment.pilotDisplayName == importedPilot.pilotDisplayName) = true := by
      decide +kernel
    have htimes : (((utcTimestamp (.str importedAssignment.expiresAt)).any fun expires =>
        importedPilot.claimedAt.any fun claimedAt => decide (claimedAt < instant expires)) &&
        (canonicalDomain (.str importedAssignment.forestDnsName)).isSome &&
        (canonicalDomain (.str importedAssignment.executorDcFqdn)).isSome) = true := by
      decide +kernel
    have hbound : importedPilot.inputDigest = importedAssignment.inputDigest := rfl
    have hown : importedPilot.assignment = .pilot importedAssignment false := rfl
    unfold pilotAssigned
    simp only [Bool.and_eq_true] at hform htimes ⊢
    rw [hbound, hown, hdigest]
    exact ⟨⟨⟨⟨⟨hform, beq_self_eq_true _⟩, beq_self_eq_true _⟩, htimes.1.1⟩, htimes.1.2⟩, htimes.2⟩
  have hcomponent : pilotComponent memberCatalogue.toContent importedAssignment = true := by
    decide +kernel
  have hreceipt : pilotReceipt importedPilot = true := by
    unfold pilotReceipt
    simp only [Bool.and_eq_true]
    exact ⟨by decide +kernel, beq_self_eq_true _⟩
  unfold Db.trustedComponent
  simp only [show importedPilot.assignment = .pilot importedAssignment false from rfl]
  rw [happroved, hstaged, hordered, hrows, hexecutor, hassigned, hcomponent, hreceipt]
  rfl

theorem Db.legacyBindings_single {db : Db} {c : Content} {now : Time} {tenant : String}
    {j : GpoImportJob} {component : AppliedComponent} {completedAt : Time}
    (h : db.candidates tenant = [j])
    (htrusted : db.trustedComponent c now tenant j = some component)
    (hcompleted : j.completedAt = some completedAt) :
    db.legacyBindings c now tenant = [⟨component, j.gpoGuid, completedAt⟩] := by
  unfold Db.legacyBindings
  rw [h]
  have hgroup : [j].filter (fun k => k.directoryObject == j.directoryObject) = [j] := by
    simp
  have hkeys : ([j].map GpoImportJob.directoryObject).eraseDups = [j.directoryObject] := by
    simp [List.eraseDups_cons]
  simp only [hkeys, List.filterMap_cons, hgroup, List.filterMap_nil]
  simp [Db.legacyBinding, htrusted, hcompleted]

end Ipms.Server.Gpo
