import Ipms.Server.Gpo.Applications
import Ipms.Server.Gpo.Release

/-
  Ipms.Server.Gpo.Ownership

  Who owns a GPO.  A policy keeps the GPO it has until it is deleted, and every
  deletion is on record in a job that is never deleted itself; so the owner of a
  GPO that a managed job was claimed to write is there, or its deletion is on
  record after the claim.
-/

namespace Ipms.Server.Gpo

open Ipms.Lib Ipms.ManagementJson Txn Table
open Ipms.Agent.Gpo (Job ManagedJob)

/-! ## Rows at rest -/

theorem JobStatus.not_waiting_of_terminal {s : JobStatus} (h : s.terminal = true) :
    s.preExecution = false := by
  cases s <;> first | rfl | cases h

section
variable {c : Content} {now : Time} {b : Bool} {db db' : Db} {j k : GpoImportJob}

variable {policy : ManagedGpoPolicy} {a : ManagedJob} {d : ResultDocument} {status : JobStatus}
variable {code : String}

theorem Receivable.unfinished (h : Receivable c now db j a policy status code d) :
    a.operation = .inspectManagedGpo ∧ j.status = .queued ∧ j.claimedAt = none ∨
      a.operation ≠ .inspectManagedGpo ∧ j.status = .running ∧ j.claimedAt ≠ none := by
  have hready := h.ready
  unfold checkReceiving at hready
  split at hready
  next hinspect =>
    split at hready
    · have hopen := throwIf_eq_ok.mp hready
      simp only [not_or, not_not] at hopen
      exact .inl ⟨hinspect, hopen.1, hopen.2.1⟩
    · cases hready
  next hwrite =>
    have hopen := throwIf_eq_ok.mp hready
    simp only [not_or, not_not] at hopen
    exact .inr ⟨hwrite, hopen.1, hopen.2⟩

variable {tenant : Tenant}

theorem Releasable.waiting {record : GpoReconciliation} (h : Releasable c now db record j tenant) :
    j.status = .reconciliationRequired := by
  have hauthority := h.authority
  unfold Db.reconciliationAuthority at hauthority
  simp only at hauthority
  split at hauthority
  · cases hauthority
  · split at hauthority
    · cases hauthority
    rename_i hjob
    simp only [not_or, not_not] at hjob
    exact hjob.2.2.2

theorem Db.approvalBlocker_waiting {user : Nat} (h : db.approvalBlocker now j tenant user = none) :
    j.status.preExecution = true := by
  by_contra hnot
  unfold Db.approvalBlocker at h
  simp only [eq_false_of_ne_true hnot, Bool.not_false, Bool.true_or, if_true] at h
  repeat' split at h
  all_goals cases h

/-- What a job at rest keeps. -/
structure GpoImportJob.Rests (j k : GpoImportJob) : Prop where
  status : k.status = j.status
  claimedAt : k.claimedAt = j.claimedAt
  completedAt : k.completedAt = j.completedAt
  gpoGuid : k.gpoGuid = j.gpoGuid
  evidence : k.resultEvidence = j.resultEvidence

theorem GpoImportJob.Rests.refl (j : GpoImportJob) : j.Rests j := ⟨rfl, rfl, rfl, rfl, rfl⟩

theorem RowMove.rests (h : RowMove c now b db j k) (hj : j.status.terminal = true) : j.Rests k := by
  have hnot : ¬j.status.preExecution = true := by
    rw [JobStatus.not_waiting_of_terminal hj]
    exact Bool.false_ne_true
  cases h with
  | same => exact .refl j
  | step h =>
    cases h with
    | approved _ _ hblocker _ _ => exact absurd (Db.approvalBlocker_waiting hblocker) hnot
    | awaiting hwaiting _ => exact absurd hwaiting hnot
    | claimed hclaim => exact absurd hclaim.waiting hnot
    | closed _ => exact ⟨rfl, rfl, rfl, rfl, rfl⟩
  | ended h =>
    cases h with
    | ended hactive _ _ =>
      rw [JobStatus.terminal_eq, hactive] at hj
      cases hj
    | settled hopen _ _ _ =>
      rw [hj] at hopen
      cases hopen
  | succeeded h =>
    rcases h.unfinished with ⟨-, hstatus, -⟩ | ⟨-, hstatus, -⟩ <;> rw [hstatus] at hj <;> cases hj
  | released _ h =>
    rw [h.waiting] at hj
    cases hj
  | forgotten user => exact ⟨rfl, rfl, rfl, rfl, rfl⟩

/-- What a job is about never changes. -/
structure GpoImportJob.SameTask (j k : GpoImportJob) : Prop where
  id : k.id = j.id
  tenant : k.tenant = j.tenant
  domain : k.domain = j.domain
  domainGuid : k.domainGuid = j.domainGuid
  assignment : k.assignment = j.assignment

theorem JobStep.sameTask (h : JobStep c now db j k) : j.SameTask k := by
  cases h <;> exact ⟨rfl, rfl, rfl, rfl, rfl⟩

theorem JobEnd.sameTask (h : JobEnd c now j k) : j.SameTask k := by
  cases h with
  | ended _ _ _ =>
    unfold GpoImportJob.endUnlessClaimed
    split <;> exact ⟨rfl, rfl, rfl, rfl, rfl⟩
  | settled _ _ _ _ => exact ⟨rfl, rfl, rfl, rfl, rfl⟩

/-! ## The GPO of a write -/

/-- A managed job that writes a GPO: the one it was approved for, or the one it reports. -/
def GpoImportJob.writesTo (k : GpoImportJob) (guid : String) : Bool :=
  match k.assignment with
  | .pilot _ _ => false
  | .managed a => !a.inspection && (a.gpoGuid == guid || k.gpoGuid == guid)

/-- A write whose GPO is settled: an unfinished one that waits for its reconciliation only reports
it. -/
def GpoImportJob.settlesOn (k : GpoImportJob) (guid : String) : Bool :=
  match k.assignment with
  | .pilot _ _ => false
  | .managed a => !a.inspection &&
      (a.gpoGuid == guid || k.gpoGuid == guid && k.status != .reconciliationRequired)

/-- The record of a deletion: of the GPO, or of a policy whose GPO an inspection did not find. -/
def GpoImportJob.recordsDeletion (d : GpoImportJob) (guid : String) : Bool :=
  match d.assignment with
  | .pilot _ _ => false
  | .managed a => a.gpoGuid == guid && (d.status == .deleted ||
      d.status == .inspected && a.intendedOperation == .deleteManagedGpo &&
        (d.resultEvidence.get? "state").bind (·.get? "gpo") == some .null)

theorem GpoImportJob.recordsDeletion_rests (h : j.SameTask k) (hrests : j.Rests k) (guid : String) :
    k.recordsDeletion guid = j.recordsDeletion guid := by
  unfold recordsDeletion
  rw [h.assignment, hrests.status, hrests.evidence]

theorem GpoImportJob.recordsDeletion_terminal {guid : String} (h : j.recordsDeletion guid = true) :
    j.status.terminal = true := by
  unfold recordsDeletion at h
  split at h
  · cases h
  · simp only [Bool.and_eq_true, Bool.or_eq_true, beq_iff_eq] at h
    rcases h.2 with hstatus | ⟨⟨hstatus, -⟩, -⟩ <;> rw [hstatus] <;> rfl

/-- The owner of a GPO is there, or its deletion is on record after a time. -/
def Db.OwnerOnRecord (db : Db) (tenant domainGuid guid : String) (since : Time) : Prop :=
  db.owned tenant domainGuid guid = true ∨
    ∃ d ∈ db.jobs.rows, d.tenant = tenant ∧ d.domainGuid = domainGuid ∧
      d.recordsDeletion guid = true ∧ ∃ t, d.completedAt = some t ∧ since ≤ t

theorem Db.owned_iff {tenant domainGuid guid : String} : db.owned tenant domainGuid guid = true ↔
    ∃ p ∈ db.policies.rows, p.tenant = tenant ∧ p.domainGuid = domainGuid ∧ p.gpoGuid = guid ∧
      guid ≠ "" := by
  unfold Db.owned Db.owners
  simp only [List.any_eq_true, List.mem_filter, Bool.and_eq_true, beq_iff_eq, bne_iff_ne]
  constructor
  · rintro ⟨p, ⟨hp, htenant, hne⟩, hdomain, rfl⟩
    exact ⟨p, hp, htenant, hdomain, rfl, hne⟩
  · rintro ⟨p, hp, htenant, hdomain, rfl, hne⟩
    exact ⟨p, ⟨hp, htenant, hne⟩, hdomain, rfl⟩

theorem Db.Fenced.owned (h : db.Fenced db') {tenant domainGuid guid : String}
    (howned : db.owned tenant domainGuid guid = true) : db'.owned tenant domainGuid guid = true := by
  rw [Db.owned_iff] at howned ⊢
  obtain ⟨p, hp, htenant, hdomain, hguid, hne⟩ := howned
  obtain ⟨q, hq, hsame⟩ := h.kept _ _ (get?_of_mem hp)
  refine ⟨q, get?_mem hq, ?_⟩
  rcases hsame with rfl | rfl <;> exact ⟨htenant, hdomain, hguid, hne⟩

/-! ## What a success leaves of the policy -/

/-- A success that deletes the policy. -/
def deletesPolicy (a : ManagedJob) (evidence : Value) : Prop :=
  a.operation = .deleteManagedGpo ∨ a.operation = .inspectManagedGpo ∧
    a.intendedOperation = .deleteManagedGpo ∧
    (evidence.get? "state").bind (·.get? "gpo") = some .null

/-- A policy of the same domain with another GPO. -/
structure ManagedGpoPolicy.Holds (policy changed : ManagedGpoPolicy) (guid : String) : Prop where
  id : changed.id = policy.id
  tenant : changed.tenant = policy.tenant
  domainGuid : changed.domainGuid = policy.domainGuid
  gpoGuid : changed.gpoGuid = guid

theorem importedPolicy_holds {changed : ManagedGpoPolicy}
    (h : importedPolicy c db j a policy = .ok changed) : policy.Holds changed policy.gpoGuid := by
  unfold importedPolicy at h
  split at h
  · cases h
  · split at h
    · cases h
      exact ⟨rfl, rfl, rfl, rfl⟩
    · cases h

theorem changedPolicy_holds {changed : ManagedGpoPolicy}
    (h : changedPolicy c db j a policy = .ok changed) : policy.Holds changed policy.gpoGuid := by
  unfold changedPolicy at h
  split at h
  · exact importedPolicy_holds h
  · exact importedPolicy_holds h
  all_goals
    cases h
    exact ⟨rfl, rfl, rfl, rfl⟩

/-- What recording a success does to the policies. -/
theorem receivePolicy_cases {evidence : Value}
    (h : (receivePolicy c j a policy evidence).exec db = .ok ((), db')) :
    a.operation = .inspectManagedGpo ∧ db' = db ∨
      deletesPolicy a evidence ∧ db' = { db with policies := db.policies.delete policy.id } ∨
      a.operation ≠ .inspectManagedGpo ∧ a.operation ≠ .deleteManagedGpo ∧
        ∃ changed, policy.Holds changed j.gpoGuid ∧
          db' = { db with policies := db.policies.save changed } := by
  unfold receivePolicy at h
  split at h
  next hinspect =>
    split at h
    next hgone =>
      cases h
      exact .inr (.inl ⟨.inr ⟨hinspect, hgone⟩, rfl⟩)
    · cases h
      exact .inl ⟨hinspect, rfl⟩
  next hwrite =>
    split at h
    next hdelete =>
      cases h
      exact .inr (.inl ⟨.inl hdelete, rfl⟩)
    next hkeep =>
      obtain ⟨m, u, hm, hrest⟩ := exec_bind_ok.mp h
      cases hm
      obtain ⟨changed, v, hchanged, hsave⟩ := exec_bind_ok.mp hrest
      obtain ⟨hchanged, hv⟩ := exec_ofExcept_ok.mp hchanged
      rw [hv] at hsave
      unfold savePolicy at hsave
      obtain ⟨w, x, hw, hsave⟩ := exec_bind_ok.mp hsave
      cases hw
      obtain ⟨hid, htenant, hdomain, hguid⟩ := changedPolicy_holds hchanged
      split at hsave
      · cases hsave
      · cases hsave
        exact .inr (.inr ⟨hwrite, hkeep, { changed with revision := changed.revision + 1 },
          ⟨hid, htenant, hdomain, hguid⟩, rfl⟩)

/-- The approved state of a write shows the GPO it was approved for. -/
def ExpectsOwn (a : ManagedJob) : Prop :=
  ∃ before, a.expectedState = some before ∧
    (a.gpoGuid ≠ "" → ∃ old, before.gpo = some old ∧ old.guid = a.gpoGuid)

theorem safeBefore_own {state : Agent.Gpo.Snapshot} (h : safeBefore c a state = .ok ())
    (hguid : a.gpoGuid ≠ "") : ∃ old, state.gpo = some old ∧ old.guid = a.gpoGuid := by
  unfold safeBefore at h
  obtain ⟨_, -, h⟩ := bind_eq_ok.mp h
  obtain ⟨_, -, h⟩ := bind_eq_ok.mp h
  split at h
  · have hnot := throwIf_eq_ok.mp h
    exact absurd (Or.inl hguid) hnot
  next g hg =>
    obtain ⟨_, hown, -⟩ := bind_eq_ok.mp h
    have hown := throwIf_eq_ok.mp hown
    simp only [not_or, not_not] at hown
    exact ⟨g, hg, hown.1⟩

theorem Db.managedScopeCurrent_expects {enrollment : AgentEnrollment}
    (h : db.managedScopeCurrent now c j a enrollment tenant = true) (hwrite : a.inspection = false)
    : ExpectsOwn a := by
  unfold Db.managedScopeCurrent Db.operationCurrent at h
  rw [hwrite] at h
  simp only [Bool.false_eq_true, if_false, Bool.and_eq_true] at h
  have hsafe : Db.expectedStateSafe c a = true := h.2.1.1.1.2
  unfold Db.expectedStateSafe at hsafe
  split at hsafe
  · cases hsafe
  rename_i state hstate
  simp only [Bool.and_eq_true] at hsafe
  refine ⟨state, hstate, fun hguid => ?_⟩
  cases hbefore : safeBefore c a state with
  | error e =>
    rw [hbefore] at hsafe
    cases hsafe.2
  | ok u => exact safeBefore_own hbefore hguid

/-- The GPO an accepted receipt names: none after a deletion, and after any other write the one it
was approved for. -/
theorem postcondition_guid {evidence guid : Value} (h : postcondition c a evidence guid = .ok ())
    (hwrite : a.inspection = false) (hexpects : ExpectsOwn a) :
    (a.operation = .deleteManagedGpo → guid = .null) ∧
      (a.operation ≠ .deleteManagedGpo → a.gpoGuid ≠ "" → guid = .str a.gpoGuid) := by
  obtain ⟨before, hbefore, hown⟩ := hexpects
  unfold postcondition at h
  obtain ⟨_, -, h⟩ := bind_eq_ok.mp h
  split at h
  · cases h
  obtain ⟨_, -, h⟩ := bind_eq_ok.mp h
  obtain ⟨_, -, h⟩ := bind_eq_ok.mp h
  obtain ⟨state, -, h⟩ := bind_eq_ok.mp h
  obtain ⟨_, -, h⟩ := bind_eq_ok.mp h
  obtain ⟨_, hguid, h⟩ := bind_eq_ok.mp h
  obtain ⟨_, -, h⟩ := bind_eq_ok.mp h
  obtain ⟨backedUp, -, h⟩ := bind_eq_ok.mp h
  obtain ⟨_, -, h⟩ := bind_eq_ok.mp h
  have hguid : guid = guidOf state := not_not.mp (throwIf_eq_ok.mp hguid)
  rw [hwrite, hbefore] at h
  simp only [Bool.false_eq_true, if_false] at h
  constructor
  · intro hdelete
    rw [if_pos hdelete] at h
    unfold checkDeleted at h
    split at h
    · cases h
    obtain ⟨_, hgone, -⟩ := bind_eq_ok.mp h
    have hgone := throwIf_eq_ok.mp hgone
    simp only [not_or, not_not] at hgone
    rw [hguid, guidOf, hgone.2.1]
    rfl
  · intro hkeep hne
    rw [if_neg hkeep] at h
    obtain ⟨old, hold, holdGuid⟩ := hown hne
    unfold checkChanged at h
    split at h
    · cases h
    rename_i g hg
    obtain ⟨_, -, h⟩ := bind_eq_ok.mp h
    obtain ⟨_, -, h⟩ := bind_eq_ok.mp h
    obtain ⟨_, hsame, -⟩ := bind_eq_ok.mp h
    have hsame := throwIf_eq_ok.mp hsame
    simp only [hold, Option.any_some, bne_iff_ne, ne_eq, not_not] at hsame
    rw [hguid, guidOf, hg, Option.map_some, Option.getD_some, hsame, holdGuid]

/-! ## The ledger -/

/-- What the tables say of one job. -/
structure Db.Books (db : Db) (now : Time) (k : GpoImportJob) : Prop where
  past : ∀ t, k.claimedAt = some t → t ≤ now
  stands : ∀ a, k.assignment = .managed a → k.status.active = true → db.PolicyStands k a
  blank : ∀ a, k.assignment = .managed a → k.status.active = true →
    k.status ≠ .reconciliationRequired → k.gpoGuid = ""
  expects : ∀ a, k.assignment = .managed a → a.inspection = false → k.claimedAt ≠ none →
    ExpectsOwn a
  owner : ∀ guid t, guid ≠ "" → k.settlesOn guid = true → k.claimedAt = some t →
    db.OwnerOnRecord k.tenant k.domainGuid guid t

/-- The jobs and the policies fit together. -/
structure Db.Ledger (db : Db) (now : Time) : Prop where
  fence : ∀ j ∈ db.jobs.rows, ∀ k ∈ db.jobs.rows, j.status.active = true →
    k.status.active = true → j.tenant = k.tenant → j.domainGuid = k.domainGuid → j = k
  books : ∀ k ∈ db.jobs.rows, db.Books now k

theorem Db.policyForJob_iff {p : ManagedGpoPolicy} (hassigned : j.assignment = .managed a) :
    db.policyForJob j = some p ↔
      db.policies.get? a.managedId = some p ∧ p.tenant = j.tenant ∧ p.domain = j.domain ∧
        p.domainGuid = j.domainGuid := by
  unfold Db.policyForJob
  rw [hassigned]
  simp only [Option.filter_eq_some_iff, Bool.and_eq_true, beq_iff_eq, and_assoc]

theorem Db.policyForJob_sameTask (h : j.SameTask k) : db.policyForJob k = db.policyForJob j := by
  unfold Db.policyForJob
  rw [h.assignment, h.tenant, h.domain, h.domainGuid]

theorem Db.PolicyStands.sameTask (hp : db.PolicyStands j a) (h : j.SameTask k) :
    db.PolicyStands k a := by
  obtain ⟨p, hp, hrest⟩ := hp
  exact ⟨p, (Db.policyForJob_sameTask h).trans hp, hrest⟩

theorem Db.PolicyStands.kept (hassigned : j.assignment = .managed a) (hp : db.PolicyStands j a)
    (h : ∀ p, db.policyForJob j = some p → db'.policies.get? p.id = some p) :
    db'.PolicyStands j a := by
  obtain ⟨p, hp, hrest⟩ := hp
  obtain ⟨hget, hrow⟩ := (Db.policyForJob_iff hassigned).mp hp
  refine ⟨p, (Db.policyForJob_iff hassigned).mpr ⟨?_, hrow⟩, hrest⟩
  rw [← get?_key hget]
  exact h p hp

theorem Db.PolicyStands.owned (hassigned : j.assignment = .managed a) (hp : db.PolicyStands j a)
    (hguid : a.gpoGuid ≠ "") : db.owned j.tenant j.domainGuid a.gpoGuid = true := by
  obtain ⟨p, hp, -, hown⟩ := hp
  obtain ⟨hget, htenant, -, hdomain⟩ := (Db.policyForJob_iff hassigned).mp hp
  exact Db.owned_iff.mpr ⟨p, get?_mem hget, htenant, hdomain, hown, hguid⟩

theorem Db.Books.kept {later : Time} (h : db.Books now k) (hlater : now ≤ later)
    (hstands : ∀ a, k.assignment = .managed a → k.status.active = true → db.PolicyStands k a →
      db'.PolicyStands k a)
    (howner : ∀ guid t, guid ≠ "" → t ≤ now → db.OwnerOnRecord k.tenant k.domainGuid guid t →
      db'.OwnerOnRecord k.tenant k.domainGuid guid t) : db'.Books later k where
  past t ht := (h.past t ht).trans hlater
  stands a ha hactive := hstands a ha hactive (h.stands a ha hactive)
  blank := h.blank
  expects := h.expects
  owner guid t hne hsettles ht := howner guid t hne (h.past t ht) (h.owner guid t hne hsettles ht)

/-- Saving a row over one of the same task keeps every owner on record, as long as the policies
do. -/
theorem Db.OwnerOnRecord.saved {tenant domainGuid guid : String} {since : Time}
    (h : db.OwnerOnRecord tenant domainGuid guid since) (hget : db.jobs.get? j.id = some j)
    (htask : j.SameTask k) (hrests : j.status.terminal = true → j.Rests k)
    (hjobs : db'.jobs = db.jobs.save k)
    (howned : db.owned tenant domainGuid guid = true →
      db'.OwnerOnRecord tenant domainGuid guid since) :
    db'.OwnerOnRecord tenant domainGuid guid since := by
  rcases h with h | ⟨d, hd, htenant, hdomain, hrecords, t, hcompleted, hsince⟩
  · exact howned h
  by_cases hid : d.id = j.id
  · -- The record is the row that is saved; it has ended, so it is as it was.
    have hdj : d = j := row_unique hd (get?_mem hget) hid
    subst hdj
    have hsame := hrests (GpoImportJob.recordsDeletion_terminal hrecords)
    refine .inr ⟨k, ?_, htask.tenant.trans htenant, htask.domainGuid.trans hdomain, ?_, t,
      hsame.completedAt.trans hcompleted, hsince⟩
    · rw [hjobs]
      exact mem_save.mpr (.inr ⟨rfl, d, hd, htask.id.symm⟩)
    · rw [GpoImportJob.recordsDeletion_rests htask hsame]
      exact hrecords
  · refine .inr ⟨d, ?_, htenant, hdomain, hrecords, t, hcompleted, hsince⟩
    rw [hjobs]
    exact mem_save.mpr (.inl ⟨hd, by rw [htask.id]; exact hid⟩)

/-- The ledger after one row is saved over: the row has books of its own, and the rows and the
owners beside it are kept. -/
theorem Db.Ledger.saved (h : db.Ledger now) (hget : db.jobs.get? j.id = some j)
    (htask : j.SameTask k) (hjobs : db'.jobs = db.jobs.save k)
    (hactive : k.status.active = true → j.status.active = true)
    (hstands : ∀ i ∈ db.jobs.rows, i.id ≠ j.id → ∀ a, i.assignment = .managed a →
      i.status.active = true → db.PolicyStands i a → db'.PolicyStands i a)
    (howner : ∀ tenant domainGuid guid t, guid ≠ "" → t ≤ now →
      db.OwnerOnRecord tenant domainGuid guid t → db'.OwnerOnRecord tenant domainGuid guid t)
    (hbooks : db'.Books now k) : db'.Ledger now := by
  have hj := get?_mem hget
  -- Every row is one that was there, and active only if that one was.
  have hrow : ∀ i ∈ db'.jobs.rows, i ∈ db.jobs.rows ∧ i.id ≠ j.id ∨ i = k := by
    intro i hi
    rw [hjobs] at hi
    rcases mem_save.mp hi with ⟨hi, hid⟩ | ⟨rfl, -⟩
    · exact .inl ⟨hi, by rw [← htask.id]; exact hid⟩
    · exact .inr rfl
  have hback : ∀ i ∈ db'.jobs.rows, ∃ o ∈ db.jobs.rows, o.id = i.id ∧ o.tenant = i.tenant ∧
      o.domainGuid = i.domainGuid ∧ (i.status.active = true → o.status.active = true) := by
    intro i hi
    rcases hrow i hi with ⟨hi, -⟩ | rfl
    · exact ⟨i, hi, rfl, rfl, rfl, id⟩
    · exact ⟨j, hj, htask.id.symm, htask.tenant.symm, htask.domainGuid.symm, hactive⟩
  constructor
  · intro i hi i' hi' hiactive hi'active htenant hdomain
    obtain ⟨o, ho, hid, hot, hod, hoactive⟩ := hback i hi
    obtain ⟨o', ho', hid', hot', hod', hoactive'⟩ := hback i' hi'
    have hsame := h.fence o ho o' ho' (hoactive hiactive) (hoactive' hi'active)
      (hot.trans (htenant.trans hot'.symm)) (hod.trans (hdomain.trans hod'.symm))
    refine row_unique hi hi' ?_
    rw [← hid, ← hid', hsame]
  · intro i hi
    rcases hrow i hi with ⟨hi, hid⟩ | rfl
    · exact (h.books i hi).kept le_rfl (hstands i hi hid) fun guid t => howner _ _ guid t
    · exact hbooks

/-! ## Steps and ends of a job -/

theorem GpoImportJob.settlesOn_managed {guid : String} (hassigned : k.assignment = .managed a) :
    k.settlesOn guid = true ↔ a.inspection = false ∧
      (a.gpoGuid = guid ∨ k.gpoGuid = guid ∧ k.status ≠ .reconciliationRequired) := by
  unfold settlesOn
  rw [hassigned]
  simp only [Bool.and_eq_true, Bool.not_eq_true', Bool.or_eq_true, beq_iff_eq, bne_iff_ne, ne_eq]

theorem GpoImportJob.settlesOn_managed_of {guid : String} (h : k.settlesOn guid = true) :
    ∃ a, k.assignment = .managed a ∧ a.inspection = false ∧
      (a.gpoGuid = guid ∨ k.gpoGuid = guid ∧ k.status ≠ .reconciliationRequired) := by
  cases hassigned : k.assignment with
  | pilot core portal =>
    unfold settlesOn at h
    rw [hassigned] at h
    cases h
  | managed a => exact ⟨a, rfl, (settlesOn_managed hassigned).mp h⟩

theorem Db.Books.follow (h : db.Books now j) (htask : j.SameTask k)
    (hclaimed : k.claimedAt = j.claimedAt) (hguid : k.gpoGuid = j.gpoGuid)
    (hactive : k.status.active = true → j.status.active = true)
    (hsettled : k.status ≠ .reconciliationRequired → j.status ≠ .reconciliationRequired) :
    db.Books now k where
  past t ht := h.past t (hclaimed ▸ ht)
  stands a ha hk := (h.stands a (htask.assignment ▸ ha) (hactive hk)).sameTask htask
  blank a ha hk hopen := by
    rw [hguid]
    exact h.blank a (htask.assignment ▸ ha) (hactive hk) (hsettled hopen)
  expects a ha hwrite hk := h.expects a (htask.assignment ▸ ha) hwrite (hclaimed ▸ hk)
  owner guid t hne hk ht := by
    rw [htask.tenant, htask.domainGuid]
    refine h.owner guid t hne ?_ (hclaimed ▸ ht)
    obtain ⟨a, ha, hwrite, hsettles⟩ := GpoImportJob.settlesOn_managed_of hk
    refine (GpoImportJob.settlesOn_managed (htask.assignment ▸ ha)).mpr ⟨hwrite, ?_⟩
    rcases hsettles with hsettles | ⟨hsettles, hopen⟩
    · exact .inl hsettles
    · exact .inr ⟨hguid ▸ hsettles, hsettled hopen⟩

theorem JobStatus.active_of_waiting {s : JobStatus} (h : s.preExecution = true) :
    s.active = true ∧ s ≠ .reconciliationRequired := by
  cases s <;> simp_all [JobStatus.preExecution, JobStatus.active]

theorem Claimable.books (h : Claimable c now db j) (hbooks : db.Books now j) :
    db.Books now (j.claim now) := by
  obtain ⟨hactive, hopen⟩ := JobStatus.active_of_waiting h.waiting
  have htask : j.SameTask (j.claim now) := ⟨rfl, rfl, rfl, rfl, rfl⟩
  have hscope : ∀ a, j.assignment = .managed a →
      ∃ tenant enrollment, db.managedScopeCurrent now c j a enrollment tenant = true := by
    intro a ha
    obtain ⟨tenant, enrollment, -, -, hscope, -⟩ := h.authority
    unfold Db.scopeCurrent at hscope
    rw [ha] at hscope
    exact ⟨tenant, enrollment, hscope⟩
  refine ⟨?_, fun a ha _ => (hbooks.stands a ha hactive).sameTask htask,
    fun a ha _ _ => hbooks.blank a ha hactive hopen, ?_, ?_⟩
  · intro t ht
    cases ht
    exact le_rfl
  · intro a ha hwrite _
    obtain ⟨tenant, enrollment, hcurrent⟩ := hscope a ha
    exact Db.managedScopeCurrent_expects hcurrent hwrite
  · intro guid t hne hsettles _
    obtain ⟨a, ha, -, hguid⟩ := GpoImportJob.settlesOn_managed_of hsettles
    rcases hguid with hguid | ⟨hguid, -⟩
    · subst hguid
      exact .inl ((hbooks.stands a ha hactive).owned ha hne)
    · -- Nothing is reported of a job that waits for its claim.
      exact absurd ((hbooks.blank a ha hactive hopen).symm.trans hguid).symm hne

theorem Db.Ledger.step (h : db.Ledger now) (hget : db.jobs.get? j.id = some j)
    (hstep : JobStep c now db j k) : ({ db with jobs := db.jobs.save k } : Db).Ledger now := by
  have hbooks := h.books j (get?_mem hget)
  have htask := hstep.sameTask
  have howner : ∀ tenant domainGuid guid t, guid ≠ "" → t ≤ now →
      db.OwnerOnRecord tenant domainGuid guid t →
      ({ db with jobs := db.jobs.save k } : Db).OwnerOnRecord tenant domainGuid guid t :=
    fun _ _ _ _ _ _ hrecord => hrecord.saved hget htask
      (@RowMove.rests c now false db j k (.step hstep)) rfl .inl
  have hnew : db.Books now k ∧ (k.status.active = true → j.status.active = true) := by
    cases hstep with
    | approved _ _ hblocker _ _ =>
      have hwaiting := Db.approvalBlocker_waiting hblocker
      obtain ⟨hactive, hopen⟩ := JobStatus.active_of_waiting hwaiting
      exact ⟨hbooks.follow htask rfl rfl (fun _ => hactive) fun _ => hopen, fun _ => hactive⟩
    | awaiting hwaiting _ =>
      obtain ⟨hactive, hopen⟩ := JobStatus.active_of_waiting hwaiting
      exact ⟨hbooks.follow htask rfl rfl (fun _ => hactive) fun _ => hopen, fun _ => hactive⟩
    | claimed hclaim =>
      exact ⟨hclaim.books hbooks, fun _ => (JobStatus.active_of_waiting hclaim.waiting).1⟩
    | closed _ => exact ⟨hbooks.follow htask rfl rfl id id, id⟩
  refine h.saved hget htask rfl hnew.2 (fun i _ _ a _ _ hp => hp) howner ?_
  exact hnew.1.kept le_rfl (fun a _ _ hp => hp) fun guid t => howner _ _ guid t

theorem readResult_eq_ok {r : GeneralResult} (h : readResult j d = .ok r) :
    (∃ s, d.status = .str s ∧ Reported.ofText s = some r.status) ∧
      (j.gpoGuid ≠ "" → r.guid = some j.gpoGuid) := by
  unfold readResult at h
  split at h
  next s code hstatus hcode =>
    split at h
    · cases h
    rename_i reported hreported
    obtain ⟨_, -, h⟩ := bind_eq_ok.mp h
    obtain ⟨guid, -, h⟩ := bind_eq_ok.mp h
    obtain ⟨_, hnamed, h⟩ := bind_eq_ok.mp h
    have hnamed := throwIf_eq_ok.mp hnamed
    have hr : r = ⟨reported, code, guid⟩ := by
      split at h
      · obtain ⟨_, -, h⟩ := bind_eq_ok.mp h
        cases h
        rfl
      · obtain ⟨_, -, h⟩ := bind_eq_ok.mp h
        cases h
        rfl
    subst hr
    refine ⟨⟨s, hstatus, hreported⟩, fun hne => ?_⟩
    by_contra hother
    exact hnamed ⟨hne, hother⟩
  · cases h

theorem readResult_general {r : GeneralResult} (hread : readResult j d = .ok r)
    (hgeneral : reportsSuccess d = .ok false) : r.status ≠ .staged := by
  obtain ⟨⟨s, hs, hstatus⟩, -⟩ := readResult_eq_ok hread
  intro hstaged
  have htext : s = "staged" := by
    rw [hstaged] at hstatus
    unfold Reported.ofText at hstatus
    split at hstatus
    · cases hstatus
    · split at hstatus
      · cases hstatus
      · split at hstatus
        next htext => exact htext
        · split at hstatus
          · cases hstatus
          · split at hstatus <;> cases hstatus
  unfold reportsSuccess at hgeneral
  rw [hs, htext] at hgeneral
  cases hgeneral

theorem settle_unnamed {r : GeneralResult} (hread : readResult j d = .ok r)
    (hgeneral : reportsSuccess d = .ok false)
    (hsettled : (j.settle d r now).status ≠ .reconciliationRequired) :
    (j.settle d r now).gpoGuid = "" := by
  obtain ⟨-, hnamed⟩ := readResult_eq_ok hread
  have hstaged : r.status ≠ .staged := readResult_general hread hgeneral
  have hreport : ¬(r.status = .requiresReconciliation ∨ r.guid.isSome = true ∨
      j.claimedAt.isSome = true) := by
    intro hreconcile
    apply hsettled
    simp only [GpoImportJob.settle]
    unfold settledStatus
    rw [if_neg hstaged, if_pos hreconcile]
  simp only [not_or, Option.not_isSome_iff_eq_none] at hreport
  simp only [GpoImportJob.settle, hreport.2.1, Option.getD_none]
  by_contra hne
  have hguid := hnamed hne
  rw [hreport.2.1] at hguid
  cases hguid

/-- The books of a job that ended or asks for its reconciliation. -/
theorem JobEnd.books (h : JobEnd c now j k) (hbooks : db.Books now j) :
    db.Books now k ∧ (k.status.active = true → j.status.active = true) := by
  have htask := h.sameTask
  cases h with
  | @ended status code hactive hopen hstatus =>
    have hclaimed : (j.endUnlessClaimed status code now).claimedAt = j.claimedAt := by
      unfold GpoImportJob.endUnlessClaimed
      split <;> rfl
    have hguid : (j.endUnlessClaimed status code now).gpoGuid = j.gpoGuid := by
      unfold GpoImportJob.endUnlessClaimed
      split <;> rfl
    exact ⟨hbooks.follow htask hclaimed hguid (fun _ => hactive) fun _ => hopen, fun _ => hactive⟩
  | @settled d r hopen hread _ hgeneral =>
    have hactive : j.status.active = true := by
      rw [JobStatus.terminal_eq] at hopen
      simpa using hopen
    refine ⟨⟨hbooks.past, fun a ha _ => (hbooks.stands a ha hactive).sameTask htask, ?_,
      hbooks.expects, ?_⟩, fun _ => hactive⟩
    · intro a _ hk hsettled
      -- A settled job that is still active asks for its reconciliation.
      exfalso
      simp only [GpoImportJob.settle] at hk hsettled
      unfold settledStatus at hk hsettled
      split at hk
      · cases hk
      rename_i hstaged
      split at hk
      next hreconcile => exact hsettled (by rw [if_neg hstaged, if_pos hreconcile])
      · cases hk
    · intro guid t hne hk ht
      obtain ⟨a, ha, hwrite, hguid⟩ := GpoImportJob.settlesOn_managed_of hk
      have ha' : j.assignment = .managed a := ha
      refine hbooks.owner guid t hne
        ((GpoImportJob.settlesOn_managed ha').mpr ⟨hwrite, .inl ?_⟩) ht
      rcases hguid with hguid | ⟨hguid, hsettled⟩
      · exact hguid
      · exact absurd (hguid.symm.trans (settle_unnamed hread (hgeneral a ha) hsettled)) hne

theorem Db.Ledger.ended (h : db.Ledger now) (hget : db.jobs.get? j.id = some j)
    (hend : JobEnd c now j k) : (db.saveEnded k).Ledger now := by
  have hfenced := Db.fenced_saveEnded db k
  have htask := hend.sameTask
  obtain ⟨hbooks, hactive⟩ := hend.books (h.books j (get?_mem hget))
  have howner : ∀ tenant domainGuid guid t, guid ≠ "" → t ≤ now →
      db.OwnerOnRecord tenant domainGuid guid t →
      (db.saveEnded k).OwnerOnRecord tenant domainGuid guid t :=
    fun _ _ _ _ _ _ hrecord => hrecord.saved hget htask
      (@RowMove.rests c now false db j k (.ended hend)) (Db.saveEnded_jobs db k)
      fun howned => .inl (hfenced.owned howned)
  refine h.saved hget htask (Db.saveEnded_jobs db k) hactive
    (fun i _ _ a _ _ hp => hfenced.policyStands hp) howner ?_
  exact hbooks.kept le_rfl (fun a _ _ hp => hfenced.policyStands hp) fun guid t => howner _ _ guid t

/-! ## Successes and releases -/

theorem Db.Ledger.apart (h : db.Ledger now) {i : GpoImportJob} (hi : i ∈ db.jobs.rows)
    (hj : j ∈ db.jobs.rows) (hid : i.id ≠ j.id) {p : ManagedGpoPolicy}
    (hassigned : i.assignment = .managed a) (hiactive : i.status.active = true)
    (hjactive : j.status.active = true) {b : ManagedJob} (hassigned' : j.assignment = .managed b)
    (hp : db.policyForJob i = some p) (hpolicy : db.policyForJob j = some policy) :
    p.id ≠ policy.id := by
  intro hsame
  obtain ⟨hgetp, htenant, -, hdomain⟩ := (Db.policyForJob_iff hassigned).mp hp
  obtain ⟨hgetq, htenant', -, hdomain'⟩ := (Db.policyForJob_iff hassigned').mp hpolicy
  have hpq : p = policy := row_unique (get?_mem hgetp) (get?_mem hgetq) hsame
  subst hpq
  exact hid (congrArg GpoImportJob.id (h.fence i hi j hj hiactive hjactive
    (htenant.symm.trans htenant') (hdomain.symm.trans hdomain')))

theorem Receivable.active (h : Receivable c now db j a policy status code d) :
    j.status.active = true := by
  rcases h.unfinished with ⟨-, hstatus, -⟩ | ⟨-, hstatus, -⟩ <;> rw [hstatus] <;> rfl

theorem success_spec {operation : Agent.Gpo.Operation} (h : success operation = some (status, code))
    : status.active = false ∧
      (operation = .deleteManagedGpo → status = .deleted) ∧
      (operation = .inspectManagedGpo → status = .inspected) := by
  cases operation <;> cases h <;> simp [JobStatus.active]

theorem Receivable.guid (h : Receivable c now db j a policy status code d) (hbooks : db.Books now j)
    (hwrite : a.inspection = false) :
    (a.operation = .deleteManagedGpo → (j.succeed status d now).gpoGuid = "") ∧
      (a.operation ≠ .deleteManagedGpo → a.gpoGuid ≠ "" →
        (j.succeed status d now).gpoGuid = a.gpoGuid) := by
  have hclaimed : j.claimedAt ≠ none := by
    rcases h.unfinished with ⟨hinspect, -, -⟩ | ⟨-, -, hclaimed⟩
    · rw [Agent.Gpo.ManagedJob.inspection, hinspect] at hwrite
      cases hwrite
    · exact hclaimed
  obtain ⟨hdelete, hkeep⟩ :=
    postcondition_guid h.effect hwrite (hbooks.expects a h.assignment hwrite hclaimed)
  constructor
  · intro hop
    simp only [GpoImportJob.succeed, hdelete hop]
  · intro hop hne
    simp only [GpoImportJob.succeed, hkeep hop hne]

theorem Receivable.recordsDeletion (h : Receivable c now db j a policy status code d)
    (hdeletes : deletesPolicy a d.evidence) :
    (j.succeed status d now).recordsDeletion a.gpoGuid = true := by
  have hassigned : (j.succeed status d now).assignment = .managed a := h.assignment
  obtain ⟨-, hdelete, hinspect⟩ := success_spec h.success
  unfold GpoImportJob.recordsDeletion
  rw [hassigned]
  simp only [beq_self_eq_true, Bool.true_and, Bool.or_eq_true, Bool.and_eq_true, beq_iff_eq]
  rcases hdeletes with hop | ⟨hop, hintended, hgone⟩
  · exact .inl (hdelete hop)
  · exact .inr ⟨⟨hinspect hop, hintended⟩, hgone⟩

/-- A success keeps the ledger: where it deletes the policy, it records that. -/
theorem Db.Ledger.succeeded {a : ManagedJob} {policy : ManagedGpoPolicy} {status : JobStatus}
    {code : String} {d : ResultDocument} (h : db.Ledger now) (hget : db.jobs.get? j.id = some j)
    (hr : Receivable c now db j a policy status code d)
    (hexec : (receivePolicy c (j.succeed status d now) a policy d.evidence).exec
      { db with jobs := db.jobs.save (j.succeed status d now) } = .ok ((), db')) :
    db'.Ledger now := by
  have hj := get?_mem hget
  have hbooks := h.books j hj
  have hjobs : db'.jobs = db.jobs.save (j.succeed status d now) := receivePolicy_jobs hexec
  have htask : j.SameTask (j.succeed status d now) := ⟨rfl, rfl, rfl, rfl, rfl⟩
  have hinactive : (j.succeed status d now).status.active = false := (success_spec hr.success).1
  have hpolicy : policy ∈ db.policies.rows := get?_mem (Db.policyForJob_get? hr.found)
  obtain ⟨-, htenant, -, hdomain⟩ := (Db.policyForJob_iff hr.assignment).mp hr.found
  -- The policy has the GPO the assignment names.
  have hown : policy.gpoGuid = a.gpoGuid := by
    obtain ⟨p, hp, -, hguid⟩ := hbooks.stands a hr.assignment hr.active
    rw [hr.found] at hp
    cases hp
    exact hguid
  have hkept : ∀ p ∈ db.policies.rows, p.id ≠ policy.id → db'.policies.get? p.id = some p := by
    intro p hp hid
    rcases receivePolicy_cases hexec with ⟨-, rfl⟩ | ⟨-, rfl⟩ | ⟨-, -, changed, hholds, rfl⟩
    · exact get?_of_mem hp
    · exact get?_of_mem (List.mem_filter.mpr ⟨hp, by simpa using hid⟩)
    · exact (get?_save_ne (by rw [hholds.id]; exact hid)).trans (get?_of_mem hp)
  have howned : ∀ tenant domainGuid guid t, guid ≠ "" → t ≤ now →
      db.owned tenant domainGuid guid = true → db'.OwnerOnRecord tenant domainGuid guid t := by
    intro tenant domainGuid guid t hne ht howned
    obtain ⟨p, hp, hptenant, hpdomain, hpguid, -⟩ := Db.owned_iff.mp howned
    by_cases hid : p.id = policy.id
    · have hpp : p = policy := row_unique hp hpolicy hid
      subst hpp
      have hguid : a.gpoGuid = guid := hown.symm.trans hpguid
      rcases receivePolicy_cases hexec with ⟨-, rfl⟩ | ⟨hdeletes, -⟩ | ⟨hop, hop', changed, hholds, rfl⟩
      · exact .inl howned
      · refine .inr ⟨j.succeed status d now, ?_, htenant.symm.trans hptenant,
          hdomain.symm.trans hpdomain, hguid ▸ hr.recordsDeletion hdeletes, now, rfl, ht⟩
        rw [hjobs]
        exact mem_save.mpr (.inr ⟨rfl, j, hj, rfl⟩)
      · have hwrite : a.inspection = false := by
          simpa [Agent.Gpo.ManagedJob.inspection] using hop
        refine .inl (Db.owned_iff.mpr ⟨changed, ?_, hholds.tenant.trans hptenant,
          hholds.domainGuid.trans hpdomain, ?_, hne⟩)
        · exact mem_save.mpr (.inr ⟨rfl, p, hp, hholds.id.symm⟩)
        · rw [hholds.gpoGuid, (hr.guid hbooks hwrite).2 hop' (by rw [hguid]; exact hne), hguid]
    · exact .inl (Db.owned_iff.mpr
        ⟨p, get?_mem (hkept p hp hid), hptenant, hpdomain, hpguid, hne⟩)
  have hrests : j.status.terminal = true → j.Rests (j.succeed status d now) := by
    intro hterminal
    rw [JobStatus.terminal_eq, hr.active] at hterminal
    cases hterminal
  have howner : ∀ tenant domainGuid guid t, guid ≠ "" → t ≤ now →
      db.OwnerOnRecord tenant domainGuid guid t → db'.OwnerOnRecord tenant domainGuid guid t :=
    fun _ _ _ _ hne ht hrecord => hrecord.saved hget htask hrests hjobs (howned _ _ _ _ hne ht)
  refine h.saved hget htask hjobs (fun _ => hr.active) ?_ howner ?_
  · intro i hi hid b hassigned hactive hp
    refine hp.kept hassigned fun p hp => hkept p (get?_mem (Db.policyForJob_get? hp)) ?_
    exact h.apart hi hj hid hassigned hactive hr.active hr.assignment hp hr.found
  · refine ⟨hbooks.past, fun b _ hactive => ?_, fun b _ hactive => ?_, hbooks.expects, ?_⟩
    · rw [hinactive] at hactive
      cases hactive
    · rw [hinactive] at hactive
      cases hactive
    · intro guid t hne hsettles ht
      obtain ⟨b, hb, hwrite, hguid⟩ := GpoImportJob.settlesOn_managed_of hsettles
      obtain rfl : a = b := by
        have hassigned := hr.assignment.symm.trans hb
        cases hassigned
        rfl
      rcases hguid with hguid | ⟨hguid, -⟩
      · exact howner _ _ guid t hne (hbooks.past t ht) (hbooks.owner guid t hne
          ((GpoImportJob.settlesOn_managed hr.assignment).mpr ⟨hwrite, .inl hguid⟩) ht)
      · rcases receivePolicy_cases hexec with ⟨hop, -⟩ | ⟨hdeletes, -⟩ | ⟨-, -, changed, hholds, rfl⟩
        · rw [Agent.Gpo.ManagedJob.inspection, hop] at hwrite
          cases hwrite
        · rcases hdeletes with hop | ⟨hop, -, -⟩
          · exact absurd (hguid.symm.trans ((hr.guid hbooks hwrite).1 hop)) hne
          · rw [Agent.Gpo.ManagedJob.inspection, hop] at hwrite
            cases hwrite
        · refine .inl (Db.owned_iff.mpr ⟨changed, ?_, hholds.tenant.trans htenant,
            hholds.domainGuid.trans hdomain, hholds.gpoGuid.trans hguid, hne⟩)
          exact mem_save.mpr (.inr ⟨rfl, policy, hpolicy, hholds.id.symm⟩)

theorem observedGuid_eq {record : GpoReconciliation} {o : Observation}
    (h : Observed c db record j a o) : observedGuid record = o.gpoGuid := by
  obtain ⟨value, hrecorded, hvalid, -⟩ := h.recorded
  have hvalue : value = o.toJson := by
    unfold validateObservation at hvalid
    obtain ⟨_, -, hvalid⟩ := bind_eq_ok.mp hvalid
    split at hvalid
    · cases hvalid
    rename_i o' hread
    have hsame : value = o'.toJson := Value.eq_of_exactly hread
    obtain ⟨_, -, hvalid⟩ := bind_eq_ok.mp hvalid
    obtain ⟨_, -, hvalid⟩ := bind_eq_ok.mp hvalid
    obtain ⟨_, -, hvalid⟩ := bind_eq_ok.mp hvalid
    split at hvalid
    · cases hvalid
      exact hsame
    · obtain ⟨_, -, hvalid⟩ := bind_eq_ok.mp hvalid
      obtain ⟨_, -, hvalid⟩ := bind_eq_ok.mp hvalid
      cases hvalid
      exact hsame
  unfold observedGuid
  rw [hrecorded, hvalue]
  rfl

/-- A release keeps the ledger: the policy gets the GPO that was observed, which is its own. -/
theorem Db.Ledger.released {record : GpoReconciliation} {tenant : Tenant} {policy : ManagedGpoPolicy}
    (h : db.Ledger now) (hget : db.jobs.get? j.id = some j)
    (hr : Releasable c now db record j tenant) (hfound : db.policyForJob j = some policy) :
    (db.release now record j policy).Ledger now := by
  have hj := get?_mem hget
  have hbooks := h.books j hj
  have hactive : j.status.active = true := by
    rw [hr.waiting]
    rfl
  have htask : j.SameTask { j with status := .reconciled } := ⟨rfl, rfl, rfl, rfl, rfl⟩
  have hpolicy : policy ∈ db.policies.rows := get?_mem (Db.policyForJob_get? hfound)
  obtain ⟨a, o, hassigned, hobserved⟩ := Db.observationBlocker_none hr.observation
  obtain ⟨-, htenant, -, hdomain⟩ := (Db.policyForJob_iff hassigned).mp hfound
  obtain ⟨state, g, p, config, -, -, hp, -, howns⟩ := hobserved.safe
  rw [hfound] at hp
  cases hp
  have hguid : observedGuid record = o.gpoGuid := observedGuid_eq hobserved
  have hreleased : ∀ guid, guid ≠ "" → o.gpoGuid = guid →
      (db.release now record j policy).owned j.tenant j.domainGuid guid = true := by
    intro guid hne hobserves
    refine Db.owned_iff.mpr ⟨policy.release (observedGuid record), ?_, htenant, hdomain,
      hguid.trans hobserves, hne⟩
    exact mem_save.mpr (.inr ⟨rfl, policy, hpolicy, rfl⟩)
  have howned : ∀ tenant domainGuid guid, guid ≠ "" → db.owned tenant domainGuid guid = true →
      (db.release now record j policy).owned tenant domainGuid guid = true := by
    intro tenant domainGuid guid hne howned
    obtain ⟨p, hp, hptenant, hpdomain, hpguid, -⟩ := Db.owned_iff.mp howned
    by_cases hid : p.id = policy.id
    · have hpp : p = policy := row_unique hp hpolicy hid
      subst hpp
      rw [← hptenant, ← hpdomain, htenant, hdomain]
      refine hreleased guid hne ?_
      rw [← hpguid]
      exact (howns.guid p.gpoGuid (by simp) (by rw [hpguid]; exact hne)).symm
    · refine Db.owned_iff.mpr ⟨p, ?_, hptenant, hpdomain, hpguid, hne⟩
      exact mem_save.mpr (.inl ⟨hp, hid⟩)
  have hrests : j.status.terminal = true → j.Rests { j with status := .reconciled } := by
    intro hterminal
    rw [JobStatus.terminal_eq, hactive] at hterminal
    cases hterminal
  have howner : ∀ tenant domainGuid guid t, guid ≠ "" → t ≤ now →
      db.OwnerOnRecord tenant domainGuid guid t →
      (db.release now record j policy).OwnerOnRecord tenant domainGuid guid t :=
    fun _ _ guid _ hne _ hrecord => hrecord.saved hget htask hrests rfl
      fun h => .inl (howned _ _ guid hne h)
  refine h.saved hget htask rfl (fun _ => hactive) ?_ howner ?_
  · intro i hi hid b hassigned' hiactive hp
    refine hp.kept hassigned' fun p hp => ?_
    have hapart := h.apart hi hj hid hassigned' hiactive hactive hassigned hp hfound
    have hne : p.id ≠ (policy.release (observedGuid record)).id := hapart
    exact (get?_save_ne hne).trans (Db.policyForJob_get? hp)
  · refine ⟨hbooks.past, fun b _ hnot => (nomatch hnot), fun b _ hnot => (nomatch hnot),
      hbooks.expects, ?_⟩
    intro guid t hne hsettles ht
    obtain ⟨b, hb, hwrite, hnamed⟩ := GpoImportJob.settlesOn_managed_of hsettles
    rcases hnamed with hnamed | ⟨hnamed, -⟩
    · have hb' : j.assignment = .managed b := hb
      exact howner _ _ guid t hne (hbooks.past t ht) (hbooks.owner guid t hne
        ((GpoImportJob.settlesOn_managed hb').mpr ⟨hwrite, .inl hnamed⟩) ht)
    · have hnamed : j.gpoGuid = guid := hnamed
      refine .inl (hreleased guid hne ?_)
      rw [← hnamed]
      exact (howns.guid j.gpoGuid (by simp) (by rw [hnamed]; exact hne)).symm

/-! ## Other moves -/

theorem Db.Ledger.same (h : db.Ledger now) (hjobs : db'.jobs = db.jobs)
    (hpolicies : db'.policies = db.policies) : db'.Ledger now := by
  refine ⟨hjobs ▸ h.fence, fun k hk => ?_⟩
  rw [hjobs] at hk
  refine (h.books k hk).kept le_rfl ?_ ?_
  · intro a hassigned _ hp
    refine hp.kept hassigned fun p hp => ?_
    rw [hpolicies]
    exact Db.policyForJob_get? hp
  · intro guid t _ _ hrecord
    unfold Db.OwnerOnRecord Db.owned Db.owners at hrecord ⊢
    rw [hjobs, hpolicies]
    exact hrecord

theorem Db.Ledger.later (h : db.Ledger now) {later : Time} (hlater : now ≤ later) :
    db.Ledger later :=
  ⟨h.fence, fun k hk => (h.books k hk).kept hlater (fun _ _ _ hp => hp) fun _ _ _ _ ho => ho⟩

/-- A new job is the only active one of its domain, and stands on its policy. -/
theorem Db.Ledger.made {jobs : Table GpoImportJob String GpoImportJob.id} (h : db.Ledger now)
    (hnew : NewJob db k) (hinsert : db.jobs.insert k = some jobs) :
    ({ db with jobs } : Db).Ledger now := by
  obtain ⟨-, hrows⟩ := insert_eq_some hinsert
  have hmem : ∀ i, i ∈ jobs.rows ↔ i = k ∨ i ∈ db.jobs.rows := by
    intro i
    rw [hrows, List.mem_cons]
  constructor
  · intro i hi i' hi' hactive hactive' htenant hdomain
    rcases (hmem i).mp hi with rfl | hi <;> rcases (hmem i').mp hi' with rfl | hi'
    · rfl
    · have hidle := hnew.idle i' hi' htenant.symm hdomain.symm
      rw [hactive'] at hidle
      cases hidle
    · have hidle := hnew.idle i hi htenant hdomain
      rw [hactive] at hidle
      cases hidle
    · exact h.fence i hi i' hi' hactive hactive' htenant hdomain
  · intro i hi
    rcases (hmem i).mp hi with rfl | hi
    · refine ⟨fun t ht => ?_, fun a ha _ => hnew.policy a ha, fun _ _ _ _ => hnew.blank.1,
        fun _ _ _ hclaimed => absurd hnew.unclaimed hclaimed, fun _ t _ _ ht => ?_⟩
      all_goals
        rw [hnew.unclaimed] at ht
        cases ht
    · refine (h.books i hi).kept le_rfl (fun _ _ _ hp => hp) fun guid t _ _ hrecord => ?_
      rcases hrecord with howned | ⟨d, hd, hrest⟩
      · exact .inl howned
      · exact .inr ⟨d, (hmem d).mpr (.inr hd), hrest⟩

theorem Db.Ledger.policyMade {policies : Table ManagedGpoPolicy String ManagedGpoPolicy.id}
    (h : db.Ledger now) (hinsert : db.policies.insert policy = some policies) :
    ({ db with policies } : Db).Ledger now := by
  obtain ⟨hfree, hrows⟩ := insert_eq_some hinsert
  refine ⟨h.fence, fun k hk => (h.books k hk).kept le_rfl ?_ ?_⟩
  · intro a hassigned _ hp
    refine hp.kept hassigned fun p hp => ?_
    have hget := Db.policyForJob_get? hp
    show policies.get? p.id = some p
    rw [get?_insert hinsert, if_neg ?_, hget]
    intro hid
    rw [← hid, hget] at hfree
    cases hfree
  · intro guid t _ _ hrecord
    rcases hrecord with howned | hrecord
    · obtain ⟨p, hp, hrest⟩ := Db.owned_iff.mp howned
      refine .inl (Db.owned_iff.mpr ⟨p, ?_, hrest⟩)
      show p ∈ policies.rows
      rw [hrows]
      exact List.mem_cons_of_mem _ hp
    · exact .inr hrecord

/-- A draft owns no GPO, and no active job stands on it. -/
theorem Db.Ledger.draftDeleted (h : db.Ledger now) (hget : db.policies.get? policy.id = some policy)
    (hguid : policy.gpoGuid = "")
    (hidle : ∀ k ∈ db.jobs.rows, k.tenant = policy.tenant → k.domainGuid = policy.domainGuid →
      k.status.active = false) :
    ({ db with policies := db.policies.delete policy.id } : Db).Ledger now := by
  have hpolicy := get?_mem hget
  refine ⟨h.fence, fun k hk => (h.books k hk).kept le_rfl ?_ ?_⟩
  · intro a hassigned hactive hp
    refine hp.kept hassigned fun p hp => ?_
    obtain ⟨hgetp, htenant, -, hdomain⟩ := (Db.policyForJob_iff hassigned).mp hp
    refine get?_of_mem (List.mem_filter.mpr ⟨get?_mem hgetp, ?_⟩)
    simp only [ne_eq, decide_eq_true_eq]
    intro hid
    have hpp : p = policy := row_unique (get?_mem hgetp) hpolicy hid
    subst hpp
    have hnot := hidle k hk htenant.symm hdomain.symm
    rw [hactive] at hnot
    cases hnot
  · intro guid t hne _ hrecord
    rcases hrecord with howned | hrecord
    · obtain ⟨p, hp, htenant, hdomain, hpguid, -⟩ := Db.owned_iff.mp howned
      refine .inl (Db.owned_iff.mpr ⟨p, List.mem_filter.mpr ⟨hp, ?_⟩, htenant, hdomain, hpguid, hne⟩)
      simp only [ne_eq, decide_eq_true_eq]
      intro hid
      have hpp : p = policy := row_unique hp hpolicy hid
      subst hpp
      exact hne (hpguid.symm.trans hguid)
    · exact .inr hrecord

theorem Db.Ledger.forgotten (h : db.Ledger now) (user : Nat) : (db.forget user).Ledger now := by
  have hmem : ∀ i, i ∈ (db.forget user).jobs.rows ↔ ∃ o ∈ db.jobs.rows, o.forget user = i :=
    fun i => List.mem_map
  constructor
  · intro i hi i' hi' hactive hactive' htenant hdomain
    obtain ⟨o, ho, rfl⟩ := (hmem i).mp hi
    obtain ⟨o', ho', rfl⟩ := (hmem i').mp hi'
    rw [h.fence o ho o' ho' hactive hactive' htenant hdomain]
  · intro i hi
    obtain ⟨o, ho, rfl⟩ := (hmem i).mp hi
    have hfollow : db.Books now (o.forget user) :=
      (h.books o ho).follow ⟨rfl, rfl, rfl, rfl, rfl⟩ rfl rfl id id
    refine hfollow.kept le_rfl (fun _ _ _ hp => hp) fun guid t _ _ hrecord => ?_
    rcases hrecord with howned | ⟨d, hd, hrest⟩
    · exact .inl howned
    · exact .inr ⟨d.forget user, (hmem _).mpr ⟨d, hd, rfl⟩, hrest⟩

theorem Move.ledger (h : Move c now b db db') (hledger : db.Ledger now) : db'.Ledger now := by
  cases h with
  | job hget hstep => exact hledger.step hget hstep
  | ended hget hend => exact hledger.ended hget hend
  | succeeded hget hreceivable hexec => exact hledger.succeeded hget hreceivable hexec
  | released _ hget hreleasable hfound _ => exact hledger.released hget hreleasable hfound
  | made hnew hinsert => exact hledger.made hnew hinsert
  | policyMade _ _ _ _ hinsert => exact hledger.policyMade hinsert
  | draftDeleted hget hguid _ hidle => exact hledger.draftDeleted hget hguid hidle
  | forgotten user => exact hledger.forgotten user
  | _ => exact hledger.same rfl rfl

theorem Moved.ledger (h : Moved c now b db db') (hledger : db.Ledger now) : db'.Ledger now := by
  induction h with
  | refl => exact hledger
  | tail _ hmove ih => exact hmove.ledger ih

end

theorem State.Blank.ledger {s : State} (h : s.Blank) : s.db.Ledger s.now := by
  have hnone : ∀ k, k ∉ s.db.jobs.rows := by
    intro k
    rw [h.1]
    exact List.not_mem_nil
  exact ⟨fun j hj => absurd hj (hnone j), fun k hk => absurd hk (hnone k)⟩

theorem Run.ledger {c : Catalogue} {s t : State} {ls : List Label} (h : Run (Step c) s ls t)
    (hledger : s.db.Ledger s.now) : t.db.Ledger t.now := by
  refine Run.preserves (I := fun u => u.db.Ledger u.now) (fun u l v hstep hu => ?_) h hledger
  rw [hstep.2.2.2]
  exact Moved.ledger hstep.moved (hu.later hstep.1)

end Ipms.Server.Gpo
