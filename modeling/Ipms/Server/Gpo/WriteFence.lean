import Ipms.Server.Gpo.Associations

/-
  Ipms.Server.Gpo.WriteFence

  The fence around a claimed write.  An agent is told to carry out a job once, under
  the authority that is current then.  From there on the record of the job runs or
  waits for its reconciliation, and ends by the evidence of what was written only.
-/

namespace Ipms.Server.Gpo

open Ipms.Lib Ipms.ManagementJson Txn Table
open Ipms.Agent.Gpo (JobCore ManagedJob)

/-! ## Claimed rows -/

/-- How the record of a claimed job may stand. -/
inductive GpoImportJob.Held (c : Content) (k : GpoImportJob) : Prop where
  | running (h : k.status = .running)
  | waiting (h : k.status = .reconciliationRequired)
  | released (h : k.status = .reconciled)
  | staged {core : JobCore} {portal : Bool} (assigned : k.assignment = .pilot core portal)
      (h : k.status = .staged) (evidence : k.resultEvidence = k.expectedEvidence)
  | succeeded {a : ManagedJob} {code : String} {guid : Value} (assigned : k.assignment = .managed a)
      (h : success a.operation = some (k.status, code))
      (effect : postcondition c a k.resultEvidence guid = .ok ())

/-- A claimed job is a write and held, and no write has ended well without a claim. -/
structure GpoImportJob.WriteFence (c : Content) (k : GpoImportJob) : Prop where
  held : k.claimedAt ≠ none → k.inspecting = false ∧ k.Held c
  unclaimed : k.inspecting = false → k.claimedAt = none → k.status.preExecution = true ∨
    k.status ∈ [.failed, .expired, .reconciliationRequired, .reconciled]

section
variable {c : Content} {now : Time} {b : Bool} {db db' : Db} {j k : GpoImportJob}

theorem success_ended {a : ManagedJob} {status : JobStatus} {code : String}
    (h : success a.operation = some (status, code)) : status.preExecution = false := by
  unfold success at h
  split at h <;> cases h <;> rfl

theorem GpoImportJob.Held.ended (h : j.Held c) : j.status.preExecution = false := by
  cases h with
  | running h | waiting h | released h | staged _ h _ =>
    rw [h]
    rfl
  | succeeded _ h _ => exact success_ended h

theorem GpoImportJob.Held.rests (h : j.Held c) (htask : j.SameTask k) (hrests : j.Rests k) :
    k.Held c := by
  have hexpected : k.expectedEvidence = j.expectedEvidence := by
    unfold expectedEvidence
    rw [htask.assignment, htask.domainGuid]
  cases h with
  | running h => exact .running (hrests.status.trans h)
  | waiting h => exact .waiting (hrests.status.trans h)
  | released h => exact .released (hrests.status.trans h)
  | staged hassigned h hevidence =>
    exact .staged (htask.assignment.trans hassigned) (hrests.status.trans h)
      (hrests.evidence.trans (hevidence.trans hexpected.symm))
  | succeeded hassigned h heffect =>
    exact .succeeded (htask.assignment.trans hassigned) (hrests.status ▸ h) (hrests.evidence ▸ heffect)

namespace GpoImportJob.WriteFence

theorem rests (h : j.WriteFence c) (htask : j.SameTask k) (hrests : j.Rests k) :
    k.WriteFence c := by
  have hinspecting : k.inspecting = j.inspecting := by
    unfold GpoImportJob.inspecting
    rw [htask.assignment]
  constructor
  · intro hclaimed
    rw [hrests.claimedAt] at hclaimed
    exact ⟨hinspecting.trans (h.held hclaimed).1, (h.held hclaimed).2.rests htask hrests⟩
  · intro hwrites hnone
    rw [hrests.status]
    exact h.unclaimed (hinspecting ▸ hwrites) (hrests.claimedAt ▸ hnone)

theorem unclaimed_of_waiting (h : j.WriteFence c) (hwaiting : j.status.preExecution = true) :
    j.claimedAt = none := by
  by_contra hclaimed
  rw [(h.held hclaimed).2.ended] at hwaiting
  cases hwaiting

theorem of_unclaimed (hnone : k.claimedAt = none) (hstatus : k.status.preExecution = true ∨
    k.status ∈ [.failed, .expired, .reconciliationRequired, .reconciled]) : k.WriteFence c :=
  ⟨fun hclaimed => absurd hnone hclaimed, fun _ _ => hstatus⟩

end GpoImportJob.WriteFence

theorem readResult_staged {d : ResultDocument} {r : GeneralResult} (h : readResult j d = .ok r)
    (hstaged : r.status = .staged) : j.claimedAt ≠ none ∧ d.evidence = j.expectedEvidence := by
  unfold readResult at h
  split at h
  · split at h
    · cases h
    obtain ⟨_, -, h⟩ := bind_eq_ok.mp h
    obtain ⟨guid, -, h⟩ := bind_eq_ok.mp h
    obtain ⟨_, -, h⟩ := bind_eq_ok.mp h
    split at h
    · obtain ⟨_, hevidence, h⟩ := bind_eq_ok.mp h
      have hevidence := throwIf_eq_ok.mp hevidence
      simp only [not_or, not_not] at hevidence
      exact ⟨hevidence.1, hevidence.2.2.2⟩
    next hother =>
      obtain ⟨_, -, h⟩ := bind_eq_ok.mp h
      cases h
      exact absurd hstaged hother
  · cases h

theorem JobStep.writeFence (h : JobStep c now db j k) (hj : j.WriteFence c) : k.WriteFence c := by
  cases h with
  | approved _ _ hblocker _ _ =>
    exact .of_unclaimed (hj.unclaimed_of_waiting (Db.approvalBlocker_waiting hblocker)) (.inl rfl)
  | awaiting hwaiting _ => exact .of_unclaimed (hj.unclaimed_of_waiting hwaiting) (.inl rfl)
  | claimed hclaim => exact ⟨fun _ => ⟨hclaim.writes, .running rfl⟩, fun _ hnone => nomatch hnone⟩
  | closed _ => exact hj.rests ⟨rfl, rfl, rfl, rfl, rfl⟩ ⟨rfl, rfl, rfl, rfl, rfl⟩

/-- An end leaves a claimed job to its reconciliation, but a staged pilot. -/
theorem JobEnd.writeFence (h : JobEnd c now j k) (hj : j.WriteFence c) : k.WriteFence c := by
  cases h with
  | @ended status code _ _ hstatus =>
    unfold GpoImportJob.endUnlessClaimed
    split
    next hclaimed =>
      -- a claim outlives an expiry or a withdrawal, and waits for the reconciliation
      refine ⟨fun hsome => ⟨(hj.held hsome).1, .waiting rfl⟩, fun _ hnone => ?_⟩
      rw [show j.claimedAt = none from hnone] at hclaimed
      cases hclaimed
    next hnone =>
      refine .of_unclaimed (by simpa using hnone) (.inr ?_)
      rcases hstatus with rfl | rfl <;> simp
  | @settled d r _ hread _ hgeneral =>
    by_cases hstaged : r.status = .staged
    · obtain ⟨hclaimed, hevidence⟩ := readResult_staged hread hstaged
      have hstatus : (j.settle d r now).status = .staged := if_pos hstaged
      have hrecorded : (j.settle d r now).resultEvidence = j.expectedEvidence := by
        simp only [GpoImportJob.settle, hevidence]
        rfl
      cases hassigned : j.assignment with
      | pilot core portal =>
        exact ⟨fun _ => ⟨(hj.held hclaimed).1, .staged hassigned hstatus hrecorded⟩,
          fun _ hnone => absurd hnone hclaimed⟩
      | managed a =>
        -- the success of a managed job is received in a step of its own
        exact absurd hstaged (readResult_general hread (hgeneral a hassigned))
    · by_cases hclaimed : j.claimedAt = none
      · refine .of_unclaimed hclaimed (.inr ?_)
        simp only [GpoImportJob.settle, settledStatus, if_neg hstaged]
        split <;> simp
      · have hsome : j.claimedAt.isSome = true := Option.isSome_iff_ne_none.mpr hclaimed
        refine ⟨fun _ => ⟨(hj.held hclaimed).1, .waiting ?_⟩, fun _ hnone => absurd hnone hclaimed⟩
        simp only [GpoImportJob.settle, settledStatus, if_neg hstaged, hsome, or_true, if_true]

theorem RowMove.writeFence (h : RowMove c now b db j k) (hj : j.WriteFence c) :
    k.WriteFence c := by
  cases h with
  | same => exact hj
  | step h => exact h.writeFence hj
  | ended h => exact h.writeFence hj
  | succeeded h =>
    next a policy status code d =>
    have hinspecting : j.inspecting = a.inspection := by
      unfold GpoImportJob.inspecting
      rw [h.assignment]
      rfl
    -- an inspection succeeds unclaimed, a write only behind its claim
    rcases h.unfinished with ⟨hinspect, -, hnone⟩ | ⟨hwrite, -, hclaimed⟩
    · refine ⟨fun hsome => absurd hnone hsome, fun hwrites _ => ?_⟩
      have hwrites : a.inspection = false := hinspecting.symm.trans hwrites
      rw [ManagedJob.inspection, hinspect] at hwrites
      cases hwrites
    · refine ⟨fun _ => ⟨?_, .succeeded h.assignment h.success h.effect⟩,
        fun _ hnone => absurd hnone hclaimed⟩
      exact hinspecting.trans (by simpa [ManagedJob.inspection] using hwrite)
  | released _ h =>
    refine ⟨fun hclaimed => ⟨(hj.held hclaimed).1, .released rfl⟩, fun _ _ => .inr (by simp)⟩
  | forgotten user => exact hj.rests ⟨rfl, rfl, rfl, rfl, rfl⟩ ⟨rfl, rfl, rfl, rfl, rfl⟩

/-! ## Every row -/

theorem NewJob.writeFence (h : NewJob db k) : k.WriteFence c := by
  refine .of_unclaimed h.unclaimed (.inl ?_)
  rcases h.waiting with ⟨h, -⟩ | ⟨h, -⟩ <;> rw [h] <;> rfl

/-- A row after a move is one that was there, moved, or a new one. -/
theorem Move.origin (h : Move c now b db db') (hk : k ∈ db'.jobs.rows) :
    (∃ j ∈ db.jobs.rows, RowMove c now b db j k) ∨ NewJob db k := by
  have hsaved : ∀ {r i : GpoImportJob}, db.jobs.get? r.id = some r → RowMove c now b db r i →
      k ∈ (db.jobs.save i).rows → ∃ j ∈ db.jobs.rows, RowMove c now b db j k := by
    intro r i hr hrow hk
    rcases mem_save.mp hk with ⟨hk, -⟩ | ⟨rfl, -⟩
    · exact ⟨k, hk, .same⟩
    · exact ⟨r, get?_mem hr, hrow⟩
  cases h with
  | job hr hstep => exact .inl (hsaved hr (.step hstep) hk)
  | ended hr hend =>
    rw [Db.saveEnded_jobs] at hk
    exact .inl (hsaved hr (.ended hend) hk)
  | succeeded hr hreceivable hexec =>
    rw [receivePolicy_jobs hexec] at hk
    exact .inl (hsaved hr (.succeeded hreceivable) hk)
  | released hacked hr hreleasable _ _ =>
    exact .inl (hsaved hr (.released hacked hreleasable) hk)
  | made hnew hinsert =>
    have hk : k ∈ (_ : Table GpoImportJob String GpoImportJob.id).rows := hk
    rw [(insert_eq_some hinsert).2] at hk
    rcases List.mem_cons.mp hk with rfl | hk
    · exact .inr hnew
    · exact .inl ⟨k, hk, .same⟩
  | forgotten user =>
    obtain ⟨j, hj, rfl⟩ := List.mem_map.mp hk
    exact .inl ⟨j, hj, .forgotten user⟩
  | _ => exact .inl ⟨k, hk, .same⟩

/-- Every job keeps the fence. -/
def Db.WritesHeld (c : Content) (db : Db) : Prop := ∀ k ∈ db.jobs.rows, k.WriteFence c

theorem Moved.writesHeld (h : Moved c now b db db') (hdb : db.WritesHeld c) :
    db'.WritesHeld c := by
  induction h with
  | refl => exact hdb
  | tail _ hmove ih =>
    intro k hk
    rcases hmove.origin hk with ⟨j, hj, hrow⟩ | hnew
    · exact hrow.writeFence (ih j hj)
    · exact hnew.writeFence

/-- A claimed row after a move: the claim is the same, and what has ended rests. -/
structure GpoImportJob.ClaimKept (c : Content) (j k : GpoImportJob) : Prop where
  fence : k.WriteFence c
  claimedAt : k.claimedAt = j.claimedAt
  rests : j.status.terminal = true → j.Rests k

theorem RowMove.claimKept {i : GpoImportJob} (h : RowMove c now b db k i)
    (hclaimed : j.claimedAt ≠ none) (hk : j.ClaimKept c k) : j.ClaimKept c i := by
  refine ⟨h.writeFence hk.fence, ?_, fun hterminal => ?_⟩
  · -- a claimed job does not wait any more, so no second claim is granted
    have hnot : ¬k.status.preExecution = true := fun hwaiting =>
      hclaimed (hk.claimedAt.symm.trans (hk.fence.unclaimed_of_waiting hwaiting))
    refine Eq.trans ?_ hk.claimedAt
    cases h with
    | step h =>
      cases h with
      | claimed hclaim => exact absurd hclaim.waiting hnot
      | _ => rfl
    | ended h =>
      cases h with
      | ended _ _ _ =>
        unfold GpoImportJob.endUnlessClaimed
        split <;> rfl
      | settled _ _ _ _ => rfl
    | _ => rfl
  · have hrests := hk.rests hterminal
    have hnext := h.rests (by rw [hrests.status]; exact hterminal)
    exact ⟨hnext.status.trans hrests.status, hnext.claimedAt.trans hrests.claimedAt,
      hnext.completedAt.trans hrests.completedAt, hnext.gpoGuid.trans hrests.gpoGuid,
      hnext.evidence.trans hrests.evidence⟩

theorem Moved.claimKept (h : Moved c now b db db') (hdb : db.WritesHeld c) {id : String}
    (hj : db.jobs.get? id = some j) (hclaimed : j.claimedAt ≠ none) :
    ∃ k, db'.jobs.get? id = some k ∧ j.ClaimKept c k :=
  h.row (fun _ _ _ hk hrow => hrow.claimKept hclaimed hk) hj
    ⟨hdb j (get?_mem hj), rfl, fun _ => .refl j⟩

end

section
variable {c : Catalogue} {s t : State} {ls : List Label}

theorem Run.writesHeld (h : Run (Step c) s ls t) (hs : s.db.WritesHeld c.toContent) :
    t.db.WritesHeld c.toContent :=
  Run.preserves (I := fun u => u.db.WritesHeld c.toContent)
    (fun _ _ _ hstep hu => hstep.moved.writesHeld hu) h hs

end

/-- Every run, from tables that keep the fence, as those without jobs do, leads to tables that
keep it: whatever polls, claims, results, approvals, expiries, edits and reconciliations come in
whatever order, a claimed job is a write that runs, waits for its reconciliation or was released,
or its record shows a success of its operation with evidence that the postcondition accepts.  No
claim is taken back or moved, and a claimed job that has ended rests. -/
theorem claimed_writes_held (c : Catalogue) {s t : State} {ls : List Label}
    (h : Run (Step c) s ls t) (hs : s.db.WritesHeld c.toContent) :
    t.db.WritesHeld c.toContent ∧
      ∀ id j, s.db.jobs.get? id = some j → j.claimedAt ≠ none →
        ∃ k, t.db.jobs.get? id = some k ∧ j.ClaimKept c.toContent k := by
  refine ⟨Run.writesHeld h hs, fun id j hj hclaimed => ?_⟩
  exact Run.row (fun _ _ _ _ _ hk hrow => hrow.claimKept hclaimed hk) h hj
    ⟨hs j (get?_mem hj), rfl, fun _ => .refl j⟩

theorem deletingDb_writesHeld : deletingDb.WritesHeld memberCatalogue.toContent := by
  intro k hk
  have hk : k ∈ [importedPilot, runningDeletion] := hk
  simp only [List.mem_cons, List.not_mem_nil, or_false] at hk
  rcases hk with rfl | rfl
  · exact ⟨fun _ => ⟨rfl, .staged rfl rfl rfl⟩, fun _ hnone => nomatch hnone⟩
  · exact ⟨fun _ => ⟨by decide, .running rfl⟩, fun _ hnone => nomatch hnone⟩

theorem claimed_writes_held_sample : deletedDb.WritesHeld memberCatalogue.toContent ∧
    ∃ k, deletedDb.jobs.get? runningDeletion.id = some k ∧
      runningDeletion.ClaimKept memberCatalogue.toContent k := by
  obtain ⟨hheld, hkept⟩ := claimed_writes_held memberCatalogue (.single deletionStep)
    deletingDb_writesHeld
  exact ⟨hheld, hkept runningDeletion.id runningDeletion
    (get?_of_mem (t := deletingDb.jobs) (List.mem_cons_of_mem _ List.mem_cons_self)) nofun⟩

/-! ## One execution -/

/-- An agent was told to carry out a job. -/
def Label.executes (id : String) (l : Label) : Bool :=
  match l.event, l.reply with
  | .exchange _ (.job jobId _ .claim), some (.claim .execute _ _) => jobId == id
  | _, _ => false

/-- The approval of a job, with everything it rests on now. -/
structure Db.Approved (db : Db) (now : Time) (j : GpoImportJob) (tenant : Tenant) : Prop where
  rule : (db.policyFor tenant.id).revision = j.policyRevision
  grants : (db.authorizationFor j.domain).revision = j.authorizationRevision
  requester : db.jobScoped now j.requestedBy tenant j .securityGpoImportsRun = true
  approver : db.jobScoped now j.approvedBy tenant j .securityGpoImportsApprove = true
  fourEyes : (db.policyFor tenant.id).fourEyesRequired = true → j.approvedBy ≠ j.requestedBy
  inTime : approvedInTime now j = true
  bound : ∃ value, db.approvalObject j = some value ∧ digest value.toJson = j.approvalDigest

section
variable {c : Content} {now : Time} {db : Db} {j : GpoImportJob} {tenant : Tenant}

theorem Db.approvalCurrent_approved (h : db.approvalCurrent now j tenant = true)
    (hportal : j.isPortal = true) : db.Approved now j tenant := by
  unfold Db.approvalCurrent at h
  split at h
  · cases h
  next value hvalue =>
  simp only [Db.policyCurrent, Db.revisionsCurrent, hportal, Bool.not_true, Bool.false_or,
    Bool.and_eq_true, Bool.or_eq_true, Bool.not_eq_true', beq_iff_eq, bne_iff_ne] at h
  obtain ⟨⟨⟨⟨⟨⟨⟨hrule, heyes⟩, hgrants⟩, hrun⟩, happrove⟩, hother⟩, htime⟩, hdigest⟩ := h
  refine ⟨hrule, hgrants, hrun, happrove, fun hrequired => ?_, htime, value, hvalue, hdigest⟩
  rcases hother with hnone | hother
  · rw [heyes, hnone] at hrequired
    cases hrequired
  · exact hother

theorem Claimable.approved (h : Claimable c now db j) {a : ManagedJob}
    (hassigned : j.assignment = .managed a) :
    db.RevisionsStand j ∧ db.PolicyStands j a ∧
      ∃ tenant, db.tenants.get? j.tenant = some tenant ∧ db.Approved now j tenant := by
  obtain ⟨tenant, enrollment, htenant, -, hscope, happroval⟩ := h.authority
  unfold Db.scopeCurrent at hscope
  rw [hassigned] at hscope
  have hwrites : a.inspection = false := by
    have hwrites := h.writes
    rw [GpoImportJob.inspecting, hassigned] at hwrites
    exact hwrites
  have hportal : j.isPortal = true := by
    have hform := hscope
    unfold Db.managedScopeCurrent at hform
    simp only [Bool.and_eq_true] at hform
    obtain ⟨⟨⟨⟨⟨-, hform⟩, -⟩, -⟩, -⟩, -⟩ := hform
    -- Only an inspection goes without the portal.
    simp only [Db.assignmentForm, hwrites, Bool.and_eq_true] at hform
    rw [GpoImportJob.isPortal, hassigned]
    simp_all [Agent.Gpo.Job.portalMode]
  obtain ⟨hrevisions, hpolicy⟩ :=
    Db.managedScopeCurrent_stands hassigned (Table.get?_key htenant).symm hscope
  exact ⟨hrevisions, hpolicy, tenant, htenant,
    Db.approvalCurrent_approved (happroval hportal) hportal⟩

/-- A claim is answered with the execution only where it is granted, after the expiry. -/
theorem yields_exchange_claim (enrollment jobId inputDigest : String) :
    Yields (exchange c now enrollment (.job jobId inputDigest .claim)) (fun r db' =>
      r.authorized = true → ∃ m j, Moved c now false db m ∧ m.jobs.get? jobId = some j ∧
        Claimable c now m j ∧ db' = { m with jobs := m.jobs.save (j.claim now) }) db := by
  refine yields_exchange_request ⟨rfl, rfl⟩ _ _ _ ?_
  intro m e tenant k hexpire hget htenant henrollment
  have hmoved := (yields_expireJobs (c := c) (b := false) tenant.id db _ m hexpire).1
  have hrow : m.jobs.get? k.id = some k := by
    rw [get?_key hget]
    exact hget
  show Yields (do
    let db ← get
    let current := db.scopeCurrent now c k e tenant && decide (now < k.expiresAt)
    throwIf (k.inspecting = true) rejected
    let job ← if current then pure k else invalidate k now
    claimJob now job tenant current : Request Reply) _ m
  rw [yields_bind, yields_get]
  simp only
  rw [yields_bind, yields_throwIf]
  intro hwrites
  by_cases hcurrent : (m.scopeCurrent now c k e tenant && decide (now < k.expiresAt)) = true
  · rw [if_pos hcurrent, yields_bind, yields_pure]
    have hfound := hcurrent
    simp only [Bool.and_eq_true, decide_eq_true_eq] at hfound
    refine (yields_claimJob (c := c) (b := false) hrow fun _ => ?_).mono
      fun r db' h hauthorized => ⟨m, k, hmoved, hget, (h.2 hauthorized).2⟩
    exact ⟨by simpa using hwrites, hfound.2, htenant, e, henrollment, hfound.1⟩
  · -- What has lost its scope is invalidated, and no claim of it is granted.
    rw [if_neg hcurrent, yields_bind]
    refine (yields_invalidate (c := c) (b := false) hrow _).mono fun i u hi => ?_
    exact (yields_claimJob (c := c) (b := false) hi.2.2.1 fun h => absurd h hcurrent).mono
      fun r db' h hauthorized => absurd (h.2 hauthorized).1 hcurrent

end

section
variable {c : Catalogue} {s t : State} {l : Label} {id : String}

theorem Step.executes (h : Step c s l t) (hl : l.executes id = true) :
    ∃ m j, Moved c.toContent l.time false s.db m ∧ m.jobs.get? id = some j ∧
      Claimable c.toContent l.time m j ∧
      t.db = { m with jobs := m.jobs.save (j.claim l.time) } := by
  obtain ⟨event, time, reply⟩ := l
  unfold Label.executes at hl
  simp only at hl
  split at hl
  · next enrollment jobId inputDigest job approval =>
      obtain rfl : jobId = id := beq_iff_eq.mp hl
      obtain ⟨r, u, hexchange, hreply⟩ := exec_bind_ok.mp h.2.2.1
      cases hreply
      exact yields_exchange_claim enrollment jobId inputDigest _ _ hexchange rfl
  · cases hl

theorem Step.not_executes (h : Step c s l t) (hs : s.db.WritesHeld c.toContent) {j : GpoImportJob}
    (hj : s.db.jobs.get? id = some j) (hclaimed : j.claimedAt ≠ none) : l.executes id = false := by
  by_contra hl
  obtain ⟨m, k, hmoved, hk, hclaim, -⟩ := h.executes (Bool.eq_true_of_not_eq_false hl)
  -- the expiry before the claim leaves the first claim in place
  obtain ⟨k', hk', hkept⟩ := hmoved.claimKept hs hj hclaimed
  rw [hk] at hk'
  cases hk'
  exact hclaimed (hkept.claimedAt.symm.trans (hkept.fence.unclaimed_of_waiting hclaim.waiting))

end

/-- Every run, from tables that keep the fence, tells agents at most once to carry out a job,
however often and by whatever order of messages it is claimed.  The claim that is granted is the
first one of the job, and finds it in time and in scope; and if the job is a managed one, it finds
every revision current, the requester and the approver allowed, and the two different where the
tenant requires four eyes now. -/
theorem writes_executed_once (c : Catalogue) {s t : State} {ls : List Label}
    (h : Run (Step c) s ls t) (hs : s.db.WritesHeld c.toContent) (id : String) :
    ls.countP (Label.executes id) ≤ 1 ∧
      ∀ u l, Run.Takes (Step c) s ls t u l → l.executes id = true →
        ∃ m j, Moved c.toContent l.time false u.db m ∧ m.jobs.get? id = some j ∧
          j.claimedAt = none ∧ Claimable c.toContent l.time m j ∧
          ∀ a, j.assignment = .managed a → m.RevisionsStand j ∧ m.PolicyStands j a ∧
            ∃ tenant, m.tenants.get? j.tenant = some tenant ∧ m.Approved l.time j tenant := by
  constructor
  · refine h.countP_le_one (I := fun u => u.db.WritesHeld c.toContent)
      (m := fun u => ∃ j, u.db.jobs.get? id = some j ∧ j.claimedAt ≠ none)
      (fun _ _ _ hstep hu => hstep.moved.writesHeld hu) ?_ ?_ ?_ hs
    · rintro u l v hstep hu ⟨j, hj, hclaimed⟩
      obtain ⟨k, hk, hkept⟩ := hstep.moved.claimKept hu hj hclaimed
      exact ⟨k, hk, by rwa [hkept.claimedAt]⟩
    · intro u l v hstep _ hl
      obtain ⟨m, j, -, hj, -, hv⟩ := hstep.executes hl
      rw [hv]
      obtain rfl : j.id = id := get?_key hj
      exact ⟨j.claim l.time, get?_save_self (a := j.claim l.time) hj, nofun⟩
    · rintro u l v hstep hu ⟨j, hj, hclaimed⟩
      exact hstep.not_executes hu hj hclaimed
  · rintro u l ⟨before, v, after, -, hu, hstep, -⟩ hl
    obtain ⟨m, j, hmoved, hj, hclaim, -⟩ := hstep.executes hl
    have hheld : m.WritesHeld c.toContent := hmoved.writesHeld (Run.writesHeld hu hs)
    exact ⟨m, j, hmoved, hj, (hheld j (get?_mem hj)).unclaimed_of_waiting hclaim.waiting, hclaim,
      fun a => hclaim.approved⟩

theorem writes_executed_once_sample :
    [deletionLabel].countP (Label.executes runningDeletion.id) ≤ 1 :=
  (writes_executed_once memberCatalogue (.single deletionStep) deletingDb_writesHeld _).1

/-- Every run, from tables whose jobs and policies fit together, as empty ones do, leads to tables
where a tenant's domain has at most one active job.  The policy of an active managed job is there
with the revision and the GPO the job was assigned, whatever was edited since, and the owner of a
GPO that was claimed to be written is there or was deleted after the claim. -/
theorem domain_writes_serial (c : Catalogue) {s t : State} {ls : List Label}
    (h : Run (Step c) s ls t) (hs : s.db.Ledger s.now) :
    (∀ j ∈ t.db.jobs.rows, ∀ k ∈ t.db.jobs.rows, j.status.active = true → k.status.active = true →
      j.tenant = k.tenant → j.domainGuid = k.domainGuid → j = k) ∧
    ∀ k ∈ t.db.jobs.rows, ∀ a, k.assignment = .managed a →
      (k.status.active = true → t.db.PolicyStands k a) ∧
      ∀ claimed, a.inspection = false → a.gpoGuid ≠ "" → k.claimedAt = some claimed →
        t.db.OwnerOnRecord k.tenant k.domainGuid a.gpoGuid claimed := by
  obtain ⟨hfence, hbooks⟩ := Run.ledger h hs
  refine ⟨hfence, fun k hk a hassigned => ⟨(hbooks k hk).stands a hassigned, ?_⟩⟩
  intro claimed hwrites hne hclaimed
  have hsettles := (GpoImportJob.settlesOn_managed hassigned).mpr ⟨hwrites, .inl rfl⟩
  exact (hbooks k hk).owner a.gpoGuid claimed hne hsettles hclaimed

theorem domain_writes_serial_sample : deletedDb.OwnerOnRecord "t" runningDeletion.domainGuid
    deletionJob.gpoGuid claimTime := by
  obtain ⟨-, hjobs⟩ := domain_writes_serial memberCatalogue (.single deletionStep) deletingDb_ledger
  have hrow : runningDeletion.succeed .deleted deletionResult deletionTime ∈ deletedDb.jobs.rows :=
    List.mem_cons_of_mem _ List.mem_cons_self
  exact (hjobs _ hrow deletionJob rfl).2 claimTime (by decide) (by decide) rfl

end Ipms.Server.Gpo
