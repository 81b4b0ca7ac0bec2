import Ipms.Server.Gpo.JobRows
import Ipms.Server.Gpo.ValidSnapshot

/-
  Ipms.Server.Gpo.Release

  The safety of a reconciliation.  A job that waits for one is released by an
  acknowledgement only, and only where the recorded observation and everything
  the acceptance rested on still stand.  A released job stays what it is.
-/

namespace Ipms.Server.Gpo

open Ipms.Lib Ipms.ManagementJson Txn
open Ipms.Agent.Gpo (Job ManagedJob Snapshot)

/-! ## What a release rests on -/

/-- The observed policy is the one of the job, it is disabled, and its links are the ones the
configuration allows. -/
structure OwnedDisabled (c : Content) (db : Db) (j : GpoImportJob) (a : ManagedJob)
    (config : DomainSecuritySettings) (policy : ManagedGpoPolicy) (o : Observation)
    (state : Snapshot) (g : Agent.Gpo.Policy) : Prop where
  marked : g.description = ownerMarker a
  guid : ∀ guid ∈ [j.gpoGuid, a.gpoGuid, policy.gpoGuid], guid ≠ "" → guid = o.gpoGuid
  unshared : ∀ p ∈ db.policies.rows, p.tenant = j.tenant → p.domainGuid = j.domainGuid →
    p.gpoGuid = o.gpoGuid → p.id = policy.id
  disabled : g.computerEnabled = false ∧ g.userEnabled = false
  versions : g.computerDs = g.computerSysvol ∧ g.userDs = g.userSysvol ∧ g.wmiFilter = ""
  issues : o.issues = []
  links : g.links.Perm o.forestLinks
  direct : (state.ous.flatMap fun ou => ou.links.filter fun l => l.guid == o.gpoGuid).Perm
    o.forestLinks
  within : ∀ l ∈ o.forestLinks, Db.observedLink c a config o.gpoGuid l = true

/-- The recorded observation is valid, complete and quiescent, and shows the policy of the job. -/
structure Observed (c : Content) (db : Db) (record : GpoReconciliation) (j : GpoImportJob)
    (a : ManagedJob) (o : Observation) : Prop where
  recorded : ∃ value, record.observation = some value ∧ validateObservation c a value = .ok o ∧
    digest value = record.observationDigest
  journal : sha record.journalSha256 = true
  complete : o.forestComplete = true
  quiescent : o.quiescent = true
  present : o.gpoPresence = .present
  identified : o.gpoGuid ≠ "" ∧ defaultGpoIds.contains o.gpoGuid = false
  acl : o.aclConsistent = some true
  safe : ∃ state g policy config, o.state = some state ∧ state.gpo = some g ∧
    db.policyForJob j = some policy ∧ db.domains.get? j.domain = some config ∧
    OwnedDisabled c db j a config policy o state g

/-- The decision is the current one, every revision it was made under is current, and where four
eyes are required the acceptor is another one. -/
structure Decided (c : Content) (db : Db) (record : GpoReconciliation) (j : GpoImportJob) : Prop where
  decision : ∃ t, record.acceptedAt = some t ∧ record.decisionDigest = decision record j t
  receipt : Db.originalResultIdentity j = record.jobResultDigest
  integrity : db.jobIntegrity c j = true
  scope : ∃ config, db.domains.get? j.domain = some config ∧ config.revision = record.scopeRevision
  rule : (db.policyFor j.tenant).revision = record.policyRevision
  grants : (db.authorizationFor j.domain).revision = record.authorizationRevision
  managed : ∃ policy, db.policyForJob j = some policy ∧ policy.state = .reconciliationRequired ∧
    policy.revision = record.managedRevision
  eyes : record.fourEyesRequired = (j.fourEyesRequired || (db.policyFor j.tenant).fourEyesRequired)
  fourEyes : record.fourEyesRequired = true →
    record.acceptedBy ≠ j.requestedBy ∧ record.acceptedBy ≠ record.requestedBy

section
variable {c : Content} {now : Time} {db : Db} {j : GpoImportJob} {record : GpoReconciliation}

variable {policy : ManagedGpoPolicy}

theorem Db.observedPolicyBlocker_none {a : ManagedJob} {config : DomainSecuritySettings}
    {o : Observation} {state : Snapshot} {g : Agent.Gpo.Policy}
    (h : db.observedPolicyBlocker c j a config policy o state g = none) :
    OwnedDisabled c db j a config policy o state g := by
  unfold Db.observedPolicyBlocker at h
  simp only at h
  split at h
  · cases h
  next hguid =>
  split at h
  · cases h
  next hmarked =>
  split at h
  · cases h
  next hdisabled =>
  split at h
  · cases h
  next hversions =>
  split at h
  · cases h
  next hissues =>
  split at h
  · cases h
  next hlinks =>
  split at h
  · cases h
  split at h
  · cases h
  next hwithin =>
  split at h
  · cases h
  next hdirect =>
  split at h
  · cases h
  next hunshared =>
  simp only [Bool.or_eq_true, not_or, Bool.not_eq_true] at hdisabled
  simp only [not_or, not_not] at hversions
  refine ⟨not_not.mp hmarked, ?_, ?_, hdisabled, hversions, not_not.mp hissues, ?_, ?_, ?_⟩
  · intro guid hmem hne
    by_contra hother
    refine hguid (List.any_eq_true.mpr ⟨guid, hmem, ?_⟩)
    simp [hne, hother]
  · intro p hp htenant hdomain hpguid
    by_contra hother
    refine hunshared (List.any_eq_true.mpr ⟨p, hp, ?_⟩)
    simp [htenant, hdomain, hpguid, hother]
  · exact List.isPerm_iff.mp (by simpa using hlinks)
  · exact List.isPerm_iff.mp (by simpa using hdirect)
  · simpa using hwithin

/-- An observation nothing stands against. -/
theorem Db.observationBlocker_none (h : db.observationBlocker c record j = none) :
    ∃ a o, j.assignment = .managed a ∧ Observed c db record j a o := by
  unfold Db.observationBlocker at h
  split at h
  · next value a hrecorded hassigned =>
      refine ⟨a, ?_⟩
      split at h
      · cases h
      next hdigest =>
      simp only [not_or, Bool.not_eq_false, not_not] at hdigest
      split at h
      · cases h
      next o hvalid =>
      split at h
      · cases h
      next hidentified =>
      simp only [not_or, Bool.not_eq_true] at hidentified
      split at h
      · cases h
      next hquiescent =>
      simp only [not_or, Bool.not_eq_false, not_not] at hquiescent
      split at h
      · cases h
      next state hstate =>
      split at h
      · cases h
      next hcomplete =>
      split at h
      · cases h
      next hacl =>
      split at h
      · next g policy config hg hpolicy hconfig =>
          exact ⟨o, hassigned, ⟨value, hrecorded, hvalid, hdigest.2⟩, hdigest.1, by simpa using hcomplete,
            hquiescent.1, hquiescent.2, hidentified, not_not.mp hacl, state, g, policy, config,
            hstate, hg, hpolicy, hconfig, Db.observedPolicyBlocker_none h⟩
      · cases h
  · cases h

variable {tenant : Tenant}

/-- An authority nothing stands against, with a decision that is the current one. -/
theorem Db.reconciliationAuthority_none
    (h : db.reconciliationAuthority c now record j tenant true = none)
    (hdecision : decisionValid record j = true) : Decided c db record j := by
  unfold Db.reconciliationAuthority at h
  simp only at h
  split at h
  · cases h
  next a hassigned =>
  split at h
  · cases h
  next hjob =>
  simp only [not_or, not_not, Bool.not_eq_false] at hjob
  split at h
  · cases h
  next hpolicy =>
  simp only [Bool.not_eq_true', Bool.not_eq_false, Option.any_eq_true, Bool.and_eq_true,
    beq_iff_eq] at hpolicy
  obtain ⟨policy, hpolicy, hstate, hrevision⟩ := hpolicy
  split at h
  · cases h
  next hrevisions =>
  simp only [Bool.or_eq_true, Bool.not_eq_true', not_or, Bool.not_eq_false, Option.any_eq_true,
    beq_iff_eq, bne_iff_ne, not_not] at hrevisions
  obtain ⟨⟨⟨⟨config, hconfig, hscope⟩, hrule⟩, hgrants⟩, heyes⟩ := hrevisions
  split at h
  · cases h
  split at h
  · cases h
  next hacceptor =>
  simp only [decisionValid, Bool.and_eq_true, decided, Option.any_eq_true, beq_iff_eq] at hdecision
  obtain ⟨⟨-, t, haccepted, hdigest⟩, -⟩ := hdecision
  refine ⟨⟨t, haccepted, hdigest⟩, hjob.2.2.1, hjob.2.1, ⟨config, hconfig, hscope⟩, hrule, hgrants,
    ⟨policy, hpolicy, hstate, hrevision⟩, heyes, ?_⟩
  intro hfour
  simp only [Bool.true_and, hfour, Bool.or_eq_true, Bool.not_eq_true', not_or, beq_iff_eq] at hacceptor
  exact hacceptor.2

/-! ## Rows that wait for a reconciliation -/

/-- A row with everything a result or an assignment left in it: only accounts that are deleted go. -/
def GpoImportJob.Remains (j k : GpoImportJob) : Prop :=
  k = { j with requestedBy := k.requestedBy, approvedBy := k.approvedBy }

theorem GpoImportJob.Remains.refl (j : GpoImportJob) : j.Remains j := rfl

theorem GpoImportJob.Remains.forget {k : GpoImportJob} (h : j.Remains k) (user : Nat) :
    j.Remains (k.forget user) := by
  unfold Remains at h ⊢
  rw [h]
  rfl

variable {b : Bool} {k : GpoImportJob}

/-- No move changes a reconciled job, but that an account of it is deleted. -/
theorem RowMove.reconciled (h : RowMove c now b db j k) (hj : j.status = .reconciled) :
    k = j ∨ ∃ user, k = j.forget user := by
  cases h with
  | same => exact .inl rfl
  | step h =>
    cases h with
    | approved _ _ hblocker _ _ =>
      unfold Db.approvalBlocker at hblocker
      simp only [hj, JobStatus.preExecution, Bool.not_false, Bool.true_or, if_true] at hblocker
      repeat' split at hblocker
      all_goals cases hblocker
    | awaiting hwaiting _ =>
      rw [hj] at hwaiting
      cases hwaiting
    | claimed hclaim =>
      have hwaiting := hclaim.waiting
      rw [hj] at hwaiting
      cases hwaiting
    | closed hcloses =>
      simp only [closesPrepared, hj, Bool.and_eq_true, Bool.or_eq_true] at hcloses
      obtain ⟨⟨⟨⟨-, hstatus⟩, -⟩, -⟩, -⟩ := hcloses
      rcases hstatus with h | h <;> cases h
  | ended h =>
    cases h with
    | ended hactive _ _ =>
      rw [hj] at hactive
      cases hactive
    | settled hterminal _ _ _ =>
      rw [hj] at hterminal
      cases hterminal
  | succeeded h =>
    have hready := h.ready
    unfold checkReceiving at hready
    split at hready
    · split at hready
      · have hopen := throwIf_eq_ok.mp hready
        simp [hj] at hopen
      · cases hready
    · have hopen := throwIf_eq_ok.mp hready
      simp [hj] at hopen
  | released _ h =>
    have hauthority := h.authority
    unfold Db.reconciliationAuthority at hauthority
    simp only [hj] at hauthority
    split at hauthority
    · cases hauthority
    · simp at hauthority
  | forgotten user => exact .inr ⟨user, rfl⟩

theorem RowMove.toReconciled (h : RowMove c now b db j k) (hj : j.status ≠ .reconciled)
    (hk : k.status = .reconciled) : b = true := by
  cases h with
  | same | forgotten user => exact absurd hk hj
  | step h =>
    cases h with
    | approved _ _ _ _ _ | awaiting _ _ | claimed _ => cases hk
    | closed _ => exact absurd hk hj
  | ended h =>
    cases h with
    | ended _ _ hstatus =>
      unfold GpoImportJob.endUnlessClaimed at hk
      split at hk
      · cases hk
      · rcases hstatus with rfl | rfl <;> cases hk
    | settled _ _ _ _ =>
      simp only [GpoImportJob.settle, settledStatus] at hk
      split at hk
      · cases hk
      · split at hk <;> cases hk
  | succeeded h =>
    have hsuccess := h.success
    unfold success at hsuccess
    split at hsuccess <;> cases hsuccess <;> cases hk
  | released hacked _ => exact hacked

/-- `expire_jobs` leaves a job that waits for a reconciliation as it is. -/
theorem yields_expireJobs_keeps (c : Content) (tenant id : String) (hj : db.jobs.get? id = some j)
    (hstatus : j.status = .reconciliationRequired) :
    Yields (expireJobs tenant now) (fun _ m => m.jobs.get? id = some j) db := by
  have hloop : Yields (expireJobs tenant now) (fun _ m => ∀ k, k.status = .reconciliationRequired →
      db.jobs.get? k.id = some k → m.jobs.get? k.id = some k) db := by
    refine yields_eachJob (T := fun db m => ∀ k : GpoImportJob,
      k.status = .reconciliationRequired → db.jobs.get? k.id = some k → m.jobs.get? k.id = some k)
      (fun _ _ _ h => h) (fun _ _ _ h h' k hk hget => h' k hk (h k hk hget)) ?_ db
    intro db r hselect hget
    simp only [expiring, Bool.and_eq_true, bne_iff_ne, ne_eq] at hselect
    refine (yields_saveEnded (c := c) (b := false) hget (.ended hselect.1.1.2 hselect.1.2 (.inl rfl))).mono ?_
    rintro _ m ⟨-, hothers⟩
    refine ⟨fun k hk hkget => ?_, hothers⟩
    rw [hothers k.id ?_]
    · exact hkget
    · intro hid
      rw [hid, hget] at hkget
      cases hkget
      exact hselect.1.2 hk
  refine hloop.mono fun _ m h => ?_
  have hkept := h j hstatus
  rw [Table.get?_key hj] at hkept
  exact hkept hj

/-- A request about a job is one about the row that the expiry leaves, and finds its tenant and its
enrollment. -/
theorem yields_exchange_request {request : JobRequest} {Q : Reply → Db → Prop}
    (hplain : request.report = none ∧ request.isResult = false) (enrollment jobId inputDigest : String)
    (hQ : ∀ m e tenant k, (expireJobs tenant.id now).exec db = .ok ((), m) →
      m.jobs.get? jobId = some k → m.tenants.get? k.tenant = some tenant →
      m.enrollments.get? k.enrollment = some e → Yields (requestJob c now e tenant k request) Q m) :
    Yields (exchange c now enrollment (.job jobId inputDigest request)) Q db := by
  unfold exchange
  rw [yields_bind, yields_get]
  split
  · rw [yields_throw]
    trivial
  next e henrollment =>
  split
  · rw [yields_throw]
    trivial
  next tenant htenant =>
  rw [← Table.get?_key htenant] at htenant
  rw [← Table.get?_key henrollment] at henrollment
  rw [yields_bind, yields_throwIf]
  intro _
  simp only [Message.isResult, hplain.2, Message.report, hplain.1, Bool.false_eq_true, if_false]
  rw [yields_bind]
  intro _ m hexpire
  have hfenced := (yields_expireJobs (c := c) (b := false) tenant.id db _ m hexpire).2
  show Yields (answer c now e tenant (.job jobId inputDigest request)) Q m
  unfold answer
  simp only
  rw [yields_bind, yields_throwIf]
  intro _
  rw [yields_bind, yields_get]
  split
  · rw [yields_bind, yields_get, yields_bind, yields_throwIf]
    intro hretired
    obtain ⟨hreport, hresult⟩ := hplain
    cases request <;> simp_all [Db.retiredUnclaimed, JobRequest.report, JobRequest.isResult]
  · next k hk =>
      obtain ⟨hget, hfilter⟩ := Option.filter_eq_some_iff.mp hk
      simp only [Bool.and_eq_true, beq_iff_eq] at hfilter
      rw [yields_bind, yields_throwIf]
      intro _
      refine hQ m e tenant k hexpire hget ?_ ?_
      · rw [hfilter.1, hfenced.tenants]
        exact htenant
      · rw [hfilter.2, hfenced.enrollments]
        exact henrollment

/-- What an acknowledgement does: after the expiry it is one reconciliation exchange of the job it
names. -/
theorem yields_exchange_ack (enrollment jobId inputDigest journal id observation : String) :
    Yields (exchange c now enrollment
        (.job jobId inputDigest (.reconciliationAck journal id observation)))
      (fun _ db' => ∃ m tenant k, (expireJobs tenant.id now).exec db = .ok ((), m) ∧
        m.jobs.get? jobId = some k ∧
        Reconciled c now m k tenant (.ack journal id observation) db') db := by
  refine yields_exchange_request ⟨rfl, rfl⟩ _ _ _ ?_
  intro m e tenant k hexpire hget htenant _
  show Yields (do
    let control ← reconciliationExchange c now k tenant (.ack journal id observation)
    pure (Reply.reconciliation control) : Request Reply) _ m
  rw [yields_bind]
  refine (yields_reconciliationExchange htenant _).mono fun _ db' h => ?_
  rw [yields_pure]
  exact ⟨m, tenant, k, hexpire, hget, h⟩

/-! ## What stands is released -/

theorem sha_digest (v : Value) : sha (digest v) = true := Crypto.digest_sha256 (canonical v)

theorem exec_throwIf_of_not {p : Prop} [Decidable p] (hp : ¬p) (e : ServerError) (m : Db) :
    (Lib.throwIf p e : Request Unit).exec m = .ok ((), m) := by
  unfold Lib.throwIf
  rw [if_neg hp]
  rfl

theorem undigested_withDigest (a : ManagedJob) (d : String) :
    undigested ({ a with inputDigest := d } : ManagedJob).toJson = undigested a.toJson := by
  show Value.obj _ = Value.obj _
  rw [← a.undigested_withDigest d]
  rfl

theorem decisionValid_accept (record : GpoReconciliation) (job : GpoImportJob) (user : Nat)
    (now : Time) : decisionValid (record.accept job user now) job = true := by
  have hdecided : decided (record.accept job user now) job = true := by
    simp [decided, GpoReconciliation.accept, decision]
  unfold decisionValid
  rw [hdecided]
  simp [GpoReconciliation.accept, decision, sha_digest]

theorem exec_release (hstands : Releasable c now db record j tenant)
    (hpolicy : db.policyForJob j = some policy)
    (hconflicts : db.policies.rows.any (policy.release (observedGuid record)).conflicts = false) :
    (release c now record j tenant record.observationDigest).exec db =
      .ok (db.control { record with status := .accepted, finalizedAt := some now } j .released,
        db.release now record j policy) := by
  have hdecided := hstands.decision
  simp only [decisionValid, Bool.and_eq_true] at hdecided
  have haccepted : record.acceptedAt ≠ none := by
    intro hnone
    have h := hdecided.1.2
    simp [decided, hnone] at h
  unfold release
  rw [exec_bind, exec_get]
  simp only
  rw [exec_bind, exec_throwIf_of_not ?_]
  · simp only [hpolicy]
    unfold savePolicy
    rw [exec_bind, exec_bind, exec_get]
    simp only
    rw [if_neg (by simpa [ManagedGpoPolicy.release] using hconflicts)]
    rfl
  · simp [hstands.pending, haccepted, hstands.authority, hdecided.1.2, hstands.observation]

/-- An exchange releases a record for which everything stands. -/
theorem exec_reconciliationExchange (hid : uuidText record.id = true)
    (hstands : Releasable c now db record j tenant) (hpolicy : db.policyForJob j = some policy)
    (hconflicts : db.policies.rows.any (policy.release (observedGuid record)).conflicts = false) :
    (reconciliationExchange c now j tenant
        (.ack record.journalSha256 record.id record.observationDigest)).exec db =
      .ok (some (db.control { record with status := .accepted, finalizedAt := some now } j .released),
        db.release now record j policy) := by
  obtain ⟨a, o, hassigned, hrecorded⟩ := Db.observationBlocker_none hstands.observation
  have hjournal := hrecorded.journal
  have hobserved : sha record.observationDigest = true := by
    obtain ⟨value, -, -, hdigest⟩ := hrecorded.recorded
    rw [← hdigest]
    exact sha_digest value
  have hfound : db.exchangeRecord j (.ack record.journalSha256 record.id record.observationDigest) =
      .ok (some record) := by
    have hfilter : (some record).filter (fun r => r.job == j.id) = some record := by
      rw [Option.filter_eq_some_iff]
      exact ⟨rfl, beq_iff_eq.mpr hstands.about⟩
    simp only [Db.exchangeRecord, hid, hstands.found, hfilter, hobserved, Bool.true_eq_false,
      throwIf, if_false]
    rfl
  have hlive : expireReconciliation now record = pure record := by
    unfold expireReconciliation
    rw [if_neg]
    simp [hstands.inTime]
  have hsuperseded : db.superseded c now record j tenant = false := by
    simp [Db.superseded, hstands.pending, hstands.authority, hstands.decision, hstands.observation]
  unfold reconciliationExchange
  simp only [hassigned]
  rw [exec_bind, exec_throwIf_of_not (by simpa [ReconciliationAction.journalSha256] using hjournal)]
  simp only
  rw [exec_bind, exec_get]
  simp only
  rw [exec_bind, exec_ofExcept, hfound]
  simp only [Except.map, hstands.pending, reduceCtorEq, false_and, if_false]
  rw [exec_bind, hlive, exec_pure]
  simp only [hstands.pending, ReconciliationStatus.pending, Bool.true_eq_false, if_false]
  rw [exec_bind, exec_get]
  simp only [hsuperseded, Bool.false_eq_true, if_false]
  unfold exchangePending bindJournal
  rw [exec_bind, exec_bind, exec_throwIf_of_not (by simp [ReconciliationAction.journalSha256])]
  simp only [exec_pure]
  rw [exec_bind, exec_release hstands hpolicy hconflicts]
  rfl

/-- The acknowledgement of an accepted record releases the job where everything stands. -/
theorem exec_exchange_release {tenant : Tenant} {policy : ManagedGpoPolicy} {e : AgentEnrollment}
    (henrollment : db.enrollments.get? e.id = some e)
    (htenant : db.tenants.get? e.tenant = some tenant) (hplatform : e.platform = .windows)
    (hactive : e.status = .active) (hquiet : (expireJobs tenant.id now).exec db = .ok ((), db))
    (hjid : uuidText j.id = true) (hj : db.jobs.get? j.id = some j)
    (hbound : j.tenant = tenant.id ∧ j.enrollment = e.id) (hid : uuidText record.id = true)
    (hstands : Releasable c now db record j tenant) (hpolicy : db.policyForJob j = some policy)
    (hconflicts : db.policies.rows.any (policy.release (observedGuid record)).conflicts = false) :
    (exchange c now e.id (.job j.id j.inputDigest
        (.reconciliationAck record.journalSha256 record.id record.observationDigest))).exec db =
      .ok (.reconciliation (some
          (db.control { record with status := .accepted, finalizedAt := some now } j .released)),
        db.release now record j policy) := by
  have hfilter : (some j).filter (fun k => k.tenant == tenant.id && k.enrollment == e.id) = some j := by
    rw [Option.filter_eq_some_iff]
    exact ⟨rfl, by simp [hbound.1, hbound.2]⟩
  unfold exchange
  rw [exec_bind, exec_get]
  simp only [henrollment, htenant]
  rw [exec_bind, exec_throwIf_of_not (by simp [hplatform, hactive])]
  show (do
    expireJobs tenant.id now
    answer c now e tenant (.job j.id j.inputDigest
      (.reconciliationAck record.journalSha256 record.id record.observationDigest))
    : Request Reply).exec db = _
  rw [exec_bind, hquiet]
  simp only [answer]
  rw [exec_bind, exec_throwIf_of_not (by simp [hjid])]
  simp only
  rw [exec_bind, exec_get]
  simp only [hj, hfilter]
  rw [exec_bind, exec_throwIf_of_not (by simp)]
  simp only [requestJob, JobRequest.reconciliation]
  rw [exec_bind, exec_reconciliationExchange hid hstands hpolicy hconflicts]
  rfl

end

variable {c : Catalogue} {s : State}

theorem Step.exchange {enrollment : String} {message : Message} {now : Time} {reply : Reply}
    {db : Db} (htime : s.now ≤ now)
    (h : (exchange c.toContent now enrollment message).exec s.db = .ok (reply, db)) :
    Step c s ⟨.exchange enrollment message, now, some reply⟩ ⟨db, now⟩ := by
  refine ⟨htime, ?_, ?_, rfl⟩
  · intro id hid
    cases hid
  · show (do
      let reply ← Gpo.exchange c.toContent now enrollment message
      pure (some reply) : Request (Option Reply)).exec s.db = _
    rw [exec_bind, h]
    rfl

theorem Event.acked_iff {event : Event} (h : event.acked = true) :
    ∃ enrollment jobId inputDigest journal id observation, event = .exchange enrollment
      (.job jobId inputDigest (.reconciliationAck journal id observation)) := by
  cases event with
  | exchange enrollment message =>
    cases message with
    | poll report => cases h
    | job jobId inputDigest request =>
      cases request with
      | reconciliationAck journal id observation =>
        exact ⟨enrollment, jobId, inputDigest, journal, id, observation, rfl⟩
      | _ => cases h
  | _ => cases h

/-- A job that waits for a reconciliation is released by an acknowledgement of it, with the tables
as they are after the expiry, where everything the acceptance rested on stands; only its status
changes. -/
theorem Step.release {t : State} {l : Label} (h : Step c s l t) {id : String} {j k : GpoImportJob}
    (hj : s.db.jobs.get? id = some j) (hk : t.db.jobs.get? id = some k)
    (hbefore : j.status = .reconciliationRequired) (hafter : k.status = .reconciled) :
    (∃ enrollment inputDigest journal recordId observation, l.event = .exchange enrollment
      (.job id inputDigest (.reconciliationAck journal recordId observation))) ∧
    (∃ tenant m record, (expireJobs tenant.id l.time).exec s.db = .ok ((), m) ∧
      Releasable c.toContent l.time m record j tenant) ∧
    k = { j with status := .reconciled } := by
  have hacked : l.event.acked = true := by
    by_contra hnot
    rw [Bool.not_eq_true] at hnot
    obtain ⟨k', hk', hstatus⟩ := Moved.row (P := fun k => k.status ≠ .reconciled)
      (fun db j k hj hrow hk => by
        have := hrow.toReconciled hj hk
        rw [hnot] at this
        cases this) h.moved hj (by rw [hbefore]; decide)
    rw [hk] at hk'
    cases hk'
    exact hstatus hafter
  obtain ⟨enrollment, jobId, inputDigest, journal, recordId, observation, hevent⟩ :=
    Event.acked_iff hacked
  have hexec := h.2.2.1
  rw [hevent] at hexec
  obtain ⟨reply, u, hexec, hreply⟩ := exec_bind_ok.mp hexec
  have hu : u = t.db := (Prod.mk.inj (Except.ok.inj hreply)).2
  rw [← hu] at hk
  obtain ⟨m, tenant, r, hexpire, hr, hdone⟩ :=
    yields_exchange_ack enrollment jobId inputDigest journal recordId observation _ _ hexec
  have hkept : m.jobs.get? id = some j :=
    yields_expireJobs_keeps c.toContent tenant.id id hj hbefore _ _ hexpire
  cases hdone with
  | kept reconciliations =>
    rw [show m.jobs.get? id = some k from hk] at hkept
    cases hkept
    rw [hbefore] at hafter
    cases hafter
  | @released record policy _ _ _ hreleasable hpolicy hconflicts =>
    have hrid := Table.get?_key hr
    have hsaved : (m.jobs.save { r with status := .reconciled }).get? id = some k := hk
    rcases get?_saved (r := r) (k := { r with status := .reconciled }) (by rw [hrid]; exact hr) rfl
        hkept with hsame | ⟨rfl, hother⟩
    · rw [hsaved] at hsame
      cases hsame
      rw [hbefore] at hafter
      cases hafter
    · rw [hsaved] at hother
      cases hother
      rw [← hrid, Table.get?_key hkept] at hevent
      exact ⟨⟨enrollment, inputDigest, journal, recordId, observation, hevent⟩,
        ⟨tenant, m, record, hexpire, hreleasable⟩, rfl⟩

theorem Run.reconciled {t : State} {ls : List Label} (h : Run (Step c) s ls t) {id : String}
    {j : GpoImportJob} (hj : s.db.jobs.get? id = some j) (hstatus : j.status = .reconciled) :
    ∃ k, t.db.jobs.get? id = some k ∧ k.status = .reconciled ∧ j.Remains k := by
  refine Run.row (P := fun k => k.status = .reconciled ∧ j.Remains k) ?_ h hj ⟨hstatus, .refl j⟩
  intro now b db r k ⟨hr, hremains⟩ hrow
  rcases hrow.reconciled hr with rfl | ⟨user, rfl⟩
  · exact ⟨hr, hremains⟩
  · exact ⟨hr, hremains.forget user⟩

/-- The safety of a release, whatever the state and whatever the event: a job that waits for a
reconciliation becomes reconciled by an acknowledgement of it only, where after the expiry the
observation of the record is complete and quiescent and shows the policy owned and disabled with
consistent links, and where the decision and every revision are the current ones and the four-eyes
rule holds.  Nothing of the job changes but its status, and nothing that happens later makes it
active again or changes its receipt, its assignment or its evidence. -/
theorem reconciliation_release_safe (c : Catalogue) {s t : State} {l : Label} (h : Step c s l t)
    {id : String} {j k : GpoImportJob} (hj : s.db.jobs.get? id = some j)
    (hk : t.db.jobs.get? id = some k) (hbefore : j.status = .reconciliationRequired)
    (hafter : k.status = .reconciled) :
    (∃ enrollment inputDigest journal recordId observation, l.event = .exchange enrollment
      (.job id inputDigest (.reconciliationAck journal recordId observation))) ∧
    (∃ tenant m record a o, (expireJobs tenant l.time).exec s.db = .ok ((), m) ∧
      m.reconciliations.get? record.id = some record ∧ record.job = id ∧
      record.status = .acceptRequested ∧ l.time < record.expiresAt ∧ j.assignment = .managed a ∧
      Observed c.toContent m record j a o ∧ Decided c.toContent m record j) ∧
    k = { j with status := .reconciled } ∧
    ∀ ls u, Run (Step c) t ls u → ∃ r, u.db.jobs.get? id = some r ∧ r.status = .reconciled ∧
      k.Remains r := by
  obtain ⟨hack, ⟨tenant, m, record, hexpire, hreleasable⟩, hsame⟩ := h.release hj hk hbefore hafter
  obtain ⟨a, o, hassigned, hobserved⟩ := Db.observationBlocker_none hreleasable.observation
  have hdecided := Db.reconciliationAuthority_none hreleasable.authority hreleasable.decision
  refine ⟨hack, ⟨tenant.id, m, record, a, o, hexpire, hreleasable.found, ?_, hreleasable.pending,
    hreleasable.inTime, hassigned, hobserved, hdecided⟩, hsame, ?_⟩
  · rw [hreleasable.about, Table.get?_key hj]
  · intro ls u hrun
    exact Run.reconciled hrun hk hafter

/-! ### An accepted record -/

/-- A catalogue without components. -/
def emptyCatalogue : Catalogue where
  unicode := asciiUnicode
  components _ _ := none
  profileComponents _ _ := []
  overrideComponents _ _ := none
  artifactBytes _ := none
  reviewable _ := true
  deployable _ := none
  deployableIds := []
  word := alphanumeric

/-- 2026-09-10T10:30:45Z. -/
def sampleTime : Time := 1789036245000000

/-- The observation of a policy without links. -/
def sampleObservation : Observation where
  state := some sampleSnapshot
  forestLinks := []
  forestComplete := true
  aclConsistent := some true
  gpoPresence := .present
  issues := []
  gpoGuid := "00000000-0000-4000-8000-000000000009"
  quiescent := true

/-- The assignment of the import. -/
def sampleAssignment : ManagedJob :=
  { sampleDraft with inputDigest := digest (undigested sampleDraft.toJson) }

/-- The claimed import whose result never came. -/
def sampleJob : GpoImportJob where
  id := sampleDraft.jobId
  tenant := "t"
  domain := sampleDraft.scopeId
  enrollment := "e"
  system := "s"
  requestedBy := some 1
  policyRevision := 1
  fourEyesRequired := true
  authorizationRevision := 1
  domainGuid := sampleDraft.domainGuid
  requestSha256 := ""
  inputDigest := sampleAssignment.inputDigest
  assignment := .managed sampleAssignment
  pilotDisplayName := "IPMS"
  pilotNameKey := "ipms"
  status := .reconciliationRequired
  errorCode := "gpo_reconciliation_required"
  requestedAt := sampleTime
  expiresAt := sampleTime + 3600000000
  claimedAt := some sampleTime

/-- The observed record of the import. -/
def sampleRequest : GpoReconciliation where
  id := "00000000-0000-4000-8000-000000000005"
  tenant := "t"
  job := sampleDraft.jobId
  requestedBy := some 1
  status := .observed
  requestDigest := ""
  jobResultDigest := Db.originalResultIdentity sampleJob
  journalSha256 := "aaaaaaaaaaaaaaaaaaaaaaaaaaaaaaaaaaaaaaaaaaaaaaaaaaaaaaaaaaaaaaaa"
  scopeRevision := 1
  policyRevision := 1
  authorizationRevision := 1
  managedRevision := 1
  fourEyesRequired := true
  observation := some sampleObservation.toJson
  observationDigest := digest sampleObservation.toJson
  requestedAt := sampleTime
  expiresAt := sampleTime + 900000000

/-- The record with the acceptance of a second user. -/
def sampleRecord : GpoReconciliation := sampleRequest.accept sampleJob 2 sampleTime

def sampleTenant : Tenant := { id := "t", status := .active, purpose := .infrastructure }

/-- A user of the tenant. -/
def sampleUser (id : Nat) : User :=
  { id, isActive := true, isStaff := false, isSuperuser := false, platformAdministrator := false }

/-- The policy of the import. -/
def samplePolicy : ManagedGpoPolicy where
  id := sampleDraft.managedId
  tenant := "t"
  domain := sampleDraft.scopeId
  domainGuid := sampleDraft.domainGuid
  override := none
  logicalKey := "k"
  tier := 1
  targetOus := sampleDraft.targetOus
  baselineId := sampleDraft.baselineId
  profile := sampleDraft.profile
  purpose := "C-MS-WS2025-Member"
  target := "Servers"
  displayName := "IPMS"
  nameKey := "ipms"
  version := "1"
  backupId := sampleDraft.backupId
  state := .reconciliationRequired

/-- The enrollment of the domain controller. -/
def sampleEnrollment : AgentEnrollment where
  id := "e"
  tenant := "t"
  deviceUri := "urn:e"
  platform := .windows
  status := .active
  lastHeartbeatAt := some sampleTime

/-- The tables before the acknowledgement. -/
def sampleDb : Db where
  tenants := .single sampleTenant
  users := ⟨[sampleUser 1, sampleUser 2], by decide⟩
  memberships := [⟨"t", 1, .tenantAdmin, true, none⟩, ⟨"t", 2, .approver, true, none⟩]
  domains := .single {
    id := sampleDraft.scopeId, tenant := "t", domainName := "corp.example", revision := 1
    tierOus := ⟨[], ["OU=Servers,DC=corp,DC=example"], []⟩, gpoNameTemplate := "IPMS"
    baselineOrder := [] }
  approvalPolicies := .empty
  authorizations := .single {
    domain := sampleDraft.scopeId, revision := 1, grants := [⟨"1", ["1"]⟩, ⟨"2", ["1"]⟩] }
  enrollments := .single sampleEnrollment
  systems := .single {
    id := "s", tenant := "t", sourceId := "urn:e", inventorySource := "agent"
    operatingSystemRole := "domain-controller", domainName := "corp.example"
    fqdn := "dc1.corp.example", agentVersion := "0.2.50" }
  reports := .single {
    enrollment := "e", agentVersion := "0.2.50", domainDnsName := "corp.example"
    domainGuid := sampleDraft.domainGuid, forestDnsName := "corp.example"
    dcFqdn := "dc1.corp.example", role := "writable-domain-controller", gpmcAvailable := true
    resultCode := "ready_for_approval", observedAt := sampleTime }
  maintenancePending := fun _ _ => false
  overrides := .empty
  policies := .single samplePolicy
  jobs := .single sampleJob
  reconciliations := .single sampleRecord
  retirements := []

set_option maxRecDepth 20000 in
theorem sampleObservation_valid :
    validateObservation emptyCatalogue.toContent sampleAssignment sampleObservation.toJson =
      .ok sampleObservation := by
  decide +kernel

-- No digest is evaluated: each one is compared with itself.
theorem sampleJob_integrity : sampleDb.jobIntegrity emptyCatalogue.toContent sampleJob = true := by
  have hform : ((sampleAssignment.override.all fun o =>
      patchValid emptyCatalogue.toContent sampleAssignment o) &&
      sampleAssignment.approvalMode == "portal" && sampleAssignment.jobId == sampleJob.id &&
      sampleAssignment.scopeId == sampleJob.domain &&
      sampleAssignment.domainGuid == sampleJob.domainGuid &&
      ((sampleDb.domains.get? sampleJob.domain).any fun config =>
        config.domainName == sampleAssignment.domainDnsName)) = true := by
    decide +kernel
  have hcarried : sampleAssignment.inputDigest = digest (undigested sampleDraft.toJson) := by
    simp only [sampleAssignment]
  have hdigest : digest (undigested sampleAssignment.toJson) = sampleAssignment.inputDigest := by
    rw [hcarried]
    unfold sampleAssignment
    rw [undigested_withDigest]
  have hbound : (sampleAssignment.inputDigest == sampleJob.inputDigest) = true := by
    simp only [sampleJob, beq_self_eq_true]
  have hown : (digest (undigested sampleAssignment.toJson) == sampleJob.inputDigest) = true := by
    rw [hdigest, hbound]
  unfold Db.jobIntegrity
  rw [show sampleJob.assignment = .managed sampleAssignment by simp only [sampleJob]]
  simp only
  rw [hform, hbound, hown]
  rfl

theorem sampleRecord_observation :
    sampleDb.observationBlocker emptyCatalogue.toContent sampleRecord sampleJob = none := by
  have hrecorded : sampleRecord.observationDigest = digest sampleObservation.toJson := by
    simp only [sampleRecord, GpoReconciliation.accept, sampleRequest]
  have hdigest : ¬(sha sampleRecord.journalSha256 = false ∨
      digest sampleObservation.toJson ≠ sampleRecord.observationDigest) := by
    rw [not_or, hrecorded]
    exact ⟨by decide, not_not.mpr rfl⟩
  show (if sha sampleRecord.journalSha256 = false ∨
      digest sampleObservation.toJson ≠ sampleRecord.observationDigest then _ else _) = none
  rw [if_neg hdigest, sampleObservation_valid]
  decide +kernel

theorem sampleRecord_authority : sampleDb.reconciliationAuthority emptyCatalogue.toContent sampleTime
    sampleRecord sampleJob sampleTenant true = none := by
  have hrecorded : sampleRecord.jobResultDigest = Db.originalResultIdentity sampleJob := by
    simp only [sampleRecord, GpoReconciliation.accept, sampleRequest]
  have hjob : ¬(sampleRecord.tenant ≠ sampleJob.tenant ∨
      sampleDb.jobIntegrity emptyCatalogue.toContent sampleJob = false ∨
      Db.originalResultIdentity sampleJob ≠ sampleRecord.jobResultDigest ∨
      sampleJob.status ≠ .reconciliationRequired) := by
    rw [sampleJob_integrity, hrecorded]
    simp only [not_or, not_not]
    exact ⟨rfl, by decide, trivial, rfl⟩
  show (if sampleRecord.tenant ≠ sampleJob.tenant ∨
      sampleDb.jobIntegrity emptyCatalogue.toContent sampleJob = false ∨
      Db.originalResultIdentity sampleJob ≠ sampleRecord.jobResultDigest ∨
      sampleJob.status ≠ .reconciliationRequired then _ else _) = none
  rw [if_neg hjob]
  decide +kernel

theorem sampleRecord_releasable : Releasable emptyCatalogue.toContent sampleTime sampleDb sampleRecord
    sampleJob sampleTenant where
  found := Table.get?_of_mem (t := sampleDb.reconciliations) List.mem_cons_self
  about := rfl
  tenantFound := by decide
  pending := rfl
  inTime := by decide
  authority := sampleRecord_authority
  decision := decisionValid_accept _ _ _ _
  observation := sampleRecord_observation

theorem samplePolicy_found : sampleDb.policyForJob sampleJob = some samplePolicy := by
  decide

/-- The acknowledgement. -/
def sampleLabel : Label where
  event := .exchange sampleEnrollment.id (.job sampleJob.id sampleJob.inputDigest
    (.reconciliationAck sampleRecord.journalSha256 sampleRecord.id sampleRecord.observationDigest))
  time := sampleTime
  reply := some (.reconciliation (some (sampleDb.control
    { sampleRecord with status := .accepted, finalizedAt := some sampleTime } sampleJob .released)))

theorem sampleStep : Step emptyCatalogue ⟨sampleDb, sampleTime⟩ sampleLabel
    ⟨sampleDb.release sampleTime sampleRecord sampleJob samplePolicy, sampleTime⟩ :=
  Step.exchange (Int.le_refl _) (exec_exchange_release (j := sampleJob) (e := sampleEnrollment)
    (by decide) (by decide) rfl rfl rfl (by decide)
    (Table.get?_of_mem (t := sampleDb.jobs) List.mem_cons_self) ⟨rfl, rfl⟩ (by decide)
    sampleRecord_releasable samplePolicy_found (by decide))

/-- The acknowledgement of the accepted record releases the import. -/
theorem reconciliation_release_safe_sample :
    ∃ tenant m record a o, (expireJobs tenant sampleTime).exec sampleDb = .ok ((), m) ∧
      record.job = sampleJob.id ∧ sampleJob.assignment = .managed a ∧
      Observed emptyCatalogue.toContent m record sampleJob a o ∧
      Decided emptyCatalogue.toContent m record sampleJob := by
  have hbefore : sampleDb.jobs.get? sampleJob.id = some sampleJob :=
    Table.get?_of_mem List.mem_cons_self
  have hafter : (sampleDb.release sampleTime sampleRecord sampleJob samplePolicy).jobs.get?
      sampleJob.id = some { sampleJob with status := .reconciled } :=
    Table.get?_save_self (t := sampleDb.jobs) (a := { sampleJob with status := .reconciled }) hbefore
  obtain ⟨-, ⟨tenant, m, record, a, o, hexpire, -, hjob, -, -, hassigned, hobserved, hdecided⟩, -⟩ :=
    reconciliation_release_safe emptyCatalogue sampleStep hbefore hafter rfl rfl
  exact ⟨tenant, m, record, a, o, hexpire, hjob, hassigned, hobserved, hdecided⟩

end Ipms.Server.Gpo
