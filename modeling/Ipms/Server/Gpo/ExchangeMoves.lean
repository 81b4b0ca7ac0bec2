import Ipms.Server.Gpo.FenceMoves

/-
  Ipms.Server.Gpo.ExchangeMoves

  Every message of an agent is a chain of moves.  A claim is a move of its own,
  with the authority it was granted under, and so is a release.
-/

namespace Ipms.Server.Gpo

open Ipms.Lib Ipms.ManagementJson Txn Chains
open Ipms.Agent.Gpo (Job ManagedJob)

section
variable {c : Content} {now : Time} {b : Bool} {db : Db} {j : GpoImportJob}

/-! ## Single saves -/

theorem chains_saveJob {k : GpoImportJob} (hget : db.jobs.get? j.id = some j)
    (hstep : JobStep c now db j k) : Chains (Move c now b) (saveJob k) db :=
  (yields_modify _).mpr (.single (.job hget hstep))

theorem chains_saveReconciliation (record : GpoReconciliation) :
    Chains (Move c now b) (saveReconciliation record) db :=
  (yields_modify _).mpr (.single (.reconciliations _))

theorem FenceMoved.chains {α : Type} {t : Request α}
    (h : Yields t (fun _ db' => FenceMoved c now b db db') db) : Chains (Move c now b) t db :=
  h.mono fun _ _ h => h.1

theorem yields_executorReport (enrollment : String) (d : ExecutorDocument) :
    Yields (executorReport c now enrollment d) (fun _ m => Moved c now b db m ∧
      m.tenants = db.tenants ∧ m.enrollments = db.enrollments) db := by
  unfold executorReport
  rw [yields_bind, yields_throwIf]
  intro _
  exact (yields_modify _).mpr ⟨.single (.reported _), rfl, rfl⟩

theorem chains_invalidate (hget : db.jobs.get? j.id = some j) (reason : String) :
    Chains (Move c now b) (invalidate j now reason) db :=
  (yields_invalidate hget reason).mono fun _ _ h => h.1.1

/-! ## Offers and claims -/

theorem Db.nextJob_mem {tenant enrollment : String} (h : db.nextJob tenant enrollment = some j) :
    j ∈ db.jobs.rows := by
  have hmem := mem_of_foldl_choice h fun best k => by
    cases best with
    | none => exact .inr rfl
    | some b =>
      simp only
      split
      · exact .inr rfl
      · exact .inl rfl
  exact (List.mem_filter.mp hmem).1

theorem chains_poll (enrollment : AgentEnrollment) (tenant : Tenant) :
    Chains (Move c now b) (poll c now enrollment tenant) db := by
  unfold poll
  refine getBind ?_
  split
  · exact pure _
  · next job hnext =>
      have hget : db.jobs.get? job.id = some job := Table.get?_of_mem (Db.nextJob_mem hnext)
      refine getBind ?_
      split
      · exact getBind (pure _)
      · exact andThen (chains_invalidate hget _) fun _ _ _ => pure _

theorem chains_lookup (hget : db.jobs.get? j.id = some j) (enrollment : AgentEnrollment)
    (tenant : Tenant) : Chains (Move c now b) (lookup c now j enrollment tenant) db := by
  have hrest : ∀ (k : GpoImportJob) (m : Db), Chains (Move c now b) (if k.status.active = true then do
      let m ← get
      pure (Reply.offer (some k.assignment) (m.currentApproval now k tenant))
    else pure (Reply.offer none none) : Request Reply) m := by
    intro k m
    split
    · exact getBind (pure _)
    · exact pure _
  unfold lookup
  refine getBind ?_
  simp only
  by_cases hstale : (j.status.preExecution && !db.scopeCurrent now c j enrollment tenant) = true
  · rw [if_pos hstale]
    exact andThen (chains_invalidate hget _) fun k m _ => hrest k m
  · rw [if_neg hstale]
    exact andThen (pure _) fun k m _ => hrest k m

/-- The authority a claim finds where the exchange says it is current. -/
def ClaimAuthority (c : Content) (now : Time) (db : Db) (j : GpoImportJob) (tenant : Tenant) : Prop :=
  j.inspecting = false ∧ now < j.expiresAt ∧ db.tenants.get? j.tenant = some tenant ∧
    ∃ enrollment, db.enrollments.get? j.enrollment = some enrollment ∧
      db.scopeCurrent now c j enrollment tenant = true

variable {tenant : Tenant}

/-- A claim answers with the execution only where it is granted. -/
theorem yields_claimJob (hget : db.jobs.get? j.id = some j) {current : Bool}
    (hauthority : current = true → ClaimAuthority c now db j tenant) :
    Yields (claimJob now j tenant current) (fun r m => Moved c now b db m ∧ (r.authorized = true →
      current = true ∧ Claimable c now db j ∧
        m = { db with jobs := db.jobs.save (j.claim now) })) db := by
  unfold claimJob
  rw [yields_bind, yields_get]
  simp only
  by_cases hlost : (current && j.status.preExecution &&
      !(!j.isPortal || db.approvalCurrent now j tenant)) = true
  · rw [if_pos hlost, yields_bind]
    simp only [Bool.and_eq_true, Bool.not_eq_true'] at hlost
    refine (yields_invalidate (c := c) (b := b) hget _).mono fun k m h => ?_
    -- Without the approval nothing is claimed.
    rw [hlost.2, Bool.and_false, Bool.false_and, if_neg (by decide)]
    split
    · exact (yields_pure _).mpr ⟨h.1.1, nofun⟩
    · split <;> exact (yields_pure _).mpr ⟨h.1.1, nofun⟩
  · rw [if_neg hlost, yields_bind, yields_pure]
    split
    · next hclaim =>
        simp only [Bool.and_eq_true, Bool.or_eq_true, Bool.not_eq_true'] at hclaim
        obtain ⟨⟨hcurrent, happroved⟩, hwaiting⟩ := hclaim
        obtain ⟨hwrites, htime, htenant, enrollment, henrollment, hscope⟩ := hauthority hcurrent
        have hclaimable : Claimable c now db j := by
          refine ⟨hwaiting, hwrites, htime, tenant, enrollment, htenant, henrollment, hscope, ?_⟩
          intro hportal
          rcases happroved with hnot | happroved
          · rw [hportal] at hnot
            cases hnot
          · exact happroved
        rw [yields_bind]
        refine (yields_modify _).mpr ?_
        rw [yields_bind, yields_get]
        exact (yields_pure _).mpr
          ⟨.single (.job hget (.claimed hclaimable)), fun _ => ⟨hcurrent, hclaimable, rfl⟩⟩
    · split
      · exact (yields_pure _).mpr ⟨.refl, nofun⟩
      · split <;> exact (yields_pure _).mpr ⟨.refl, nofun⟩

theorem chains_claimJob (hget : db.jobs.get? j.id = some j) {current : Bool}
    (hauthority : current = true → ClaimAuthority c now db j tenant) :
    Chains (Move c now b) (claimJob now j tenant current) db :=
  (yields_claimJob hget hauthority).mono fun _ _ h => h.1

theorem chains_artifact (tenant : Tenant) (current : Bool) :
    Chains (Move c now b) (artifact c now j tenant current) db := by
  unfold artifact
  refine throwIfBind fun _ => getBind (throwIfBind fun _ => ?_)
  simp only
  split
  · exact throw _
  · split
    · exact throw _
    · exact pure _

theorem chains_awaitResult (hget : db.jobs.get? j.id = some j) (r : GeneralResult) :
    Chains (Move c now b) (awaitResult j r) db := by
  unfold awaitResult
  refine throwIfBind fun hchecks => ?_
  split
  · exact pure _
  · next happroved =>
      refine chains_saveJob hget (.awaiting ?_ ?_)
      · simp only [not_or] at hchecks
        simpa using hchecks.2.1
      · simpa using happroved

theorem chains_generalResult (hget : db.jobs.get? j.id = some j) {d : ResultDocument}
    (hgeneral : ∀ a, j.assignment = .managed a → reportsSuccess d = .ok false) :
    Chains (Move c now b) (generalResult now j d) db := by
  unfold generalResult
  refine ofExceptBind fun r hr => ?_
  split
  · split
    · next hcloses => exact chains_saveJob hget (.closed hcloses)
    · exact throwIf _
  · next hterminal =>
      split
      · exact chains_awaitResult hget r
      · next hawaiting =>
          exact FenceMoved.chains ((yields_saveEnded hget (.settled (by simpa using hterminal) hr
            (by simpa using hawaiting) hgeneral)).mono fun _ _ h => h.1)

theorem chains_receiveSuccess (hget : db.jobs.get? j.id = some j) {a : ManagedJob}
    (ha : j.assignment = .managed a) (d : ResultDocument) :
    Chains (Move c now b) (receiveSuccess c now j a d) db := by
  unfold receiveSuccess
  split
  · exact throw _
  · next status code hsuccess =>
      refine throwIfBind fun hdocument => ?_
      split
      · exact throwIf _
      · refine getBind (ofExceptBind fun _ hready => ofExceptBind fun _ heffect => ?_)
        split
        · exact throw _
        · next policy hpolicy =>
            refine throwIfBind fun hrevision => ?_
            simp only
            intro u db' h
            rw [exec_bind, show (saveJob (j.succeed status d now)).exec db =
              .ok ((), { db with jobs := db.jobs.save (j.succeed status d now) }) from rfl] at h
            refine .single (.succeeded hget ⟨ha, hsuccess, ?_, hready, heffect, hpolicy, ?_⟩ h)
            · exact ⟨not_not.mp fun hne => hdocument (.inl hne), not_not.mp fun hne => hdocument (.inr hne)⟩
            · exact not_not.mp hrevision

theorem chains_recordResult (hget : db.jobs.get? j.id = some j) (d : ResultDocument) :
    Chains (Move c now b) (recordResult c now j d) db := by
  unfold recordResult
  split
  · exact throwIf _
  · split
    · exact pure _
    · split
      · next hassigned =>
          refine chains_generalResult hget fun a ha => ?_
          rw [hassigned] at ha
          cases ha
      · next a hassigned =>
          refine ofExceptBind fun success hsuccess => ?_
          cases success with
          | true => exact chains_receiveSuccess hget hassigned d
          | false => exact chains_generalResult hget fun _ _ => hsuccess

/-! ## Reconciliations -/

theorem chains_expireReconciliation (record : GpoReconciliation) :
    Chains (Move c now b) (expireReconciliation now record) db := by
  unfold expireReconciliation
  split
  · exact andThen (chains_saveReconciliation _) fun _ _ _ => pure _
  · exact pure _

/-- What a reconciliation exchange leaves: the tables with other records, or those of a release that
an acknowledgement asked for. -/
inductive Reconciled (c : Content) (now : Time) (db : Db) (j : GpoImportJob) (tenant : Tenant) :
    ReconciliationAction → Db → Prop where
  | kept {action : ReconciliationAction}
      (reconciliations : Table GpoReconciliation String GpoReconciliation.id) :
      Reconciled c now db j tenant action { db with reconciliations }
  | released {record : GpoReconciliation} {policy : ManagedGpoPolicy}
      {journal id observation : String} :
      Releasable c now db record j tenant → db.policyForJob j = some policy →
      (db.policies.rows.any (policy.release (observedGuid record)).conflicts) = false →
      Reconciled c now db j tenant (.ack journal id observation) (db.release now record j policy)

variable {action : ReconciliationAction}

theorem Reconciled.moved {db' : Db} (hget : db.jobs.get? j.id = some j)
    (hacked : action.acked = true → b = true) (h : Reconciled c now db j tenant action db') :
    Moved c now b db db' := by
  cases h with
  | kept reconciliations => exact .single (.reconciliations _)
  | released hstands hpolicy hconflicts => exact .single (.released (hacked rfl) hget hstands hpolicy hconflicts)

theorem yields_saveReconciliation (record : GpoReconciliation) :
    Yields (saveReconciliation record) (fun _ m => Reconciled c now db j tenant action m) db :=
  (yields_modify _).mpr (.kept _)

theorem yields_observe (record : GpoReconciliation) (a : ManagedJob) (observationDigest : String)
    (observation : Value) : Yields (observe c now record a observationDigest observation)
      (fun _ m => Reconciled c now db j tenant action m) db := by
  unfold observe
  rw [yields_bind, yields_ofExcept]
  intro _ _
  rw [yields_bind, yields_throwIf]
  intro _
  split
  · exact yields_saveReconciliation _
  · split <;> exact yields_saveReconciliation _

variable {record : GpoReconciliation}

theorem yields_release {journal id : String}
    (hrecord : db.reconciliations.get? record.id = some record) (hjob : record.job = j.id)
    (htenant : db.tenants.get? j.tenant = some tenant) (htime : now < record.expiresAt)
    (hstands : record.status = .acceptRequested →
      decisionValid record j = true) (observation : String) :
    Yields (release c now record j tenant observation)
      (fun _ m => Reconciled c now db j tenant (.ack journal id observation) m) db := by
  unfold release
  rw [yields_bind, yields_get]
  simp only
  rw [yields_bind, yields_throwIf]
  intro hchecks
  simp only [not_or, not_not, Bool.not_eq_true, Option.isSome_eq_false_iff, Option.isNone_iff_eq_none]
    at hchecks
  obtain ⟨hpending, -, -, hauthority, -, hobservation⟩ := hchecks
  split
  · rw [yields_throw]
    trivial
  · next policy hpolicy =>
      intro control db' h
      obtain ⟨_, m, hsave, h⟩ := exec_bind_ok.mp h
      unfold savePolicy at hsave
      rw [exec_bind, exec_get] at hsave
      simp only at hsave
      split at hsave
      · cases hsave
      · next hconflicts =>
          cases hsave
          cases h
          exact .released ⟨hrecord, hjob, htenant, hpending, htime, hauthority, hstands hpending,
            hobservation⟩ hpolicy (Bool.not_eq_true _ ▸ hconflicts)

/-- The record an exchange is about is one of the job. -/
theorem Db.chosenRecord_found {id observation : String} (h : (do
      throwIf (uuidText id = false) invalidReconciliation
      match (db.reconciliations.get? id).filter fun r => r.job == j.id with
      | none => throw invalidReconciliation
      | some record => do
        throwIf (sha observation = false) invalidReconciliation
        pure (some record) : Except ServerError (Option GpoReconciliation)) = .ok (some record)) :
    db.reconciliations.get? record.id = some record ∧ record.job = j.id := by
  obtain ⟨⟨⟩, -, h⟩ := bind_eq_ok.mp h
  split at h
  · cases h
  · next found hfound =>
      obtain ⟨⟨⟩, -, h⟩ := bind_eq_ok.mp h
      cases h
      obtain ⟨hget, hjob⟩ := Option.filter_eq_some_iff.mp hfound
      refine ⟨?_, eq_of_beq hjob⟩
      rw [Table.get?_key hget]
      exact hget

theorem Db.exchangeRecord_found (h : db.exchangeRecord j action = .ok (some record)) :
    db.reconciliations.get? record.id = some record ∧ record.job = j.id := by
  cases action with
  | poll journal =>
    have hlatest : db.latestReconciliation j.id = some record := by
      simpa only [Db.exchangeRecord, Except.ok.injEq] using h
    have hmem := mem_of_foldl_choice hlatest fun best r => by
      cases best with
      | none => exact .inr rfl
      | some b =>
        simp only
        split
        · exact .inr rfl
        · exact .inl rfl
    obtain ⟨hmem, hjob⟩ := List.mem_filter.mp hmem
    exact ⟨Table.get?_of_mem hmem, eq_of_beq hjob⟩
  | result journal id observation value | ack journal id observation =>
    exact Db.chosenRecord_found h

theorem yields_exchangePending (hrecord : db.reconciliations.get? record.id = some record)
    (hjob : record.job = j.id) (htenant : db.tenants.get? j.tenant = some tenant)
    (htime : now < record.expiresAt) (hstands : record.status = .acceptRequested →
      decisionValid record j = true) (a : ManagedJob) (action : ReconciliationAction) :
    Yields (exchangePending c now record j a tenant action)
      (fun _ m => Reconciled c now db j tenant action m) db := by
  unfold exchangePending
  cases action with
  | poll journal =>
    -- Only a poll binds the journal; the other messages have to name the bound one.
    rw [yields_bind]
    unfold bindJournal
    rw [yields_bind, yields_throwIf]
    intro _
    rw [yields_bind]
    refine (yields_modify _).mpr ((yields_pure _).mpr ?_)
    generalize (if record.journalSha256 = "" then { record with journalSha256 := journal }
      else record) = bound
    simp only
    split
    · exact (yields_pure _).mpr (.kept _)
    · rw [yields_bind, yields_get]
      exact (yields_pure _).mpr (.kept _)
  | result journal id observation value =>
    rw [yields_bind]
    unfold bindJournal
    rw [yields_bind, yields_throwIf]
    intro _
    rw [yields_pure, yields_bind]
    exact (yields_observe _ _ _ _).mono fun _ _ h => (yields_pure _).mpr h
  | ack journal id observation =>
    rw [yields_bind]
    unfold bindJournal
    rw [yields_bind, yields_throwIf]
    intro _
    rw [yields_pure, yields_bind]
    exact (yields_release hrecord hjob htenant htime hstands _).mono
      fun _ _ h => (yields_pure _).mpr h

/-- A reconciliation exchange keeps records, or releases one. -/
theorem yields_reconciliationExchange (htenant : db.tenants.get? j.tenant = some tenant)
    (action : ReconciliationAction) : Yields (reconciliationExchange c now j tenant action)
      (fun _ m => Reconciled c now db j tenant action m) db := by
  have hsame : Reconciled c now db j tenant action db := .kept db.reconciliations
  unfold reconciliationExchange
  split
  · rw [yields_throw]
    trivial
  · next a hassigned =>
      rw [yields_bind, yields_throwIf]
      intro _
      rw [yields_bind, yields_get, yields_bind, yields_ofExcept]
      intro found hfound
      cases found with
      | none => exact (yields_pure _).mpr hsame
      | some record =>
        obtain ⟨hrecord, hjob⟩ := Db.exchangeRecord_found hfound
        simp only
        split
        · unfold replayRelease
          rw [yields_bind, yields_throwIf]
          intro _
          rw [yields_bind, yields_throwIf]
          intro _
          rw [yields_bind, yields_get]
          exact (yields_pure _).mpr hsame
        · -- A record that is still pending afterwards did not expire.
          have hexpire : Yields (expireReconciliation now record) (fun r m =>
              (r.status.pending = true → r = record ∧ m = db ∧ now < record.expiresAt) ∧
                Reconciled c now db j tenant action m) db := by
            unfold expireReconciliation
            split
            · rw [yields_bind]
              refine (yields_modify _).mpr ((yields_pure _).mpr ⟨?_, .kept _⟩)
              intro hpending
              cases hpending
            · next hlive =>
                rw [yields_pure]
                refine ⟨fun hpending => ⟨rfl, rfl, ?_⟩, hsame⟩
                simpa [hpending] using hlive
          rw [yields_bind]
          refine hexpire.mono ?_
          rintro r m ⟨hkept, hm⟩
          split
          · exact (yields_pure _).mpr hm
          · next hpending =>
              obtain ⟨rfl, rfl, htime⟩ := hkept (by simpa using hpending)
              rw [yields_bind, yields_get]
              split
              · rw [yields_bind]
                exact (yields_saveReconciliation _).mono fun _ _ h => (yields_pure _).mpr h
              · next hstands =>
                  refine yields_exchangePending hrecord hjob htenant htime ?_ a action
                  intro haccepting
                  simp only [Db.superseded, haccepting, beq_self_eq_true, Bool.true_and,
                    Bool.or_eq_true, Bool.not_eq_true', not_or] at hstands
                  simpa using hstands.2.1

theorem chains_reconciliationExchange (hget : db.jobs.get? j.id = some j)
    (htenant : db.tenants.get? j.tenant = some tenant) (action : ReconciliationAction)
    (hacked : action.acked = true → b = true) :
    Chains (Move c now b) (reconciliationExchange c now j tenant action) db :=
  (yields_reconciliationExchange htenant action).mono fun _ _ h => h.moved hget hacked

theorem chains_requestJob (hget : db.jobs.get? j.id = some j) {enrollment : AgentEnrollment}
    (htenant : db.tenants.get? j.tenant = some tenant)
    (henrollment : db.enrollments.get? j.enrollment = some enrollment) (request : JobRequest) :
    Chains (Move c now request.acked) (requestJob c now enrollment tenant j request) db := by
  have hclaim : ∀ b, Chains (Move c now b) (do
      let db ← get
      let current := db.scopeCurrent now c j enrollment tenant && decide (now < j.expiresAt)
      throwIf (j.inspecting = true) rejected
      let job ← if current then pure j else invalidate j now
      claimJob now job tenant current : Request Reply) db := by
    intro b
    refine getBind (throwIfBind fun hwrites => ?_)
    by_cases hcurrent : (db.scopeCurrent now c j enrollment tenant && decide (now < j.expiresAt)) = true
    · simp only [if_pos hcurrent]
      refine bind (P := fun k m => k = j ∧ m = db) ((yields_pure _).mpr ⟨.refl, rfl, rfl⟩) ?_
      rintro k m - ⟨rfl, rfl⟩
      refine chains_claimJob hget fun _ => ?_
      simp only [Bool.and_eq_true, decide_eq_true_eq] at hcurrent
      exact ⟨by simpa using hwrites, hcurrent.2, htenant, enrollment, henrollment, hcurrent.1⟩
    · simp only [if_neg hcurrent]
      refine bind (P := fun k m => m.jobs.get? k.id = some k)
        ((yields_invalidate hget _).mono fun k m h => ⟨h.1.1, h.2.2.1⟩) ?_
      intro k m _ hk
      exact chains_claimJob hk fun h => absurd h hcurrent
  have hartifact : ∀ b, Chains (Move c now b) (do
      let db ← get
      let current := db.scopeCurrent now c j enrollment tenant && decide (now < j.expiresAt)
      throwIf (j.inspecting = true) rejected
      let job ← if current then pure j else invalidate j now
      artifact c now job tenant current : Request Reply) db := by
    intro b
    refine getBind (throwIfBind fun _ => ?_)
    by_cases hcurrent : (db.scopeCurrent now c j enrollment tenant && decide (now < j.expiresAt)) = true
    · simp only [if_pos hcurrent]
      exact andThen (pure _) fun k m _ => chains_artifact tenant _
    · simp only [if_neg hcurrent]
      exact andThen (chains_invalidate hget _) fun k m _ => chains_artifact tenant _
  have hreconciliation : ∀ action, Chains (Move c now action.acked) (do
      let control ← reconciliationExchange c now j tenant action
      pure (Reply.reconciliation control) : Request Reply) db := fun action =>
    andThen (chains_reconciliationExchange hget htenant action id) fun _ _ _ => pure _
  cases request with
  | lookup report => exact chains_lookup hget enrollment tenant
  | claim => exact hclaim _
  | artifact => exact hartifact _
  | result d => exact andThen (chains_recordResult hget d) fun _ _ _ => pure _
  | reconciliationPoll report journal | reconciliationResult journal id digest observation
  | reconciliationAck journal id digest => exact hreconciliation _

theorem chains_answer {enrollment : AgentEnrollment}
    (htenant : db.tenants.get? tenant.id = some tenant)
    (henrollment : db.enrollments.get? enrollment.id = some enrollment) (message : Message) :
    Chains (Move c now message.acked) (answer c now enrollment tenant message) db := by
  unfold answer
  cases message with
  | poll report => exact chains_poll enrollment tenant
  | job jobId inputDigest request =>
    refine throwIfBind fun _ => getBind ?_
    split
    · exact getBind (throwIfBind fun _ => pure _)
    · next job hjob =>
        obtain ⟨hget, hfilter⟩ := Option.filter_eq_some_iff.mp hjob
        simp only [Bool.and_eq_true, beq_iff_eq] at hfilter
        refine throwIfBind fun _ => chains_requestJob ?_ ?_ ?_ request
        · rw [Table.get?_key hget]
          exact hget
        · rw [hfilter.1]
          exact htenant
        · rw [hfilter.2]
          exact henrollment

/-- `security_gpo_exchange` is a chain of moves. -/
theorem chains_report {enrollment : AgentEnrollment} {message : Message}
    (hfound : ∀ m : Db, m.tenants = db.tenants → m.enrollments = db.enrollments →
      Chains (Move c now message.acked) (answer c now enrollment tenant message) m)
    (m : Db) (hm : m.tenants = db.tenants) (hm' : m.enrollments = db.enrollments) :
    Chains (Move c now message.acked) (match message.report with
      | none => answer c now enrollment tenant message
      | some report => do
        executorReport c now enrollment.id report
        answer c now enrollment tenant message : Request Reply) m := by
  split
  · exact hfound m hm hm'
  · refine bind (P := fun _ u => u.tenants = m.tenants ∧
      u.enrollments = m.enrollments) (yields_executorReport _ _) ?_
    rintro _ u - ⟨hu, hu'⟩
    exact hfound u (hu.trans hm) (hu'.trans hm')

theorem chains_exchange (enrollmentId : String) (message : Message) :
    Chains (Move c now message.acked) (exchange c now enrollmentId message) db := by
  unfold exchange
  refine getBind ?_
  split
  · exact throw _
  · next enrollment henrollment =>
      split
      · exact throw _
      · next tenant htenant =>
          rw [← Table.get?_key henrollment] at henrollment
          rw [← Table.get?_key htenant] at htenant
          refine throwIfBind fun _ => ?_
          -- Neither the expiry nor the report touches the tenant or the enrollment.
          have hfound : ∀ m : Db, m.tenants = db.tenants → m.enrollments = db.enrollments →
              Chains (Move c now message.acked) (answer c now enrollment tenant message) m := by
            intro m hm hm'
            exact chains_answer (by rw [hm]; exact htenant) (by rw [hm']; exact henrollment) message
          by_cases hresult : message.isResult = true
          · simp only [hresult, if_true]
            exact chains_report hfound db rfl rfl
          · simp only [hresult]
            refine bind (P := fun _ u => db.Fenced u)
              ((yields_expireJobs tenant.id db).mono fun _ _ h => h) ?_
            intro _ u _ hfenced
            exact chains_report hfound u hfenced.tenants hfenced.enrollments

end

end Ipms.Server.Gpo
