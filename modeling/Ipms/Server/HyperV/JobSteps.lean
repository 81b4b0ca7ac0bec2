import Ipms.Lib.Table
import Ipms.Server.HyperV.System

/-
  Ipms.Server.HyperV.JobSteps

  What the requests do to the table of management jobs.  Every job takes one of a
  few steps, whatever the request is: it is handed out, started, withdrawn, or it
  receives a result.  The requests about console sessions leave the jobs alone.
-/

namespace Ipms.Server.HyperV

open Ipms.Lib Ipms.ManagementJson State

/-! ## The steps of a job -/

/-- The steps an event lets a job take. -/
inductive JobStep (event : Event) : ManagementJob → ManagementJob → Prop where
  | stay (j : ManagementJob) : JobStep event j j
  | deliver (s : State) {j : ManagementJob} (h : j.status = .queued) : JobStep event j (s.deliver j)
  | start (s : State) {j : ManagementJob} (h : j.status = .delivered)
      (unrevoked : j.authorityRevokedAt = none) : JobStep event j (s.start j)
  | withdraw (code : String) (now : Time) {j : ManagementJob} (h : j.status.active = true) :
      JobStep event j (j.withdraw code now)
  | report (s : State) {agent : Enrollment} {r : State.Result} {findings : Findings}
      {j : ManagementJob} (named : event = .reportJob agent j.id r findings)
      (h : j.status.observable = true)
      (held : ¬(j.status = .requiresReconciliation ∧ r.status = .running)) :
      JobStep event j (s.report j r)

/-- A job as it is created. -/
structure Fresh (event : Event) (j : ManagementJob) : Prop where
  queued : j.status = .queued
  unrevoked : j.authorityRevokedAt = none
  untouched : j.deliveredAt = none ∧ j.startedAt = none ∧ j.completedAt = none ∧
    j.executionLeaseExpiresAt = none
  created : ∃ id request findings, event = .createJob id request findings

/-- The jobs took steps, and new ones were created. -/
def JobsEvolve (event : Event) (s t : State) : Prop :=
  s.jobs.Evolves (JobStep event) (Fresh event) t.jobs

theorem JobsEvolve.of_eq {event : Event} {s t : State} (h : t.jobs = s.jobs) :
    JobsEvolve event s t := by
  unfold JobsEvolve
  rw [h]
  exact .refl s.jobs

/-! ## The requests about console sessions -/

namespace State

variable {s t : State} {event : Event}

variable {id : String}

theorem jobs_createConsoleSession {generation : String} {r : SessionRequest}
    {session : Except ConsoleSession ConsoleSession}
    (h : s.createConsoleSession id generation r = .ok (t, session)) : t.jobs = s.jobs := by
  unfold createConsoleSession at h
  obtain ⟨⟨vm, e⟩, -, h⟩ := bind_eq_ok.mp h
  simp only at h
  split at h
  · cases h
    rfl
  · obtain ⟨sessions, -, h⟩ := bind_eq_ok.mp h
    cases h
    rfl

variable {x : ConsoleSession} {actor : String}

theorem jobs_renewConsoleSession {owner : Option Nat}
    (h : s.renewConsoleSession id actor owner = .ok (t, x)) : t.jobs = s.jobs := by
  unfold renewConsoleSession at h
  obtain ⟨y, -, h⟩ := bind_eq_ok.mp h
  split at h
  · obtain ⟨-, -, h⟩ := bind_eq_ok.mp h
    cases h
    rfl
  · cases h
    rfl

theorem jobs_closeConsoleSession {owner : Option Nat}
    (h : s.closeConsoleSession id actor owner = .ok (t, x)) : t.jobs = s.jobs := by
  unfold closeConsoleSession at h
  obtain ⟨y, -, h⟩ := bind_eq_ok.mp h
  split at h
  · obtain ⟨-, -, h⟩ := bind_eq_ok.mp h
    cases h
    rfl
  · cases h
    rfl

theorem tables_queueConsoleInput {session eventType : String} {payload : Value} {event : InputEvent}
    (h : s.queueConsoleInput id session actor eventType payload = .ok (t, event)) :
    t.jobs = s.jobs ∧ t.sessions = s.sessions ∧ t.now = s.now := by
  unfold queueConsoleInput at h
  simp only [bind_eq_ok] at h
  obtain ⟨x, -, -, -, -, -, -, -, validated, -, h⟩ := h
  split at h
  · cases h
    exact ⟨rfl, rfl, rfl⟩
  · simp only [bind_eq_ok] at h
    obtain ⟨-, -, inputs, -, h⟩ := h
    cases h
    exact ⟨rfl, rfl, rfl⟩

theorem jobs_consoleAuthorityAllowed (x : ConsoleSession) :
    (s.consoleAuthorityAllowed x).1.jobs = s.jobs := by
  unfold consoleAuthorityAllowed
  split <;> rfl

theorem jobs_consoleAssignment (x : ConsoleSession) (includeInputs : Bool) :
    (s.consoleAssignment x includeInputs).1.jobs = s.jobs := by
  have hauthority := jobs_consoleAuthorityAllowed (s := s) x
  unfold consoleAssignment
  split
  · next t hfalse =>
      rw [hfalse] at hauthority
      exact hauthority
  · split <;> rfl

variable {e : Enrollment} {c : FrameCycle}

theorem jobs_reportSession (h : s.reportSession e c = .ok t) : t.jobs = s.jobs := by
  unfold reportSession at h
  simp only [bind_eq_ok] at h
  obtain ⟨x, -, -, -, ids, -, h⟩ := h
  have hauthority := jobs_consoleAuthorityAllowed (s := s.acknowledge x.id ids) x
  split at h
  · split at h
    · next u hu =>
        rw [hu] at hauthority
        cases h
        exact hauthority
    · next u hu =>
        rw [hu] at hauthority
        obtain ⟨y, -, h⟩ := bind_eq_ok.mp h
        cases h
        exact hauthority
  · cases h
    rfl

variable {assignment : Option Assignment}

theorem served_cases {u : State} (h : (match u.nextSession e with
      | none => (pure (u, none) : Except ServerError (State × Option Assignment))
      | some x => pure (u.consoleAssignment x c.includeInputs)) = .ok (t, assignment)) :
    t = u ∧ assignment = none ∨ ∃ x, u.nextSession e = some x ∧
      u.consoleAssignment x c.includeInputs = (t, assignment) := by
  split at h
  · cases h
    exact .inl ⟨rfl, rfl⟩
  · next x hx => exact .inr ⟨x, hx, pure_eq_ok.mp h⟩

theorem processConsoleCycle_cases (h : s.processConsoleCycle e c = .ok (t, assignment)) :
    ∃ u, (c.sessionId = "" ∧ u = s.expireStaleSessions (fun _ => true) ∨
        c.sessionId ≠ "" ∧ (s.expireStaleSessions fun _ => true).reportSession e c = .ok u) ∧
      (t = u ∧ assignment = none ∨ ∃ x, u.nextSession e = some x ∧
        u.consoleAssignment x c.includeInputs = (t, assignment)) := by
  unfold processConsoleCycle at h
  obtain ⟨tenant, -, h⟩ := bind_eq_ok.mp h
  obtain ⟨-, -, h⟩ := bind_eq_ok.mp h
  by_cases hid : c.sessionId = ""
  · simp only [hid, if_true] at h
    exact ⟨_, .inl ⟨hid, rfl⟩, served_cases h⟩
  · simp only [hid, if_false] at h
    obtain ⟨u, hu, h⟩ := bind_eq_ok.mp h
    exact ⟨u, .inr ⟨hid, hu⟩, served_cases h⟩

theorem jobs_processConsoleCycle (h : s.processConsoleCycle e c = .ok (t, assignment)) :
    t.jobs = s.jobs := by
  obtain ⟨u, hu, h⟩ := processConsoleCycle_cases h
  have hjobs : u.jobs = s.jobs := by
    rcases hu with ⟨-, rfl⟩ | ⟨-, hu⟩
    · rfl
    · have hreport := jobs_reportSession hu
      exact hreport
  rcases h with ⟨rfl, -⟩ | ⟨x, -, h⟩
  · exact hjobs
  · have hassign := jobs_consoleAssignment (s := u) x c.includeInputs
    rw [h] at hassign
    exact hassign.trans hjobs

theorem jobs_settleInput {c : InputCycle} (h : s.settleInput e c = .ok t) : t.jobs = s.jobs := by
  unfold settleInput at h
  simp only [bind_eq_ok] at h
  obtain ⟨x, -, -, -, h⟩ := h
  split at h <;> cases h <;> rfl

theorem jobs_processConsoleInputCycle {c : InputCycle} {active : Bool}
    (h : s.processConsoleInputCycle e c = .ok (t, active, assignment)) : t.jobs = s.jobs := by
  unfold processConsoleInputCycle at h
  simp only [bind_eq_ok] at h
  obtain ⟨tenant, -, -, -, h⟩ := h
  have hexpired : (if c.expireStale then
      s.expireStaleSessions fun x => x.enrollment == e.id && x.tenant == e.tenant else s).jobs =
        s.jobs := by
    split <;> rfl
  split at h
  · obtain ⟨u, hu, h⟩ := bind_eq_ok.mp h
    cases h
    exact (jobs_settleInput hu).trans hexpired
  · split at h
    · cases h
      exact hexpired
    · next x _ =>
        cases h
        exact (jobs_consoleAssignment x true).trans hexpired

theorem jobs_authorizeBrowser {newClaim : String} {r : BrowserRequest} {later : Time}
    (h : s.authorizeBrowser id r newClaim later = .ok (t, x)) : t.jobs = s.jobs := by
  unfold authorizeBrowser at h
  simp only [bind_eq_ok] at h
  obtain ⟨-, -, user, -, y, -, -, -, h⟩ := h
  split at h
  · cases h
    rfl
  · obtain ⟨z, -, h⟩ := bind_eq_ok.mp h
    cases h
    rfl

theorem jobs_recordNativeContact (id generation : String) :
    (s.recordNativeContact id generation).jobs = s.jobs := by
  unfold recordNativeContact
  split <;> rfl

theorem jobs_markNativeReady {claim : String} (h : s.markNativeReady id claim = .ok t) :
    t.jobs = s.jobs := by
  unfold markNativeReady at h
  obtain ⟨x, -, h⟩ := bind_eq_ok.mp h
  cases h
  rfl

theorem jobs_closeNative {claim failure : String} (h : s.closeNative id claim failure = .ok t) :
    t.jobs = s.jobs := by
  unfold closeNative at h
  obtain ⟨x, -, h⟩ := bind_eq_ok.mp h
  split at h <;> cases h <;> rfl

/-! ## The requests about jobs -/

variable {findings : Findings} {job : ManagementJob}

/-- An accepted creation: the request was made before, or a fresh job is inserted whose machine
has no job or console in its way. -/
theorem createManagementJob_cases {r : JobRequest}
    (h : s.createManagementJob id r findings = .ok (t, job)) :
    t = s ∧ (s.jobs.rows.find? (·.requestId == r.requestId)).isSome = true ∨
      s.jobs.rows.find? (·.requestId == r.requestId) = none ∧
      ∃ vm host e jobs, s.lockedVm r.tenant r.virtualMachine = .ok (vm, host, e) ∧
        s.checkConflicts vm host e r.operation = .ok () ∧
        s.jobs.insert (s.newJob id r vm e) = some jobs ∧ job = s.newJob id r vm e ∧
        t = { s with jobs } := by
  unfold createManagementJob at h
  simp only [bind_eq_ok] at h
  obtain ⟨-, -, tenant, htenant, -, -, h⟩ := h
  have hid : tenant.id = r.tenant := by
    unfold openTenant at htenant
    simp only [bind_eq_ok, found_eq_ok] at htenant
    obtain ⟨row, hrow, -, -, htenant⟩ := htenant
    cases htenant
    exact Table.get?_key hrow
  rw [hid] at h
  split at h
  · next prior hprior =>
      obtain ⟨job', hreplay, h⟩ := bind_eq_ok.mp h
      unfold replayRequest at hreplay
      obtain ⟨-, -, hreplay⟩ := bind_eq_ok.mp hreplay
      cases h
      cases hreplay
      exact .inl ⟨rfl, by rw [hprior]; rfl⟩
  · next hnone =>
    simp only [bind_eq_ok] at h
    obtain ⟨⟨vm, host, e⟩, hvm, -, -, ⟨⟩, hconflicts, -, -, u, hu, h⟩ := h
    cases h
    unfold insertJob at hu
    simp only [bind_eq_ok, found_eq_ok] at hu
    obtain ⟨-, -, jobs, hjobs, hu⟩ := hu
    cases hu
    exact .inr ⟨hnone, vm, host, e, jobs, hvm, hconflicts, hjobs, rfl, rfl⟩

theorem jobs_createManagementJob {r : JobRequest}
    (h : s.createManagementJob id r findings = .ok (t, job)) :
    JobsEvolve (.createJob id r findings) s t := by
  obtain ⟨rfl, -⟩ | ⟨-, vm, host, e, jobs, -, -, hinsert, -, rfl⟩ := createManagementJob_cases h
  · exact .of_eq rfl
  · exact .insert hinsert ⟨rfl, rfl, ⟨rfl, rfl, rfl, rfl⟩, _, _, _, rfl⟩

theorem jobs_withdrawManagementJobs (tenant : String) (actor : Option Nat) (reason : String) :
    JobsEvolve event s (s.withdrawManagementJobs tenant actor reason) := by
  refine Table.Evolves.mapRows (withdrawSelected_id tenant actor reason s.now) fun j => ?_
  unfold withdrawSelected
  split
  · next hselected =>
      refine .withdraw reason s.now ?_
      simp only [withdrawn, Bool.and_eq_true] at hselected
      exact hselected.1.1.2
  · exact .stay j

theorem firstJob_mem {jobs : List ManagementJob} (h : firstJob jobs = some job) : job ∈ jobs := by
  refine mem_of_foldl_choice h fun best j => ?_
  cases best with
  | none => exact .inr rfl
  | some b =>
    simp only
    split
    · exact .inr rfl
    · exact .inl rfl

theorem executionChecks_unrevoked (h : s.executionChecks job findings = .ok ()) :
    job.authorityRevokedAt = none := by
  unfold executionChecks at h
  simp only [bind_eq_ok, throwIf_eq_ok] at h
  obtain ⟨-, hrevoked, -⟩ := h
  rw [Option.isSome_iff_ne_none, not_not] at hrevoked
  exact hrevoked

theorem JobsEvolve.saveJob {j k : ManagementJob} (hj : s.jobs.get? k.id = some j)
    (h : JobStep event j k) : JobsEvolve event s (s.saveJob k) :=
  Table.Evolves.save hj h

theorem deliver_id (job : ManagementJob) : (s.deliver job).id = job.id := by
  unfold deliver
  split <;> rfl

/-- An accepted offer changes the jobs by a step of one of them. -/
theorem jobs_offerManagementJob {document : Option JobDocument}
    (h : s.offerManagementJob e findings = .ok (t, document)) : JobsEvolve event s t := by
  unfold offerManagementJob at h
  obtain ⟨tenant, -, h⟩ := bind_eq_ok.mp h
  split at h
  · cases h
    exact .of_eq rfl
  · split at h
    · cases h
      exact .of_eq rfl
    · next job hfirst =>
        have hmem := List.mem_filter.mp (firstJob_mem hfirst)
        have hget : s.jobs.get? job.id = some job := Table.get?_of_mem hmem.1
        have hactive : job.status.active = true := by
          have hselected := hmem.2
          simp only [Bool.and_eq_true] at hselected
          exact hselected.1.2
        split at h
        · cases h
          exact .of_eq rfl
        · split at h
          · cases h
            refine JobsEvolve.saveJob (j := job) (by rw [deliver_id]; exact hget) ?_
            by_cases hqueued : job.status = .queued
            · exact .deliver s hqueued
            · have hsame : s.deliver job = job := if_neg hqueued
              rw [hsame]
              exact .stay job
          · obtain ⟨code, -, h⟩ := bind_eq_ok.mp h
            cases h
            exact JobsEvolve.saveJob (by rw [withdraw_id]; exact hget)
              (.withdraw code s.now hactive)

variable {jobId : String}

theorem namedJob_get? (h : s.namedJob e jobId = .ok job) : s.jobs.get? jobId = some job := by
  unfold namedJob at h
  simp only [bind_eq_ok, found_eq_ok, Option.filter_eq_some_iff] at h
  obtain ⟨tenant, -, e', -, hget, -⟩ := h
  exact hget

/-- An accepted claim: the job is only observed, it is started with an authorization, or it loses
its authority. -/
theorem claimManagementJob_cases {inputDigest : String} {reply : ClaimReply}
    (h : s.claimManagementJob e jobId inputDigest findings = .ok (t, reply)) :
    ∃ job, s.jobs.get? jobId = some job ∧
      (t = s ∧ reply.authorized = false ∨
        job.status = .delivered ∧ job.authorityRevokedAt = none ∧ reply.authorized = true ∧
          reply.job.jobId = jobId ∧ t = s.saveJob (s.start job) ∨
        ∃ code, job.status = .delivered ∧ reply.authorized = false ∧
          t = s.saveJob (job.withdraw code s.now)) := by
  unfold claimManagementJob at h
  obtain ⟨job, hjob, h⟩ := bind_eq_ok.mp h
  obtain ⟨-, -, h⟩ := bind_eq_ok.mp h
  have hget := namedJob_get? hjob
  refine ⟨job, hget, ?_⟩
  split at h
  · cases h
    exact .inl ⟨rfl, rfl⟩
  · split at h
    · next hdelivered =>
        split at h
        · next hchecks =>
            have hid : job.id = jobId := Table.get?_key hget
            cases h
            exact .inr (.inl ⟨hdelivered, executionChecks_unrevoked hchecks, rfl, hid, rfl⟩)
        · obtain ⟨code, -, h⟩ := bind_eq_ok.mp h
          cases h
          exact .inr (.inr ⟨code, hdelivered, rfl, rfl⟩)
    · cases h

theorem jobs_claimManagementJob {inputDigest : String} {reply : ClaimReply}
    (h : s.claimManagementJob e jobId inputDigest findings = .ok (t, reply)) :
    JobsEvolve event s t := by
  obtain ⟨job, hget, ⟨rfl, -⟩ | ⟨hdelivered, hunrevoked, -, -, rfl⟩ | ⟨code, hdelivered, -, rfl⟩⟩ :=
    claimManagementJob_cases h
  · exact .of_eq rfl
  · refine JobsEvolve.saveJob (j := job) ?_ (.start s hdelivered hunrevoked)
    exact (congrArg s.jobs.get? (Table.get?_key hget)).trans hget
  · refine JobsEvolve.saveJob (j := job) ?_ (.withdraw code s.now (by rw [hdelivered]; rfl))
    rw [withdraw_id]
    exact (congrArg s.jobs.get? (Table.get?_key hget)).trans hget

theorem jobs_observeMachine (job : ManagementJob) (r : Result) (tenant : Tenant) (e : Enrollment) :
    (s.observeMachine job r tenant e).jobs = s.jobs ∧
      (s.observeMachine job r tenant e).sessions = s.sessions ∧
      (s.observeMachine job r tenant e).now = s.now ∧
      (s.observeMachine job r tenant e).inputs = s.inputs := by
  unfold observeMachine
  split
  · split
    · split <;> exact ⟨rfl, rfl, rfl, rfl⟩
    · exact ⟨rfl, rfl, rfl, rfl⟩
  · exact ⟨rfl, rfl, rfl, rfl⟩

/-- An accepted result: it is the one on record and changes nothing, or it is recorded on a job
that was started. -/
theorem recordManagementResult_cases {r : Result}
    (h : s.recordManagementResult e jobId r findings = .ok (t, job)) :
    ∃ old, s.jobs.get? jobId = some old ∧
      (t = s ∧ old.resultDigest = r.digest ∨
        old.status.observable = true ∧ old.resultDigest ≠ r.digest ∧
          ¬(old.status = .requiresReconciliation ∧ r.status = .running) ∧
          t.jobs = s.jobs.save (s.report old r) ∧ t.sessions = s.sessions ∧ t.now = s.now ∧
          t.inputs = s.inputs) := by
  unfold recordManagementResult at h
  simp only [bind_eq_ok] at h
  obtain ⟨tenant, -, e', -, -, -, -, -, -, -, old, hold, h⟩ := h
  refine ⟨old, namedJob_get? hold, ?_⟩
  split at h
  · simp only [bind_eq_ok, throwIf_eq_ok, not_not] at h
    obtain ⟨-, hdigest, h⟩ := h
    cases h
    exact .inl ⟨rfl, hdigest⟩
  · obtain ⟨⟨⟩, hobservable, h⟩ := bind_eq_ok.mp h
    rw [throwIf_eq_ok, Bool.not_eq_false] at hobservable
    split at h
    · next hdigest =>
        cases h
        exact .inl ⟨rfl, hdigest⟩
    · next hdigest =>
        simp only [bind_eq_ok, throwIf_eq_ok] at h
        obtain ⟨⟨⟩, hheld, -, -, -, -, h⟩ := h
        cases h
        obtain ⟨hjobs, hsessions, hnow, hinputs⟩ :=
          jobs_observeMachine (s := s.saveJob (s.report old r)) (s.report old r) r tenant e'
        exact .inr ⟨hobservable, hdigest, hheld, hjobs, hsessions, hnow, hinputs⟩

theorem jobs_recordManagementResult {r : Result}
    (h : s.recordManagementResult e jobId r findings = .ok (t, job)) :
    JobsEvolve (.reportJob e jobId r findings) s t := by
  obtain ⟨old, hget, ⟨rfl, -⟩ | ⟨hobservable, -, hheld, hjobs, -⟩⟩ :=
    recordManagementResult_cases h
  · exact .of_eq rfl
  · unfold JobsEvolve
    rw [hjobs]
    have hid : old.id = jobId := Table.get?_key hget
    subst hid
    exact Table.Evolves.save hget (.report s rfl hobservable hheld)

end State

theorem Step.jobs {s t : State} {l : Event × Reply} (h : Step s l t) : JobsEvolve l.1 s t := by
  cases h.did with
  | change => exact .of_eq rfl
  | createJob hu => exact jobs_createManagementJob hu
  | withdrawJobs => exact jobs_withdrawManagementJobs _ _ _
  | offerJob hu => exact jobs_offerManagementJob hu
  | claimJob hu => exact jobs_claimManagementJob hu
  | reportJob hu => exact jobs_recordManagementResult hu
  | createSession hu | occupied hu => exact .of_eq (jobs_createConsoleSession hu)
  | renewSession hu => exact .of_eq (jobs_renewConsoleSession hu)
  | closeSession hu => exact .of_eq (jobs_closeConsoleSession hu)
  | queueInput hu => exact .of_eq (tables_queueConsoleInput hu).1
  | frameCycle hu => exact .of_eq (jobs_processConsoleCycle hu)
  | inputCycle hu => exact .of_eq (jobs_processConsoleInputCycle hu)
  | authorizeBrowser _ hu =>
    have hjobs := jobs_authorizeBrowser hu
    exact .of_eq hjobs
  | nativeContact => exact .of_eq (jobs_recordNativeContact _ _)
  | nativeReady hu => exact .of_eq (jobs_markNativeReady hu)
  | nativeClose hu => exact .of_eq (jobs_closeNative hu)

end Ipms.Server.HyperV
