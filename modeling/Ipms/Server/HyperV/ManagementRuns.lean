import Ipms.Server.HyperV.JobSteps

/-
  Ipms.Server.HyperV.ManagementRuns

  The life of a management job over whole runs: at most one claim authorizes it,
  withdrawn authority is never given again, its end is final, it does not return
  from reconciliation to running, and a result that is reported again changes
  nothing.
-/

namespace Ipms.Server.HyperV

open Ipms.Lib Ipms.ManagementJson

/-! ## What the steps of a job keep -/

/-- A later row of a job. -/
structure JobLater (j k : ManagementJob) : Prop where
  revoked : j.authorityRevokedAt.isSome = true → k.authorityRevokedAt.isSome = true
  taken : j.status ≠ .queued ∧ j.status ≠ .delivered → k.status ≠ .queued ∧ k.status ≠ .delivered
  final : j.status.terminal = true → k = j
  held : j.status = .requiresReconciliation → k.status ≠ .running ∧
    (k.status = .requiresReconciliation ∨ k.status.terminal = true)

theorem JobLater.refl (j : ManagementJob) : JobLater j j where
  revoked h := h
  taken h := h
  final _ := rfl
  held h := ⟨by rw [h]; decide, .inl h⟩

variable {j k : ManagementJob}

theorem JobLater.trans {i : ManagementJob} (h : JobLater i j) (h' : JobLater j k) :
    JobLater i k where
  revoked hi := h'.revoked (h.revoked hi)
  taken hi := h'.taken (h.taken hi)
  final hi := by
    have hj : j = i := h.final hi
    subst hj
    exact h'.final hi
  held hi := by
    obtain ⟨hrunning, hheld | hterminal⟩ := h.held hi
    · exact h'.held hheld
    · have hk : k = j := h'.final hterminal
      subst hk
      exact ⟨hrunning, .inr hterminal⟩

theorem reported_status (r : State.ReportedStatus) :
    r.jobStatus ≠ .queued ∧ r.jobStatus ≠ .delivered ∧
      (r ≠ .running → r.jobStatus ≠ .running ∧
        (r.jobStatus = .requiresReconciliation ∨ r.jobStatus.terminal = true)) := by
  cases r <;> decide

theorem withdraw_later (code : String) (now : Time) (h : j.status.active = true) :
    JobLater j (j.withdraw code now) where
  revoked _ := by
    unfold ManagementJob.withdraw
    split <;> rfl
  taken hj := by
    have hkept : (j.withdraw code now).status = j.status := by
      unfold ManagementJob.withdraw
      rw [if_neg (not_or.mpr hj)]
    rw [hkept]
    exact hj
  final hterminal := by
    rw [JobStatus.terminal_eq, h] at hterminal
    cases hterminal
  held hheld := by
    have hkept : (j.withdraw code now).status = j.status := by
      unfold ManagementJob.withdraw
      rw [if_neg (by rw [hheld]; decide)]
    rw [hkept, hheld]
    exact ⟨by decide, .inl rfl⟩

variable {event : Event}

/-- Every step of a job leads to a later row of it. -/
theorem JobStep.later (h : JobStep event j k) : JobLater j k := by
  cases h with
  | stay => exact .refl j
  | deliver s hqueued =>
    have hrow : s.deliver j = { j with status := .delivered, deliveredAt := some s.now } :=
      if_pos hqueued
    rw [hrow]
    constructor
    · exact id
    · exact fun hj => absurd hqueued hj.1
    · exact fun hj => by rw [hqueued] at hj; cases hj
    · exact fun hj => by rw [hqueued] at hj; cases hj
  | start s hdelivered _ =>
    constructor
    · exact id
    · exact fun hj => absurd hdelivered hj.2
    · exact fun hj => by rw [hdelivered] at hj; cases hj
    · exact fun hj => by rw [hdelivered] at hj; cases hj
  | withdraw code now hactive => exact withdraw_later code now hactive
  | report s named hobservable hheld =>
    next agent r findings =>
    obtain ⟨hqueued, hdelivered, hended⟩ := reported_status r.status
    constructor
    · exact id
    · exact fun _ => ⟨hqueued, hdelivered⟩
    · intro hj
      exfalso
      revert hobservable hj
      cases j.status <;> decide
    · exact fun hj => hended fun hrunning => hheld ⟨hj, hrunning⟩

theorem JobLater.of_steps (h : Relation.ReflTransGen (JobStep event) j k) : JobLater j k := by
  induction h with
  | refl => exact .refl j
  | tail _ hstep ih => exact ih.trans hstep.later

variable {ls : List (Event × Reply)} {id : String} {s t : State}

theorem Run.jobLater (h : Run Step s ls t) (hj : s.jobs.get? id = some j) :
    ∃ k, t.jobs.get? id = some k ∧ JobLater j k := by
  induction h generalizing j with
  | nil => exact ⟨j, hj, .refl j⟩
  | cons hstep _ ih =>
    obtain ⟨k, hk, hsteps⟩ := hstep.jobs.kept id j hj
    obtain ⟨k', hk', hlater⟩ := ih hk
    exact ⟨k', hk', (JobLater.of_steps hsteps).trans hlater⟩

/-! ## Claims -/

/-- The claim of a job was answered with its authorization. -/
def Authorizes (id : String) (l : Event × Reply) : Bool :=
  match l with
  | (.claimJob .., .claim reply) => reply.authorized && reply.job.jobId == id
  | _ => false

variable {l : Event × Reply}

theorem Authorizes.claim (h : Authorizes id l = true) :
    ∃ agent digest jobId findings reply, l = (.claimJob agent jobId digest findings, .claim reply) ∧
      reply.authorized = true ∧ reply.job.jobId = id := by
  unfold Authorizes at h
  split at h
  · rw [Bool.and_eq_true, beq_iff_eq] at h
    exact ⟨_, _, _, _, _, rfl, h⟩
  · cases h

theorem Step.authorizes (h : Step s l t) (hl : Authorizes id l = true) :
    ∃ j, s.jobs.get? id = some j ∧ j.status = .delivered ∧ j.authorityRevokedAt = none ∧
      t.jobs.get? id = some (s.start j) := by
  obtain ⟨agent, digest, jobId, findings, reply, rfl, hauthorized, hid⟩ := Authorizes.claim hl
  obtain ⟨⟨u, reply'⟩, hclaim, h⟩ := bind_eq_ok.mp h.1
  cases h
  obtain ⟨j, hj, ⟨-, hnot⟩ | ⟨hdelivered, hunrevoked, -, hjob, rfl⟩ | ⟨-, -, hnot, -⟩⟩ :=
    State.claimManagementJob_cases hclaim
  · rw [hnot] at hauthorized
    cases hauthorized
  · have hkey : j.id = jobId := Table.get?_key hj
    rw [hid] at hjob
    subst hjob
    refine ⟨j, hj, hdelivered, hunrevoked, ?_⟩
    rw [← hkey] at hj ⊢
    exact Table.get?_save_self (a := s.start j) hj
  · rw [hnot] at hauthorized
    cases hauthorized

theorem Step.not_authorizes_taken (h : Step s l t) (hj : s.jobs.get? id = some j)
    (htaken : j.status ≠ .queued ∧ j.status ≠ .delivered) : Authorizes id l = false := by
  by_contra hl
  obtain ⟨k, hk, hdelivered, -, -⟩ := h.authorizes (Bool.eq_true_of_not_eq_false hl)
  rw [hj] at hk
  cases hk
  exact htaken.2 hdelivered

theorem Step.not_authorizes_revoked (h : Step s l t) (hj : s.jobs.get? id = some j)
    (hrevoked : j.authorityRevokedAt.isSome = true) : Authorizes id l = false := by
  by_contra hl
  obtain ⟨k, hk, -, hunrevoked, -⟩ := h.authorizes (Bool.eq_true_of_not_eq_false hl)
  rw [hj] at hk
  cases hk
  rw [hunrevoked] at hrevoked
  cases hrevoked

theorem Run.authorizes_le_one (h : Run Step s ls t) (id : String) :
    ls.countP (Authorizes id) ≤ 1 := by
  refine h.countP_le_one (I := fun _ => True)
    (m := fun u => ∃ j, u.jobs.get? id = some j ∧ j.status ≠ .queued ∧ j.status ≠ .delivered)
    (fun _ _ _ _ h => h) ?_ ?_ ?_ trivial
  · rintro u l v hstep - ⟨j, hj, htaken⟩
    obtain ⟨k, hk, hsteps⟩ := hstep.jobs.kept id j hj
    exact ⟨k, hk, (JobLater.of_steps hsteps).taken htaken⟩
  · intro u l v hstep _ hl
    obtain ⟨j, -, -, -, hstarted⟩ := hstep.authorizes hl
    exact ⟨_, hstarted, nofun, nofun⟩
  · rintro u l v hstep - ⟨j, hj, htaken⟩
    exact hstep.not_authorizes_taken hj htaken

theorem Run.not_authorizes (h : Run Step s ls t) (hj : s.jobs.get? id = some j)
    (hrevoked : j.authorityRevokedAt.isSome = true) : ∀ l ∈ ls, Authorizes id l = false := by
  induction h generalizing j with
  | nil => intro l hl; cases hl
  | cons hstep _ ih =>
    intro l hl
    rcases List.mem_cons.mp hl with rfl | hl
    · exact hstep.not_authorizes_revoked hj hrevoked
    · obtain ⟨k, hk, hsteps⟩ := hstep.jobs.kept id j hj
      exact ih hk ((JobLater.of_steps hsteps).revoked hrevoked) l hl

/-! ## Results that are reported again -/

/-- The reports of a job in a run carry one result. -/
def OnlyReports (id : String) (r : State.Result) (ls : List (Event × Reply)) : Prop :=
  ∀ l ∈ ls, ∀ agent r' findings, l.1 = .reportJob agent id r' findings → r' = r

theorem JobStep.resultDigest (h : JobStep event j k) :
    k.id = j.id ∧ (k.resultDigest = j.resultDigest ∨
      ∃ agent r findings, event = .reportJob agent j.id r findings ∧ k.resultDigest = r.digest) := by
  cases h with
  | stay | start s => exact ⟨rfl, .inl rfl⟩
  | deliver s hqueued =>
    unfold State.deliver
    rw [if_pos hqueued]
    exact ⟨rfl, .inl rfl⟩
  | withdraw code now =>
    unfold ManagementJob.withdraw
    split <;> exact ⟨rfl, .inl rfl⟩
  | report s named => exact ⟨rfl, .inr ⟨_, _, _, named, rfl⟩⟩

variable {r : State.Result}

theorem Run.resultDigest (h : Run Step s ls t) (hj : s.jobs.get? id = some j)
    (hdigest : j.resultDigest = r.digest) (honly : OnlyReports id r ls) :
    ∃ k, t.jobs.get? id = some k ∧ k.resultDigest = r.digest := by
  induction h generalizing j with
  | nil => exact ⟨j, hj, hdigest⟩
  | @cons s u t l ls hstep _ ih =>
    obtain ⟨k, hk, hsteps⟩ := hstep.jobs.kept id j hj
    have hkept : k.id = j.id ∧ k.resultDigest = r.digest := by
      clear hk
      induction hsteps with
      | refl => exact ⟨rfl, hdigest⟩
      | tail _ hlast ihsteps =>
        obtain ⟨hid, hprior⟩ := ihsteps
        obtain ⟨hid', hsame | ⟨agent, r', findings, hevent, hnew⟩⟩ := hlast.resultDigest
        · exact ⟨hid'.trans hid, hsame.trans hprior⟩
        · rw [hid, Table.get?_key hj] at hevent
          rw [honly l List.mem_cons_self agent r' findings hevent] at hnew
          exact ⟨hid'.trans hid, hnew⟩
    exact ih hk hkept.2 fun l hl => honly l (List.mem_cons_of_mem _ hl)

theorem Step.reported {agent : Enrollment} {findings : Findings} {reply : Reply}
    (h : Step s (.reportJob agent id r findings, reply) t) :
    ∃ j, t.jobs.get? id = some j ∧ j.resultDigest = r.digest := by
  obtain ⟨⟨u, job⟩, hreport, h⟩ := bind_eq_ok.mp h.1
  cases h
  obtain ⟨old, hold, ⟨rfl, hdigest⟩ | ⟨-, -, -, hjobs, -⟩⟩ :=
    State.recordManagementResult_cases hreport
  · exact ⟨old, hold, hdigest⟩
  · have hid : old.id = id := Table.get?_key hold
    subst hid
    refine ⟨s.report old r, ?_, rfl⟩
    rw [hjobs]
    exact Table.get?_save_self (a := s.report old r) hold

theorem Step.replayed {agent : Enrollment} {findings : Findings} {reply : Reply}
    (hj : s.jobs.get? id = some j) (hdigest : j.resultDigest = r.digest)
    (h : Step s (.reportJob agent id r findings, reply) t) : t = s := by
  obtain ⟨⟨u, job⟩, hreport, h⟩ := bind_eq_ok.mp h.1
  cases h
  obtain ⟨old, hold, ⟨rfl, -⟩ | ⟨-, hdiffers, -⟩⟩ := State.recordManagementResult_cases hreport
  · rfl
  · rw [hj] at hold
    cases hold
    exact absurd hdigest hdiffers

/-! ## Whole runs -/

/-- What a run leaves of a job's life. -/
structure JobSettled (s : State) (ls : List (Event × Reply)) (t : State) (id : String) : Prop where
  /-- one claim at most authorizes it -/
  once : ls.countP (Authorizes id) ≤ 1
  /-- once its authority is withdrawn no claim does -/
  withdrawn : ∀ j, s.jobs.get? id = some j → j.authorityRevokedAt.isSome = true →
    ∀ l ∈ ls, Authorizes id l = false
  /-- a terminal row stays as it is -/
  final : ∀ j, s.jobs.get? id = some j → j.status.terminal = true → t.jobs.get? id = some j
  /-- a job in reconciliation does not run again -/
  held : ∀ j, s.jobs.get? id = some j → j.status = .requiresReconciliation →
    ∃ k, t.jobs.get? id = some k ∧ k.status ≠ .running
  /-- a result that was accepted, reported again while no other one was, changes nothing -/
  replayed : ∀ before agent r findings reply,
    Step before (.reportJob agent id r findings, reply) s → OnlyReports id r ls →
      ∀ agent' findings' reply' after,
        Step t (.reportJob agent' id r findings', reply') after → after = t

/-- Every run, from any state, leaves every job settled so. -/
theorem managementJob_settled {s t : State} {ls : List (Event × Reply)} (h : Run Step s ls t)
    (id : String) : JobSettled s ls t id where
  once := Run.authorizes_le_one h id
  withdrawn j hj hrevoked := Run.not_authorizes h hj hrevoked
  final j hj hterminal := by
    obtain ⟨k, hk, hlater⟩ := Run.jobLater h hj
    rw [hk, hlater.final hterminal]
  held j hj hheld := by
    obtain ⟨k, hk, hlater⟩ := Run.jobLater h hj
    exact ⟨k, hk, (hlater.held hheld).1⟩
  replayed before agent r findings reply hreport honly agent' findings' reply' after hreplay := by
    obtain ⟨j, hj, hdigest⟩ := hreport.reported
    obtain ⟨k, hk, hkept⟩ := Run.resultDigest h hj hdigest honly
    exact hreplay.replayed hk hkept

/-- A request to inspect the machine. -/
def sampleInspection : State.JobRequest :=
  ⟨"vm", "tenant", 1, "request", .inspect, "revision", .obj [], none⟩

/-- The job of the request is handed out, claimed, claimed again, and reported as failed. -/
def sampleManagement : List Event :=
  let digest := (sampleState.newJob "job" sampleInspection sampleMachine sampleEnrollment).inputDigest
  [.createJob "job" sampleInspection {}, .offerJob sampleEnrollment {},
   .claimJob sampleEnrollment "job" digest {}, .claimJob sampleEnrollment "job" digest {},
   .reportJob sampleEnrollment "job" ⟨.failed, "done", none, "failed", none⟩ {}]

theorem sampleManagement_run :
    ∃ ls t, Run Step sampleState ls t ∧
      ls.map (Authorizes "job") = [false, false, true, false, false] ∧ t.jobs.rows.length = 1 := by
  have hsample : (sampleState.performAll sampleManagement).any (fun run =>
      run.1.map (Authorizes "job") == [false, false, true, false, false] &&
        run.2.jobs.rows.length == 1) = true := by
    decide +kernel
  obtain ⟨⟨ls, t⟩, hrun, h⟩ := (Option.any_eq_true _ _).mp hsample
  rw [Bool.and_eq_true] at h
  exact ⟨ls, t, State.run_of_performAll hrun, beq_iff_eq.mp h.1, beq_iff_eq.mp h.2⟩

/-- Its first claim is the one that is authorized. -/
theorem managementJob_settled_sample :
    ∃ ls t, ls.map (Authorizes "job") = [false, false, true, false, false] ∧
      JobSettled sampleState ls t "job" := by
  obtain ⟨ls, t, hrun, h, -⟩ := sampleManagement_run
  exact ⟨ls, t, h, managementJob_settled hrun "job"⟩

/-! ## The record of a job -/

/-- The times of a job tell how far it came: it was handed out before it was started, its lease
runs from its start, it was completed exactly if it has ended, and what was cancelled had lost its
authority and was never started. -/
structure Recorded (k : ManagementJob) : Prop where
  started : k.startedAt.isSome = true ↔
    k.status ≠ .queued ∧ k.status ≠ .delivered ∧ k.status ≠ .cancelled
  delivered : k.startedAt.isSome = true ∨ k.status = .delivered → k.deliveredAt.isSome = true
  lease : k.executionLeaseExpiresAt = k.startedAt.map (· + Agent.Gpo.seconds 15)
  completed : k.completedAt.isSome = k.status.terminal
  cancelled : k.status = .cancelled → k.authorityRevokedAt.isSome = true

/-- Every step of a job keeps its record. -/
theorem JobStep.recorded (h : JobStep event j k) (hj : Recorded j) : Recorded k := by
  obtain ⟨hstarted, hdelivered, hlease, hcompleted, hcancelled⟩ := hj
  cases h with
  | stay => exact ⟨hstarted, hdelivered, hlease, hcompleted, hcancelled⟩
  | deliver s hqueued =>
    unfold State.deliver
    rw [if_pos hqueued]
    rw [hqueued] at hstarted hcompleted
    exact ⟨by simpa using hstarted, fun _ => rfl, hlease, hcompleted, nofun⟩
  | start s hstatus _ =>
    rw [hstatus] at hcompleted
    exact ⟨by simp [State.start], fun _ => hdelivered (.inr hstatus), rfl, hcompleted, nofun⟩
  | withdraw code now hactive =>
    unfold ManagementJob.withdraw
    split
    next hopen =>
      -- Only what was not started is cancelled.
      have hnone : ¬j.startedAt.isSome = true := fun hsome =>
        hopen.elim (hstarted.mp hsome).1 (hstarted.mp hsome).2.1
      exact ⟨by simpa using hnone, fun h => absurd (h.resolve_right nofun) hnone, hlease, rfl,
        fun _ => rfl⟩
    · exact ⟨hstarted, hdelivered, hlease, hcompleted, fun _ => rfl⟩
  | @report s agent r findings _ named hobservable _ =>
    have hran : j.startedAt.isSome = true := by
      refine hstarted.mpr ⟨?_, ?_, ?_⟩ <;>
        · intro hstatus
          rw [hstatus] at hobservable
          cases hobservable
    have hopen : j.completedAt.isSome = false := by
      rw [hcompleted]
      revert hobservable
      cases j.status <;> decide
    refine ⟨iff_of_true hran ?_, fun _ => hdelivered (.inl hran), hlease, ?_, ?_⟩
    · show r.status.jobStatus ≠ _ ∧ r.status.jobStatus ≠ _ ∧ r.status.jobStatus ≠ _
      cases r.status <;> decide
    · show (if r.status.jobStatus.terminal = true then some s.now else j.completedAt).isSome =
        r.status.jobStatus.terminal
      split
      next hterminal => exact hterminal.symm
      next hterminal => rw [hopen, Bool.eq_false_of_not_eq_true hterminal]
    · intro hstatus
      have hstatus : r.status.jobStatus = .cancelled := hstatus
      cases hr : r.status <;> rw [hr] at hstatus <;> cases hstatus

theorem Fresh.recorded (h : Fresh event j) : Recorded j := by
  obtain ⟨hqueued, -, ⟨hdelivered, hstarted, hcompleted, hlease⟩, -⟩ := h
  refine ⟨?_, ?_, ?_, ?_, ?_⟩ <;> simp [hqueued, hstarted, hcompleted, hlease, JobStatus.terminal]

/-- In every state that is reached from tables without jobs every job has such a record; so no
withdrawal, whenever it comes, is recorded as the cancellation of a job that an agent was told to
carry out. -/
theorem managementJobs_recorded {s t : State} {ls : List (Event × Reply)} (h : Run Step s ls t)
    (hblank : s.Blank) : ∀ k ∈ t.jobs.rows, Recorded k := by
  refine Run.preserves (I := fun u => ∀ k ∈ u.jobs.rows, Recorded k) ?_ h ?_
  · intro u l v hstep
    exact hstep.jobs.forall_rows (fun _ _ hstep => hstep.recorded) fun _ hfresh => hfresh.recorded
  · intro k hk
    rw [hblank.1] at hk
    cases hk

/-- The job of the sample is recorded. -/
theorem managementJobs_recorded_sample : ∃ ls t, t.jobs.rows.length = 1 ∧ Run Step sampleState ls t ∧
    ∀ k ∈ t.jobs.rows, Recorded k := by
  obtain ⟨ls, t, hrun, -, h⟩ := sampleManagement_run
  exact ⟨ls, t, h, hrun, managementJobs_recorded hrun ⟨rfl, rfl, rfl⟩⟩

end Ipms.Server.HyperV
