import Mathlib.Data.Option.Basic
import Ipms.Jobs.System

/-
  Ipms.Jobs.Life

  What the steps of the system do to a job: its status only moves forward, its
  end stays, and a withdrawn authority stays withdrawn.
-/

namespace Ipms.Jobs

open Ipms.Lib Ipms.Server Table Server Evolves
open Option (bind_eq_bind bind_eq_some_iff guard_eq_some' pure_def some)

/-! ## Statuses -/

/-- How far a status is on its way. -/
def Status.rank : Status → Nat
  | queued => 0
  | delivered => 1
  | running => 2
  | succeeded | failed | cancelled => 3

/-- A status is the same later on, or it has moved forward. -/
def Status.Reaches (a b : Status) : Prop := a = b ∨ a.rank < b.rank

theorem Status.Reaches.refl (a : Status) : a.Reaches a := .inl rfl

variable {a b : Status}

theorem Status.Reaches.trans {c : Status} (h : a.Reaches b) (h' : b.Reaches c) : a.Reaches c := by
  rcases h with rfl | hab
  · exact h'
  · rcases h' with rfl | hbc
    · exact .inr hab
    · exact .inr (Nat.lt_trans hab hbc)

theorem Status.Reaches.eq_of_ended (h : a.Reaches b) (hend : a.active = false) : b = a := by
  rcases h with rfl | hlt
  · rfl
  · revert hlt hend
    cases a <;> cases b <;> decide

theorem Status.Reaches.offered (h : a.Reaches b) (ha : a.offered = false) : b.offered = false := by
  rcases h with rfl | hlt
  · exact ha
  · revert hlt ha
    cases a <;> cases b <;> decide

/-! ## One job -/

/-- A job later on. -/
structure Job.Follows (a b : Job) : Prop where
  ref : b.ref = a.ref
  action : b.action = a.action
  status : a.status.Reaches b.status
  authority : ∀ t, a.authorityRevokedAt = some t → b.authorityRevokedAt = some t

namespace Job.Follows

theorem refl (a : Job) : a.Follows a := ⟨rfl, rfl, .refl _, fun _ h => h⟩

theorem trans {a b c : Job} (h : a.Follows b) (h' : b.Follows c) : a.Follows c where
  ref := h'.ref.trans h.ref
  action := h'.action.trans h.action
  status := h.status.trans h'.status
  authority t ht := h'.authority t (h.authority t ht)

theorem of_reflTransGen {a b : Job} (h : Relation.ReflTransGen Job.Follows a b) : a.Follows b := by
  induction h with
  | refl => exact .refl a
  | tail _ hbc ih => exact ih.trans hbc

end Job.Follows

/-- A job as it is created. -/
def Job.Fresh (job : Job) : Prop := job.status = .queued ∧ job.authorityRevokedAt = none

theorem Job.follows_withdraw (job : Job) (now : Time) (code : String) :
    job.Follows (job.withdraw now code) := by
  unfold Job.withdraw
  split
  · exact .refl job
  · next hnone =>
      have hauthority : ∀ t, job.authorityRevokedAt = some t → (some now : Option Time) = some t := by
        intro t ht
        rw [ht] at hnone
        exact absurd rfl hnone
      split
      · next hqueued => exact ⟨rfl, rfl, .inr (by rw [hqueued]; show (0 : Nat) < 3; decide), hauthority⟩
      · exact ⟨rfl, rfl, .refl _, hauthority⟩

theorem follows_withdrawChosen (chosen : Job → Bool) (now : Time) (code : String) (job : Job) :
    job.Follows (withdrawChosen chosen now code job) := by
  unfold withdrawChosen
  split
  · exact job.follows_withdraw now code
  · exact .refl job

theorem Job.follows_cancelMaintenance (job : Job) : job.Follows job.cancelMaintenance := by
  unfold Job.cancelMaintenance
  split
  · next h =>
      rw [Bool.and_eq_true] at h
      refine ⟨rfl, rfl, .inr ?_, fun _ ht => ht⟩
      show job.status.rank < Status.cancelled.rank
      have hactive := h.2
      revert hactive
      cases job.status <;> decide
  · exact .refl job

variable {job : Job}

theorem Job.follows_deliver (h : job.status.offered = true) : job.Follows job.deliver := by
  refine ⟨rfl, rfl, ?_, fun _ ht => ht⟩
  show job.status.Reaches .delivered
  revert h
  cases job.status with
  | queued => exact fun _ => .inr (by decide)
  | delivered => exact fun _ => .refl _
  | running | succeeded | failed | cancelled => exact fun h => by cases h

variable {report : Report}

/-- A recorded result: `running` once the job was delivered, an end once it was running. -/
theorem Job.record?_cases {recorded : Job} {check : Job → Bool}
    (h : job.record? check report = some recorded) : recorded = job.withResult report ∧
      (report.result = .running ∧ job.status = .delivered ∧ check job = true ∨
        report.result ≠ .running ∧ job.status = .running) := by
  simp only [Job.record?, bind_eq_bind, bind_eq_some_iff, guard_eq_some',
    pure_def, some.injEq] at h
  obtain ⟨_, -, _, hrunning, _, hfinal, rfl⟩ := h
  refine ⟨rfl, ?_⟩
  by_cases hresult : report.result = .running
  · exact .inl ⟨hresult, hrunning hresult⟩
  · exact .inr ⟨hresult, hfinal hresult⟩

/-! ## The control plane -/

/-- The jobs later on: every job is still there, and what is new is fresh. -/
abbrev Later (before after : JobTable) : Prop := Table.Evolves Job.Follows Job.Fresh before after

theorem Later.get? {before after : JobTable} (h : Later before after) {ref : Ref}
    (hjob : before.get? ref = some job) :
    ∃ job', after.get? ref = some job' ∧ job.Follows job' := by
  obtain ⟨job', hjob', hsteps⟩ := h.kept ref job hjob
  exact ⟨job', hjob', .of_reflTransGen hsteps⟩

theorem later_withdrawAll (jobs : JobTable) (chosen : Job → Bool) (now : Time) (code : String) :
    Later jobs (withdrawAll jobs chosen now code) :=
  mapRows _ (follows_withdrawChosen chosen now code)

/-- What an offer does: nothing, a withdrawal of the oldest job where its requester may no longer
ask for it, or its delivery. -/
theorem Server.offerJob_cases (s : Server) (kind : Kind) (check : Job → Bool) (now : Time) :
    s.offerJob kind check now = (s, none) ∨
    ∃ job, s.jobs.get? job.ref = some job ∧ job.action.kind = kind ∧
      job.authorityRevokedAt = none ∧ job.status.offered = true ∧
      (s.queuedActorAllowed job.requestedBy kind = false ∧
          s.offerJob kind check now =
            ({ s with jobs := s.jobs.save (job.withdraw now permissionRevoked) }, none) ∨
        s.queuedActorAllowed job.requestedBy kind = true ∧
          s.offerJob kind check now =
            ({ s with jobs := s.jobs.save job.deliver }, some job)) := by
  unfold offerJob
  cases hlast : (s.offerable kind).getLast? with
  | none => exact .inl rfl
  | some job =>
    have hmem : job ∈ s.offerable kind := List.mem_of_getLast? hlast
    simp only [offerable, List.mem_filter, Bool.and_eq_true, beq_iff_eq,
      Option.isNone_iff_eq_none] at hmem
    obtain ⟨hrow, ⟨hkind, hauthority⟩, hoffered⟩ := hmem
    have hget : s.jobs.get? job.ref = some job := get?_of_mem hrow
    by_cases hcheck : check job = false
    · exact .inl (if_pos hcheck)
    · right
      refine ⟨job, hget, hkind, hauthority, hoffered, ?_⟩
      simp only [if_neg hcheck]
      by_cases hallowed : s.queuedActorAllowed job.requestedBy kind = false
      · exact .inl ⟨hallowed, if_pos hallowed⟩
      · refine .inr ⟨by simpa using hallowed, ?_⟩
        simp only [if_neg hallowed]
        by_cases hqueued : job.status = .queued
        · exact if_pos hqueued
        · rw [if_neg hqueued]
          -- a job that was delivered before is saved as it is
          have hsame : job.deliver = job := by
            have hdelivered : job.status = .delivered := by
              revert hoffered hqueued
              cases job.status <;> simp [Status.offered]
            unfold Job.deliver
            rw [← hdelivered]
          rw [hsame, save_of_get? hget]

variable {s t : Server} {kind : Kind}

theorem Server.record_cases (h : s.record kind report = some t) :
    ∃ job, s.jobs.get? ⟨kind, report.jobId⟩ = some job ∧
      t.jobs = s.jobs.save (job.withResult report) ∧
      t.tenant = s.tenant ∧ t.env = s.env ∧ t.enrolled = s.enrolled ∧
      resultCodeAllowed report.resultCode = true ∧
      (report.result = .running ∧ job.status = .delivered ∨
        report.result ≠ .running ∧ job.status = .running) := by
  cases kind with
  | lifecycle =>
    simp only [record, recordLifecycleResult, bind_eq_bind,
      bind_eq_some_iff, guard_eq_some', pure_def, some.injEq] at h
    obtain ⟨job, hjob, recorded, hrecorded, _, hcode, rfl⟩ := h
    obtain ⟨rfl, hcases⟩ := Job.record?_cases hrecorded
    exact ⟨job, hjob, rfl, rfl, rfl, rfl, hcode, hcases.imp_left fun h => ⟨h.1, h.2.1⟩⟩
  | vm =>
    simp only [record, recordHypervActionResult, bind_eq_bind,
      bind_eq_some_iff, guard_eq_some', pure_def, some.injEq] at h
    obtain ⟨_, hcode, job, hjob, recorded, hrecorded, rfl⟩ := h
    obtain ⟨rfl, hcases⟩ := Job.record?_cases hrecorded
    exact ⟨job, hjob, rfl, rfl, rfl, rfl, hcode, hcases.imp_left fun h => ⟨h.1, h.2.1⟩⟩

theorem Server.record_final (hresult : report.result ≠ .running)
    (hcode : resultCodeAllowed report.resultCode = true) : (s.record kind report).isSome = true ↔
      ∃ job, s.jobs.get? ⟨kind, report.jobId⟩ = some job ∧ job.status = .running := by
  constructor
  · intro h
    obtain ⟨t, ht⟩ := Option.isSome_iff_exists.mp h
    obtain ⟨job, hjob, -, -, -, -, -, ⟨hrunning, -⟩ | ⟨-, hstatus⟩⟩ := record_cases ht
    · exact absurd hrunning hresult
    · exact ⟨job, hjob, hstatus⟩
  · rintro ⟨job, hjob, hstatus⟩
    have hrecord : ∀ check : Job → Bool,
        job.record? check report = some (job.withResult report) := by
      intro check
      simp [Job.record?, hstatus, hresult, Status.active, guard]
    cases kind with
    | lifecycle =>
      simp [record, recordLifecycleResult, hjob, hrecord, hcode, guard]
    | vm =>
      simp [record, recordHypervActionResult, hjob, hrecord, hcode, guard]

/-! ## Steps -/

/-- A control plane whose jobs are those of before, later on. -/
def Server.Later (s t : Server) : Prop := Jobs.Later s.jobs t.jobs

theorem Server.later_offerJob (s : Server) (kind : Kind) (check : Job → Bool) (now : Time) :
    s.Later (s.offerJob kind check now).1 := by
  rcases s.offerJob_cases kind check now with h | ⟨job, hget, -, -, hoffered, ⟨-, h⟩ | ⟨-, h⟩⟩
  · rw [h]
    exact refl _
  · rw [h]
    refine save ?_ (job.follows_withdraw now permissionRevoked)
    rw [Job.ref_withdraw]
    exact hget
  · rw [h]
    exact save hget (Job.follows_deliver hoffered)

theorem Server.later_record (h : s.record kind report = some t) : s.Later t := by
  obtain ⟨job, hjob, hjobs, -, -, -, -, hcases⟩ := record_cases h
  have hrank : job.status.rank < report.result.status.rank := by
    rcases hcases with ⟨hresult, hstatus⟩ | ⟨hresult, hstatus⟩
    · rw [hresult, hstatus]
      decide
    · rw [hstatus]
      revert hresult
      cases report.result <;> decide
  show Jobs.Later s.jobs t.jobs
  rw [hjobs]
  have hget : s.jobs.get? (job.withResult report).ref = some job :=
    get?_of_mem (get?_mem hjob)
  exact save hget ⟨rfl, rfl, .inr hrank, fun _ ht => ht⟩

theorem Server.later_administer {act : Admin} (h : s.administer act = some t) : s.Later t := by
  cases act with
  | createLifecycleJob id actor uninstall =>
    simp only [administer, createLifecycleJob, bind_eq_bind,
      bind_eq_some_iff, pure_def, some.injEq] at h
    obtain ⟨_, -, _, -, _, -, _, -, action, -, _, -, jobs, hjobs, rfl⟩ := h
    exact insert hjobs ⟨rfl, rfl⟩
  | createHypervActionJob id actor vm action =>
    simp only [administer, createHypervActionJob, bind_eq_bind,
      bind_eq_some_iff, pure_def, some.injEq] at h
    obtain ⟨_, -, machine, -, _, -, _, -, _, -, _, -, _, -, jobs, hjobs, rfl⟩ := h
    exact insert hjobs ⟨rfl, rfl⟩
  | environment env | machine id vm =>
    cases h
    exact refl _
  | tenant status now =>
    cases h
    unfold applyTenantStatusChange
    split
    · exact refl _
    · exact later_withdrawAll s.jobs _ now _
  | withdrawIdentity actor now reason =>
    cases h
    exact later_withdrawAll s.jobs _ now reason
  | removeEnrollment =>
    cases h
    exact mapRows Job.ref_cancelMaintenance Job.follows_cancelMaintenance

theorem Server.offerJob_authority {s t : Server} {kind : Kind} {check : Job → Bool} {now : Time}
    {job : Job} (h : s.offerJob kind check now = (t, some job)) :
    s.jobs.get? job.ref = some job ∧ job.authorityRevokedAt = none := by
  rcases s.offerJob_cases kind check now with
    h' | ⟨offered, hget, -, hauthority, -, ⟨-, h'⟩ | ⟨-, h'⟩⟩
  · rw [h] at h'
    cases h'
  · rw [h] at h'
    cases h'
  · rw [h] at h'
    cases h'
    exact ⟨hget, hauthority⟩

theorem Server.lifecycleArtifact_authority {jobId sha256 : String}
    (h : s.lifecycleArtifact jobId = some sha256) :
    ∃ job, s.jobs.get? ⟨.lifecycle, jobId⟩ = some job ∧ job.authorityRevokedAt = none := by
  simp only [lifecycleArtifact, bind_eq_bind, bind_eq_some_iff,
    guard_eq_some'] at h
  obtain ⟨_, -, job, hjob, _, hauthority, -⟩ := h
  exact ⟨job, hjob, hauthority⟩

theorem Server.recordHypervActionResult_machines {time : Time}
    (h : s.recordHypervActionResult report = some t)
    (hjob : s.jobs.get? ⟨.vm, report.jobId⟩ = some job)
    (hauthority : job.authorityRevokedAt = some time) : t.machines = s.machines := by
  simp only [recordHypervActionResult, bind_eq_bind, bind_eq_some_iff,
    pure_def, some.injEq] at h
  obtain ⟨_, -, other, hother, _, -, rfl⟩ := h
  rw [hjob] at hother
  cases hother
  have hnot : s.confirms job report = false := by
    simp [confirms, hauthority]
  show (if s.confirms job report = true then s.confirm job.action else s.machines) = s.machines
  rw [hnot, if_neg Bool.false_ne_true]

theorem Server.later_process (s : Server) (now : Time) (message : Message) :
    s.Later (s.process now message).1 := by
  cases message with
  | inventory =>
    have hlater := s.later_offerJob .lifecycle (fun job => s.env.maintenanceAllowed job.action) now
    simp only [process]
    cases hoffer : s.offerLifecycleJob now with
    | mk u job? =>
      rw [show s.offerJob .lifecycle (fun job => s.env.maintenanceAllowed job.action) now =
        (u, job?) from hoffer] at hlater
      cases job? <;> exact hlater
  | inventoryOffered => exact s.later_offerJob .vm (fun _ => true) now
  | artifact jobId =>
    simp only [process]
    cases s.lifecycleArtifact jobId <;> exact refl _
  | result kind report =>
    simp only [process]
    cases hrecord : s.record kind report with
    | none => exact refl _
    | some u => exact later_record hrecord

theorem Server.process_accepted {now : Time} {message : Message}
    (h : s.process now message = (t, .inl .accepted)) :
    ∃ kind report, message = .result kind report ∧ s.record kind report = some t := by
  cases message with
  | inventory | artifact jobId =>
    simp only [process] at h
    split at h <;> cases h
  | inventoryOffered =>
    simp only [process] at h
    cases h
  | result kind report =>
    simp only [process] at h
    cases hrecord : s.record kind report with
    | none =>
      rw [hrecord] at h
      cases h
    | some u =>
      rw [hrecord] at h
      cases h
      exact ⟨kind, report, rfl, hrecord⟩

/-- The record of `running` takes its job from delivered to running. -/
theorem Server.record_running (h : s.record kind report = some t)
    (hresult : report.result = .running) :
    (∃ job, s.jobs.get? ⟨kind, report.jobId⟩ = some job ∧ job.status = .delivered) ∧
      ∃ job, t.jobs.get? ⟨kind, report.jobId⟩ = some job ∧ job.status = .running := by
  obtain ⟨job, hjob, hjobs, -, -, -, -, ⟨-, hstatus⟩ | ⟨hnot, -⟩⟩ := record_cases h
  · have hkey : job.ref = ⟨kind, report.jobId⟩ := get?_key hjob
    have hget : s.jobs.get? (job.withResult report).ref = some job :=
      get?_of_mem (get?_mem hjob)
    refine ⟨⟨job, hjob, hstatus⟩, job.withResult report, ?_, ?_⟩
    · rw [hjobs, ← hkey]
      exact get?_save_self hget
    · show report.result.status = .running
      rw [hresult]
      rfl
  · exact absurd hresult hnot

/-! ## One job in one step -/

/-- What a processed message does to the job under a key. -/
inductive Served (message : Message) (ref : Ref) (before after : Option Job) : Prop where
  | same (h : after = before)
  | withdrawn {job : Job} {now : Time} (hbefore : before = some job)
      (hauthority : job.authorityRevokedAt = none) (hoffered : job.status.offered = true)
      (hafter : after = some (job.withdraw now permissionRevoked))
  | delivered {job : Job} (hbefore : before = some job) (hauthority : job.authorityRevokedAt = none)
      (hoffered : job.status.offered = true) (hafter : after = some job.deliver)
  | recorded {job : Job} {kind : Kind} {report : Report} (hmessage : message = .result kind report)
      (href : ref = ⟨kind, report.jobId⟩) (hbefore : before = some job)
      (hafter : after = some (job.withResult report))
      (hstatus : report.result = .running ∧ job.status = .delivered ∨
        report.result ≠ .running ∧ job.status = .running)

theorem get?_save_of_ref {jobs : JobTable} {changed : Job} (hget : jobs.get? job.ref = some job)
    (href : changed.ref = job.ref) (ref : Ref) :
    (jobs.save changed).get? ref = if ref = job.ref then some changed else jobs.get? ref := by
  by_cases h : ref = job.ref
  · rw [if_pos h, h, ← href]
    exact get?_save_self (by rw [href]; exact hget)
  · rw [if_neg h]
    exact get?_save_ne (by rw [href]; exact h)

theorem Server.served_offerJob (s : Server) (kind : Kind) (check : Job → Bool) (now : Time)
    (message : Message) (ref : Ref) :
    Served message ref (s.jobs.get? ref) ((s.offerJob kind check now).1.jobs.get? ref) := by
  rcases s.offerJob_cases kind check now with
    h | ⟨job, hget, -, hauthority, hoffered, ⟨-, h⟩ | ⟨-, h⟩⟩
  · rw [h]
    exact .same rfl
  · rw [h]
    show Served message ref (s.jobs.get? ref)
      ((s.jobs.save (job.withdraw now permissionRevoked)).get? ref)
    rw [get?_save_of_ref hget (job.ref_withdraw now _) ref]
    split
    · next href =>
        rw [href]
        exact .withdrawn hget hauthority hoffered rfl
    · exact .same rfl
  · rw [h]
    show Served message ref (s.jobs.get? ref) ((s.jobs.save job.deliver).get? ref)
    rw [get?_save_of_ref hget job.ref_deliver ref]
    split
    · next href =>
        rw [href]
        exact .delivered hget hauthority hoffered rfl
    · exact .same rfl

theorem Server.served_record (h : s.record kind report = some t) (ref : Ref) :
    Served (.result kind report) ref (s.jobs.get? ref) (t.jobs.get? ref) := by
  obtain ⟨job, hjob, hjobs, -, -, -, -, hstatus⟩ := record_cases h
  have hkey : job.ref = ⟨kind, report.jobId⟩ := get?_key hjob
  have hget : s.jobs.get? job.ref = some job := get?_of_mem (get?_mem hjob)
  rw [hjobs, get?_save_of_ref hget (job.ref_withResult report) ref]
  split
  · next href =>
      rw [href]
      exact .recorded rfl hkey hget rfl hstatus
  · exact .same rfl

theorem Server.served (s : Server) (now : Time) (message : Message) (ref : Ref) :
    Served message ref (s.jobs.get? ref) ((s.process now message).1.jobs.get? ref) := by
  cases message with
  | inventory =>
    have hserved := s.served_offerJob .lifecycle
      (fun job => s.env.maintenanceAllowed job.action) now .inventory ref
    simp only [process]
    cases hoffer : s.offerLifecycleJob now with
    | mk u job? =>
      rw [show s.offerJob .lifecycle (fun job => s.env.maintenanceAllowed job.action) now =
        (u, job?) from hoffer] at hserved
      cases job? <;> exact hserved
  | inventoryOffered => exact s.served_offerJob .vm (fun _ => true) now .inventoryOffered ref
  | artifact jobId =>
    simp only [process]
    cases s.lifecycleArtifact jobId <;> exact .same rfl
  | result kind report =>
    simp only [process]
    cases hrecord : s.record kind report with
    | none => exact .same rfl
    | some u => exact served_record hrecord ref

/-- What a step beside the messages does to the job under a key, the removal of the enrollment
apart. -/
inductive Administered (before after : Option Job) : Prop where
  | same (h : after = before)
  | created {job : Job} (hbefore : before = none) (hafter : after = some job) (hfresh : job.Fresh)
  | withdrawn {job : Job} {now : Time} {code : String} (hbefore : before = some job)
      (hactive : job.status.active = true) (hafter : after = some (job.withdraw now code))

theorem administered_insert {jobs jobs' : JobTable} (h : jobs.insert job = some jobs')
    (hfresh : job.Fresh) (ref : Ref) : Administered (jobs.get? ref) (jobs'.get? ref) := by
  rw [get?_insert h]
  split
  · next href =>
      rw [href]
      exact .created (insert_eq_some h).1 rfl hfresh
  · exact .same rfl

theorem administered_withdrawAll (jobs : JobTable) (chosen : Job → Bool) (now : Time)
    (code : String) (ref : Ref) :
    Administered (jobs.get? ref) ((withdrawAll jobs chosen now code).get? ref) := by
  rw [withdrawAll, get?_mapRows]
  cases hjob : jobs.get? ref with
  | none => exact .same rfl
  | some job =>
    show Administered (some job) (some (withdrawChosen chosen now code job))
    unfold withdrawChosen
    split
    · next h =>
        rw [Bool.and_eq_true] at h
        exact .withdrawn rfl h.2 rfl
    · exact .same rfl

theorem Server.administered {act : Admin} (h : s.administer act = some t)
    (hact : act ≠ .removeEnrollment) (ref : Ref) :
    Administered (s.jobs.get? ref) (t.jobs.get? ref) := by
  cases act with
  | createLifecycleJob id actor uninstall =>
    simp only [administer, createLifecycleJob, bind_eq_bind,
      bind_eq_some_iff, pure_def, some.injEq] at h
    obtain ⟨_, -, _, -, _, -, _, -, action, -, _, -, jobs, hjobs, rfl⟩ := h
    exact administered_insert hjobs ⟨rfl, rfl⟩ ref
  | createHypervActionJob id actor vm action =>
    simp only [administer, createHypervActionJob, bind_eq_bind,
      bind_eq_some_iff, pure_def, some.injEq] at h
    obtain ⟨_, -, machine, -, _, -, _, -, _, -, _, -, _, -, jobs, hjobs, rfl⟩ := h
    exact administered_insert hjobs ⟨rfl, rfl⟩ ref
  | environment env | machine id vm =>
    cases h
    exact .same rfl
  | tenant status now =>
    cases h
    unfold applyTenantStatusChange
    split
    · exact .same rfl
    · exact administered_withdrawAll s.jobs _ now _ ref
  | withdrawIdentity actor now reason =>
    cases h
    exact administered_withdrawAll s.jobs _ now reason ref
  | removeEnrollment => exact absurd rfl hact

end Ipms.Jobs
