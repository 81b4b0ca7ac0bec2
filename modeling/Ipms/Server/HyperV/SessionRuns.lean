import Ipms.Server.HyperV.ManagementRuns
import Ipms.Server.HyperV.SessionSteps

/-
  Ipms.Server.HyperV.SessionRuns

  Console sessions over whole runs: one session of a machine is open, a session
  that is over stays over, its browser's claim is made once, a lease that ran out
  is never moved, and a checkpoint is not applied under an open console.  The last
  holds except for one instant: the creation of a job counts a lease as over when
  the clock reaches it, while a renewal still moves it then.
-/

namespace Ipms.Server.HyperV

open Ipms.Lib Ipms.ManagementJson
open Ipms.Agent.Gpo (seconds)

/-! ## The properties of a state -/

/-- A machine of a tenant has one open session. -/
def OneOpen (s : State) : Prop :=
  ∀ x ∈ s.sessions.rows, ∀ y ∈ s.sessions.rows, x.status.isOpen = true → y.status.isOpen = true →
    x.tenant = y.tenant → x.vmSourceId = y.vmSourceId → x = y

/-- A job and a session are about one machine of one agent. -/
def SameMachine (j : ManagementJob) (x : ConsoleSession) : Prop :=
  j.tenant = x.tenant ∧ j.enrollment = x.enrollment ∧ j.vmSourceId = x.vmSourceId

instance (j : ManagementJob) (x : ConsoleSession) : Decidable (SameMachine j x) :=
  inferInstanceAs (Decidable (_ ∧ _ ∧ _))

/-- No checkpoint is applied while the machine has an open session whose lease is in force or can
be renewed. -/
def Exclusive (s : State) : Prop :=
  ∀ j ∈ s.jobs.rows, ∀ x ∈ s.sessions.rows, j.operation = .checkpointApply →
    j.status.active = true → x.status.isOpen = true → SameMachine j x → x.leaseExpiresAt < s.now

/-- What becomes of the sessions of a state: one that is over keeps its status, a claim stays, and a
lease that ran out is not moved. -/
def SessionsSettled (s t : State) : Prop :=
  ∀ id x, s.sessions.get? id = some x → ∃ y, t.sessions.get? id = some y ∧
    (x.status.isOpen = false → y.status = x.status) ∧
    (x.browserClaim.isSome = true → y.browserClaim = x.browserClaim) ∧
    (x.leaseExpiresAt < s.now → y.leaseExpiresAt = x.leaseExpiresAt)

/-- A new checkpoint job meets no open session of its machine at the instant its lease ends. -/
def MeetsNoExpiry (s : State) : Event → Prop
  | .createJob _ r _ =>
    r.operation = .checkpointApply →
      s.jobs.rows.find? (fun j => j.requestId == r.requestId) = none →
        ∀ vm host e, s.lockedVm r.tenant r.virtualMachine = .ok (vm, host, e) →
          ∀ x ∈ s.sessions.rows, x.status.isOpen = true → x.tenant = vm.tenant →
            x.enrollment = e.id → x.vmSourceId = vm.sourceId → x.leaseExpiresAt ≠ s.now
  | _ => True

/-! ## Sessions over a run -/

variable {s t : State} {x : ConsoleSession} {l : Event × Reply} {id : String}

theorem Step.sessionKept (h : Step s l t) (hx : s.sessions.get? id = some x) :
    ∃ y, t.sessions.get? id = some y ∧ SessionKept s.now x y := by
  have hkept : ∀ {u : State}, SessionsKept s u →
      ∃ y, u.sessions.get? id = some y ∧ SessionKept s.now x y := by
    intro u hu
    obtain ⟨y, hy, hsteps⟩ := hu.kept id x hx
    exact ⟨y, hy, SessionKept.of_steps hsteps⟩
  obtain hall | ⟨v, z, hv, hinsert, -⟩ := h.sessions
  · exact hkept hall
  · obtain ⟨y, hy, hlater⟩ := hkept hv
    refine ⟨y, ?_, hlater⟩
    rw [Table.get?_insert hinsert, if_neg, hy]
    rintro rfl
    rw [(Table.insert_eq_some hinsert).1] at hy
    cases hy

theorem Run.sessionKept {ls : List (Event × Reply)} (h : Run Step s ls t)
    (hx : s.sessions.get? id = some x) :
    ∃ y, t.sessions.get? id = some y ∧ SessionKept s.now x y := by
  induction h generalizing x with
  | nil s => exact ⟨x, hx, .refl s.now x⟩
  | cons hstep _ ih =>
    obtain ⟨y, hy, hlater⟩ := hstep.sessionKept hx
    obtain ⟨z, hz, hlater'⟩ := ih hy
    exact ⟨z, hz, hlater.trans hstep.now_le hlater'⟩

theorem Run.sessionsSettled {ls : List (Event × Reply)} (h : Run Step s ls t) :
    SessionsSettled s t := by
  intro id x hx
  obtain ⟨y, hy, hkept⟩ := Run.sessionKept h hx
  refine ⟨y, hy, hkept.settled, hkept.claim, fun hlease => ?_⟩
  rcases hkept.lease with hsame | hnow
  · exact hsame
  · exact absurd hlease (Int.not_lt.mpr hnow)

theorem OneOpen.kept (hs : OneOpen s) (h : SessionsKept s t) : OneOpen t := by
  intro x hx y hy hxopen hyopen htenant hmachine
  obtain ⟨x', hx', hxget, hxkept⟩ := h.back hx
  obtain ⟨y', hy', hyget, hykept⟩ := h.back hy
  have hsame : x' = y' := by
    apply hs x' hx' y' hy' (hxkept.isOpen hxopen) (hykept.isOpen hyopen)
    · rw [← hxkept.tenant, ← hykept.tenant, htenant]
    · rw [← hxkept.machine, ← hykept.machine, hmachine]
  subst hsame
  apply Table.row_unique hx hy
  rw [← Table.get?_key hxget, ← Table.get?_key hyget]

theorem Step.oneOpen (h : Step s l t) (hs : OneOpen s) : OneOpen t := by
  obtain hkept | ⟨v, z, hv, hinsert, hfree, -⟩ := h.sessions
  · exact hs.kept hkept
  · -- the new session is the only one of its machine
    have hv : OneOpen v := hs.kept hv
    intro x hx y hy hxopen hyopen htenant hmachine
    rw [(Table.insert_eq_some hinsert).2, List.mem_cons] at hx hy
    rcases hx with rfl | hx <;> rcases hy with rfl | hy
    · rfl
    · exact absurd hmachine.symm (hfree y hy hyopen htenant.symm)
    · exact absurd hmachine (hfree x hx hxopen htenant)
    · exact hv x hx y hy hxopen hyopen htenant hmachine

/-! ## Consoles and checkpoints -/

/-- A later row of a job has its tenant, its enrollment, its machine and its operation. -/
structure JobSame (j k : ManagementJob) : Prop where
  tenant : k.tenant = j.tenant
  enrollment : k.enrollment = j.enrollment
  machine : k.vmSourceId = j.vmSourceId
  operation : k.operation = j.operation

variable {k j : ManagementJob} {event : Event}

theorem JobSame.of_step (h : JobStep event j k) : JobSame j k := by
  cases h with
  | stay | start s | report s => exact ⟨rfl, rfl, rfl, rfl⟩
  | deliver s hqueued =>
    unfold State.deliver
    rw [if_pos hqueued]
    exact ⟨rfl, rfl, rfl, rfl⟩
  | withdraw code now =>
    unfold ManagementJob.withdraw
    split <;> exact ⟨rfl, rfl, rfl, rfl⟩

theorem JobSame.of_steps (h : Relation.ReflTransGen (JobStep event) j k) : JobSame j k := by
  induction h with
  | refl => exact ⟨rfl, rfl, rfl, rfl⟩
  | tail _ hstep ih =>
    have hlast := JobSame.of_step hstep
    exact ⟨hlast.tenant.trans ih.tenant, hlast.enrollment.trans ih.enrollment,
      hlast.machine.trans ih.machine, hlast.operation.trans ih.operation⟩

theorem JobsEvolve.back (h : JobsEvolve event s t)
    (hevent : ∀ id request findings, event ≠ .createJob id request findings) (hk : k ∈ t.jobs.rows)
    (hactive : k.status.active = true) :
    ∃ j ∈ s.jobs.rows, j.id = k.id ∧ j.status.active = true ∧ JobSame j k := by
  have hget : t.jobs.get? k.id = some k := Table.get?_of_mem hk
  cases hj : s.jobs.get? k.id with
  | none =>
    obtain ⟨a, hfresh, -⟩ := h.made k.id k hj hget
    obtain ⟨id, request, findings, hcreated⟩ := hfresh.created
    exact absurd hcreated (hevent id request findings)
  | some j =>
    obtain ⟨k', hk', hsteps⟩ := h.kept k.id j hj
    rw [hget] at hk'
    cases hk'
    refine ⟨j, Table.get?_mem hj, Table.get?_key hj, ?_, JobSame.of_steps hsteps⟩
    cases hterminal : j.status.active with
    | true => rfl
    | false =>
      have hsame : k = j :=
        (JobLater.of_steps hsteps).final (by rw [JobStatus.terminal_eq, hterminal]; rfl)
      rw [hsame, hterminal] at hactive
      cases hactive

theorem Exclusive.kept (hs : Exclusive s) {now : Time} (hnow : s.now ≤ now) {y : ConsoleSession}
    (hj : j ∈ s.jobs.rows) (hjactive : j.status.active = true) (hjk : JobSame j k)
    (hx : x ∈ s.sessions.rows) (hxy : SessionKept s.now x y) (hk : k.operation = .checkpointApply)
    (hy : y.status.isOpen = true) (hmachine : SameMachine k y) : y.leaseExpiresAt < now := by
  obtain ⟨htenant, henrollment, hsource⟩ := hmachine
  have hlease : x.leaseExpiresAt < s.now := by
    apply hs j hj x hx (hjk.operation.symm.trans hk) hjactive (hxy.isOpen hy)
    refine ⟨?_, ?_, ?_⟩
    · rw [← hjk.tenant, htenant, hxy.tenant]
    · rw [← hjk.enrollment, henrollment, hxy.enrollment]
    · rw [← hjk.machine, hsource, hxy.machine]
  rcases hxy.lease with hsame | hrenewed
  · rw [hsame]
    exact Int.lt_of_lt_of_le hlease hnow
  · exact absurd hlease (Int.not_lt.mpr hrenewed)

theorem State.lockedVm_tenant {tenant vmId : String} {vm : VirtualMachine} {host : Host}
    {e : Enrollment} (h : s.lockedVm tenant vmId = .ok (vm, host, e)) : vm.tenant = tenant := by
  unfold lockedVm at h
  simp only [bind_eq_ok, found_eq_ok, Option.filter_eq_some_iff, beq_iff_eq] at h
  obtain ⟨vm', ⟨-, htenant⟩, host', -, e', -, -, -, -, -, h⟩ := h
  cases h
  exact htenant

theorem State.checkConflicts_lease {vm : VirtualMachine} {host : Host} {e : Enrollment}
    (h : s.checkConflicts vm host e .checkpointApply = .ok ()) (hx : x ∈ s.sessions.rows)
    (hopen : x.status.isOpen = true) (htenant : x.tenant = vm.tenant)
    (henrollment : x.enrollment = e.id) (hmachine : x.vmSourceId = vm.sourceId) :
    x.leaseExpiresAt ≤ s.now := by
  unfold checkConflicts at h
  obtain ⟨-, -, h⟩ := bind_eq_ok.mp h
  rw [throwIf_eq_ok] at h
  by_contra hlease
  apply h
  refine ⟨rfl, ?_⟩
  rw [consoleActive, List.any_eq_true]
  refine ⟨x, hx, ?_⟩
  simp only [Bool.and_eq_true, beq_iff_eq, decide_eq_true_eq]
  exact ⟨⟨⟨⟨htenant, henrollment⟩, hmachine⟩, hopen⟩, Int.not_le.mp hlease⟩

/-- A creation keeps consoles and checkpoints apart exactly when it meets no lease at its end. -/
theorem Exclusive.createJob_iff (hs : Exclusive s) {r : State.JobRequest} {findings : Findings}
    {job : ManagementJob} (h : s.createManagementJob id r findings = .ok (t, job)) :
    Exclusive t ↔ MeetsNoExpiry s (.createJob id r findings) := by
  obtain ⟨rfl, hprior⟩ | ⟨hnone, vm, host, e, jobs, hvm, hconflicts, hinsert, rfl, rfl⟩ :=
    State.createManagementJob_cases h
  · refine ⟨fun _ _ hnone => ?_, fun _ => hs⟩
    rw [hnone] at hprior
    cases hprior
  · have hrows := (Table.insert_eq_some hinsert).2
    have htenant := State.lockedVm_tenant hvm
    constructor
    · intro ht hoperation _ vm' host' e' hvm' x hx hopen hxt hxe hxm hlease
      rw [hvm] at hvm'
      cases hvm'
      have hin : s.newJob id r vm e ∈ jobs.rows := by rw [hrows]; exact List.mem_cons_self
      have hlt : x.leaseExpiresAt < s.now :=
        ht _ hin x hx hoperation rfl hopen ⟨by rw [hxt, htenant]; rfl, hxe.symm, hxm.symm⟩
      rw [hlease] at hlt
      exact Int.lt_irrefl s.now hlt
    · intro hmeets j hj x hx hoperation hactive hopen hmachine
      rw [hrows, List.mem_cons] at hj
      rcases hj with rfl | hj
      · obtain ⟨hxt, hxe, hxm⟩ := hmachine
        have hxt : x.tenant = vm.tenant := by rw [← hxt, htenant]; rfl
        have hoperation : r.operation = .checkpointApply := hoperation
        rw [hoperation] at hconflicts
        have hle := State.checkConflicts_lease hconflicts hx hopen hxt hxe.symm hxm.symm
        have hne := hmeets hoperation hnone vm host e hvm x hx hopen hxt hxe.symm hxm.symm
        exact Int.lt_iff_le_and_ne.mpr ⟨hle, hne⟩
      · exact hs j hj x hx hoperation hactive hopen hmachine

/-- A step keeps consoles and checkpoints apart exactly when it meets no lease at its end. -/
theorem Step.exclusive_iff (h : Step s l t) (hs : Exclusive s) :
    Exclusive t ↔ MeetsNoExpiry s l.1 := by
  have hnow := h.now_le
  by_cases hcreate : ∃ id request findings, l.1 = .createJob id request findings
  · obtain ⟨id, request, findings, hevent⟩ := hcreate
    obtain ⟨event, reply⟩ := l
    subst hevent
    obtain ⟨⟨u, job⟩, hu, h⟩ := bind_eq_ok.mp h.1
    cases h
    exact hs.createJob_iff hu
  · push Not at hcreate
    have hmeets : MeetsNoExpiry s l.1 := by
      unfold MeetsNoExpiry
      split
      · next heq => exact absurd heq (hcreate _ _ _)
      · trivial
    refine ⟨fun _ => hmeets, fun _ k hk y hy hoperation hactive hopen hmachine => ?_⟩
    obtain ⟨j, hj, -, hjactive, hjk⟩ := h.jobs.back hcreate hk hactive
    obtain hkept | ⟨v, z, hv, hinsert, -, hfree⟩ := h.sessions
    · obtain ⟨x, hx, -, hxy⟩ := hkept.back hy
      exact hs.kept hnow hj hjactive hjk hx hxy hoperation hopen hmachine
    · rw [(Table.insert_eq_some hinsert).2, List.mem_cons] at hy
      rcases hy with rfl | hy
      · -- a session is not created while a checkpoint is applied
        obtain ⟨htenant, henrollment, hsource⟩ := hmachine
        have hinspect := hfree j hj hjactive (hjk.tenant.symm.trans htenant)
          (hjk.enrollment.symm.trans henrollment) (hjk.machine.symm.trans hsource)
        rw [← hjk.operation, hoperation] at hinspect
        cases hinspect
      · obtain ⟨x, hx, -, hxy⟩ := hv.back hy
        exact hs.kept hnow hj hjactive hjk hx hxy hoperation hopen hmachine

/-! ## Whole runs -/

/-- In every run from a control plane without jobs and sessions, all of this holds in every state
exactly when no accepted checkpoint job meets an open session of its machine at the instant the
session's lease ends. -/
theorem consoleSessions_iff {s t : State} {ls : List (Event × Reply)} (hs : s.Blank)
    (h : Run Step s ls t) :
    (∀ u, Run.Visits Step s ls t u → SessionsSettled u t ∧ OneOpen u ∧ Exclusive u) ↔
      ∀ u l, Run.Takes Step s ls t u l → MeetsNoExpiry u l.1 := by
  have hone : OneOpen s := by
    intro x hx
    rw [hs.2.1] at hx
    cases hx
  have hexclusive : Exclusive s := by
    intro j hj
    rw [hs.1] at hj
    cases hj
  have hiff := h.forall_visits_iff (I := OneOpen) (P := Exclusive)
    (C := fun u l => MeetsNoExpiry u l.1) (fun u l v hstep hu => hstep.oneOpen hu)
    (fun u l v _ hstep _ hu => hstep.exclusive_iff hu) hone hexclusive
  constructor
  · intro hall
    exact hiff.mp fun u hu => (hall u hu).2.2
  · intro hmeets u hu
    refine ⟨?_, ?_, hiff.mpr hmeets u hu⟩
    · obtain ⟨before, after, -, -, hafter⟩ := hu
      exact Run.sessionsSettled hafter
    · obtain ⟨before, after, -, hbefore, -⟩ := hu
      exact hbefore.preserves (fun u l v hstep hu => hstep.oneOpen hu) hone

/-- A console session of the sample machine. -/
def sampleConsole : State.SessionRequest := ⟨"vm", "tenant", "user", .thumbnail, none⟩

/-- A request to apply a checkpoint of the sample machine. -/
def sampleApply : State.JobRequest :=
  ⟨"vm", "tenant", 1, "request", .checkpointApply, "revision", .obj [], none⟩

/-- A session is opened; at the instant its lease ends a checkpoint job is accepted, and the lease is
renewed. -/
def sampleClash : List Event :=
  [.createSession "session" "generation" sampleConsole,
   .change sampleState.toWorld (seconds 30), .createJob "job" sampleApply {},
   .renewSession "session" "user" none]

/-- An active job applies a checkpoint to a machine whose open console has a lease in force. -/
theorem checkpoint_under_console :
    ∃ ls t, sampleState.Blank ∧ Run Step sampleState ls t ∧ ∃ j ∈ t.jobs.rows,
      ∃ x ∈ t.sessions.rows, j.operation = .checkpointApply ∧ j.status.active = true ∧
        x.status.isOpen = true ∧ SameMachine j x ∧ t.now < x.leaseExpiresAt := by
  have hsample : (sampleState.performAll sampleClash).any (fun run =>
      run.2.jobs.rows.any fun j => run.2.sessions.rows.any fun x =>
        decide (j.operation = .checkpointApply ∧ j.status.active = true ∧
          x.status.isOpen = true ∧ SameMachine j x ∧ run.2.now < x.leaseExpiresAt)) = true := by
    decide +kernel
  obtain ⟨⟨ls, t⟩, hrun, h⟩ := (Option.any_eq_true _ _).mp hsample
  obtain ⟨j, hj, h⟩ := List.any_eq_true.mp h
  obtain ⟨x, hx, h⟩ := List.any_eq_true.mp h
  exact ⟨ls, t, ⟨rfl, rfl, rfl⟩, State.run_of_performAll hrun, j, hj, x, hx, of_decide_eq_true h⟩

/-- A session is opened and renewed, and the checkpoint is applied after it was closed. -/
def sampleConsoleRun : List Event :=
  [.createSession "session" "generation" sampleConsole,
   .change sampleState.toWorld (seconds 30), .renewSession "session" "user" none,
   .closeSession "session" "user" none, .createJob "job" sampleApply {}]

/-- In this run the checkpoint job is accepted after the console is over. -/
theorem consoleSessions_iff_sample :
    ∃ ls t, t.jobs.rows ≠ [] ∧
      ((∀ u, Run.Visits Step sampleState ls t u → SessionsSettled u t ∧ OneOpen u ∧ Exclusive u) ↔
        ∀ u l, Run.Takes Step sampleState ls t u l → MeetsNoExpiry u l.1) := by
  have hsample : (sampleState.performAll sampleConsoleRun).any (fun run =>
      !run.2.jobs.rows.isEmpty) = true := by
    decide +kernel
  obtain ⟨⟨ls, t⟩, hrun, h⟩ := (Option.any_eq_true _ _).mp hsample
  refine ⟨ls, t, ?_, consoleSessions_iff ⟨rfl, rfl, rfl⟩ (State.run_of_performAll hrun)⟩
  intro hnone
  rw [hnone] at h
  cases h

end Ipms.Server.HyperV
