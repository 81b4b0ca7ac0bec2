import Ipms.Jobs.Reports

/-
  Ipms.Jobs.Delivery

  The delivery of pending results.  A result in a file is accepted exactly while
  its job is running on the control plane: the second report of a result that was
  recorded is refused.  So the runs in which every pending result stays
  acceptable are those in which no result is filed or recorded at the wrong time.
-/

namespace Ipms.Jobs

open Ipms.Lib Ipms.Server Server System
open Option (any_eq_true bind_eq_bind map_eq_some_iff pure_def some)

/-! ## Running jobs -/

/-- The control plane holds the job as running. -/
def Server.running (s : Server) (ref : Ref) : Bool :=
  (s.jobs.get? ref).any fun job => job.status == .running

variable {ref : Ref}

theorem Server.running_iff {s : Server} :
    s.running ref = true ↔ ∃ job, s.jobs.get? ref = some job ∧ job.status = .running := by
  simp [running, any_eq_true]

variable {report : Report} {kind : Kind}

theorem Server.record_isSome {s : Server} (h : report.Final) :
    (s.record kind report).isSome = true ↔ s.running ⟨kind, report.jobId⟩ = true := by
  rw [record_final h.result h.code, running_iff]

theorem Administered.running {s t : Server} (h : Administered (s.jobs.get? ref) (t.jobs.get? ref))
    (hs : s.running ref = true) : t.running ref = true := by
  obtain ⟨job, hjob, hstatus⟩ := running_iff.mp hs
  refine running_iff.mpr ?_
  cases h with
  | same h => exact ⟨job, h.trans hjob, hstatus⟩
  | created hbefore hafter hfresh =>
    rw [hjob] at hbefore
    cases hbefore
  | @withdrawn other now code hbefore hactive hafter =>
    rw [hjob] at hbefore
    cases hbefore
    refine ⟨_, hafter, ?_⟩
    unfold Job.withdraw
    split
    · exact hstatus
    · rw [if_neg (by rw [hstatus]; decide)]
      exact hstatus

theorem Server.running_process {s : Server} (now : Time) (message : Message)
    (hs : s.running ref = true) : (s.process now message).1.running ref = true ∨
      ∃ kind report, message = .result kind report ∧ report.result ≠ .running ∧
        ref = ⟨kind, report.jobId⟩ := by
  obtain ⟨job, hjob, hstatus⟩ := running_iff.mp hs
  cases s.served now message ref with
  | same h => exact .inl (running_iff.mpr ⟨job, h.trans hjob, hstatus⟩)
  | withdrawn hbefore hauthority hoffered hafter | delivered hbefore hauthority hoffered hafter =>
    rw [hjob] at hbefore
    cases hbefore
    rw [hstatus] at hoffered
    cases hoffered
  | @recorded other kind report hmessage href hbefore hafter hcases =>
    rw [hjob] at hbefore
    cases hbefore
    rcases hcases with ⟨-, hdelivered⟩ | ⟨hresult, -⟩
    · rw [hstatus] at hdelivered
      cases hdelivered
    · exact .inr ⟨kind, report, hmessage, hresult, href⟩

theorem Server.process_final {s : Server} (now : Time) (hfinal : report.Final)
    (hs : s.running ⟨kind, report.jobId⟩ = true) :
    (s.process now (.result kind report)).2 = .inl .accepted ∧
      (s.process now (.result kind report)).1.running ⟨kind, report.jobId⟩ = false := by
  obtain ⟨t, ht⟩ := Option.isSome_iff_exists.mp ((record_isSome hfinal).mpr hs)
  obtain ⟨job, hjob, hjobs, -⟩ := record_cases ht
  have hkey : job.ref = ⟨kind, report.jobId⟩ := Table.get?_key hjob
  have hget : s.jobs.get? job.ref = some job := Table.get?_of_mem (Table.get?_mem hjob)
  simp only [process, ht]
  refine ⟨trivial, ?_⟩
  rw [running, hjobs, get?_save_of_ref hget (job.ref_withResult report), if_pos hkey.symm]
  have hresult := hfinal.result
  show (report.result.status == Status.running) = false
  revert hresult
  cases report.result <;> simp [Result.status]

@[simp] theorem System.server_setCycle (s : System) (c : Nat) (phase : Phase) :
    (s.setCycle c phase).server = s.server := rfl

theorem Server.enrolled_process (s : Server) (now : Time) (message : Message) :
    (s.process now message).1.enrolled = s.enrolled := by
  have hoffer : ∀ kind check, (s.offerJob kind check now).1.enrolled = s.enrolled := by
    intro kind check
    rcases s.offerJob_cases kind check now with h | ⟨job, -, -, -, -, ⟨-, h⟩ | ⟨-, h⟩⟩
    all_goals rw [h]
  cases message with
  | inventory =>
    have henrolled := hoffer .lifecycle (fun job => s.env.maintenanceAllowed job.action)
    simp only [process]
    cases h : s.offerLifecycleJob now with
    | mk u job? =>
      rw [show s.offerJob .lifecycle (fun job => s.env.maintenanceAllowed job.action) now =
        (u, job?) from h] at henrolled
      cases job? <;> exact henrolled
  | inventoryOffered => exact hoffer .vm (fun _ => true)
  | artifact jobId =>
    simp only [process]
    cases s.lifecycleArtifact jobId <;> rfl
  | result kind report =>
    simp only [process]
    cases hrecord : s.record kind report with
    | none => rfl
    | some u =>
      obtain ⟨_, -, -, -, -, henrolled, -⟩ := record_cases hrecord
      exact henrolled

variable {l : Event × Option Observation} {s t : System}

/-- An agent that is still enrolled was enrolled before, and its enrollment was not removed. -/
theorem Step.enrolled (h : Step s l t) (ht : t.server.enrolled = true) :
    s.server.enrolled = true ∧ l.1 ≠ .admin .removeEnrollment := by
  obtain ⟨event, o⟩ := l
  cases event with
  | admin act =>
    simp only [Step, step, map_eq_some_iff] at h
    obtain ⟨server, hserver, h⟩ := h
    cases h
    cases act with
    | createLifecycleJob id actor uninstall =>
      simp only [administer, createLifecycleJob, bind_eq_bind,
        Option.bind_eq_some_iff, pure_def, some.injEq] at hserver
      obtain ⟨_, -, _, -, _, -, _, -, action, -, _, -, jobs, -, rfl⟩ := hserver
      exact ⟨ht, by simp⟩
    | createHypervActionJob id actor vm action =>
      simp only [administer, createHypervActionJob, bind_eq_bind,
        Option.bind_eq_some_iff, pure_def, some.injEq] at hserver
      obtain ⟨_, -, machine, -, _, -, _, -, _, -, _, -, _, -, jobs, -, rfl⟩ := hserver
      exact ⟨ht, by simp⟩
    | environment env | machine id vm | withdrawIdentity actor now reason =>
      cases hserver
      exact ⟨ht, by simp⟩
    | tenant status now =>
      cases hserver
      refine ⟨?_, by simp⟩
      revert ht
      show (s.server.applyTenantStatusChange status now).enrolled = true → _
      unfold applyTenantStatusChange
      split <;> exact id
    | removeEnrollment =>
      cases hserver
      cases ht
  | serve request kept answered now =>
    have henrolled := s.server.enrolled_process now request.message
    obtain ⟨-, -, -, -, ⟨_, hprocess, -⟩ | ⟨_, hprocess, -⟩⟩ := serve_cases h
    all_goals
      rw [hprocess] at henrolled
      exact ⟨henrolled.symm.trans ht, by simp⟩
  | lose request =>
    cases h
    exact ⟨ht, by simp⟩
  | cycle c act =>
    rw [(cycleStep h).frame.1] at ht
    exact ⟨ht, by simp⟩
  | updater jobId act =>
    simp only [Step, step, map_eq_some_iff] at h
    obtain ⟨u, hupdater, h⟩ := h
    cases h
    rw [(updaterStep hupdater).frame.1] at ht
    exact ⟨ht, by simp⟩

variable {ls : List (Event × Option Observation)}

theorem Runs.enrolled (h : Runs s ls t) (ht : t.server.enrolled = true) :
    s.server.enrolled = true := by
  induction h with
  | nil => exact ht
  | cons hstep _ ih => exact (hstep.enrolled (ih ht)).1

theorem takes_enrolled {u : System} (h : Run.Takes Step s ls t u l) (ht : t.server.enrolled = true)
    : l.1 ≠ .admin .removeEnrollment := by
  obtain ⟨_, v, _, -, -, hstep, hrest⟩ := h
  exact (hstep.enrolled (Runs.enrolled hrest ht)).2

/-! ## Pending results -/

/-- The control plane accepts the report of every pending result. -/
def Accepting (s : System) : Prop :=
  ∀ kind report, s.files kind = some report → (s.server.record kind report).isSome = true

/-- Every pending result is of a running job. -/
def Pending (s : System) : Prop :=
  ∀ kind report, s.files kind = some report → s.server.running ⟨kind, report.jobId⟩ = true

theorem accepting_iff (hs : WellFormed s) : Accepting s ↔ Pending s := by
  constructor
  · intro h kind report hfile
    exact (record_isSome (hs.files kind report hfile)).mp (h kind report hfile)
  · intro h kind report hfile
    exact (record_isSome (hs.files kind report hfile)).mpr (h kind report hfile)

/-- The condition on a step: a result is filed while its job is running, and no final result is
processed while a result of its job is pending. -/
def KeepsPending (s : System) : Event → Prop
  | .cycle c (.file true) =>
    ∀ report, s.cycles c = .filing report → s.server.running ⟨.vm, report.jobId⟩ = true
  | .updater jobId .advance =>
    (s.updaters jobId = .replacing ∨ ∃ code, s.updaters jobId = .failing code) →
      s.server.running ⟨.lifecycle, jobId⟩ = true
  | .serve request _ _ _ =>
    ∀ kind report pending, request.message = .result kind report → report.result ≠ .running →
      s.files kind = some pending → pending.jobId ≠ report.jobId
  | _ => True

theorem pending_setFile {s : System} (hs : Pending s) (kind : Kind) (report : Report) :
    Pending (s.setFile kind (some report)) ↔ s.server.running ⟨kind, report.jobId⟩ = true := by
  constructor
  · intro h
    exact h kind report (if_pos rfl)
  · intro h other pending hpending
    simp only [setFile] at hpending
    split at hpending
    · next hother =>
        cases hpending
        rw [hother]
        exact h
    · exact hs other pending hpending

theorem pending_step (h : Step s l t) (henrolled : l.1 ≠ .admin .removeEnrollment)
    (hwell : WellFormed s) (hs : Pending s) : Pending t ↔ KeepsPending s l.1 := by
  obtain ⟨event, o⟩ := l
  cases event with
  | admin act =>
    simp only [Step, step, map_eq_some_iff] at h
    obtain ⟨server, hadmin, h⟩ := h
    cases h
    have hact : act ≠ .removeEnrollment := by
      rintro rfl
      exact henrolled rfl
    refine iff_of_true (fun kind report hfile => ?_) trivial
    exact Administered.running (administered hadmin hact _) (hs kind report hfile)
  | lose request =>
    cases h
    exact iff_of_true hs trivial
  | serve request kept answered now =>
    obtain ⟨hsent, -, hfiles, -, hcases⟩ := serve_cases h
    have hserver : t.server = (s.server.process now request.message).1 := by
      rcases hcases with ⟨_, hprocess, -⟩ | ⟨_, hprocess, -⟩ <;> rw [hprocess]
    constructor
    · intro ht kind report pending hmessage hresult hpending hsame
      have hrunning := hs kind pending hpending
      have hafter := ht kind pending (by rw [hfiles]; exact hpending)
      rw [hsame] at hrunning hafter
      have hfinal := hwell.sent request hsent kind report hmessage hresult
      have hended := (process_final now hfinal hrunning).2
      rw [hserver, hmessage, hended] at hafter
      cases hafter
    · intro hkeep kind pending hpending
      rw [hfiles] at hpending
      rw [hserver]
      rcases running_process now request.message
        (hs kind pending hpending) with hrunning | ⟨kind', report, hmessage, hresult, href⟩
      · exact hrunning
      · obtain ⟨rfl, hid⟩ := Ref.mk.inj href
        exact absurd hid (hkeep kind report pending hmessage hresult hpending)
  | cycle c act =>
    have hstep := cycleStep h
    clear h
    cases hstep with
    | begin h | absent h hfile | pending h hfile | send h | proceed h hphase | keep h
    | execute outcome h hkind | launchFailed h hkind | launch h hkind | unfiled h | fail
    | crash => exact iff_of_true hs trivial
    | @remove kind h =>
      refine iff_of_true (fun other pending hpending => ?_) trivial
      simp only [setFile] at hpending
      split at hpending
      · cases hpending
      · exact hs other pending hpending
    | @file report h =>
      rw [pending_setFile (s := s.setCycle c .idle) hs .vm report]
      constructor
      · intro hrunning other hother
        rw [h] at hother
        cases hother
        exact hrunning
      · exact fun hkeep => hkeep report h
  | updater jobId act =>
    simp only [Step, step, map_eq_some_iff] at h
    obtain ⟨u, hupdater, h⟩ := h
    cases h
    have hstep := updaterStep hupdater
    cases hstep with
    | prepared h | report h | finished h =>
      refine iff_of_true hs ?_
      rintro (hreplacing | ⟨code, hfailing⟩)
      · simp [hreplacing] at h
      · simp [hfailing] at h
    | replaced h =>
      rw [pending_setFile (s := s.setUpdater jobId .restarting) hs .lifecycle (updated jobId)]
      exact ⟨fun hrunning _ => hrunning, fun hkeep => hkeep (.inl h)⟩
    | @failed code h =>
      rw [pending_setFile (s := s.setUpdater jobId .absent) hs .lifecycle
        ⟨jobId, .failed, code⟩]
      exact ⟨fun hrunning _ => hrunning, fun hkeep => hkeep (.inr ⟨code, h⟩)⟩
    | updateFailed h | rollBack h | dropped h | crash => exact iff_of_true hs trivial

/-! ## Results that are being delivered -/

/-- The kind of the result a cycle has delivered and whose file it is about to remove. -/
def Phase.settled? : Phase → Option Kind
  | .removing kind | .answered (.pending kind _) .accepted => some kind
  | _ => none

/-- Some cycle has delivered the pending result of a kind. -/
def Settling (s : System) (kind : Kind) : Prop := ∃ c, (s.cycles c).settled? = some kind

/-- The control plane accepts the report of every pending result, unless it has accepted it from
a cycle that is about to remove the file. -/
def Delivering (s : System) : Prop :=
  ∀ kind report, s.files kind = some report →
    (s.server.record kind report).isSome = true ∨ Settling s kind

/-- The condition on a step: a result is filed while its job is running; a final result of a job
with a pending result is processed for the cycle that reports it from the file, and its answer
reaches the cycle; and a cycle that has this answer removes the file. -/
def SettlesPending (s : System) : Event → Prop
  | .cycle c (.file true) =>
    ∀ report, s.cycles c = .filing report →
      s.server.running ⟨.vm, report.jobId⟩ = true ∨ Settling s .vm
  | .updater jobId .advance =>
    (s.updaters jobId = .replacing ∨ ∃ code, s.updaters jobId = .failing code) →
      s.server.running ⟨.lifecycle, jobId⟩ = true ∨ Settling s .lifecycle
  | .serve request _ answered _ =>
    ∀ kind report pending, request.message = .result kind report → report.result ≠ .running →
      s.files kind = some pending → pending.jobId = report.jobId →
      s.server.running ⟨kind, report.jobId⟩ = true →
      (∃ c filed connection, answered = some c ∧
        s.cycles c = .waiting (.pending kind filed) connection) ∨ Settling s kind
  | .cycle c .fail | .cycle c .crash | .cycle c (.remove false) =>
    ∀ kind pending, (s.cycles c).settled? = some kind → s.files kind = some pending →
      s.server.running ⟨kind, pending.jobId⟩ = true ∨
        ∃ other, other ≠ c ∧ (s.cycles other).settled? = some kind
  | _ => True

/-- Every pending result is of a running job, or a cycle is about to remove it. -/
def Deliverable (s : System) : Prop :=
  ∀ kind report, s.files kind = some report →
    s.server.running ⟨kind, report.jobId⟩ = true ∨ Settling s kind

theorem delivering_iff (hs : WellFormed s) : Delivering s ↔ Deliverable s := by
  constructor
  · intro h kind report hfile
    exact (h kind report hfile).imp_left (record_isSome (hs.files kind report hfile)).mp
  · intro h kind report hfile
    exact (h kind report hfile).imp_left (record_isSome (hs.files kind report hfile)).mpr

variable {c : Nat}

theorem settling_iff (hframe : ∀ other, other ≠ c →
    t.cycles other = s.cycles other) (kind : Kind) :
    Settling t kind ↔ (t.cycles c).settled? = some kind ∨
      ∃ other, other ≠ c ∧ (s.cycles other).settled? = some kind := by
  constructor
  · rintro ⟨other, hother⟩
    by_cases h : other = c
    · exact .inl (h ▸ hother)
    · exact .inr ⟨other, h, by rw [← hframe other h]; exact hother⟩
  · rintro (h | ⟨other, hne, hother⟩)
    · exact ⟨c, h⟩
    · exact ⟨other, by rw [hframe other hne]; exact hother⟩

theorem settling_of_frame {s t : System} {c : Nat} (hframe : ∀ other, other ≠ c →
    t.cycles other = s.cycles other) {kind : Kind} (hnot : (s.cycles c).settled? ≠ some kind)
    (h : Settling s kind) : Settling t kind := by
  obtain ⟨other, hother⟩ := h
  refine (settling_iff hframe kind).mpr (.inr ⟨other, ?_, hother⟩)
  rintro rfl
  exact hnot hother

theorem deliverable_setFile {s : System} (hs : Deliverable s) (kind : Kind) (report : Report) :
    Deliverable (s.setFile kind (some report)) ↔
      s.server.running ⟨kind, report.jobId⟩ = true ∨ Settling s kind := by
  constructor
  · intro h
    exact h kind report (if_pos rfl)
  · intro h other pending hpending
    simp only [setFile] at hpending
    split at hpending
    · next hother =>
        cases hpending
        rw [hother]
        exact h
    · exact hs other pending hpending

theorem deliverable_setCycle (hs : Deliverable s) (hnot : (s.cycles c).settled? = none)
    (phase : Phase) : Deliverable (s.setCycle c phase) := by
  intro kind report hfile
  refine (hs kind report hfile).imp_right (settling_of_frame (c := c) (fun _ hne => if_neg hne) ?_)
  rw [hnot]
  simp

variable {phase : Phase}

theorem deliverable_giveUp (hs : Deliverable s) (hphase : phase.settled? = none) :
    Deliverable (s.setCycle c phase) ↔
      ∀ kind pending, (s.cycles c).settled? = some kind → s.files kind = some pending →
        s.server.running ⟨kind, pending.jobId⟩ = true ∨
          ∃ other, other ≠ c ∧ (s.cycles other).settled? = some kind := by
  have hframe : ∀ other, other ≠ c → (s.setCycle c phase).cycles other = s.cycles other :=
    fun _ hne => if_neg hne
  have hself : ((s.setCycle c phase).cycles c).settled? = none := by
    rw [cycles_setCycle, if_pos rfl, hphase]
  constructor
  · intro h kind pending _ hpending
    refine (h kind pending hpending).imp_right fun hsettling => ?_
    rcases (settling_iff hframe kind).mp hsettling with hc | hother
    · rw [hself] at hc
      cases hc
    · exact hother
  · intro h kind pending hpending
    by_cases hc : (s.cycles c).settled? = some kind
    · refine (h kind pending hc hpending).imp_right fun hother => ?_
      exact (settling_iff hframe kind).mpr (.inr hother)
    · exact (hs kind pending hpending).imp_right (settling_of_frame hframe hc)

theorem settled?_afterFile (kind : Kind) : (Phase.afterFile kind).settled? = none := by
  cases kind <;> rfl

theorem settled?_afterFailure (phase : Phase) : phase.afterFailure.settled? = none := by
  unfold Phase.afterFailure
  split <;> rfl

theorem settled?_next {purpose : Purpose} (h : phase.next = some purpose) :
    phase.settled? = none := by
  cases phase with
  | polling | assigned a | staged a | executed a report => rfl
  | idle | checking kind | waiting p n | answered p a | removing kind | started a | filing report =>
    cases h

theorem settled?_afterAnswer {purpose : Purpose} {answer : Answer}
    (h : Phase.afterAnswer purpose answer = some phase) :
    phase.settled? = (Phase.answered purpose answer).settled? := by
  cases purpose with
  | artifact a =>
    cases answer with
    | binary sha256 =>
      simp only [Phase.afterAnswer] at h
      split at h
      · split at h
        · cases h
          rfl
        · cases h
      · cases h
    | accepted | rejected | assigned _ => cases h
  | poll =>
    cases answer with
    | assigned a? => cases a? <;> cases h <;> rfl
    | accepted | rejected | binary _ => cases h
  | running a | pending kind report | final a report =>
    cases answer with
    | accepted =>
      cases h
      rfl
    | rejected | assigned _ | binary _ => cases h

theorem deliverable_step (h : Step s l t) (henrolled : l.1 ≠ .admin .removeEnrollment)
    (hwell : WellFormed s) (hs : Deliverable s) : Deliverable t ↔ SettlesPending s l.1 := by
  obtain ⟨event, o⟩ := l
  cases event with
  | admin act =>
    simp only [Step, step, map_eq_some_iff] at h
    obtain ⟨server, hadmin, h⟩ := h
    cases h
    have hact : act ≠ .removeEnrollment := by
      rintro rfl
      exact henrolled rfl
    refine iff_of_true (fun kind report hfile => ?_) trivial
    exact (hs kind report hfile).imp_left
      (Administered.running (administered hadmin hact _))
  | lose request =>
    cases h
    exact iff_of_true hs trivial
  | serve request kept answered now =>
    obtain ⟨hsent, -, hfiles, -, hcases⟩ := serve_cases h
    have hserver : t.server = (s.server.process now request.message).1 := by
      rcases hcases with ⟨_, hprocess, -⟩ | ⟨_, hprocess, -⟩ <;> rw [hprocess]
    -- no cycle loses what it has delivered: the cycle that is answered was waiting
    have hkept : ∀ kind, Settling s kind → Settling t kind := by
      intro kind hsettling
      rcases hcases with ⟨_, -, -, -, hcycles, -⟩ | ⟨answer, -, -, -, ⟨-, hcycles⟩ |
        ⟨c, purpose, -, hwaiting, -, hcycles⟩⟩
      · exact hsettling.imp fun c hc => by rw [hcycles]; exact hc
      · exact hsettling.imp fun c hc => by rw [hcycles]; exact hc
      · have hframe : ∀ other, other ≠ c → t.cycles other = s.cycles other := by
          intro other hne
          rw [hcycles, cycles_setCycle, if_neg hne]
        refine settling_of_frame hframe ?_ hsettling
        rw [hwaiting]
        simp [Phase.settled?]
    constructor
    · intro ht kind report pending hmessage hresult hpending hsame hrunning
      have hfinal := hwell.sent request hsent kind report hmessage hresult
      have hended := (process_final now hfinal hrunning).2
      rcases ht kind pending (by rw [hfiles]; exact hpending) with hafter | hsettling
      · rw [hserver, hmessage, hsame, hended] at hafter
        cases hafter
      · rcases hcases with ⟨_, -, -, -, hcycles, -⟩ | ⟨answer, -, -, -, ⟨-, hcycles⟩ |
          ⟨c, purpose, hanswered, hwaiting, hawaits, hcycles⟩⟩
        · exact .inr (hsettling.imp fun c hc => by rw [hcycles] at hc; exact hc)
        · exact .inr (hsettling.imp fun c hc => by rw [hcycles] at hc; exact hc)
        · have hframe : ∀ other, other ≠ c → t.cycles other = s.cycles other := by
            intro other hne
            rw [hcycles, cycles_setCycle, if_neg hne]
          rcases (settling_iff hframe kind).mp hsettling with hc | ⟨other, -, hother⟩
          · rw [hcycles, cycles_setCycle, if_pos rfl] at hc
            cases purpose with
            | pending kind' filed =>
              have hkind : kind' = kind := by
                cases answer with
                | accepted => exact some.inj hc
                | rejected | assigned _ | binary _ => cases hc
              rw [hkind] at hwaiting
              exact .inl ⟨c, filed, request.connection, hanswered, hwaiting⟩
            | poll | artifact _ | running _ | final _ _ => cases hc
          · exact .inr ⟨other, hother⟩
    · intro hsettles kind pending hpending
      rw [hfiles] at hpending
      rcases hs kind pending hpending with hrunning | hsettling
      · rcases running_process now request.message hrunning with
          hafter | ⟨kind', report, hmessage, hresult, href⟩
        · exact .inl (by rw [hserver]; exact hafter)
        · obtain ⟨rfl, hid⟩ := Ref.mk.inj href
          rw [hid] at hrunning
          rcases hsettles kind report pending hmessage hresult hpending hid hrunning with
            ⟨c, filed, connection, hanswered, hwaiting⟩ | hsettling
          · -- the answer `accepted` reaches the cycle that reports the file
            have hfinal := hwell.sent request hsent kind report hmessage hresult
            have haccepted := (process_final now hfinal hrunning).1
            rw [← hmessage] at haccepted
            rcases hcases with ⟨_, hprocess, -⟩ | ⟨answer, hprocess, -, -, ⟨hnone, -⟩ |
              ⟨c', purpose, hanswered', hwaiting', -, hcycles⟩⟩
            · rw [hprocess] at haccepted
              cases haccepted
            · rw [hnone] at hanswered
              cases hanswered
            · rw [hanswered] at hanswered'
              cases hanswered'
              rw [hwaiting] at hwaiting'
              cases hwaiting'
              rw [hprocess] at haccepted
              cases haccepted
              refine .inr ⟨c, ?_⟩
              rw [hcycles, cycles_setCycle, if_pos rfl]
              rfl
          · exact .inr (hkept kind hsettling)
      · exact .inr (hkept kind hsettling)
  | cycle c act =>
    have hstep := cycleStep h
    clear h
    cases hstep with
    | begin h | absent h hfile | execute outcome h hkind | launchFailed h hkind | unfiled h =>
      exact iff_of_true (deliverable_setCycle hs (by rw [h]; rfl) _) trivial
    | launch h hkind =>
      exact iff_of_true
        (fun kind report hfile => deliverable_setCycle hs (by rw [h]; rfl) _ kind report hfile)
        trivial
    | @pending kind report h hfile =>
      exact iff_of_true (fun other pending hpending =>
        deliverable_setCycle hs (by rw [h]; rfl) (.waiting (.pending kind report) s.connections)
          other pending hpending) trivial
    | @send purpose h =>
      exact iff_of_true (fun other pending hpending =>
        deliverable_setCycle hs (settled?_next h) (.waiting purpose s.connections)
          other pending hpending) trivial
    | @proceed purpose answer phase h hphase =>
      refine iff_of_true (fun kind pending hpending => ?_) trivial
      refine (hs kind pending hpending).imp_right ?_
      rintro ⟨other, hother⟩
      refine ⟨other, ?_⟩
      rw [cycles_setCycle]
      split
      · next hc =>
          rw [hc, h] at hother
          rw [settled?_afterAnswer hphase]
          exact hother
      · exact hother
    | keep h =>
      exact deliverable_giveUp hs (settled?_afterFile _)
    | fail => exact deliverable_giveUp hs (settled?_afterFailure _)
    | crash => exact deliverable_giveUp hs rfl
    | @remove kind h =>
      refine iff_of_true (fun other pending hpending => ?_) trivial
      simp only [setFile] at hpending
      split at hpending
      · cases hpending
      · next hne =>
          refine (hs other pending hpending).imp_right (settling_of_frame (c := c)
            (fun _ hne => if_neg hne) ?_)
          rw [h]
          intro hkind
          exact hne (some.inj hkind).symm
    | @file report h =>
      have hdeliverable := deliverable_setCycle hs (c := c) (by rw [h]; rfl) .idle
      rw [deliverable_setFile hdeliverable .vm report]
      have hsettling : Settling (s.setCycle c .idle) .vm ↔ Settling s .vm := by
        constructor
        · rintro ⟨other, hother⟩
          refine ⟨other, ?_⟩
          rw [cycles_setCycle] at hother
          split at hother
          · cases hother
          · exact hother
        · exact settling_of_frame (fun _ hne => if_neg hne) (by rw [h]; simp [Phase.settled?])
      rw [hsettling]
      constructor
      · intro hrunning other hother
        rw [h] at hother
        cases hother
        exact hrunning
      · exact fun hsettles => hsettles report h
  | updater jobId act =>
    simp only [Step, step, map_eq_some_iff] at h
    obtain ⟨u, hupdater, h⟩ := h
    cases h
    have hstep := updaterStep hupdater
    cases hstep with
    | prepared h | report h | finished h =>
      refine iff_of_true hs ?_
      rintro (hreplacing | ⟨code, hfailing⟩)
      · simp [hreplacing] at h
      · simp [hfailing] at h
    | replaced h =>
      rw [deliverable_setFile (s := s.setUpdater jobId .restarting) hs .lifecycle
        (updated jobId)]
      exact ⟨fun hrunning _ => hrunning, fun hsettles => hsettles (.inl h)⟩
    | @failed code h =>
      rw [deliverable_setFile (s := s.setUpdater jobId .absent) hs .lifecycle
        ⟨jobId, .failed, code⟩]
      exact ⟨fun hrunning _ => hrunning, fun hsettles => hsettles (.inr ⟨code, h⟩)⟩
    | updateFailed h | rollBack h | dropped h | crash => exact iff_of_true hs trivial

theorem System.Initial.pending {s : System} (hs : s.Initial) : Accepting s ∧ Delivering s := by
  have hfiles := hs.2.2.2.2
  constructor
  · intro kind report h
    rw [hfiles kind] at h
    cases h
  · intro kind report h
    rw [hfiles kind] at h
    cases h

/-- Along a run of an enrolled agent the control plane accepts every pending result in every
state exactly if every step keeps the pending results; and in every state it accepts them, or has
accepted them from a cycle that is about to remove the file, exactly if every step settles
them. -/
theorem pending_results_accepted {s t : System} {ls : List (Event × Option Observation)}
    (hs : s.Initial) (h : Runs s ls t) (ht : t.server.enrolled = true) :
    ((∀ u, Run.Visits Step s ls t u → Accepting u) ↔
      ∀ u l, Run.Takes Step s ls t u l → KeepsPending u l.1) ∧
    ((∀ u, Run.Visits Step s ls t u → Delivering u) ↔
      ∀ u l, Run.Takes Step s ls t u l → SettlesPending u l.1) := by
  constructor
  · apply Run.forall_visits_iff (fun _ _ _ hstep hwell => WellFormed.step hstep hwell) _ h
      hs.wellFormed hs.pending.1
    intro u l v htakes hstep hwell hu
    rw [accepting_iff hwell] at hu
    rw [accepting_iff (hwell.step hstep)]
    exact pending_step hstep (takes_enrolled htakes ht) hwell hu
  · apply Run.forall_visits_iff (fun _ _ _ hstep hwell => WellFormed.step hstep hwell) _ h
      hs.wellFormed hs.pending.2
    intro u l v htakes hstep hwell hu
    rw [delivering_iff hwell] at hu
    rw [delivering_iff (hwell.step hstep)]
    exact deliverable_step hstep (takes_enrolled htakes ht) hwell hu

/-- A run in which a pending result is filed, accepted from the file and removed meets the second
condition, and the control plane accepts it in every state. -/
theorem pending_results_accepted_sample :
    ∃ t ls, Runs sampleSystem ls t ∧
      ((∀ u, Run.Visits Step sampleSystem ls t u → Accepting u) ↔
        ∀ u l, Run.Takes Step sampleSystem ls t u l → KeepsPending u l.1) := by
  have hsample : (sampleSystem.runAll (sampleAccepted ++
      [.cycle 0 .proceed, .cycle 0 (.execute .stateConfirmed), .cycle 0 .send,
       .lose ⟨2, .result .vm (VmOutcome.stateConfirmed.report "job-1")⟩, .cycle 0 .fail,
       .cycle 0 (.file true)])).any (fun r => r.1.server.enrolled) = true := by
    decide +kernel
  obtain ⟨⟨t, ls⟩, hrun, henrolled⟩ := (any_eq_true _ _).mp hsample
  have hruns := (runs_of_runAll hrun).1
  exact ⟨t, ls, hruns, (pending_results_accepted sampleSystem_initial hruns henrolled).1⟩

/-! ## A result that is never delivered -/

/-- The phases of a cycle that never gets past the pending result of a kind. -/
def Phase.silenced (kind : Kind) (report : Report) : Phase → Prop
  | .idle | .checking .lifecycle => True
  | .checking .vm => kind = .vm
  | .waiting purpose _ => purpose = .pending kind report
  | .answered purpose answer => purpose = .pending kind report ∧ answer = .rejected
  | _ => False

/-- The agent can do no more than report a result that is refused. -/
structure Silenced (s : System) (kind : Kind) (report : Report) : Prop where
  file : s.files kind = some report
  before : kind = .vm → s.files .lifecycle = none
  final : report.Final
  ended : ∃ job, s.server.jobs.get? ⟨kind, report.jobId⟩ = some job ∧ job.status.active = false
  cycles : ∀ c, (s.cycles c).silenced kind report
  updaters : ∀ jobId, s.updaters jobId = .absent
  sent : ∀ request ∈ s.sent, request.message = .result kind report

theorem Silenced.refused (h : Silenced s kind report) : s.server.record kind report = none := by
  cases hrecord : s.server.record kind report with
  | none => rfl
  | some t =>
    obtain ⟨job, hjob, hended⟩ := h.ended
    have hrunning := (record_isSome h.final).mp (by rw [hrecord]; rfl)
    obtain ⟨other, hother, hstatus⟩ := running_iff.mp hrunning
    rw [hjob] at hother
    cases hother
    rw [hstatus] at hended
    cases hended

theorem Silenced.step (hs : Silenced s kind report) (h : Step s l t) : Silenced t kind report := by
  have hended : ∃ job, t.server.jobs.get? ⟨kind, report.jobId⟩ = some job ∧
      job.status.active = false := by
    obtain ⟨job, hjob, hended⟩ := hs.ended
    obtain ⟨job', hjob', hfollows⟩ := Later.get? h.later hjob
    exact ⟨job', hjob', by rw [hfollows.status.eq_of_ended hended]; exact hended⟩
  obtain ⟨event, o⟩ := l
  cases event with
  | admin act =>
    simp only [Step, step, map_eq_some_iff] at h
    obtain ⟨server, -, h⟩ := h
    cases h
    exact ⟨hs.file, hs.before, hs.final, hended, hs.cycles, hs.updaters, hs.sent⟩
  | lose request =>
    cases h
    exact ⟨hs.file, hs.before, hs.final, hended, hs.cycles, hs.updaters,
      fun other hother => hs.sent other (List.mem_of_mem_erase hother)⟩
  | updater jobId act =>
    simp only [Step, step, map_eq_some_iff] at h
    obtain ⟨u, hupdater, h⟩ := h
    cases h
    have habsent := hs.updaters jobId
    cases act with
    | advance | throws =>
      simp only [updater, habsent] at hupdater
      cases hupdater
    | crash =>
      cases hupdater
      refine ⟨hs.file, hs.before, hs.final, hended, hs.cycles, fun id => ?_, hs.sent⟩
      show (if id = jobId then Updater.absent else s.updaters id) = .absent
      split
      · rfl
      · exact hs.updaters id
  | serve request kept answered now =>
    obtain ⟨hrequest, hupdaters, hfiles, -, hcases⟩ := serve_cases h
    have hmessage := hs.sent request hrequest
    have hprocess : s.server.process now request.message = (s.server, .inl .rejected) := by
      rw [hmessage]
      simp only [process, hs.refused]
    have hkept : ∀ other ∈ (if kept = true then s.sent else s.sent.erase request),
        other.message = .result kind report := by
      intro other hother
      split at hother
      · exact hs.sent other hother
      · exact hs.sent other (List.mem_of_mem_erase hother)
    rcases hcases with ⟨_, hsecond, -⟩ | ⟨answer, hanswer, -, hsent, hanswered⟩
    · rw [hprocess] at hsecond
      have hnot := congrArg Prod.snd hsecond
      cases hnot
    · rw [hprocess] at hanswer
      have hrejected : answer = .rejected := by
        have hsecond := congrArg Prod.snd hanswer
        cases hsecond
        rfl
      refine ⟨by rw [hfiles]; exact hs.file, by rw [hfiles]; exact hs.before, hs.final, hended,
        fun c => ?_, by rw [hupdaters]; exact hs.updaters, by rw [hsent]; exact hkept⟩
      obtain ⟨-, hcycles⟩ | ⟨c', purpose, -, hwaiting, -, hcycles⟩ := hanswered
      · rw [hcycles]
        exact hs.cycles c
      · rw [hcycles, cycles_setCycle]
        split
        · have hphase := hs.cycles c'
          rw [hwaiting] at hphase
          exact ⟨hphase, hrejected⟩
        · exact hs.cycles c
  | cycle c act =>
    have hphase := hs.cycles c
    have hstep := cycleStep h
    have hset : ∀ phase : Phase, phase.silenced kind report →
        ∀ other, ((s.setCycle c phase).cycles other).silenced kind report := by
      intro phase hsilenced other
      rw [cycles_setCycle]
      split
      · exact hsilenced
      · exact hs.cycles other
    clear h
    cases hstep with
    | begin h | crash =>
      exact ⟨hs.file, hs.before, hs.final, hs.ended, hset _ trivial, hs.updaters, hs.sent⟩
    | fail =>
      refine ⟨hs.file, hs.before, hs.final, hs.ended, hset _ ?_, hs.updaters, hs.sent⟩
      unfold Phase.afterFailure
      split
      · next heq =>
          rw [heq] at hphase
          cases hphase
      · next heq =>
          rw [heq] at hphase
          cases hphase.1
      · trivial
    | @absent other h hfile =>
      rw [h] at hphase
      -- the file that is looked for first is absent
      have hother : other = .lifecycle ∧ kind = .vm := by
        cases other with
        | lifecycle =>
          refine ⟨rfl, ?_⟩
          cases kind with
          | vm => rfl
          | lifecycle =>
            rw [hs.file] at hfile
            cases hfile
        | vm =>
          rw [show kind = .vm from hphase] at hs
          rw [hs.file] at hfile
          cases hfile
      obtain ⟨rfl, hkind⟩ := hother
      exact ⟨hs.file, hs.before, hs.final, hs.ended, hset _ hkind, hs.updaters, hs.sent⟩
    | @pending other filed h hfile =>
      rw [h] at hphase
      have hother : other = kind := by
        cases other with
        | lifecycle =>
          cases kind with
          | lifecycle => rfl
          | vm =>
            rw [hs.before rfl] at hfile
            cases hfile
        | vm => exact (show kind = .vm from hphase).symm
      subst hother
      have hfiled : filed = report := by
        rw [hs.file] at hfile
        exact (some.inj hfile).symm
      subst hfiled
      refine ⟨hs.file, hs.before, hs.final, hs.ended, hset _ rfl, hs.updaters,
        fun request hrequest => ?_⟩
      rcases List.mem_cons.mp hrequest with rfl | hold
      · rfl
      · exact hs.sent request hold
    | send h =>
      cases hcycle : s.cycles c with
      | idle | checking other | waiting purpose connection | answered purpose answer =>
        rw [hcycle] at h
        cases h
      | removing other | polling | assigned a | staged a | started a | executed a r
      | filing r =>
        rw [hcycle] at hphase
        cases hphase
    | proceed h hafter =>
      rw [h] at hphase
      obtain ⟨rfl, rfl⟩ := hphase
      cases hafter
    | keep h | remove h | execute outcome h hkind | launchFailed h hkind | launch h hkind
    | unfiled h | file h =>
      rw [h] at hphase
      cases hphase

theorem Silenced.run (hs : Silenced s kind report) (h : Runs s ls t) : Silenced t kind report :=
  Run.preserves (I := fun s => Silenced s kind report) (fun _ _ _ hstep hs => hs.step hstep) h hs

/-- A VM action whose final report is recorded while the reply to it is lost. -/
def lostReply : List Event :=
  sampleAccepted ++
    [.cycle 0 .proceed, .cycle 0 (.execute .stateConfirmed), .cycle 0 .send,
     .serve ⟨2, .result .vm (VmOutcome.stateConfirmed.report "job-1")⟩ false none 3,
     .cycle 0 .fail, .cycle 0 (.file true)]

/-- The reply to a recorded result is lost: the agent files the result, the control plane refuses
it, and the agent is silenced for ever. -/
theorem lost_reply_silences :
    ∃ t ls, Runs sampleSystem ls t ∧ t.server.enrolled = true ∧ ¬ Accepting t ∧
      ∀ u ks, Runs t ks u → Silenced u .vm (VmOutcome.stateConfirmed.report "job-1") := by
  have hsample : (sampleSystem.runAll lostReply).any (fun r =>
      r.1.server.enrolled &&
        (r.1.server.jobs.get? sampleRef).any (fun job => job.status.active == false) &&
        r.1.files .vm == some (VmOutcome.stateConfirmed.report "job-1") &&
        r.1.files .lifecycle == none && r.1.sent == [] && r.1.cycles 0 == .idle) = true := by
    decide +kernel
  obtain ⟨⟨t, ls⟩, hrun, h⟩ := (any_eq_true _ _).mp hsample
  simp only [Bool.and_eq_true, beq_iff_eq, any_eq_true] at h
  obtain ⟨⟨⟨⟨⟨henrolled, hended⟩, hfile⟩, hbefore⟩, hsent⟩, hzero⟩ := h
  obtain ⟨hidle, habsent⟩ := sample_idle hrun
    (by
      intro event hevent c hc
      have hne : (0 == c) = false := by simpa using hc.symm
      simp only [lostReply, sampleAccepted, List.cons_append, List.nil_append, List.mem_cons,
        List.not_mem_nil, or_false] at hevent
      rcases hevent with rfl | rfl | rfl | rfl | rfl | rfl | rfl | rfl | rfl | rfl | rfl | rfl |
        rfl | rfl | rfl | rfl <;> first | rfl | exact hne)
    (by decide +kernel) hzero
  have hsilenced : Silenced t .vm (VmOutcome.stateConfirmed.report "job-1") := by
    refine ⟨hfile, fun _ => hbefore, VmOutcome.final_report _ _, hended, fun c => ?_, habsent, ?_⟩
    · rw [hidle c]
      trivial
    · rw [hsent]
      intro _ h
      cases h
  refine ⟨t, ls, (runs_of_runAll hrun).1, henrolled, fun haccepting => ?_,
    fun u ks hrun => hsilenced.run hrun⟩
  have haccepted := haccepting .vm _ hfile
  rw [hsilenced.refused] at haccepted
  cases haccepted

end Ipms.Jobs
