import Ipms.Jobs.Steps

/-
  Ipms.Jobs.AtMostOnce

  Each job is accepted as running at most once and started at most once, after
  that acceptance; its end is final, and a withdrawn authority is never used
  again.  Several cycles may hold the same offer: the acceptance of `running` is
  a permit that exactly one of them gets.
-/

namespace Ipms.Jobs

open Ipms.Lib Ipms.Server System

/-! ## Permits -/

/-- The job a cycle may start: the acceptance of `running` has reached it. -/
def Phase.permit : Phase → Option Ref
  | .answered (.running a) .accepted => some a.ref
  | .started a => some a.ref
  | _ => none

/-- The job is past its offers, so that `running` is not accepted for it again. -/
def Spent (s : System) (ref : Ref) : Prop :=
  ∃ job, s.server.jobs.get? ref = some job ∧ job.status.offered = false

/-- A job with a permit is spent, and only one cycle has the permit. -/
structure Permits (s : System) : Prop where
  spent : ∀ c ref, (s.cycles c).permit = some ref → Spent s ref
  unique : ∀ c c' ref, (s.cycles c).permit = some ref → (s.cycles c').permit = some ref → c = c'

variable {l : Event × Option Observation} {s t : System} {ref : Ref}

theorem Spent.step (h : Step s l t) (hs : Spent s ref) : Spent t ref := by
  obtain ⟨job, hjob, hoffered⟩ := hs
  obtain ⟨job', hjob', hfollows⟩ := Later.get? h.later hjob
  exact ⟨job', hjob', hfollows.status.offered hoffered⟩

/-- The answer `accepted` to the report `running` is the only source of a permit. -/
theorem permit_answered {purpose : Purpose} {answer : Answer}
    (h : (Phase.answered purpose answer).permit = some ref) :
    ∃ a, purpose = .running a ∧ answer = .accepted ∧ a.ref = ref := by
  cases purpose with
  | running a =>
    cases answer with
    | accepted => exact ⟨a, rfl, rfl, Option.some.inj h⟩
    | rejected | assigned _ | binary _ => cases h
  | pending _ _ | poll | artifact _ | final _ _ => cases h

/-- An answer takes a cycle to no permit but the one it brings. -/
theorem permit_afterAnswer {purpose : Purpose} {answer : Answer} {phase : Phase}
    (h : Phase.afterAnswer purpose answer = some phase) (hpermit : phase.permit = some ref) :
    (Phase.answered purpose answer).permit = some ref := by
  cases purpose with
  | running a =>
    cases answer with
    | accepted =>
      cases h
      exact hpermit
    | rejected | assigned _ | binary _ => cases h
  | artifact a =>
    cases answer with
    | binary sha256 =>
      simp only [Phase.afterAnswer] at h
      split at h
      · split at h
        · cases h
          cases hpermit
        · cases h
      · cases h
    | accepted | rejected | assigned _ => cases h
  | poll =>
    cases answer with
    | assigned a? => cases a? <;> cases h <;> cases hpermit
    | accepted | rejected | binary _ => cases h
  | pending kind report | final a report =>
    cases answer with
    | accepted =>
      cases h
      cases hpermit
    | rejected | assigned _ | binary _ => cases h

theorem permit_afterFile (kind : Kind) : (Phase.afterFile kind).permit = none := by
  cases kind <;> rfl

theorem permit_afterFailure (phase : Phase) : phase.afterFailure.permit = none := by
  unfold Phase.afterFailure
  split <;> rfl

@[simp] theorem System.cycles_setCycle (s : System) (c : Nat) (phase : Phase) (other : Nat) :
    (s.setCycle c phase).cycles other = if other = c then phase else s.cycles other := rfl

variable {c : Nat}

theorem CycleStep.permit {act : CycleAct} {o : Option Observation} (h : CycleStep s c act t o)
    (hpermit : (t.cycles c).permit = some ref) : (s.cycles c).permit = some ref := by
  have hset : ∀ phase, ((s.setCycle c phase).cycles c).permit = phase.permit := by
    intro phase
    rw [cycles_setCycle, if_pos rfl]
  cases h with
  | begin h | launchFailed h hkind | launch h hkind | unfiled h | file h | crash
  | execute outcome h hkind | pending h hfile | send h =>
    have hnone := (hset _).symm.trans hpermit
    cases hnone
  | absent h hfile | keep h | remove h =>
    have hnone := (hset _).symm.trans hpermit
    rw [permit_afterFile] at hnone
    cases hnone
  | fail =>
    have hnone := (hset _).symm.trans hpermit
    rw [permit_afterFailure] at hnone
    cases hnone
  | proceed h hphase =>
    rw [h]
    exact permit_afterAnswer hphase ((hset _).symm.trans hpermit)

theorem CycleStep.started {act : CycleAct} (h : CycleStep s c act t (some (.started ref))) :
    (s.cycles c).permit = some ref ∧ (t.cycles c).permit = none := by
  cases h with
  | execute outcome h hkind =>
    rw [h]
    exact ⟨rfl, by rw [cycles_setCycle, if_pos rfl]; rfl⟩
  | launch h hkind =>
    rw [h]
    exact ⟨rfl, by simp [setUpdater, Phase.permit]⟩

/-- What a step does to the permits: they were there before, or the step accepts `running` and
gives the permit to one cycle, which had another phase. -/
theorem Step.permit (h : Step s l t) :
    (∀ c ref, (t.cycles c).permit = some ref → (s.cycles c).permit = some ref) ∨
      ∃ c ref, l.2 = some (.accepted ref) ∧ Spent t ref ∧ ¬ Spent s ref ∧
        (t.cycles c).permit = some ref ∧ ∀ other, other ≠ c → t.cycles other = s.cycles other := by
  obtain ⟨event, o⟩ := l
  cases event with
  | admin act =>
    simp only [Step, step, Option.map_eq_some_iff] at h
    obtain ⟨server, -, h⟩ := h
    cases h
    exact .inl fun _ _ h => h
  | lose request =>
    cases h
    exact .inl fun _ _ h => h
  | updater jobId act =>
    simp only [Step, step, Option.map_eq_some_iff] at h
    obtain ⟨u, hupdater, h⟩ := h
    cases h
    rw [(updaterStep hupdater).frame.2]
    exact .inl fun _ _ h => h
  | cycle c act =>
    have hstep := cycleStep h
    refine .inl fun other ref hpermit => ?_
    by_cases hother : other = c
    · rw [hother] at hpermit ⊢
      exact hstep.permit hpermit
    · rwa [hstep.frame.2 other hother] at hpermit
  | serve request kept answered now =>
    obtain ⟨-, -, -, -, ⟨message, -, -, -, hcycles, -⟩ | ⟨answer, hprocess, ho, -, hanswered⟩⟩ :=
      serve_cases h
    · rw [hcycles]
      exact .inl fun _ _ h => h
    obtain ⟨-, hcycles⟩ | ⟨c, purpose, -, hwaiting, hawaits, hcycles⟩ := hanswered
    · rw [hcycles]
      exact .inl fun _ _ h => h
    have hframe : ∀ other, other ≠ c → t.cycles other = s.cycles other := by
      intro other hother
      rw [hcycles, cycles_setCycle, if_neg hother]
    have hc : t.cycles c = .answered purpose answer := by
      rw [hcycles, cycles_setCycle, if_pos rfl]
    cases hpermit : (t.cycles c).permit with
    | none =>
      refine .inl fun other ref hother => ?_
      by_cases heq : other = c
      · rw [heq, hpermit] at hother
        cases hother
      · rwa [hframe other heq] at hother
    | some ref =>
      rw [hc] at hpermit
      obtain ⟨a, rfl, rfl, rfl⟩ := permit_answered hpermit
      -- the cycle waits for the answer to its own report
      have hmessage : request.message = .result a.action.kind a.runningReport := by
        simpa [Purpose.awaits, Purpose.message] using hawaits
      obtain ⟨kind, report, hresult, hrecord⟩ := Server.process_accepted hprocess
      rw [hmessage] at hresult
      cases hresult
      obtain ⟨⟨job, hjob, hstatus⟩, job', hjob', hstatus'⟩ := Server.record_running hrecord rfl
      refine .inr ⟨c, a.ref, ?_, ⟨job', hjob', by rw [hstatus']; rfl⟩, ?_, ?_, hframe⟩
      · rw [ho, hmessage]
        rfl
      · rintro ⟨other, hother, hoffered⟩
        have hsame : job = other := Option.some.inj (hjob.symm.trans hother)
        rw [← hsame, hstatus] at hoffered
        cases hoffered
      · rw [hc]
        rfl

theorem Permits.step (h : Step s l t) (hs : Permits s) : Permits t := by
  obtain hkept | ⟨c, ref, -, hspent, hnot, hpermit, hframe⟩ := h.permit
  · exact ⟨fun c ref hp => (hs.spent c ref (hkept c ref hp)).step h,
      fun c c' ref hp hp' => hs.unique c c' ref (hkept c ref hp) (hkept c' ref hp')⟩
  · -- the new permit is for a job nobody had one for
    have hother : ∀ c', c' ≠ c → ∀ ref', (t.cycles c').permit = some ref' →
        (s.cycles c').permit = some ref' ∧ ref' ≠ ref := by
      intro c' hne ref' hp
      rw [hframe c' hne] at hp
      refine ⟨hp, ?_⟩
      rintro rfl
      exact hnot (hs.spent c' _ hp)
    have hself : ∀ ref', (t.cycles c).permit = some ref' → ref' = ref := fun ref' hp =>
      Option.some.inj (hp.symm.trans hpermit)
    constructor
    · intro c' ref' hp
      by_cases hne : c' = c
      · rw [hne] at hp
        rw [hself ref' hp]
        exact hspent
      · exact (hs.spent c' ref' (hother c' hne ref' hp).1).step h
    · intro c₁ c₂ ref' hp₁ hp₂
      by_cases h₁ : c₁ = c
      · by_cases h₂ : c₂ = c
        · rw [h₁, h₂]
        · rw [h₁] at hp₁
          exact absurd (hself ref' hp₁) (hother c₂ h₂ ref' hp₂).2
      · by_cases h₂ : c₂ = c
        · rw [h₂] at hp₂
          exact absurd (hself ref' hp₂) (hother c₁ h₁ ref' hp₁).2
        · exact hs.unique c₁ c₂ ref' (hother c₁ h₁ ref' hp₁).1 (hother c₂ h₂ ref' hp₂).1

/-! ## Runs -/

/-- The acceptance of `running` spends a job that was not spent before. -/
theorem Step.accepted {s t : System} {l : Event × Option Observation} (h : Step s l t) {ref : Ref}
    (ho : l.2 = some (.accepted ref)) : ¬ Spent s ref ∧ Spent t ref := by
  obtain ⟨event, o⟩ := l
  cases event with
  | admin act | updater jobId act =>
    simp only [Step, step, Option.map_eq_some_iff] at h
    obtain ⟨_, -, h⟩ := h
    cases h
    cases ho
  | lose request =>
    cases h
    cases ho
  | cycle c act =>
    cases ho
    cases cycleStep h
  | serve request kept answered now =>
    obtain ⟨-, -, -, -, ⟨_, -, hnone, -⟩ | ⟨answer, hprocess, hobservation, -, -⟩⟩ :=
      serve_cases h
    · rw [show o = none from hnone] at ho
      cases ho
    · rw [show o = request.message.observation answer from hobservation] at ho
      cases hmessage : request.message with
      | inventory | inventoryOffered | artifact jobId =>
        rw [hmessage] at ho
        cases ho
      | result kind report =>
        rw [hmessage] at ho hprocess
        cases answer with
        | rejected | assigned _ | binary _ => cases ho
        | accepted =>
          have hresult : report.result = .running := by
            by_contra hne
            rw [show (Message.result kind report).observation .accepted = none from
              if_neg hne] at ho
            cases ho
          rw [show (Message.result kind report).observation .accepted = _ from
            if_pos hresult] at ho
          cases ho
          obtain ⟨_, _, hsame, hrecord⟩ := Server.process_accepted hprocess
          cases hsame
          obtain ⟨⟨job, hjob, hstatus⟩, job', hjob', hstatus'⟩ :=
            Server.record_running hrecord hresult
          refine ⟨?_, job', hjob', by rw [hstatus']; rfl⟩
          rintro ⟨other, hother, hoffered⟩
          rw [hjob] at hother
          cases hother
          rw [hstatus] at hoffered
          cases hoffered

theorem Step.started (h : Step s l t) (ho : l.2 = some (.started ref)) :
    ∃ c, (s.cycles c).permit = some ref ∧ (t.cycles c).permit = none ∧
      ∀ other, other ≠ c → t.cycles other = s.cycles other := by
  obtain ⟨event, o⟩ := l
  cases event with
  | admin act | updater jobId act =>
    simp only [Step, step, Option.map_eq_some_iff] at h
    obtain ⟨_, -, h⟩ := h
    cases h
    cases ho
  | lose request =>
    cases h
    cases ho
  | cycle c act =>
    cases ho
    have hstep := cycleStep h
    exact ⟨c, hstep.started.1, hstep.started.2, hstep.frame.2⟩
  | serve request kept answered now =>
    obtain ⟨-, -, -, -, ⟨_, -, hnone, -⟩ | ⟨answer, -, hobservation, -, -⟩⟩ :=
      serve_cases h
    · rw [show o = none from hnone] at ho
      cases ho
    · rw [show o = request.message.observation answer from hobservation] at ho
      unfold Message.observation at ho
      split at ho
      · split at ho <;> cases ho
      · cases ho

/-- No cycle may start the job any more. -/
def Closed (s : System) (ref : Ref) : Prop := Spent s ref ∧ ∀ c, (s.cycles c).permit ≠ some ref

theorem Closed.step (h : Step s l t) (hs : Closed s ref) : Closed t ref := by
  refine ⟨hs.1.step h, fun c hpermit => ?_⟩
  obtain hkept | ⟨c', ref', -, -, hnot, hpermit', hframe⟩ := h.permit
  · exact hs.2 c (hkept c ref hpermit)
  · by_cases hc : c = c'
    · rw [hc, hpermit'] at hpermit
      cases hpermit
      exact hnot hs.1
    · rw [hframe c hc] at hpermit
      exact hs.2 c hpermit

theorem count_observations (ls : List (Event × Option Observation)) (o : Observation) :
    (observations ls).count o = ls.countP fun l => l.2 == some o := by
  induction ls with
  | nil => rfl
  | cons l ls ih =>
    obtain ⟨event, observed⟩ := l
    cases observed with
    | none => simpa [observations] using ih
    | some other =>
      by_cases hother : other = o
      · subst hother
        simpa [observations] using ih
      · simpa [observations, hother] using ih

variable {ls : List (Event × Option Observation)}

theorem accepted_count_le_one (h : Runs s ls t) (ref : Ref) :
    (observations ls).count (.accepted ref) ≤ 1 := by
  rw [count_observations]
  apply Run.countP_le_one (I := fun _ => True) (m := fun s => Spent s ref) _ _ _ _ h trivial
  · exact fun _ _ _ _ _ => trivial
  · exact fun _ _ _ hstep _ hs => hs.step hstep
  · intro s l t hstep _ hl
    exact (hstep.accepted (by simpa using hl)).2
  · intro s l t hstep _ hs
    by_contra hne
    have hl : l.2 = some (.accepted ref) := by simpa using hne
    exact (hstep.accepted hl).1 hs

theorem started_count_le_one (h : Runs s ls t) (hs : Permits s) (ref : Ref) :
    (observations ls).count (.started ref) ≤ 1 := by
  rw [count_observations]
  apply Run.countP_le_one (I := Permits) (m := fun s => Closed s ref) _ _ _ _ h hs
  · exact fun _ _ _ hstep hs => hs.step hstep
  · exact fun _ _ _ hstep _ hs => hs.step hstep
  · -- the only cycle with the permit gives it up
    intro s l t hstep hs hl
    have hstarted : l.2 = some (.started ref) := by simpa using hl
    obtain ⟨c, hpermit, hnone, hframe⟩ := hstep.started hstarted
    refine ⟨(hs.spent c ref hpermit).step hstep, fun c' hpermit' => ?_⟩
    by_cases hc : c' = c
    · rw [hc, hnone] at hpermit'
      cases hpermit'
    · rw [hframe c' hc] at hpermit'
      exact hc (hs.unique c' c ref hpermit' hpermit)
  · intro s l t hstep _ hclosed
    by_contra hne
    have hl : l.2 = some (.started ref) := by simpa using hne
    obtain ⟨c, hpermit, -⟩ := hstep.started hl
    exact hclosed.2 c hpermit

theorem Runs.permit (h : Runs s ls t) (hpermit : (t.cycles c).permit = some ref) :
    (∃ c', (s.cycles c').permit = some ref) ∨ .accepted ref ∈ observations ls := by
  induction h with
  | nil => exact .inl ⟨c, hpermit⟩
  | @cons s u t l ls hstep _ ih =>
    rcases ih hpermit with ⟨c', hc'⟩ | haccepted
    · obtain hkept | ⟨c'', ref', ho, -, -, hpermit'', hframe⟩ := hstep.permit
      · exact .inl ⟨c', hkept c' ref hc'⟩
      · by_cases hc : c' = c''
        · rw [hc, hpermit''] at hc'
          cases hc'
          exact .inr (List.mem_filterMap.mpr ⟨l, List.mem_cons_self, ho⟩)
        · rw [hframe c' hc] at hc'
          exact .inl ⟨c', hc'⟩
    · refine .inr ?_
      obtain ⟨k, hk, ho⟩ := List.mem_filterMap.mp haccepted
      exact List.mem_filterMap.mpr ⟨k, List.mem_cons_of_mem _ hk, ho⟩

theorem Runs.cut {ks : List (Event × Option Observation)} (h : Runs s (ls ++ ks) t) :
    ∃ u, Runs s ls u ∧ Runs u ks t := by
  induction ls generalizing s with
  | nil => exact ⟨s, .nil s, h⟩
  | cons l ls ih =>
    cases h with
    | cons hstep hrest =>
      obtain ⟨u, hu, hks⟩ := ih hrest
      exact ⟨u, .cons hstep hu, hks⟩

theorem started_after_accepted (h : Runs s ls t) (hs : ∀ c, (s.cycles c).permit = none)
    {before after : List Observation} (ho : observations ls = before ++ .started ref :: after) :
    .accepted ref ∈ before := by
  obtain ⟨ls₁, ls₂, rfl, rfl, hrest⟩ := List.filterMap_eq_append_iff.mp ho
  obtain ⟨quiet, l, ls₃, rfl, hquiet, hl, -⟩ := List.filterMap_eq_cons_iff.mp hrest
  rw [← List.append_assoc] at h
  obtain ⟨u, hu, hrun⟩ := Runs.cut h
  cases hrun with
  | cons hstep hrest =>
    obtain ⟨c, hpermit, -⟩ := hstep.started hl
    rcases hu.permit hpermit with ⟨c', hc'⟩ | haccepted
    · rw [hs c'] at hc'
      cases hc'
    · obtain ⟨k, hk, hk'⟩ := List.mem_filterMap.mp haccepted
      rcases List.mem_append.mp hk with hk | hk
      · exact List.mem_filterMap.mpr ⟨k, hk, hk'⟩
      · rw [hquiet k hk] at hk'
        cases hk'

theorem System.Initial.permits (hs : s.Initial) :
    (∀ c, (s.cycles c).permit = none) ∧ Permits s := by
  obtain ⟨-, -, hidle, -⟩ := hs
  have hnone : ∀ c, (s.cycles c).permit = none := by
    intro c
    rw [hidle c]
    rfl
  refine ⟨hnone, ⟨fun c ref hp => ?_, fun c c' ref hp => ?_⟩⟩
  · rw [hnone c] at hp
    cases hp
  · rw [hnone c] at hp
    cases hp

/-- A withdrawn authority is not used: no offer returns the job, its artifact is not handed out
and its success changes no stored machine. -/
structure Unused (s : Server) (ref : Ref) : Prop where
  lifecycle : ∀ now job, (s.offerLifecycleJob now).2 = some job → job.ref ≠ ref
  vm : ∀ now job, (s.offerHypervActionJob now).2 = some job → job.ref ≠ ref
  artifact : ref.kind = .lifecycle → s.lifecycleArtifact ref.id = none
  stored : ∀ report t, ref = ⟨.vm, report.jobId⟩ → s.recordHypervActionResult report = some t →
    t.machines = s.machines

theorem unused_of_revoked {s : Server} {job : Job} {time : Time} (hjob : s.jobs.get? ref = some job)
    (hauthority : job.authorityRevokedAt = some time) : Unused s ref := by
  have hoffer : ∀ kind check now offered, (s.offerJob kind check now).2 = some offered →
      offered.ref ≠ ref := by
    rintro kind check now offered hoffer rfl
    obtain ⟨hget, hnone⟩ := Server.offerJob_authority (t := (s.offerJob kind check now).1)
      (by rw [← hoffer])
    rw [hjob] at hget
    cases hget
    rw [hauthority] at hnone
    cases hnone
  constructor
  · exact fun now => hoffer .lifecycle _ now
  · exact fun now => hoffer .vm _ now
  · intro hkind
    cases hartifact : s.lifecycleArtifact ref.id with
    | none => rfl
    | some sha256 =>
      obtain ⟨other, hother, hnone⟩ := Server.lifecycleArtifact_authority hartifact
      have href : (⟨.lifecycle, ref.id⟩ : Ref) = ref := by rw [← hkind]
      rw [href, hjob] at hother
      cases hother
      rw [hauthority] at hnone
      cases hnone
  · rintro report t rfl hrecord
    exact Server.recordHypervActionResult_machines hrecord hjob hauthority

/-- Every job is accepted as running at most once and started at most once, after it was
accepted; once it ended it keeps its status, and once its authority is withdrawn it stays so and
the authority is not used. -/
theorem actions_at_most_once {s t : System} {ls : List (Event × Option Observation)}
    (hs : s.Initial) (h : Runs s ls t) (ref : Ref) :
    (observations ls).count (.accepted ref) ≤ 1 ∧
    (observations ls).count (.started ref) ≤ 1 ∧
    (∀ before after, observations ls = before ++ .started ref :: after → .accepted ref ∈ before) ∧
    ∀ u ks job, Runs t ks u → t.server.jobs.get? ref = some job →
      ∃ job', u.server.jobs.get? ref = some job' ∧
        (job.status.active = false → job'.status = job.status) ∧
        ∀ time, job.authorityRevokedAt = some time →
          job'.authorityRevokedAt = some time ∧ Unused u.server ref := by
  obtain ⟨hnone, hpermits⟩ := hs.permits
  refine ⟨accepted_count_le_one h ref, started_count_le_one h hpermits ref,
    fun before after ho => started_after_accepted h hnone ho, ?_⟩
  intro u ks job hrun hjob
  obtain ⟨job', hjob', hfollows⟩ := Later.get? hrun.later hjob
  refine ⟨job', hjob', fun hend => hfollows.status.eq_of_ended hend, fun time htime => ?_⟩
  have hauthority := hfollows.authority time htime
  exact ⟨hauthority, unused_of_revoked hjob' hauthority⟩

/-- A VM action that is accepted and started, withdrawn while it runs, and ended. -/
theorem actions_at_most_once_sample :
    ∃ t ls job, Runs sampleSystem ls t ∧
      observations ls = [.accepted sampleRef, .started sampleRef] ∧
      t.server.jobs.get? sampleRef = some job ∧ job.status = .succeeded ∧
      job.authorityRevokedAt = some 3 ∧
      (observations ls).count (.started sampleRef) ≤ 1 ∧ Unused t.server sampleRef := by
  have hsample : (sampleSystem.runAll (sampleAccepted ++
      [.cycle 0 .proceed, .admin (.tenant .suspended 3), .admin (.tenant .active 4),
       .cycle 0 (.execute .stateConfirmed), .cycle 0 .send,
       .serve ⟨2, .result .vm (VmOutcome.stateConfirmed.report "job-1")⟩ false (some 0) 5])).any
      (fun r => observations r.2 == [.accepted sampleRef, .started sampleRef] &&
        (r.1.server.jobs.get? sampleRef).any fun job =>
          job.status == .succeeded && job.authorityRevokedAt == some 3) = true := by
    decide +kernel
  obtain ⟨⟨t, ls⟩, hrun, h⟩ := (Option.any_eq_true _ _).mp hsample
  simp only [Bool.and_eq_true, beq_iff_eq, Option.any_eq_true] at h
  obtain ⟨hobservations, job, hjob, hstatus, hauthority⟩ := h
  have hruns := (runs_of_runAll hrun).1
  obtain ⟨-, hstarted, -, hlater⟩ := actions_at_most_once sampleSystem_initial hruns sampleRef
  obtain ⟨job', hjob', -, hunused⟩ := hlater t [] job (.nil t) hjob
  exact ⟨t, ls, job, hruns, hobservations, hjob, hstatus, hauthority, hstarted,
    (hunused 3 hauthority).2⟩

end Ipms.Jobs
