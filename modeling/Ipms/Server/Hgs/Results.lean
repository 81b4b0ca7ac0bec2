import Ipms.Server.Hgs.Soundness

/-
  Ipms.Server.Hgs.Results

  A result keeps a plan sound: it closes the last step, or an inspection, and
  what follows it is the next position of the script.  So does the resolution
  of a reconciliation, which alone renews a revoked authority.
-/

namespace Ipms.Server.Hgs

open Ipms.Lib Ipms.ManagementJson
open Ipms.Agent.Hgs (Operation Observation Status)
open List (map_append map_singleton mem_append mem_singleton)

section
variable {req : Request} {p q : HgsDeployment} {job : HgsJob} {node : HgsNode} {r : Receipt}

/-! ## Rows -/

theorem reported_same (job : HgsJob) (r : Receipt) : SameJob job (job.reported req p r) :=
  ⟨rfl, rfl, rfl, rfl, rfl, rfl⟩

theorem reported_status (job : HgsJob) (r : Receipt) :
    (job.reported req p r).status = reportedStatus p job r := rfl

theorem observed_bare (node : HgsNode) (job : HgsJob) (r : Receipt) :
    (node.observed req p job r).bare = node.bare := by
  unfold HgsNode.observed
  cases r.observation with
  | none | some o => dsimp only; split <;> rfl

/-- The plan with the receipt of a job and its observation, before what follows. -/
def recorded (req : Request) (plan : HgsDeployment) (node : HgsNode) (job : HgsJob) (r : Receipt) :
    HgsDeployment :=
  ({ plan.saveJob (job.reported req plan r) with
    status := if (job.reported req plan r).status = .waitingForReboot then
        if plan.revoked then .reconciliationRequired else .waitingForReboot
      else plan.status } : HgsDeployment).saveNode (node.observed req plan job r)

theorem recordResult_eq : recordResult req p node job r =
    if job.operation = .inspect then
      afterResult req (recorded req p node job r) (node.observed req p job r) (job.reported req p r)
    else match r.status with
      | .failed => .ok (stopped req .failed r.resultCode (recorded req p node job r))
      | .reconciliationRequired =>
        .ok (stopped req .reconciliationRequired r.resultCode (recorded req p node job r))
      | _ => if (job.reported req p r).status = .succeeded then
          afterResult req (recorded req p node job r) (node.observed req p job r)
            (job.reported req p r)
        else .ok (recorded req p node job r) := rfl

@[simp] theorem recorded_jobs :
    (recorded req p node job r).jobs = (p.saveJob (job.reported req p r)).jobs := rfl

@[simp] theorem recorded_revoked : (recorded req p node job r).revoked = p.revoked := rfl

theorem recorded_kept (hp : Sound p) (hnode : p.nodeOf job = some node) :
    Kept p (recorded req p node job r) := by
  have hmem : NodeOf p (node.observed req p job r) :=
    (NodeOf.of_mem (nodeOf_mem hnode).1).bare (observed_bare node job r)
  exact kept_saveNode (p := { p.saveJob (job.reported req p r) with
    status := if (job.reported req p r).status = .waitingForReboot then
        if p.revoked then .reconciliationRequired else .waitingForReboot
      else p.status }) hp.rows.nodeIds hmem

theorem recorded_rows (hp : Sound p) (hjob : job ∈ p.jobs) (hnode : p.nodeOf job = some node) :
    Rows (recorded req p node job r) :=
  hp.rows.saveJob hjob (reported_same job r) (recorded_kept hp hnode) recorded_jobs

/-- The receipt of a step that was not executed changes nothing but the receipt. -/
theorem acceptAgain_change (hp : Sound p) (hjob : job ∈ p.jobs)
    (h : acceptAgain p job r = .ok q) : Change p q ∧ Unrenewed p q := by
  unfold acceptAgain at h
  split at h
  · rename_i hcancelled
    cases h
    let k : HgsJob := { job with receipt := some r }
    have hsame : SameJob job k := ⟨rfl, rfl, rfl, rfl, rfl, rfl⟩
    have hkept : Kept p (p.saveJob k) := rfl
    have hrows := hp.rows.saveJob hjob hsame hkept rfl
    cases hstep : job.step with
    | false =>
      have hsteps : (p.saveJob k).steps = p.steps :=
        steps_saveJob_inspection hp.rows hjob hsame hstep rfl
      refine ⟨⟨hkept, .of_kept hkept hrows ?_, (fun h => h), (fun h => h), .of_eq hsteps⟩,
        .of_eq rfl (by rw [hsteps])⟩
      rw [hsteps]
      exact hp.progress
    | true =>
      have hopen : job.status ≠ .succeeded := by
        rw [hcancelled.1]
        decide
      obtain ⟨done, hdone⟩ := hp.progress.last (mem_steps hjob hstep) hopen
      have hsteps : (p.saveJob k).steps = done ++ [k] :=
        steps_saveJob_last hp.rows hdone hsame rfl
      have hprogress := hp.progress
      rw [hdone] at hprogress
      have hcancelled' : k.status = .cancelled := hcancelled.1
      have hconsistent := (progress_concat.mp hprogress).2.2.2.1
      have hclaimed : Unclaimed p (p.saveJob k) := by
        refine NoneClaimed.unclaimed fun i hi => ?_
        rw [hsteps] at hi
        rcases mem_append.mp hi with hi | hi
        · rw [(progress_concat.mp hprogress).2.1 i hi]
          rfl
        · rw [mem_singleton.mp hi, hcancelled']
          rfl
      refine ⟨⟨hkept, .of_kept hkept hrows ?_, (fun h => h), (fun h => h), hclaimed⟩,
        .of_eq rfl ?_⟩
      · rw [hsteps]
        refine hprogress.withLast hsame (fun _ => (progress_concat.mp hprogress).2.2.1 hopen)
          hconsistent fun hfinished => ?_
        rw [show (p.saveJob k).status = p.status from rfl] at hfinished
        rw [hfinished, hcancelled.1] at hconsistent
        revert hconsistent
        cases p.revoked <;> decide
      · rw [hsteps, hdone, map_append, map_append]
        rfl
  · split at h
    · cases h
      exact ⟨⟨rfl, hp, (fun h => h), (fun h => h), .of_eq rfl⟩, .of_eq rfl rfl⟩
    · cases h

theorem consistent_unclaimed : ∀ (revoked : Bool) (l : JobStatus) (status : PlanStatus),
    consistent revoked (some l) status = true → l.unclaimed = true →
      consistent revoked (some .offered) status = true ∧
        consistent revoked (some .running) status = true ∧ status ≠ .succeeded := by
  decide +kernel

/-- A job that is offered or claimed keeps its plan sound. -/
theorem handOut_sound {k : HgsJob} (hp : Sound p) (hjob : job ∈ p.jobs) (hsame : SameJob job k)
    (hrelease : k.reconciliationRelease = job.reconciliationRelease)
    (hunclaimed : job.status.unclaimed = true) (hk : k.status = .offered ∨ k.status = .running) :
    Sound (p.saveJob k) ∧ Unrenewed p (p.saveJob k) := by
  have hkept : Kept p (p.saveJob k) := rfl
  have hrows := hp.rows.saveJob hjob hsame hkept rfl
  cases hstep : job.step with
  | false =>
    have hsteps : (p.saveJob k).steps = p.steps :=
      steps_saveJob_inspection hp.rows hjob hsame hstep rfl
    refine ⟨.of_kept hkept hrows ?_, .of_eq rfl (by rw [hsteps])⟩
    rw [hsteps]
    exact hp.progress
  | true =>
    have hopen : job.status ≠ .succeeded := by
      intro hs
      rw [hs] at hunclaimed
      cases hunclaimed
    obtain ⟨done, hdone⟩ := hp.progress.last (mem_steps hjob hstep) hopen
    have hsteps : (p.saveJob k).steps = done ++ [k] := steps_saveJob_last hp.rows hdone hsame rfl
    have hprogress := hp.progress
    rw [hdone] at hprogress
    obtain ⟨_, _, hnone, hconsistent, _⟩ := progress_concat.mp hprogress
    obtain ⟨hoffered, hrunning, hfinished⟩ := consistent_unclaimed _ _ _ hconsistent hunclaimed
    refine ⟨.of_kept hkept hrows ?_, .of_eq rfl ?_⟩
    · rw [hsteps]
      refine hprogress.withLast hsame (fun _ => hrelease.trans (hnone hopen)) ?_ hfinished
      rcases hk with hk | hk
      · rw [hk]
        exact hoffered
      · rw [hk]
        exact hrunning
    · rw [hsteps, hdone, map_append, map_append, map_singleton, map_singleton,
        hsame.id]

theorem offer_change {at' : Time} (hp : Sound p) (hjob : job ∈ p.jobs)
    (hqueued : job.status = .queued) :
    Change p (p.saveJob { job with status := .offered, offeredAt := some at' }) ∧
      Unrenewed p (p.saveJob { job with status := .offered, offeredAt := some at' }) := by
  have hsame : SameJob job { job with status := .offered, offeredAt := some at' } :=
    ⟨rfl, rfl, rfl, rfl, rfl, rfl⟩
  obtain ⟨hsound, hunrenewed⟩ := handOut_sound hp hjob hsame rfl (by rw [hqueued]; rfl) (.inl rfl)
  refine ⟨⟨rfl, hsound, (fun h => h), (fun h => h), ?_⟩, hunrenewed⟩
  intro i hi hclaimed
  rcases mem_saveJob (job_of_step hi) with hi' | rfl
  · exact ⟨i, mem_steps hi' (step_of_mem hi), hclaimed, rfl⟩
  · cases hclaimed

/-! ## A result for a job that is not terminal -/

theorem consistent_active : ∀ (revoked : Bool) (l : JobStatus) (status : PlanStatus),
    consistent revoked (some l) status = true → l.active = true →
      if revoked = true then status = .reconciliationRequired
      else status = .running ∨ status = .waitingForReboot := by
  decide +kernel

theorem active_of_waiting (revoked : Bool) {status : PlanStatus}
    (h : if revoked = true then status = .reconciliationRequired
      else status = .running ∨ status = .waitingForReboot) : status.active = true := by
  cases revoked with
  | true =>
    rw [if_pos rfl] at h
    rw [h]
    rfl
  | false =>
    rw [if_neg (by decide)] at h
    rcases h with h | h
    · rw [h]
      rfl
    · rw [h]
      rfl

/-- The result of an inspection. -/
theorem recordInspection_change (hp : Sound p) (hjob : job ∈ p.jobs)
    (hnode : p.nodeOf job = some node) (hinspect : job.operation = .inspect)
    (h : recordResult req p node job r = .ok q) : Change p q ∧ Unrenewed p q := by
  have hstatus : (job.reported req p r).status ≠ .waitingForReboot := by
    show reportedStatus p job r ≠ .waitingForReboot
    unfold reportedStatus
    rw [hinspect]
    cases r.status with
    | rebootRequired | succeeded => cases p.revoked <;> decide
    | failed | reconciliationRequired => exact fun h => nomatch h
  rw [recordResult_eq, if_pos hinspect] at h
  have hkept : Kept p (recorded req p node job r) := recorded_kept hp hnode
  have hsteps : (recorded req p node job r).steps = p.steps :=
    steps_saveJob_inspection hp.rows hjob (reported_same job r) (bne_eq_false_iff_eq.mpr hinspect)
      recorded_jobs
  have hplan : (recorded req p node job r).status = p.status := if_neg hstatus
  have hsound : Sound (recorded req p node job r) := by
    refine .of_kept hkept (recorded_rows hp hjob hnode) ?_
    rw [hsteps, hplan]
    exact hp.progress
  have hchange : Change p (recorded req p node job r) := by
    refine ⟨hkept, hsound, ?_, ?_, .of_eq hsteps⟩
    · rw [hplan]
      exact fun h => h
    · rw [hplan]
      exact fun h => h
  have hunrenewed : Unrenewed p (recorded req p node job r) := .of_eq rfl (by rw [hsteps])
  obtain ⟨hafter, hafter'⟩ := afterInspection_change hsound
    (show (job.reported req p r).operation = .inspect from hinspect) h
  exact ⟨hchange.trans hafter, hunrenewed.trans hafter'⟩

/-- A plan stopped after its last step. -/
theorem stopped_sound {done : List HgsJob} {k : HgsJob} {status : PlanStatus} {code : String}
    (hrows : Rows p) (hsteps : p.steps = done ++ [k])
    (hscript : (done ++ [k]).map HgsJob.position <+: script p.nodes)
    (hsettled : ∀ i ∈ done, i.status = .succeeded) (hrelease : k.reconciliationRelease = none)
    (hk : k.status = .failed ∧ status = .failed ∨
      k.status = .reconciliationRequired ∧ status = .reconciliationRequired) :
    Kept p (stopped req status code p) ∧ Sound (stopped req status code p) ∧
      Unrenewed p (stopped req status code p) ∧ NoneClaimed (stopped req status code p) := by
  have hkept : Kept p (stopped req status code p) := rfl
  have hclosed : k.status.unclaimed = false ∧ k.status.claimed = false ∧ status ≠ .succeeded := by
    rcases hk with ⟨hk, hs⟩ | ⟨hk, hs⟩ <;> rw [hk, hs] <;> decide
  have hsteps' : (stopped req status code p).steps = done ++ [k] := by
    rw [steps_cancelUnclaimed hsteps hsettled (q := stopped req status code p) rfl]
    unfold HgsJob.withdrawn
    rw [hclosed.1]
    rfl
  refine ⟨hkept, .of_kept hkept (hrows.cancelUnclaimed hkept rfl) ?_, .of_eq rfl ?_, fun i hi => ?_⟩
  · rw [hsteps']
    refine progress_concat.mpr ⟨hscript, hsettled, fun _ => hrelease, ?_, fun h => absurd h hclosed.2.2⟩
    show consistent p.revoked (some k.status) status = true
    rcases hk with ⟨hk, hs⟩ | ⟨hk, hs⟩
    · rw [hk, hs]
      rfl
    · rw [hk, hs]
      rfl
  · rw [hsteps', hsteps]
  · rw [hsteps'] at hi
    rcases mem_append.mp hi with hi | hi
    · rw [hsettled i hi]
      rfl
    · rw [mem_singleton.mp hi]
      exact hclosed.2.1

theorem claimed_of_reportable (h : job.reportable r = true) (hr : r.status ≠ .failed) :
    job.status.claimed = true := by
  unfold HgsJob.reportable Receipt.unclaimedFailure at h
  rw [beq_eq_false_iff_ne.mpr hr, Bool.false_and, Bool.and_false, Bool.or_false,
    Bool.and_eq_true] at h
  exact h.1

/-- A plan with an active last step. -/
structure Underway (p : HgsDeployment) (done : List HgsJob) (job : HgsJob) : Prop where
  sound : Sound p
  step : job.step = true
  steps : p.steps = done ++ [job]
  script : (done ++ [job]).map HgsJob.position <+: Hgs.script p.nodes
  settled : ∀ i ∈ done, i.status = .succeeded
  release : job.reconciliationRelease = none
  status : if p.revoked = true then p.status = .reconciliationRequired
    else p.status = .running ∨ p.status = .waitingForReboot

theorem underway (hp : Sound p) (hjob : job ∈ p.jobs) (hstep : job.step = true)
    (hactive : job.status.active = true) : ∃ done, Underway p done job := by
  have hopen : job.status ≠ .succeeded := by
    intro hs
    rw [hs] at hactive
    cases hactive
  obtain ⟨done, hdone⟩ := hp.progress.last (mem_steps hjob hstep) hopen
  have hprogress := hp.progress
  rw [hdone] at hprogress
  obtain ⟨hscript, hsettled, hrelease, hconsistent, _⟩ := progress_concat.mp hprogress
  exact ⟨done, hp, hstep, hdone, hscript, hsettled, hrelease hopen,
    consistent_active _ _ _ hconsistent hactive⟩

section
variable {done : List HgsJob} (hp : Underway p done job) (hnode : p.nodeOf job = some node)
include hp

theorem Underway.mem : job ∈ p.jobs :=
  job_of_step (by rw [hp.steps]; exact List.mem_append_right _ (List.mem_singleton_self job))

theorem Underway.active : p.status.active = true := active_of_waiting p.revoked hp.status

theorem recorded_steps : (recorded req p node job r).steps = done ++ [job.reported req p r] :=
  steps_saveJob_last hp.sound.rows hp.steps (reported_same job r) recorded_jobs

theorem recorded_unrenewed : Unrenewed p (recorded req p node job r) := by
  refine .of_eq rfl ?_
  rw [recorded_steps hp, hp.steps, map_append, map_append]
  rfl

include hnode

theorem recorded_script : (done ++ [job.reported req p r]).map HgsJob.position <+:
    script (recorded req p node job r).nodes := by
  have hscript := hp.script
  rw [map_append, map_singleton] at hscript
  rw [(recorded_kept hp.sound hnode).script, map_append, map_singleton,
    (reported_same job r).position]
  exact hscript

theorem recorded_followed (hs : reportedStatus p job r = .succeeded)
    (h : afterResult req (recorded req p node job r) (node.observed req p job r)
      (job.reported req p r) = .ok q) : Change p q ∧ Unrenewed p q := by
  have hkept : Kept p (recorded req p node job r) := recorded_kept hp.sound hnode
  have hplan : (recorded req p node job r).status = p.status := by
    refine if_neg ?_
    rw [reported_status, hs]
    decide
  have harrived : Arrived (recorded req p node job r) done (job.reported req p r) := by
    refine ⟨recorded_rows hp.sound hp.mem hnode, recorded_steps hp, recorded_script hp hnode,
      hp.settled, hs, ?_⟩
    rw [hplan]
    exact hp.status
  have hnode' : NodeOf (recorded req p node job r) (node.observed req p job r) :=
    ((NodeOf.of_mem (nodeOf_mem hnode).1).bare (observed_bare node job r)).kept hkept
  have hid : (node.observed req p job r).id = job.node :=
    (HgsNode.id_of_bare (observed_bare node job r)).trans (nodeOf_mem hnode).2
  obtain ⟨hkept', hsound, hlater, hnone⟩ := afterStep_sound harrived hnode' hid hp.step h
  exact ⟨.of_active (hkept.trans hkept') hsound hp.active hnone.unclaimed,
    (recorded_unrenewed hp).trans hlater⟩

theorem recorded_stopped {status : PlanStatus}
    (hs : reportedStatus p job r = .failed ∧ status = .failed ∨
      reportedStatus p job r = .reconciliationRequired ∧ status = .reconciliationRequired) :
    Change p (stopped req status r.resultCode (recorded req p node job r)) ∧
      Unrenewed p (stopped req status r.resultCode (recorded req p node job r)) := by
  obtain ⟨hkept, hsound, hlater, hnone⟩ := stopped_sound
    (recorded_rows hp.sound hp.mem hnode) (recorded_steps hp) (recorded_script hp hnode)
    hp.settled hp.release hs
  exact ⟨.of_active ((recorded_kept hp.sound hnode).trans hkept) hsound hp.active hnone.unclaimed,
    (recorded_unrenewed hp).trans hlater⟩

/-- One that does neither leaves its plan waiting for a reboot or for a reconciliation. -/
theorem recorded_left (hclaimed : job.status.claimed = true)
    (hs : reportedStatus p job r = .waitingForReboot ∨
      reportedStatus p job r = .reconciliationRequired ∧ p.revoked = true) :
    Change p (recorded req p node job r) ∧ Unrenewed p (recorded req p node job r) := by
  have hkept : Kept p (recorded req p node job r) := recorded_kept hp.sound hnode
  have hwaiting := hp.status
  have hplan : consistent p.revoked (some (job.reported req p r).status)
      (recorded req p node job r).status = true ∧ (recorded req p node job r).status ≠ .succeeded := by
    rw [reported_status]
    rcases hs with hs | ⟨hs, hrevoked⟩
    · have hstatus : (recorded req p node job r).status =
          if p.revoked then .reconciliationRequired else .waitingForReboot :=
        if_pos (by rw [reported_status, hs])
      rw [hstatus, hs]
      cases p.revoked <;> decide
    · have hstatus : (recorded req p node job r).status = p.status :=
        if_neg (by rw [reported_status, hs]; decide)
      rw [if_pos hrevoked] at hwaiting
      rw [hstatus, hs, hwaiting]
      exact ⟨rfl, fun h => nomatch h⟩
  have hprogress := hp.sound.progress
  rw [hp.steps] at hprogress
  have hsound : Sound (recorded req p node job r) := by
    refine .of_kept hkept (recorded_rows hp.sound hp.mem hnode) ?_
    rw [recorded_steps hp]
    exact hprogress.withLast (reported_same job r) (fun _ => hp.release) hplan.1 hplan.2
  refine ⟨.of_active hkept hsound hp.active fun i hi hactive => ?_, recorded_unrenewed hp⟩
  rw [recorded_steps hp] at hi
  rcases mem_append.mp hi with hi | hi
  · rw [hp.settled i hi] at hactive
    cases hactive
  · rw [mem_singleton.mp hi]
    exact ⟨job, mem_steps hp.mem hp.step, hclaimed, rfl⟩

/-- The result of the last step. -/
theorem recordStep_change (hreport : job.reportable r = true)
    (h : recordResult req p node job r = .ok q) : Change p q ∧ Unrenewed p q := by
  rw [recordResult_eq, if_neg (bne_iff_ne.mp hp.step)] at h
  cases hr : r.status with
  | failed =>
    rw [hr] at h
    cases h
    exact recorded_stopped hp hnode (.inl ⟨by rw [reportedStatus, hr], rfl⟩)
  | reconciliationRequired =>
    rw [hr] at h
    cases h
    exact recorded_stopped hp hnode (.inr ⟨by rw [reportedStatus, hr], rfl⟩)
  | succeeded =>
    have hclaimed := claimed_of_reportable hreport (by rw [hr]; decide)
    have hs : reportedStatus p job r = if p.revoked && !readOnly job.operation then
        .reconciliationRequired else .succeeded := by
      rw [reportedStatus, hr]
    rw [hr] at h
    dsimp only at h
    rw [reported_status] at h
    by_cases hrevoked : (p.revoked && !readOnly job.operation) = true
    · rw [if_pos hrevoked] at hs
      rw [hs, if_neg (by decide)] at h
      cases h
      exact recorded_left hp hnode hclaimed (.inr ⟨hs, (Bool.and_eq_true_iff.mp hrevoked).1⟩)
    · rw [if_neg hrevoked] at hs
      rw [if_pos hs] at h
      exact recorded_followed hp hnode hs h
  | rebootRequired =>
    have hclaimed := claimed_of_reportable hreport (by rw [hr]; decide)
    have hs : reportedStatus p job r = if job.operation = .reboot then .waitingForReboot
        else if p.revoked && !readOnly job.operation then .reconciliationRequired
        else .succeeded := by
      rw [reportedStatus, hr]
    rw [hr] at h
    dsimp only at h
    rw [reported_status] at h
    by_cases hreboot : job.operation = .reboot
    · rw [if_pos hreboot] at hs
      rw [hs, if_neg (by decide)] at h
      cases h
      exact recorded_left hp hnode hclaimed (.inl hs)
    · rw [if_neg hreboot] at hs
      by_cases hrevoked : (p.revoked && !readOnly job.operation) = true
      · rw [if_pos hrevoked] at hs
        rw [hs, if_neg (by decide)] at h
        cases h
        exact recorded_left hp hnode hclaimed (.inr ⟨hs, (Bool.and_eq_true_iff.mp hrevoked).1⟩)
      · rw [if_neg hrevoked] at hs
        rw [if_pos hs] at h
        exact recorded_followed hp hnode hs h

end

/-- A result keeps its plan sound, and neither renews its authority nor adds a step to a plan
whose authority is revoked. -/
theorem acceptResult_change {document : Value} (hp : Sound p) (hjob : job ∈ p.jobs)
    (hnode : p.nodeOf job = some node) (h : acceptResult req p node job document = .ok q) :
    Change p q ∧ Unrenewed p q := by
  unfold acceptResult at h
  obtain ⟨r, _, h⟩ := bind_eq_ok.mp h
  split at h
  · exact acceptAgain_change hp hjob h
  · rename_i hterminal
    rw [JobStatus.terminal_eq, Bool.not_eq_true', Bool.not_eq_false] at hterminal
    obtain ⟨_, hreport, h⟩ := bind_eq_ok.mp h
    rw [throwIf_eq_ok, Bool.not_eq_false] at hreport
    cases hstep : job.step with
    | false => exact recordInspection_change hp hjob hnode (bne_eq_false_iff_eq.mp hstep) h
    | true =>
      obtain ⟨done, hunderway⟩ := underway hp hjob hstep hterminal
      exact recordStep_change hunderway hnode hreport h

/-! ## The resolution of a reconciliation -/

/-- A fresh observation, made after an interrupted step, proves that the step took effect. -/
structure ProvenAfresh (req : Request) (p : HgsDeployment) (job inspection : HgsJob) : Prop where
  mem : job ∈ p.jobs
  step : job.step = true
  unresolved : job.unresolved = true
  inspected : inspection ∈ p.jobs
  operation : inspection.operation = .inspect
  succeeded : inspection.status = .succeeded
  later : job.createdAt < inspection.createdAt
  recent : ∃ t, inspection.completedAt = some t ∧ fresh req.now readinessAge t = true
  proves : ∃ node r o, p.nodeOf job = some node ∧ inspection.node = node.id ∧
    inspection.receipt = some r ∧ r.observation = some o ∧ proves req p node job o = true

theorem reconcilable_eq_some (h : p.reconcilable = some job) :
    job ∈ p.jobs ∧ job.step = true ∧ job.unresolved = true := by
  have hmem := List.mem_of_find?_eq_some h
  have hsome := List.find?_some h
  rw [List.mem_reverse] at hmem
  exact ⟨hmem, Bool.and_eq_true_iff.mp hsome⟩

theorem reconciliation_proven {state : Reconciliation} (h : reconciliation req p = some state)
    (hresolve : state.canResolve = true) :
    p.reconcilable = some state.job ∧ p.status = .reconciliationRequired ∧
      ∃ inspection, ProvenAfresh req p state.job inspection := by
  unfold reconciliation at h
  obtain ⟨job, hjob, h⟩ := Option.bind_eq_some_iff.mp h
  obtain ⟨node, hnode, h⟩ := Option.bind_eq_some_iff.mp h
  obtain rfl := Option.some.inj h
  obtain ⟨hmem, hstep, hunresolved⟩ := reconcilable_eq_some hjob
  obtain ⟨hvalid, hstatus⟩ := Bool.and_eq_true_iff.mp hresolve
  obtain ⟨hrecent, hproves⟩ := Bool.and_eq_true_iff.mp hvalid
  refine ⟨hjob, beq_iff_eq.mp hstatus, ?_⟩
  cases hlatest : p.inspectedSince job with
  | none =>
    rw [hlatest] at hrecent
    cases hrecent
  | some inspection =>
    rw [hlatest] at hrecent hproves
    have hinspected := List.mem_reverse.mp (List.mem_of_find?_eq_some hlatest)
    have hsome := List.find?_some hlatest
    simp only [Bool.and_eq_true, beq_iff_eq, decide_eq_true_eq] at hsome
    obtain ⟨⟨⟨hsame, hoperation⟩, hsucceeded⟩, hlater⟩ := hsome
    obtain ⟨t, ht, hfresh⟩ := (Option.any_eq_true _ _).mp
      (show inspection.completedAt.any (fresh req.now readinessAge) = true from hrecent)
    obtain ⟨o, ho, hproves⟩ := (Option.any_eq_true _ _).mp hproves
    obtain ⟨r, hr, ho⟩ := Option.bind_eq_some_iff.mp
      (show inspection.receipt.bind (·.observation) = some o from ho)
    exact ⟨inspection, hmem, hstep, hunresolved, hinspected, hoperation, hsucceeded, hlater,
      ⟨t, ht, hfresh⟩, node, r, o, hnode, hsame.trans (nodeOf_mem hnode).2.symm, hr, ho, hproves⟩

/-- The plan whose interrupted step is resolved, before what follows. -/
def resumed (req : Request) (user : Nat) (plan : HgsDeployment) (resolved : HgsJob) :
    HgsDeployment :=
  { plan.saveJob resolved with
    approvedBy := some user, approvedAt := some req.now
    planExpiresAt := req.now + planAge, approvalExpiresAt := some (req.now + planAge)
    authorityRevokedAt := none, blockers := [], status := .running }

theorem resumed_arrived {user : Nat} {k : HgsJob} (hp : Sound p) (hjob : job ∈ p.jobs)
    (hstep : job.step = true) (hopen : job.status ≠ .succeeded) (hsame : SameJob job k)
    (hk : k.status = .succeeded) : ∃ done, Arrived (resumed req user p k) done k := by
  -- an unresolved step has not succeeded: it is the last
  obtain ⟨done, hdone⟩ := hp.progress.last (mem_steps hjob hstep) hopen
  have hprogress := hp.progress
  rw [hdone] at hprogress
  obtain ⟨hscript, hsettled, _⟩ := progress_concat.mp hprogress
  rw [map_append, map_singleton] at hscript
  refine ⟨done, hp.rows.saveJob hjob hsame (show Kept p _ from rfl) rfl,
    steps_saveJob_last hp.rows hdone hsame rfl, ?_, hsettled, hk, .inl rfl⟩
  rw [map_append, map_singleton, hsame.position]
  exact hscript

/-- A resolution takes up a plan behind its interrupted step, and only with a fresh proof. -/
theorem resolve_change {tenant : Tenant} {user : Nat} {document : Value} (hp : Sound p)
    (h : resolve req tenant user document p = .ok q) :
    Change p q ∧ ∃ job inspection, ProvenAfresh req p job inspection := by
  unfold resolve at h
  obtain ⟨members, rfl⟩ : ∃ members, document = .obj members := by
    cases document with
    | obj members => exact ⟨members, rfl⟩
    | _ => cases h
  dsimp only at h
  obtain ⟨_, _, h⟩ := bind_eq_ok.mp h
  cases hstate : reconciliation req p with
  | none =>
    rw [hstate] at h
    cases h
  | some state =>
    rw [hstate] at h
    obtain ⟨_, hresolve, h⟩ := bind_eq_ok.mp h
    rw [throwIf_eq_ok, not_or, Bool.not_eq_false] at hresolve
    obtain ⟨hjob, hstatus, inspection, hproven⟩ := reconciliation_proven hstate hresolve.1
    cases hnode : p.nodeOf state.job with
    | none =>
      rw [hnode] at h
      cases h
    | some node =>
      rw [hnode] at h
      obtain ⟨live, _, h⟩ := bind_eq_ok.mp h
      obtain ⟨_, _, h⟩ := bind_eq_ok.mp h
      refine ⟨?_, state.job, inspection, hproven⟩
      have hrequired : state.job.status = .reconciliationRequired :=
        beq_iff_eq.mp (Bool.and_eq_true_iff.mp hproven.unresolved).1
      obtain ⟨done, harrived⟩ := @resumed_arrived req p state.job user
        { state.job with
          reconciliationRelease := some ⟨state.job.id, p.planDigest, state.observationDigest,
            toString user, isoFormat req.now⟩
          status := .succeeded, resultCode := "hgs_state_reconciled" } hp hproven.mem
        hproven.step (by rw [hrequired]; decide) ⟨rfl, rfl, rfl, rfl, rfl, rfl⟩ rfl
      obtain ⟨hkept, hsound, _, hnone⟩ := afterStep_sound harrived
        (NodeOf.of_mem (nodeOf_mem hnode).1) (nodeOf_mem hnode).2 hproven.step h
      exact .of_active hkept hsound (by rw [hstatus]; rfl) hnone.unclaimed

end

end Ipms.Server.Hgs
