import Mathlib.Data.Fintype.Option
import Ipms.Server.Hgs.Rows

/-
  Ipms.Server.Hgs.Progress

  How far a plan is in its script: its steps are a prefix of the script, all of
  them but the last have succeeded, and the status of the plan is one that goes
  with the status of the last step.
-/

namespace Ipms.Server.Hgs

open Ipms.Lib
open Ipms.Agent.Hgs (Operation)

/-! ## The status of a plan and that of its last step -/

instance : Fintype PlanStatus :=
  .ofList [.draft, .inspecting, .ready, .blocked, .running, .waitingForReboot,
    .reconciliationRequired, .succeeded, .failed, .cancelled] fun s => by cases s <;> decide

instance : Fintype JobStatus :=
  .ofList [.queued, .offered, .running, .waitingForReboot, .succeeded, .failed, .cancelled,
    .reconciliationRequired] fun s => by cases s <;> decide

/-- The statuses of a plan before its approval. -/
def PlanStatus.idle : PlanStatus → Bool
  | draft | inspecting | ready | blocked => true
  | _ => false

/-- The statuses in which no other plan of the tenant may have the domain. -/
def PlanStatus.occupies : PlanStatus → Bool
  | failed | cancelled => false
  | _ => true

theorem PlanStatus.occupies_of_active : ∀ s : PlanStatus, s.active = true → s.occupies = true := by
  decide

/-- The statuses a fence leaves. -/
def PlanStatus.fenced : PlanStatus → Bool
  | cancelled | reconciliationRequired => true
  | _ => false

/-- The statuses a plan may have, by whether its authority is revoked and by its last step. -/
def consistent (revoked : Bool) (last : Option JobStatus) (status : PlanStatus) : Bool :=
  match last with
  | none => if revoked then status.fenced else status.idle
  | some .queued | some .offered => !revoked && status == .running
  | some .running => status == if revoked then .reconciliationRequired else .running
  | some .waitingForReboot => status == if revoked then .reconciliationRequired else .waitingForReboot
  | some .succeeded => if revoked then status.fenced else status == .succeeded
  | some .failed => status == .failed || revoked && status.fenced
  | some .cancelled => revoked && status.fenced
  | some .reconciliationRequired => status == .reconciliationRequired

theorem consistent_succeeded : ∀ (revoked : Bool) (l : JobStatus),
    consistent revoked (some l) .succeeded = true → l = .succeeded := by
  decide

/-- How far a plan is in the script of its nodes. -/
structure Progress (positions : List Position) (steps : List HgsJob) (revoked : Bool)
    (status : PlanStatus) : Prop where
  script : steps.map HgsJob.position <+: positions
  settled : ∀ j ∈ steps.dropLast, j.status = .succeeded
  unreleased : ∀ j ∈ steps, j.status ≠ .succeeded → j.reconciliationRelease = none
  consistent : consistent revoked (steps.getLast?.map (·.status)) status = true
  finished : status = .succeeded → steps.length = positions.length

/-- What holds of a plan between two requests. -/
structure Sound (p : HgsDeployment) : Prop where
  rows : Rows p
  progress : Progress (script p.nodes) p.steps p.revoked p.status

theorem steps_concat {steps : List HgsJob} (h : steps ≠ []) :
    ∃ done j, steps = done ++ [j] :=
  ⟨steps.dropLast, steps.getLast h, (List.dropLast_append_getLast h).symm⟩

section
variable {positions : List Position} {done : List HgsJob} {j k : HgsJob} {revoked : Bool}
  {status : PlanStatus}

theorem progress_concat : Progress positions (done ++ [j]) revoked status ↔
    (done ++ [j]).map HgsJob.position <+: positions ∧ (∀ i ∈ done, i.status = .succeeded) ∧
      (j.status ≠ .succeeded → j.reconciliationRelease = none) ∧
      consistent revoked (some j.status) status = true ∧
      (status = .succeeded → done.length + 1 = positions.length) := by
  constructor
  · intro h
    have hsettled := h.settled
    have hconsistent := h.consistent
    have hfinished := h.finished
    rw [List.dropLast_concat] at hsettled
    rw [List.getLast?_concat] at hconsistent
    rw [List.length_append] at hfinished
    exact ⟨h.script, hsettled, h.unreleased j (List.mem_append_right _ (List.mem_singleton_self j)),
      hconsistent, hfinished⟩
  · rintro ⟨hscript, hsettled, hunreleased, hconsistent, hfinished⟩
    refine ⟨hscript, ?_, fun i hi hstatus => ?_, ?_, ?_⟩
    · rw [List.dropLast_concat]
      exact hsettled
    · rcases List.mem_append.mp hi with hi | hi
      · exact absurd (hsettled i hi) hstatus
      · rw [List.mem_singleton.mp hi] at hstatus ⊢
        exact hunreleased hstatus
    · rw [List.getLast?_concat]
      exact hconsistent
    · rw [List.length_append]
      exact hfinished

theorem Progress.withStatus {steps : List HgsJob} (h : Progress positions steps revoked status)
    {revoked' : Bool} {status' : PlanStatus}
    (hconsistent : Hgs.consistent revoked' (steps.getLast?.map (·.status)) status' = true)
    (hfinished : status' ≠ .succeeded) : Progress positions steps revoked' status' :=
  ⟨h.script, h.settled, h.unreleased, hconsistent, fun hs => absurd hs hfinished⟩

theorem Progress.withLast (h : Progress positions (done ++ [j]) revoked status)
    (hsame : SameJob j k) {revoked' : Bool} {status' : PlanStatus}
    (hrelease : k.status ≠ .succeeded → k.reconciliationRelease = none)
    (hconsistent : Hgs.consistent revoked' (some k.status) status' = true)
    (hfinished : status' ≠ .succeeded) : Progress positions (done ++ [k]) revoked' status' := by
  obtain ⟨hscript, hsettled, _, _, _⟩ := progress_concat.mp h
  rw [List.map_append, List.map_singleton] at hscript
  refine progress_concat.mpr ⟨?_, hsettled, hrelease, hconsistent, fun hs => absurd hs hfinished⟩
  rw [List.map_append, List.map_singleton, hsame.position]
  exact hscript

theorem Progress.last {steps : List HgsJob} (h : Progress positions steps revoked status)
    (hj : j ∈ steps) (hopen : j.status ≠ .succeeded) : ∃ done, steps = done ++ [j] := by
  obtain ⟨done, l, rfl⟩ := steps_concat (List.ne_nil_of_mem hj)
  rcases List.mem_append.mp hj with hj | hj
  · exact absurd ((progress_concat.mp h).2.1 j hj) hopen
  · rw [List.mem_singleton.mp hj]
    exact ⟨done, rfl⟩

end

/-! ## The steps of a plan -/

section
variable {p q : HgsDeployment}

theorem step_of_mem {j : HgsJob} (hj : j ∈ p.steps) : j.step = true := (List.mem_filter.mp hj).2

theorem job_of_step {j : HgsJob} (hj : j ∈ p.steps) : j ∈ p.jobs := (List.mem_filter.mp hj).1

theorem mem_steps {j : HgsJob} (hj : j ∈ p.jobs) (hstep : j.step = true) : j ∈ p.steps :=
  List.mem_filter.mpr ⟨hj, hstep⟩

theorem steps_map {f : HgsJob → HgsJob} (hf : ∀ j ∈ p.jobs, (f j).step = j.step)
    (hq : q.jobs = p.jobs.map f) : q.steps = p.steps.map f := by
  unfold HgsDeployment.steps
  rw [hq, List.filter_map]
  congr 1
  exact List.filter_congr fun j hj => hf j hj

theorem steps_saveJob_inspection (hp : Rows p) {j k : HgsJob} (hj : j ∈ p.jobs) (h : SameJob j k)
    (hno : j.step = false) (hq : q.jobs = (p.saveJob k).jobs) : q.steps = p.steps := by
  have hid : ∀ i ∈ p.jobs, i.id = k.id → i = j := fun i hi hik => job_unique hp hi hj (hik.trans h.id)
  rw [steps_map (p := p) (fun i hi => ?_) hq]
  · rw [List.map_congr_left (g := fun i => i) fun i hi => ?_, List.map_id']
    rw [if_neg]
    intro hik
    have hstep := step_of_mem hi
    rw [hid i (job_of_step hi) hik, hno] at hstep
    cases hstep
  · by_cases hik : i.id = k.id
    · rw [if_pos hik, h.step, hid i hi hik]
    · rw [if_neg hik]

theorem steps_saveJob_last (hp : Rows p) {j k : HgsJob} {done : List HgsJob}
    (hsteps : p.steps = done ++ [j]) (h : SameJob j k) (hq : q.jobs = (p.saveJob k).jobs) :
    q.steps = done ++ [k] := by
  have hj : j ∈ p.steps := by
    rw [hsteps]
    exact List.mem_append_right _ (List.mem_singleton_self j)
  have hid : ∀ i ∈ p.jobs, i.id = k.id → i = j :=
    fun i hi hik => job_unique hp hi (job_of_step hj) (hik.trans h.id)
  have hnodup : p.steps.Nodup := (List.Nodup.of_map _ hp.jobIds).filter _
  rw [hsteps] at hnodup
  have hdone : j ∉ done := fun hmem =>
    (List.nodup_append.mp hnodup).2.2 j hmem j (List.mem_singleton_self j) rfl
  rw [steps_map (p := p) (fun i hi => ?_) hq, hsteps, List.map_append, List.map_singleton,
    if_pos h.id.symm]
  · congr 1
    rw [List.map_congr_left (g := fun i => i) fun i hi => ?_, List.map_id']
    rw [if_neg]
    intro hik
    have hmem : i ∈ p.steps := by
      rw [hsteps]
      exact List.mem_append_left _ hi
    rw [hid i (job_of_step hmem) hik] at hi
    exact hdone hi
  · by_cases hik : i.id = k.id
    · rw [if_pos hik, h.step, hid i hi hik]
    · rw [if_neg hik]

theorem steps_insert {k : HgsJob} (hq : q.jobs = p.jobs ++ [k]) :
    q.steps = if k.step then p.steps ++ [k] else p.steps := by
  unfold HgsDeployment.steps
  rw [hq, List.filter_append]
  cases hk : k.step with
  | true | false => simp [hk]

theorem steps_cancelUnclaimed {done : List HgsJob} {j : HgsJob} {now : Time} {code : String}
    (hsteps : p.steps = done ++ [j]) (hdone : ∀ i ∈ done, i.status = .succeeded)
    (hq : q.jobs = (cancelUnclaimed now code p).jobs) :
    q.steps = done ++ [j.withdrawn code now] := by
  rw [steps_map (p := p) (fun i _ => (withdrawn_same i code now).step) hq, hsteps, List.map_append,
    List.map_singleton]
  congr 1
  rw [List.map_congr_left (g := fun i => i) fun i hi => ?_, List.map_id']
  unfold HgsJob.withdrawn
  rw [hdone i hi]
  rfl

end

end Ipms.Server.Hgs
