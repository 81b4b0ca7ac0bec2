import Ipms.Server.Hgs.Runs

/-
  Ipms.Server.Hgs.Revocation

  While the authority of a plan is revoked no step of it is created, claimed or
  handed out; only the resolution of a reconciliation renews it, and only with
  a fresh observation that proves the interrupted step.
-/

namespace Ipms.Server.Hgs

open Ipms.Lib Ipms.ManagementJson
open Ipms.Agent.Hgs (Operation Observation)

/-- The event is a resolution of the plan. -/
def Event.resolves (e : Event) (plan : String) : Prop :=
  ∃ tenant user document, e.action = .act tenant user plan (.resolve document)

section
variable {runtime : Runtime} {uuid : Nat → String} {s s' : ControlPlane} {a : Action}
  {p q : HgsDeployment}

/-- A plan whose authority is revoked stays so, with the same steps and none that is claimed. -/
structure Dormant (p q : HgsDeployment) : Prop where
  id : q.id = p.id
  revoked : q.revoked = true
  steps : q.steps.map (·.id) = p.steps.map (·.id)
  claimed : Unclaimed p q

theorem Dormant.trans {r : HgsDeployment} (h : Dormant p q) (h' : Dormant q r) : Dormant p r :=
  ⟨h'.id.trans h.id, h'.revoked, h'.steps.trans h.steps, h.claimed.trans h'.claimed⟩

/-- Every way of a plan but the resolution leaves a revoked plan dormant. -/
theorem planStep_dormant (hp : Sound p) (hrevoked : p.revoked = true)
    (h : PlanStep runtime uuid s a p q)
    (hno : ∀ tenant user document, a ≠ .act tenant user p.id (.resolve document)) : Dormant p q := by
  have hid := (planStep_sound hp h).1.id
  cases h with
  | served hchange hunrenewed =>
    exact ⟨hid, hunrenewed.revoked hrevoked, hunrenewed.steps hrevoked, hchange.claimed⟩
  | claimed job node hjob hunclaimed _ _ hstep hq =>
    have hsame : SameJob job { job with status := .running, claimedAt := some s.now } :=
      ⟨rfl, rfl, rfl, rfl, rfl, rfl⟩
    -- the authority of a step is current when it is claimed: the job is an inspection
    have hinspection : job.step = false := by
      rw [Bool.eq_false_iff]
      intro h
      rw [hstep h] at hrevoked
      cases hrevoked
    have hsteps : q.steps = p.steps :=
      steps_saveJob_inspection hp.rows hjob hsame hinspection (by rw [hq])
    refine ⟨hid, ?_, by rw [hsteps], .of_eq hsteps⟩
    rw [hq]
    exact hrevoked
  | fenced code _ hq =>
    rw [hq]
    have hfenced := fence_fenced hp s.now code
    exact ⟨hfenced.kept.id, hfenced.revoked, hfenced.unrenewed.steps hrevoked, hfenced.claimed⟩
  | reported code hchange hunrenewed _ =>
    have hfenced := fence_fenced hp s.now code
    exact ⟨hid, hunrenewed.revoked hfenced.revoked,
      (hunrenewed.steps hfenced.revoked).trans (hfenced.unrenewed.steps hrevoked),
      hfenced.claimed.trans hchange.claimed⟩
  | resolved tenant user document job inspection haction _ _ =>
    exact absurd haction (hno tenant user document)

theorem handed_inspection {reply : Reply} (hs : ∀ p ∈ s.plans.rows, Sound p)
    (h : Handed runtime uuid s reply) (hp : p ∈ s.plans.rows) (hrevoked : p.revoked = true)
    {assignment : Agent.Hgs.Job} {release : Option (String × String)}
    (hreply : reply = .job (some assignment) release) (hplan : assignment.deploymentId = p.id) :
    assignment.operation = .inspect := by
  obtain ⟨l, tenant, hl, hjob, rfl, hgranted⟩ := h assignment release hreply
  obtain ⟨n, _, _, hassignment⟩ := (hs _ hl).rows.placed l.job hjob
  have hdeployment : l.job.assignment.deploymentId = l.plan.id := by
    rw [hassignment]
    rfl
  have hoperation : l.job.assignment.operation = l.job.operation := by
    rw [hassignment]
    rfl
  have hsame : l.plan = p := s.plans.row_unique hl hp (hdeployment.symm.trans hplan)
  rw [hoperation]
  by_contra hstep
  have hnot := unrevoked_of_granted hgranted (bne_iff_ne.mpr hstep)
  rw [hsame, hrevoked] at hnot
  cases hnot

theorem step_dormant {e : Event} (hs : ∀ p ∈ s.plans.rows, Sound p) (h : Step runtime s e s')
    (hp : p ∈ s.plans.rows) (hrevoked : p.revoked = true) (hno : ¬e.resolves p.id) :
    ∃ q ∈ s'.plans.rows, Dormant p q := by
  have heffect := (step_does hs h).1
  obtain ⟨q, hq, hid⟩ := heffect.kept_row hs hp
  refine ⟨q, hq, ?_⟩
  rcases heffect.row_of hs hp hq hid with rfl | hstep
  · exact ⟨rfl, hrevoked, rfl, .of_eq rfl⟩
  · exact planStep_dormant (hs p hp) hrevoked hstep
      fun tenant user document haction => hno ⟨tenant, user, document, haction⟩

theorem run_dormant {events : List Event} (hrun : Run (Step runtime) s events s')
    (hs : ∀ p ∈ s.plans.rows, Sound p) (hp : p ∈ s.plans.rows) (hrevoked : p.revoked = true)
    (hno : ∀ e ∈ events, ¬e.resolves p.id) :
    (∃ q ∈ s'.plans.rows, Dormant p q) ∧
      ∀ e ∈ events, ∀ assignment release, e.reply = .job (some assignment) release →
        assignment.deploymentId = p.id → assignment.operation = .inspect := by
  induction hrun generalizing p with
  | nil s => exact ⟨⟨p, hp, rfl, hrevoked, rfl, .of_eq rfl⟩, fun e he => nomatch he⟩
  | @cons s t u e events hstep _ ih =>
    obtain ⟨q, hq, hdormant⟩ := step_dormant hs hstep hp hrevoked (hno e List.mem_cons_self)
    obtain ⟨⟨r, hr, hlater⟩, hreplies⟩ := ih (step_sound hs hstep) hq hdormant.revoked
      fun e he => by
        rw [hdormant.id]
        exact hno e (List.mem_cons_of_mem _ he)
    refine ⟨⟨r, hr, hdormant.trans hlater⟩, fun e' he' assignment release hreply hplan => ?_⟩
    rcases List.mem_cons.mp he' with rfl | he'
    · exact handed_inspection hs (step_does hs hstep).2 hp hrevoked hreply hplan
    · exact hreplies e' he' assignment release hreply (hplan.trans hdormant.id.symm)

theorem resolves_proven {e : Event} (hs : ∀ p ∈ s.plans.rows, Sound p) (h : Step runtime s e s')
    (hp : p ∈ s.plans.rows) (he : e.resolves p.id) :
    ∃ job inspection, ProvenAfresh (s.request runtime e.uuid) p job inspection := by
  obtain ⟨tenantId, user, document, haction⟩ := he
  unfold Step at h
  rw [haction] at h
  unfold perform at h
  obtain ⟨_, _, h, _⟩ := Txn.exec_bind_ok.mp h
  have hyields : Txn.Yields (actOnPlan runtime e.uuid tenantId user p.id (.resolve document))
      (fun _ _ => ∃ job inspection, ProvenAfresh (s.request runtime e.uuid) p job inspection) s := by
    unfold actOnPlan
    rw [Txn.yields_bind]
    refine openPlan_yields fun tenant plan hplan => ?_
    have hsame : plan = p := s.plans.row_unique (Table.get?_mem hplan) hp (Table.get?_key hplan)
    dsimp only
    rw [Txn.yields_bind, yields_readRequest, Txn.yields_bind, Txn.yields_ofExcept]
    intro q hq
    rw [yields_savePlan]
    rw [hsame] at hq
    exact (resolve_change (hs p hp) hq).2
  exact hyields _ _ h

theorem Sound.unresolved (hp : Sound p) {j : HgsJob} (hj : j ∈ p.jobs) (hstep : j.step = true)
    (hunresolved : j.unresolved = true) : p.status = .reconciliationRequired := by
  have hstatus : j.status = .reconciliationRequired :=
    beq_iff_eq.mp (Bool.and_eq_true_iff.mp hunresolved).1
  obtain ⟨done, hdone⟩ := hp.progress.last (mem_steps hj hstep) (by rw [hstatus]; decide)
  have hprogress := hp.progress
  rw [hdone] at hprogress
  have hconsistent := (progress_concat.mp hprogress).2.2.2.1
  rw [hstatus] at hconsistent
  exact beq_iff_eq.mp hconsistent

/-- While its authority is revoked, a plan gets no step and no step of it is claimed or handed out,
until a resolution that has a fresh proof; and a plan with an unresolved step asks for its
reconciliation, so it is not running. -/
theorem revoked_until_resolved (hs : Reachable runtime s) (hp : p ∈ s.plans.rows) :
    (p.revoked = true → ∀ events s', Run (Step runtime) s events s' →
      (∀ e ∈ events, ¬e.resolves p.id) →
        (∃ q ∈ s'.plans.rows, q.id = p.id ∧ q.revoked = true ∧
          q.steps.map (·.id) = p.steps.map (·.id) ∧ Unclaimed p q) ∧
        ∀ e ∈ events, ∀ assignment release, e.reply = .job (some assignment) release →
          assignment.deploymentId = p.id → assignment.operation = .inspect) ∧
    (∀ e s', Step runtime s e s' → e.resolves p.id →
      ∃ job inspection, ProvenAfresh (s.request runtime e.uuid) p job inspection) ∧
    (∀ j ∈ p.jobs, j.step = true → j.unresolved = true → p.status = .reconciliationRequired) := by
  refine ⟨fun hrevoked events s' hrun hno => ?_, fun e s' hstep he => ?_, fun j hj => ?_⟩
  · obtain ⟨⟨q, hq, hdormant⟩, hreplies⟩ := run_dormant hrun hs.sound hp hrevoked hno
    exact ⟨⟨q, hq, hdormant.id, hdormant.revoked, hdormant.steps, hdormant.claimed⟩, hreplies⟩
  · exact resolves_proven hs.sound hstep hp he
  · exact (hs.sound p hp).unresolved hj

end

/-- A plan that is cancelled while its first step runs. -/
theorem revoked_until_resolved_sample : ∃ s, Reachable sampleRuntime s ∧ ∃ p ∈ s.plans.rows,
    p.revoked = true ∧ (∃ j ∈ p.steps, j.status = .running) ∧
      ∀ j ∈ p.jobs, j.step = true → j.unresolved = true → p.status = .reconciliationRequired := by
  have hends : endsIn sampleRuntime (sampleRun ++ [.act "tenant" 7 (sampleUuids 0 0) .cancel])
      sampleBlank (·.any fun p => p.revoked && p.steps.any (·.status == .running)) = true := by
    decide +kernel
  obtain ⟨s, hs, hplans⟩ := reachable_of_endsIn ⟨rfl, rfl⟩ hends
  obtain ⟨p, hp, hf⟩ := List.any_eq_true.mp hplans
  obtain ⟨hrevoked, hrunning⟩ := Bool.and_eq_true_iff.mp hf
  obtain ⟨j, hj, hstatus⟩ := List.any_eq_true.mp hrunning
  exact ⟨s, hs, p, hp, hrevoked, ⟨j, hj, beq_iff_eq.mp hstatus⟩, (revoked_until_resolved hs hp).2.2⟩

/-- An inspection that asks for reconciliation, then one that succeeds and an approval. -/
def unresolvedInspection : List Action :=
  let digest := "4ce804aab0b382528d88ec68ff2f102192570ae99c03a3fd8e71bd28a92c8003"
  [.createPlan "tenant" 7 (samplePlan "first"), .act "tenant" 7 (sampleUuids 0 0) .inspect,
    sampleClaim (sampleUuids 1 0) digest,
    sampleResult (sampleUuids 1 0) digest "reconciliation_required" "hgs_reconciliation_required"
      (.obj []),
    .act "tenant" 7 (sampleUuids 0 0) .inspect, sampleClaim (sampleUuids 4 1) digest,
    sampleResult (sampleUuids 4 1) digest "succeeded" "hgs_inspected"
      (observationDocument sampleFresh),
    .act "tenant" 7 (sampleUuids 0 0)
      (.execute (.obj [("plan_digest", .str digest), ("confirm", .bool true)]))]

/-- An unresolved inspection does not keep its plan from running. -/
theorem unresolvedInspection_runs : ¬∀ s, Reachable sampleRuntime s → ∀ p ∈ s.plans.rows,
    (∃ j ∈ p.jobs, j.unresolved = true) → p.status ≠ .running := by
  intro h
  have hends : endsIn sampleRuntime unresolvedInspection sampleBlank
      (·.any fun p => p.jobs.any (·.unresolved) && p.status == .running) = true := by decide +kernel
  obtain ⟨s, hs, hplans⟩ := reachable_of_endsIn ⟨rfl, rfl⟩ hends
  obtain ⟨p, hp, hf⟩ := List.any_eq_true.mp hplans
  obtain ⟨hunresolved, hrunning⟩ := Bool.and_eq_true_iff.mp hf
  obtain ⟨j, hj, hjob⟩ := List.any_eq_true.mp hunresolved
  exact h s hs p hp ⟨j, hj, hjob⟩ (beq_iff_eq.mp hrunning)

end Ipms.Server.Hgs
