import Ipms.Server.Hgs.Steps

/-
  Ipms.Server.Hgs.Effects

  Every action of the control plane has one of the listed effects, and hands
  out no assignment that it refuses; one lemma for each action.
-/

namespace Ipms.Server.Hgs

open Ipms.Lib Ipms.ManagementJson Txn
open Ipms.Agent.Hgs (Operation)

section
variable {runtime : Runtime} {uuid : Nat → String} {s s' : ControlPlane} {a : Action}

/-- What holds of an action that commits. -/
def Does (runtime : Runtime) (uuid : Nat → String) (s : ControlPlane) (a : Action) (reply : Reply)
    (s' : ControlPlane) : Prop :=
  Effect runtime uuid s a s' ∧ Handed runtime uuid s reply

theorem Effect.of_eq (hplans : s'.plans = s.plans) (hlifecycle : s'.lifecycle = s.lifecycle) :
    Effect runtime uuid s a s' := by
  refine .idle hplans fun e he => .inl ?_
  unfold ControlPlane.maintained at he ⊢
  rw [← hlifecycle]
  exact he

theorem handed_of_ne {reply : Reply}
    (h : ∀ assignment release, reply ≠ .job (some assignment) release) :
    Handed runtime uuid s reply :=
  fun assignment release heq => absurd heq (h assignment release)

theorem yields_savePlan {plan : HgsDeployment} {Q : Unit → ControlPlane → Prop} :
    Yields (savePlan plan) Q s ↔ Q () { s with plans := s.plans.save plan } := by
  unfold savePlan
  rw [yields_modify]

theorem yields_readRequest {Q : Request → ControlPlane → Prop} :
    Yields (readRequest runtime uuid) Q s ↔ Q (s.request runtime uuid) s := by
  unfold readRequest
  rw [yields_bind, yields_get, yields_pure]

/-! ## New plans -/

theorem newNodes_ordered (systems : List (WindowsServer × Gpo.AgentEnrollment)) :
    Ordered (systems.zipIdx.map fun ((system, e), index) => newNode uuid system e index) := by
  intro m n hn
  rw [List.getElem?_map, List.getElem?_zipIdx, Option.map_map, Option.map_eq_some_iff] at hn
  obtain ⟨x, _, rfl⟩ := hn
  exact Nat.zero_add m

variable {tenant : Tenant} {user : Nat}

theorem newPlan_sound {req : Request} {data : PlanDocument} {nodes : List HgsNode}
    (hids : (nodes.map (·.id)).Nodup) (hordered : Ordered nodes) :
    Sound (newPlan req tenant user data nodes) where
  rows := ⟨hids, hordered, List.nodup_nil, fun _ hj => nomatch hj⟩
  progress := ⟨List.nil_prefix, (fun _ hj => nomatch hj), (fun _ hj => nomatch hj), rfl,
    fun h => nomatch h⟩

theorem createPlan_does {document : Value} :
    Yields (createPlan runtime uuid tenant user document)
      (fun _ s' => Effect runtime uuid s a s') s := by
  unfold createPlan
  rw [yields_bind, yields_get, yields_bind, yields_readRequest, yields_bind,
    yields_throwIf]
  intro _
  rw [yields_bind, yields_ofExcept]
  intro data _
  cases selectedSystems s.directory tenant data.nodeIds with
  | none => exact (yields_throw _).mpr trivial
  | some systems =>
    dsimp only
    rw [yields_bind, yields_throwIf]
    intro hdomain
    rw [yields_bind, yields_throwIf]
    intro _
    rw [yields_bind, yields_throwIf]
    intro hreserved
    rw [yields_bind, yields_throwIf]
    intro hunique
    split
    · exact (yields_throw _).mpr trivial
    · rename_i plans hinsert
      rw [yields_set]
      obtain ⟨hfresh, hrows⟩ := Table.insert_eq_some hinsert
      rw [not_or, not_not, not_not] at hunique
      refine .created _ ⟨newPlan_sound hunique.2 (newNodes_ordered _), rfl, rfl,
        Table.get?_eq_none.mp hfresh, fun p hp hactive n hn m hm henrollment => ?_,
        fun p hp htenant hname => ?_⟩ hrows rfl
      · obtain ⟨x, hx, rfl⟩ := List.mem_map.mp hm
        refine hreserved (List.any_eq_true.mpr ⟨x.1, List.fst_mem_of_mem_zipIdx hx, ?_⟩)
        refine List.any_eq_true.mpr ⟨p, hp, ?_⟩
        rw [hactive, Bool.true_and]
        exact List.any_eq_true.mpr ⟨n, hn, beq_iff_eq.mpr henrollment⟩
      · rw [Bool.not_eq_true, List.any_eq_false] at hdomain
        have hfree := hdomain p hp
        rw [beq_iff_eq.mpr (show p.tenant = tenant.id from htenant),
          beq_iff_eq.mpr (show p.domainName = data.domainName from hname)] at hfree
        revert hfree
        cases p.status <;> decide

theorem openPlan_yields {tenantId : String} {planId : String}
    {Q : Tenant × HgsDeployment → ControlPlane → Prop}
    (h : ∀ tenant plan, s.plans.get? planId = some plan → Q (tenant, plan) s) :
    Yields (openPlan tenantId user planId) Q s := by
  unfold openPlan
  rw [yields_bind, yields_get, yields_bind, yields_ofExcept]
  intro tenant _
  rw [yields_bind, yields_throwIf]
  intro _
  split
  · exact (yields_throw _).mpr trivial
  · rename_i plan hplan
    rw [yields_pure]
    exact h tenant plan (Option.filter_eq_some_iff.mp hplan).1

theorem actOnPlan_does {tenantId : String} {planId : String} {action : PlanAction}
    (hs : ∀ p ∈ s.plans.rows, Sound p) :
    Yields (actOnPlan runtime uuid tenantId user planId action)
      (fun _ s' => Effect runtime uuid s (.act tenantId user planId action) s') s := by
  unfold actOnPlan
  rw [yields_bind]
  refine openPlan_yields fun tenant p hp => ?_
  dsimp only
  rw [yields_bind, yields_readRequest, yields_bind, yields_ofExcept]
  intro q hq
  rw [yields_savePlan]
  have hmem := Table.get?_mem hp
  have hsound := hs p hmem
  refine .saved p q hmem ?_ rfl rfl
  cases action with
  | inspect | reconcile =>
    obtain ⟨hchange, hunrenewed⟩ := requestInspection_change hsound hq
    exact .served hchange hunrenewed
  | cancel => exact .fenced _ hp (cancel_fenced hsound hq).2
  | execute document =>
    obtain ⟨hchange, hunrenewed⟩ := authorize_change hsound hq
    exact .served hchange hunrenewed
  | resolve document =>
    obtain ⟨hchange, job, inspection, hproven⟩ := resolve_change hsound hq
    exact .resolved tenantId user document job inspection (by rw [Table.get?_key hp]) hchange hproven

/-! ## Exchanges -/

theorem yields_pollResponse {enrollment : Gpo.AgentEnrollment} {assignment : Option Agent.Hgs.Job}
    {Q : Reply → ControlPlane → Prop} (h : ∀ release, Q (.job assignment release) s) :
    Yields (pollResponse enrollment assignment) Q s := by
  unfold pollResponse
  rw [yields_bind, yields_get, yields_pure]
  exact h _

variable {l : Located}

theorem handOut_does {enrollment : Gpo.AgentEnrollment} {hand : Request → Request.Txn Reply}
    (hmem : l.plan ∈ s.plans.rows)
    (hfence : ∀ code, refusal (s.request runtime uuid) tenant l = .ok (some code) →
      fenceOf runtime uuid s a = some l.plan)
    (hhand : refusal (s.request runtime uuid) tenant l = .ok none →
      s.maintained enrollment.id = false →
        Yields (hand (s.request runtime uuid)) (Does runtime uuid s a) s) :
    Yields (handOut runtime uuid tenant enrollment l hand) (Does runtime uuid s a) s := by
  unfold handOut
  rw [yields_bind, yields_get, yields_bind, yields_readRequest, yields_bind,
    yields_ofExcept]
  intro refused hrefused
  have hnone : Handed runtime uuid s (.job none none) := handed_of_ne fun _ _ => nofun
  cases refused with
  | some code =>
    dsimp only
    rw [yields_bind, yields_savePlan, yields_pure]
    exact ⟨.saved l.plan _ hmem (.fenced code (hfence code hrefused) rfl) rfl rfl, hnone⟩
  | none =>
    dsimp only
    rw [yields_ite]
    refine ⟨fun _ => ?_, fun hmaintained => hhand hrefused (Bool.eq_false_iff.mpr hmaintained)⟩
    rw [yields_pure]
    exact ⟨.of_eq rfl rfl, hnone⟩

section
variable {authenticated enrollment : Gpo.AgentEnrollment} {document : Value} {tenant : Tenant}

theorem fenceOf_refused {x : ExchangeDocument} {code : String}
    (hread : readExchange authenticated.deviceUri document = .ok x)
    (htenant : s.directory.tenant authenticated.tenant = .ok tenant)
    (hl : s.exchanged authenticated.id tenant.id x = some l)
    (hx : ∀ jobId planDigest result, x ≠ .result jobId planDigest result)
    (hrefused : refusal (s.request runtime uuid) tenant l = .ok (some code)) :
    fenceOf runtime uuid s (.exchange authenticated document) = some l.plan := by
  unfold fenceOf
  simp only [hread, htenant, Except.toOption, Option.bind_eq_bind, Option.bind_some, hl]
  cases x with
  | result jobId planDigest result => exact absurd rfl (hx jobId planDigest result)
  | poll | claim jobId planDigest => simp only [hrefused]

theorem poll_does (hs : ∀ p ∈ s.plans.rows, Sound p)
    (hread : readExchange authenticated.deviceUri document = .ok .poll)
    (htenant : s.directory.tenant authenticated.tenant = .ok tenant)
    (henrollment : enrollment.id = authenticated.id) :
    Yields (poll runtime uuid tenant enrollment)
      (Does runtime uuid s (.exchange authenticated document)) s := by
  unfold poll
  rw [yields_bind, yields_get, yields_ite]
  refine ⟨fun _ => ?_, fun _ => ?_⟩
  · rw [yields_pure]
    exact ⟨.of_eq rfl rfl, handed_of_ne fun _ _ => nofun⟩
  · split
    · refine yields_pollResponse fun release => ?_
      exact ⟨.of_eq rfl rfl, handed_of_ne fun _ _ => nofun⟩
    · rename_i l hl
      have hl' : s.exchanged authenticated.id tenant.id .poll = some l := by
        rw [← henrollment]
        exact hl
      obtain ⟨hplan, hjob, _, _⟩ := mem_jobsOf (mem_exchanged hl')
      refine handOut_does hplan
        (fun code hcode => fenceOf_refused hread htenant hl' (fun _ _ _ => nofun) hcode)
        fun hrefused _ => ?_
      have hhanded : ∀ release, Handed runtime uuid s (.job (some l.job.assignment) release) := by
        intro release assignment release' heq
        cases heq
        exact ⟨l, tenant, hplan, hjob, rfl, hrefused⟩
      dsimp only
      rw [yields_ite]
      refine ⟨fun hqueued => ?_, fun _ => ?_⟩
      · rw [yields_bind, yields_savePlan]
        refine yields_pollResponse fun release => ⟨?_, hhanded release⟩
        obtain ⟨hchange, hunrenewed⟩ := offer_change (hs _ hplan) hjob hqueued
        exact .saved l.plan _ hplan (.served hchange hunrenewed) rfl rfl
      · exact yields_pollResponse fun release => ⟨.of_eq rfl rfl, hhanded release⟩

variable {planDigest jobId : String}

theorem findJob_yields {Q : Located → ControlPlane → Prop}
    (h : ∀ l, (s.jobsOf enrollment.id tenant.id).find? (·.job.id == jobId) = some l → Q l s) :
    Yields (findJob tenant enrollment jobId planDigest) Q s := by
  unfold findJob
  rw [yields_bind, yields_get]
  split
  · exact (yields_throw _).mpr trivial
  · rename_i l hl
    rw [yields_bind, yields_throwIf]
    intro _
    rw [yields_pure]
    exact h l hl

theorem unrevoked_of_granted {req : Request} (h : refusal req tenant l = .ok none)
    (hstep : l.job.step = true) : l.plan.revoked = false := by
  unfold refusal at h
  obtain ⟨live, _, h⟩ := bind_eq_ok.mp h
  by_cases hrefused : (!live || !authorityCurrent req tenant l.plan l.job) = true
  · rw [if_pos hrefused] at h
    cases h
  · rw [Bool.not_eq_true, Bool.or_eq_false_iff, Bool.not_eq_false'] at hrefused
    have hcurrent := hrefused.2
    rw [Bool.not_eq_false'] at hcurrent
    unfold authorityCurrent at hcurrent
    split at hcurrent
    · cases hcurrent
    · rw [if_neg (bne_iff_ne.mp hstep)] at hcurrent
      simp only [Bool.and_eq_true, Bool.not_eq_true'] at hcurrent
      exact hcurrent.1.1.1.1

theorem claim_does
    (hread : readExchange authenticated.deviceUri document = .ok (.claim jobId planDigest))
    (htenant : s.directory.tenant authenticated.tenant = .ok tenant)
    (henrollment : enrollment.id = authenticated.id) :
    Yields (claim runtime uuid tenant enrollment jobId planDigest)
      (Does runtime uuid s (.exchange authenticated document)) s := by
  unfold claim
  rw [yields_bind]
  refine findJob_yields fun l hl => ?_
  have hl' : s.exchanged authenticated.id tenant.id (.claim jobId planDigest) = some l := by
    rw [← henrollment]
    exact hl
  obtain ⟨hplan, hjob, hnode, hsame⟩ := mem_jobsOf (mem_exchanged hl')
  refine handOut_does hplan
    (fun code hcode => fenceOf_refused hread htenant hl' (fun _ _ _ => nofun) hcode)
    fun hrefused hmaintained => ?_
  have hhanded : Handed runtime uuid s (.job (some l.job.assignment) none) := by
    intro assignment release heq
    cases heq
    exact ⟨l, tenant, hplan, hjob, rfl, hrefused⟩
  rw [yields_ite]
  refine ⟨fun hunclaimed => ?_, fun _ => ?_⟩
  · rw [yields_bind, yields_savePlan, yields_pure]
    refine ⟨.saved l.plan _ hplan (.claimed l.job l.node hjob hunclaimed hnode ?_
      (unrevoked_of_granted hrefused) rfl) rfl rfl, hhanded⟩
    rw [hsame, ← henrollment]
    exact hmaintained
  · rw [yields_ite]
    refine ⟨fun _ => ?_, fun _ => ?_⟩
    · rw [yields_pure]
      exact ⟨.of_eq rfl rfl, hhanded⟩
    · rw [yields_pure]
      exact ⟨.of_eq rfl rfl, handed_of_ne fun _ _ => nofun⟩

theorem result_does {resultDocument : Value} (hs : ∀ p ∈ s.plans.rows, Sound p)
    (hread : readExchange authenticated.deviceUri document =
      .ok (.result jobId planDigest resultDocument))
    (htenant : s.directory.tenant authenticated.tenant = .ok tenant)
    (henrollment : enrollment.id = authenticated.id) :
    Yields (result runtime uuid tenant enrollment jobId planDigest resultDocument)
      (Does runtime uuid s (.exchange authenticated document)) s := by
  unfold result
  rw [yields_bind]
  refine findJob_yields fun l hl => ?_
  have hl' : s.exchanged authenticated.id tenant.id (.result jobId planDigest resultDocument) =
      some l := by
    rw [← henrollment]
    exact hl
  obtain ⟨hplan, hjob, hnode, _⟩ := mem_jobsOf (mem_exchanged hl')
  have hsound := hs _ hplan
  have haccepted : Handed runtime uuid s .accepted := handed_of_ne fun _ _ => nofun
  rw [yields_bind, yields_readRequest, yields_ite]
  refine ⟨fun _ => ?_, fun _ => ?_⟩
  · rw [yields_bind, yields_ofExcept]
    intro q hq
    rw [yields_bind, yields_savePlan, yields_pure]
    obtain ⟨hchange, hunrenewed⟩ := acceptResult_change hsound hjob hnode hq
    exact ⟨.saved l.plan q hplan (.served hchange hunrenewed) rfl rfl, haccepted⟩
  · rw [yields_bind, yields_ofExcept]
    intro live _
    rw [yields_bind, yields_throwIf]
    intro _
    rw [yields_bind, yields_ofExcept]
    intro q hq
    rw [yields_bind, yields_savePlan, yields_pure]
    refine ⟨.saved l.plan q hplan ?_ rfl rfl, haccepted⟩
    unfold resultPlan at hq
    by_cases hfenced : (!authorityCurrent (s.request runtime uuid) tenant l.plan l.job &&
        !l.plan.revoked && l.job.status.claimed) = true
    · rw [if_pos hfenced] at hq
      have hclaimed := (Bool.and_eq_true_iff.mp hfenced).2
      have hjob' := fence_claimed hjob hclaimed (s.request runtime uuid).now "authority_withdrawn"
      obtain ⟨hchange, hunrenewed⟩ := acceptResult_change
        (fence_fenced hsound _ _).sound hjob' hnode hq
      refine .reported _ hchange hunrenewed ?_
      cases hsettles : settles l resultDocument with
      | true =>
        exact .inr fun hinactive =>
          settled_cancelled hsound hjob hclaimed hinactive hsettles hq
      | false =>
        refine .inl ?_
        unfold fenceOf
        simp only [hread, htenant, Except.toOption, Option.bind_eq_bind, Option.bind_some, hl']
        rw [hfenced, hsettles]
        rfl
    · rw [if_neg hfenced] at hq
      obtain ⟨hchange, hunrenewed⟩ := acceptResult_change hsound hjob hnode hq
      exact .served hchange hunrenewed

theorem exchangeParties_yields {Q : Tenant × Gpo.AgentEnrollment → ControlPlane → Prop}
    (h : ∀ tenant enrollment, s.directory.tenant authenticated.tenant = .ok tenant →
      enrollment.id = authenticated.id → Q (tenant, enrollment) s) :
    Yields (exchangeParties authenticated) Q s := by
  unfold exchangeParties
  rw [yields_bind, yields_get, yields_bind, yields_ofExcept]
  intro tenant htenant
  rw [yields_bind, yields_ofExcept]
  intro enrollment henrollment
  rw [yields_bind, yields_throwIf]
  intro _
  rw [yields_pure]
  refine h tenant enrollment htenant ?_
  unfold Directory.enrollment at henrollment
  split at henrollment
  · rename_i found hfind
    cases henrollment
    exact beq_iff_eq.mp (List.find?_some (p := fun x : Gpo.AgentEnrollment =>
      x.id == authenticated.id) hfind)
  · cases henrollment

theorem hgsExchange_does (hs : ∀ p ∈ s.plans.rows, Sound p) :
    Yields (hgsExchange runtime uuid authenticated document)
      (Does runtime uuid s (.exchange authenticated document)) s := by
  unfold hgsExchange
  rw [yields_bind, yields_ofExcept]
  intro x hread
  rw [yields_bind]
  refine exchangeParties_yields fun tenant enrollment htenant henrollment => ?_
  cases x with
  | poll => exact poll_does hs hread htenant henrollment
  | claim jobId planDigest => exact claim_does hread htenant henrollment
  | result jobId planDigest document => exact result_does hs hread htenant henrollment

end

theorem withdrawNext_does {index : Nat} :
    Yields (withdrawNext index) (fun _ s' => Effect runtime uuid s (.withdrawNext index) s') s := by
  unfold withdrawNext
  rw [yields_bind, yields_get]
  cases hlisted : s.withdrawals[index]? with
  | none =>
    dsimp only
    rw [yields_pure]
    exact .of_eq rfl rfl
  | some listed =>
    dsimp only
    rw [yields_bind, yields_set]
    split
    · exact (yields_throw _).mpr trivial
    · rename_i p hp
      rw [yields_savePlan]
      refine .saved p _ (Table.get?_mem hp) (.fenced listed.2 ?_ rfl) rfl rfl
      show (s.withdrawals[index]?.bind fun l => s.plans.get? l.1) = some p
      rw [hlisted]
      exact hp

theorem createLifecycleJob_does {enrollmentId : String} {blocked : Bool} :
    Yields (createLifecycleJob enrollmentId blocked) (fun _ s' => Effect runtime uuid s a s') s := by
  unfold createLifecycleJob
  rw [yields_bind, yields_get, yields_bind, yields_ofExcept]
  intro enrollment _
  rw [yields_bind, yields_ofExcept]
  intro tenant _
  rw [yields_bind, yields_throwIf]
  intro _
  rw [yields_bind, yields_throwIf]
  intro hunsettled
  rw [yields_bind, yields_throwIf]
  intro _
  rw [yields_bind, yields_throwIf]
  intro _
  rw [yields_bind, yields_throwIf]
  intro _
  rw [yields_set]
  refine .idle rfl fun e he => ?_
  unfold ControlPlane.maintained at he
  rw [List.any_append, Bool.or_eq_true] at he
  rcases he with he | he
  · exact .inl he
  · refine .inr fun p hp hexecuting n hn henrollment => hunsettled (List.any_eq_true.mpr ⟨p, hp, ?_⟩)
    have hsame : e = enrollmentId := by
      simp only [List.any_cons, List.any_nil, Bool.or_false, Bool.and_eq_true, beq_iff_eq] at he
      exact he.1.symm
    rw [hexecuting, Bool.or_true, Bool.true_and]
    exact List.any_eq_true.mpr ⟨n, hn, beq_iff_eq.mpr (henrollment.trans hsame)⟩

theorem advanceLifecycle_does {index : Nat} {status : LifecycleStatus} :
    Yields (advanceLifecycle index status) (fun _ s' => Effect runtime uuid s a s') s := by
  unfold advanceLifecycle
  rw [yields_bind, yields_get]
  cases hjob : s.lifecycle[index]? with
  | none => exact (yields_throw _).mpr trivial
  | some job =>
    dsimp only
    rw [yields_bind, yields_throwIf]
    intro hactive
    rw [yields_set]
    refine .idle rfl fun e he => .inl ?_
    obtain ⟨j, hj, hmaintained⟩ := List.any_eq_true.mp he
    rcases List.mem_or_eq_of_mem_set hj with hj | rfl
    · exact List.any_eq_true.mpr ⟨j, hj, hmaintained⟩
    · refine List.any_eq_true.mpr ⟨job, List.mem_of_getElem? hjob, ?_⟩
      rw [Bool.not_eq_false] at hactive
      rw [hactive, Bool.and_true]
      exact (Bool.and_eq_true_iff.mp hmaintained).1

/-- Every action that commits has one of the effects, and hands out nothing that is refused. -/
theorem step_does {e : Event} (hs : ∀ p ∈ s.plans.rows, Sound p) (h : Step runtime s e s') :
    Does runtime e.uuid s e.action e.reply s' := by
  have hdone : Handed runtime e.uuid s .done := handed_of_ne fun _ _ => nofun
  have hyields : Yields (perform runtime e.uuid e.action)
      (Does runtime e.uuid s e.action) s := by
    cases e.action with
    | createPlan tenantId user document =>
      unfold perform
      rw [yields_bind, yields_get, yields_bind, yields_ofExcept]
      intro tenant _
      rw [yields_bind, yields_throwIf]
      intro _
      rw [yields_bind]
      exact createPlan_does.mono fun _ s' heffect =>
        (yields_pure (Q := Does _ _ _ _) _).mpr ⟨heffect, hdone⟩
    | act tenantId user planId action =>
      unfold perform
      rw [yields_bind]
      exact (actOnPlan_does hs).mono fun _ s' heffect =>
        (yields_pure (Q := Does _ _ _ _) _).mpr ⟨heffect, hdone⟩
    | exchange authenticated document => exact hgsExchange_does hs
    | withdraw w =>
      unfold perform Hgs.withdraw
      rw [yields_bind, yields_modify, yields_pure]
      exact ⟨.of_eq rfl rfl, hdone⟩
    | withdrawNext index =>
      unfold perform
      rw [yields_bind]
      exact withdrawNext_does.mono fun _ s' heffect =>
        (yields_pure (Q := Does _ _ _ _) _).mpr ⟨heffect, hdone⟩
    | createLifecycle enrollmentId blocked =>
      unfold perform
      rw [yields_bind]
      exact createLifecycleJob_does.mono fun _ s' heffect =>
        (yields_pure (Q := Does _ _ _ _) _).mpr ⟨heffect, hdone⟩
    | advanceLifecycle index status =>
      unfold perform
      rw [yields_bind]
      exact advanceLifecycle_does.mono fun _ s' heffect =>
        (yields_pure (Q := Does _ _ _ _) _).mpr ⟨heffect, hdone⟩
    | pass time | change directory =>
      unfold perform
      rw [yields_bind, yields_modify, yields_pure]
      exact ⟨.of_eq rfl rfl, hdone⟩
  exact hyields _ _ h

end

end Ipms.Server.Hgs
