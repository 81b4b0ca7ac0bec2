import Ipms.Server.Hgs.Revocation

/-
  Ipms.Server.Hgs.Exclusivity

  Plans keep out of each other's way: an agent is a node of one active plan, a
  domain belongs to one plan, and an agent has one active step and none that it
  claimed while it is maintained.  A fence breaks this when it makes a plan
  active again whose node or domain another plan has taken; in every run
  without such a fence it holds.
-/

namespace Ipms.Server.Hgs

open Ipms.Lib Ipms.ManagementJson
open Ipms.Agent.Hgs (Operation Observation)

/-- What keeps plans out of each other's way. -/
structure Exclusive (s : ControlPlane) : Prop where
  nodes : ∀ p ∈ s.plans.rows, ∀ q ∈ s.plans.rows, p.status.active = true → q.status.active = true →
    ∀ n ∈ p.nodes, ∀ m ∈ q.nodes, n.enrollment = m.enrollment → p = q
  domains : ∀ p ∈ s.plans.rows, ∀ q ∈ s.plans.rows, p.tenant = q.tenant →
    p.domainName = q.domainName → p.status.occupies = true → q.status.occupies = true → p = q
  steps : ∀ p ∈ s.plans.rows, ∀ q ∈ s.plans.rows, ∀ j ∈ p.steps, ∀ k ∈ q.steps,
    j.status.active = true → k.status.active = true → ∀ n m, p.nodeOf j = some n →
      q.nodeOf k = some m → n.enrollment = m.enrollment → p = q ∧ j = k
  maintained : ∀ p ∈ s.plans.rows, ∀ j ∈ p.steps, j.status.claimed = true →
    ∀ n, p.nodeOf j = some n → s.maintained n.enrollment = false

/-- Another plan has a node or the domain of a plan. -/
def taken (plans : List HgsDeployment) (p : HgsDeployment) : Bool :=
  plans.any fun q => q.id != p.id &&
    (q.status.active && p.nodes.any (fun n => q.nodes.any (·.enrollment == n.enrollment)) ||
      q.status.occupies && q.tenant == p.tenant && q.domainName == p.domainName)

/-- The action fences a plan outside `PLAN_ACTIVE`, in which it finds something uncertain, although
another plan has taken its node or its domain. -/
def reopens (runtime : Runtime) (uuid : Nat → String) (s : ControlPlane) (a : Action) : Bool :=
  (fenceOf runtime uuid s a).any fun p =>
    !p.status.active && p.uncertain && taken s.plans.rows p

section
variable {runtime : Runtime} {uuid : Nat → String} {s s' : ControlPlane} {a : Action}
  {p q : HgsDeployment}

/-! ## Plans that are apart -/

/-- Two plans that keep out of each other's way. -/
structure Apart (p q : HgsDeployment) : Prop where
  nodes : p.status.active = true → q.status.active = true →
    ∀ n ∈ p.nodes, ∀ m ∈ q.nodes, n.enrollment ≠ m.enrollment
  domains : p.tenant = q.tenant → p.domainName = q.domainName →
    ¬(p.status.occupies = true ∧ q.status.occupies = true)

theorem Apart.symm (h : Apart p q) : Apart q p :=
  ⟨fun hq hp n hn m hm heq => h.nodes hp hq m hm n hn heq.symm,
    fun htenant hname hboth => h.domains htenant.symm hname.symm hboth.symm⟩

/-- A fence makes the plan active again. -/
def Reopened (runtime : Runtime) (uuid : Nat → String) (s : ControlPlane) (a : Action)
    (p : HgsDeployment) : Prop :=
  fenceOf runtime uuid s a = some p ∧ p.status.active = false ∧ p.uncertain = true

theorem inactive_of_free : ∀ s : PlanStatus, s.occupies = false → s.active = false := by
  decide

/-- A status that changes keep from being gained is gained only by a fence: the active statuses,
and those that occupy a domain. -/
theorem planStep_gains {P : PlanStatus → Bool} (hidle : ∀ s, P s = false → s.active = false)
    (hcancelled : P .cancelled = false)
    (hchange : ∀ {p q}, Change p q → P q.status = true → P p.status = true)
    (hp : Sound p) (h : PlanStep runtime uuid s a p q) (hq : P q.status = true) :
    P p.status = true ∨ Reopened runtime uuid s a p := by
  cases hfree : P p.status with
  | true => exact .inl rfl
  | false =>
    have hactive := hidle _ hfree
    cases h with
    | served change _ => exact .inl (hfree ▸ hchange change hq)
    | claimed job node _ _ _ _ _ heq =>
      rw [heq] at hq
      exact .inl (hfree ▸ hq)
    | fenced code hfence heq =>
      rw [heq, (fence_fenced hp s.now code).status] at hq
      cases huncertain : p.uncertain with
      | true => exact .inr ⟨hfence, hactive, huncertain⟩
      | false => simp [huncertain, hcancelled] at hq
    | reported code change _ hfence =>
      have hfenced := hchange change hq
      rw [(fence_fenced hp s.now code).status] at hfenced
      cases huncertain : p.uncertain with
      | true =>
        rcases hfence with hfence | hsettled
        · exact .inr ⟨hfence, hactive, huncertain⟩
        · rw [hsettled hactive, hcancelled] at hq
          cases hq
      | false => simp [huncertain, hcancelled] at hfenced
    | resolved tenant user document job inspection _ change _ =>
      exact .inl (hfree ▸ hchange change hq)

theorem kept_enrollment (h : Kept p q) {P : String → Prop} (hp : ∀ n ∈ p.nodes, P n.enrollment) :
    ∀ n ∈ q.nodes, P n.enrollment := by
  intro n hn
  have hmem : n.enrollment ∈ q.nodes.map (·.enrollment) := List.mem_map_of_mem hn
  rw [h.enrollments] at hmem
  obtain ⟨m, hm, heq⟩ := List.mem_map.mp hmem
  rw [← heq]
  exact hp m hm

/-- A plan stays apart from another through an action that reopens none. -/
theorem apart_step {o : HgsDeployment} (hp : Sound p) (h : PlanStep runtime uuid s a p q)
    (hno : reopens runtime uuid s a = false) (ho : o ∈ s.plans.rows) (hid : o.id ≠ p.id)
    (hapart : Apart p o) : Apart q o := by
  have hkept := (planStep_sound hp h).1
  have hnot : Reopened runtime uuid s a p → taken s.plans.rows p = false := by
    rintro ⟨hfence, hactive, huncertain⟩
    unfold reopens at hno
    rw [hfence, Option.any_some, hactive, huncertain] at hno
    exact hno
  have hother : Reopened runtime uuid s a p →
      ¬(o.status.active = true ∧ ∃ n ∈ p.nodes, ∃ m ∈ o.nodes, m.enrollment = n.enrollment) ∧
        ¬(o.status.occupies = true ∧ o.tenant = p.tenant ∧ o.domainName = p.domainName) := by
    intro hreopened
    have hfree := List.any_eq_false.mp (hnot hreopened) o ho
    simp only [bne_iff_ne.mpr hid, Bool.true_and, Bool.or_eq_true, Bool.and_eq_true,
      List.any_eq_true, beq_iff_eq, not_or] at hfree
    exact ⟨hfree.1, fun h => hfree.2 ⟨⟨h.1, h.2.1⟩, h.2.2⟩⟩
  refine ⟨fun hq ho' => ?_, fun htenant hname hboth => ?_⟩
  · rcases planStep_gains (fun _ h => h) rfl Change.active hp h hq with hactive | hreopened
    · exact kept_enrollment hkept (P := fun e => ∀ m ∈ o.nodes, e ≠ m.enrollment)
        (hapart.nodes hactive ho')
    · refine kept_enrollment hkept (P := fun e => ∀ m ∈ o.nodes, e ≠ m.enrollment) ?_
      exact fun n hn m hm heq => (hother hreopened).1 ⟨ho', n, hn, m, hm, heq.symm⟩
  · rw [hkept.tenant] at htenant
    rw [hkept.domainName] at hname
    rcases planStep_gains inactive_of_free rfl Change.occupies hp h hboth.1 with hoccupies | hreopened
    · exact hapart.domains htenant hname ⟨hoccupies, hboth.2⟩
    · exact (hother hreopened).2 ⟨hboth.2, htenant.symm, hname.symm⟩

/-- All plans are apart. -/
def Separate (s : ControlPlane) : Prop :=
  ∀ p ∈ s.plans.rows, ∀ q ∈ s.plans.rows, p.id ≠ q.id → Apart p q

theorem Created.apart (h : Created s q) (hp : p ∈ s.plans.rows) : Apart p q :=
  ⟨fun hactive _ => h.reserved p hp hactive, fun htenant hname hboth => by
    rw [h.domain p hp htenant hname] at hboth
    exact absurd hboth.1 (by decide)⟩

/-- An action that reopens no plan keeps the plans apart. -/
theorem separate_step (hs : ∀ p ∈ s.plans.rows, Sound p) (hsep : Separate s)
    (h : Effect runtime uuid s a s') (hno : reopens runtime uuid s a = false) : Separate s' := by
  cases h with
  | idle hplans _ =>
    unfold Separate
    rw [hplans]
    exact hsep
  | created new hnew hrows _ =>
    intro p hp q hq hid
    rw [hrows] at hp hq
    rcases List.mem_cons.mp hp with hpnew | hpold
    · rcases List.mem_cons.mp hq with hqnew | hqold
      · exact absurd (congrArg HgsDeployment.id (hpnew.trans hqnew.symm)) hid
      · rw [hpnew]
        exact (hnew.apart hqold).symm
    · rcases List.mem_cons.mp hq with hqnew | hqold
      · rw [hqnew]
        exact hnew.apart hpold
      · exact hsep p hpold q hqold hid
  | saved old new hold hstep hplans _ =>
    have hsame : new.id = old.id := (planStep_sound (hs old hold) hstep).1.id
    have hnew : ∀ o ∈ s.plans.rows, o.id ≠ old.id → Apart new o := fun o ho hid =>
      apart_step (hs old hold) hstep hno ho hid (hsep old hold o ho hid.symm)
    intro p hp q hq hid
    rw [hplans] at hp hq
    rcases Table.mem_save.mp hp with ⟨hpold, hpid⟩ | ⟨hpnew, _⟩
    · rcases Table.mem_save.mp hq with ⟨hqold, _⟩ | ⟨hqnew, _⟩
      · exact hsep p hpold q hqold hid
      · rw [hqnew]
        exact (hnew p hpold (hpid.trans_eq hsame)).symm
    · rcases Table.mem_save.mp hq with ⟨hqold, hqid⟩ | ⟨hqnew, _⟩
      · rw [hpnew]
        exact hnew q hqold (hqid.trans_eq hsame)
      · exact absurd (congrArg HgsDeployment.id (hpnew.trans hqnew.symm)) hid

/-! ## Maintained agents -/

/-- No step is claimed by an agent that is maintained. -/
def Undisturbed (s : ControlPlane) : Prop :=
  ∀ p ∈ s.plans.rows, ∀ j ∈ p.steps, j.status.claimed = true → ∀ n ∈ p.nodes, n.id = j.node →
    s.maintained n.enrollment = false

theorem executing_of_claimed : ∀ (revoked : Bool) (l : JobStatus) (status : PlanStatus),
    consistent revoked (some l) status = true → l.claimed = true → status.executing = true := by
  decide +kernel

theorem Sound.executing (hp : Sound p) {j : HgsJob} (hj : j ∈ p.steps)
    (hclaimed : j.status.claimed = true) : p.status.executing = true := by
  have hopen : j.status ≠ .succeeded := by
    intro hs
    rw [hs] at hclaimed
    cases hclaimed
  obtain ⟨done, hdone⟩ := hp.progress.last hj hopen
  have hprogress := hp.progress
  rw [hdone] at hprogress
  exact executing_of_claimed _ _ _ (progress_concat.mp hprogress).2.2.2.1 hclaimed

theorem node_before (h : Kept p q) {n : HgsNode} (hn : n ∈ q.nodes) :
    ∃ m ∈ p.nodes, m.id = n.id ∧ m.enrollment = n.enrollment := by
  obtain ⟨m, hm, hbare⟩ := Kept.node (p := q) (q := p) h.symm hn
  exact ⟨m, hm, HgsNode.id_of_bare hbare, HgsNode.enrollment_of_bare hbare⟩

/-- What a way of a plan claims is not maintained. -/
theorem planStep_undisturbed (hs : Undisturbed s) (hp : Sound p) (hmem : p ∈ s.plans.rows)
    (h : PlanStep runtime uuid s a p q) : ∀ j ∈ q.steps, j.status.claimed = true →
      ∀ n ∈ q.nodes, n.id = j.node → s.maintained n.enrollment = false := by
  have hkept := (planStep_sound hp h).1
  have hold : Unclaimed p q → ∀ j ∈ q.steps, j.status.claimed = true →
      ∀ n ∈ q.nodes, n.id = j.node → s.maintained n.enrollment = false := by
    intro hunclaimed j hj hclaimed n hn hid
    obtain ⟨i, hi, hi', hnode⟩ := hunclaimed j hj hclaimed
    obtain ⟨m, hm, hmid, henrollment⟩ := node_before hkept hn
    rw [← henrollment]
    exact hs p hmem i hi hi' m hm (hmid.trans (hid.trans hnode.symm))
  cases h with
  | served hchange _ | resolved tenant user document job inspection _ hchange _ =>
    exact hold hchange.claimed
  | claimed job node hjob _ hnode hmaintained _ heq =>
    intro j hj hclaimed n hn hid
    rw [heq] at hj hn
    rcases mem_saveJob (job_of_step hj) with hj' | rfl
    · exact hs p hmem j (mem_steps hj' (step_of_mem hj)) hclaimed n hn hid
    · have hsame : n = node := List.inj_on_of_nodup_map hp.rows.nodeIds hn (nodeOf_mem hnode).1
        (hid.trans (nodeOf_mem hnode).2.symm)
      rw [hsame]
      exact hmaintained
  | fenced code _ heq =>
    refine hold ?_
    rw [heq]
    exact (fence_fenced hp s.now code).claimed
  | reported code hchange _ _ =>
    exact hold ((fence_fenced hp s.now code).claimed.trans hchange.claimed)

theorem undisturbed_step (hs : ∀ p ∈ s.plans.rows, Sound p) (hund : Undisturbed s)
    (h : Effect runtime uuid s a s') : Undisturbed s' := by
  cases h with
  | idle hplans hlifecycle =>
    intro p hp j hj hclaimed n hn hid
    rw [hplans] at hp
    rw [Bool.eq_false_iff]
    intro hmaintained
    rcases hlifecycle _ hmaintained with hbefore | hunexecuted
    · rw [hund p hp j hj hclaimed n hn hid] at hbefore
      cases hbefore
    · exact hunexecuted p hp ((hs p hp).executing hj hclaimed) n hn rfl
  | created new hnew hrows hlifecycle =>
    intro p hp j hj hclaimed n hn hid
    unfold ControlPlane.maintained
    rw [hlifecycle]
    rw [hrows] at hp
    rcases List.mem_cons.mp hp with rfl | hp
    · unfold HgsDeployment.steps at hj
      rw [hnew.jobs] at hj
      cases hj
    · exact hund p hp j hj hclaimed n hn hid
  | saved old new hold hstep hplans hlifecycle =>
    intro p hp j hj hclaimed n hn hid
    unfold ControlPlane.maintained
    rw [hlifecycle]
    rw [hplans] at hp
    rcases Table.mem_save.mp hp with ⟨hp, _⟩ | ⟨rfl, _⟩
    · exact hund p hp j hj hclaimed n hn hid
    · exact planStep_undisturbed hund (hs old hold) hold hstep j hj hclaimed n hn hid

/-! ## Exclusive states -/

theorem exclusive_of_separate (hs : ∀ p ∈ s.plans.rows, Sound p) (hsep : Separate s)
    (hund : Undisturbed s) : Exclusive s := by
  have hsame : ∀ p ∈ s.plans.rows, ∀ q ∈ s.plans.rows, ¬Apart p q → p = q := by
    intro p hp q hq hnot
    by_contra hne
    exact hnot (hsep p hp q hq fun hid => hne (s.plans.row_unique hp hq hid))
  have hnodes : ∀ p ∈ s.plans.rows, ∀ q ∈ s.plans.rows, p.status.active = true →
      q.status.active = true → ∀ n ∈ p.nodes, ∀ m ∈ q.nodes, n.enrollment = m.enrollment → p = q :=
    fun p hp q hq hp' hq' n hn m hm heq =>
      hsame p hp q hq fun hapart => hapart.nodes hp' hq' n hn m hm heq
  refine ⟨hnodes, fun p hp q hq htenant hname hp' hq' => hsame p hp q hq fun hapart =>
    hapart.domains htenant hname ⟨hp', hq'⟩, ?_, fun p hp j hj hclaimed n hn =>
      hund p hp j hj hclaimed n (nodeOf_mem hn).1 (nodeOf_mem hn).2⟩
  intro p hp q hq j hj k hk hj' hk' n m hn hm heq
  obtain ⟨done, hp'⟩ := underway (hs p hp) (job_of_step hj) (step_of_mem hj) hj'
  obtain ⟨done', hq'⟩ := underway (hs q hq) (job_of_step hk) (step_of_mem hk) hk'
  have hplan : p = q :=
    hnodes p hp q hq hp'.active hq'.active n (nodeOf_mem hn).1 m (nodeOf_mem hm).1 heq
  refine ⟨hplan, ?_⟩
  -- both are the last step of the one plan
  have hsteps : done ++ [j] = done' ++ [k] := by
    rw [← hp'.steps, ← hq'.steps, hplan]
  exact List.singleton_inj.mp (List.append_inj' hsteps rfl).2

/-- A step that reopens no plan. -/
def SafeStep (runtime : Runtime) (s : ControlPlane) (e : Event) (s' : ControlPlane) : Prop :=
  Step runtime s e s' ∧ reopens runtime e.uuid s e.action = false

/-- In every run in which no fence reopens a plan, every state is exclusive. -/
theorem exclusive_of_safe {events : List Event} (hs : Blank s)
    (h : Run (SafeStep runtime) s events s') : Exclusive s' := by
  have hinvariant : (∀ p ∈ s'.plans.rows, Sound p) ∧ Separate s' ∧ Undisturbed s' := by
    refine h.preserves (I := fun s => (∀ p ∈ s.plans.rows, Sound p) ∧ Separate s ∧ Undisturbed s)
      (fun s e t hstep hI => ?_) ⟨fun p hp => ?_, fun p hp => ?_, fun p hp => ?_⟩
    · have heffect := (step_does hI.1 hstep.1).1
      exact ⟨step_sound hI.1 hstep.1, separate_step hI.1 hI.2.1 heffect hstep.2,
        undisturbed_step hI.1 hI.2.2 heffect⟩
    · rw [hs.1] at hp
      cases hp
    · rw [hs.1] at hp
      cases hp
    · rw [hs.1] at hp
      cases hp
  exact exclusive_of_separate hinvariant.1 hinvariant.2.1 hinvariant.2.2

end

/-- The given actions reopen no plan, and each of them commits. -/
def safeAll (runtime : Runtime) : List (Action × (Nat → String)) → ControlPlane → Bool
  | [], _ => true
  | (action, uuid) :: rest, s => !reopens runtime uuid s action &&
      match (perform runtime uuid action).exec s with
      | .ok (_, s') => safeAll runtime rest s'
      | .error _ => false

theorem run_of_safeAll {runtime : Runtime} {actions : List (Action × (Nat → String))}
    {s : ControlPlane} (h : safeAll runtime actions s = true) :
    ∃ events s', events.length = actions.length ∧ Run (SafeStep runtime) s events s' := by
  induction actions generalizing s with
  | nil => exact ⟨[], s, rfl, .nil s⟩
  | cons head rest ih =>
    obtain ⟨hsafe, hrest⟩ := Bool.and_eq_true_iff.mp h
    split at hrest
    · rename_i reply t hstep
      obtain ⟨events, s', hlength, hrun⟩ := ih hrest
      refine ⟨⟨head.1, head.2, reply⟩ :: events, s', ?_, .cons ⟨hstep, ?_⟩ hrun⟩
      · rw [List.length_cons, hlength, List.length_cons]
      · exact Bool.not_eq_true' _ ▸ hsafe
    · cases hrest

/-- A sample plan is created, inspected, approved and its first step claimed. -/
theorem exclusive_of_safe_sample : ∃ events s', events.length = 7 ∧
    Run (SafeStep sampleRuntime) sampleBlank events s' ∧ Exclusive s' := by
  have hsafe : safeAll sampleRuntime (sampleActions sampleRun) sampleBlank = true := by
    decide +kernel
  obtain ⟨events, s', hlength, hrun⟩ := run_of_safeAll hsafe
  exact ⟨events, s', hlength, hrun, exclusive_of_safe ⟨rfl, rfl⟩ hrun⟩

/-- A plan is cancelled and its node and domain are taken by a second plan; then the first is
inspected for a reconciliation, and its agent polls after the inspection has expired. -/
def reopenedPlan : List Action :=
  let digest := "4ce804aab0b382528d88ec68ff2f102192570ae99c03a3fd8e71bd28a92c8003"
  [.createPlan "tenant" 7 (samplePlan "first"), .act "tenant" 7 (sampleUuids 0 0) .cancel,
    .createPlan "tenant" 7 (samplePlan "second"), .act "tenant" 7 (sampleUuids 0 0) .reconcile,
    sampleClaim (sampleUuids 3 0) digest, .pass 1800000000, samplePoll]

/-- The poll makes the cancelled plan active again, beside the plan that has its node. -/
theorem reopenedPlan_exclusive : ¬∀ s, Reachable sampleRuntime s → Exclusive s := by
  intro h
  have hends : endsIn sampleRuntime reopenedPlan sampleBlank
      (fun rows => rows.map (fun p => (p.id, p.status, p.nodes.map (·.enrollment))) ==
        [(sampleUuids 2 0, .draft, ["agent"]),
          (sampleUuids 0 0, .reconciliationRequired, ["agent"])]) = true := by decide +kernel
  obtain ⟨s, hs, hplans⟩ := reachable_of_endsIn ⟨rfl, rfl⟩ hends
  have hexclusive := h s hs
  have hrows := beq_iff_eq.mp hplans
  obtain ⟨p, rest, hp, hp', hrest⟩ := List.map_eq_cons_iff.mp hrows
  obtain ⟨q, rest', hq, hq', _⟩ := List.map_eq_cons_iff.mp hrest
  simp only [Prod.mk.injEq] at hp' hq'
  obtain ⟨n, _, hn, hn', _⟩ := List.map_eq_cons_iff.mp hp'.2.2
  obtain ⟨m, _, hm, hm', _⟩ := List.map_eq_cons_iff.mp hq'.2.2
  have hsame := hexclusive.nodes p (by rw [hp]; exact List.mem_cons_self)
    q (by rw [hp, hq]; exact List.mem_cons_of_mem _ List.mem_cons_self)
    (by rw [hp'.2.1]; rfl) (by rw [hq'.2.1]; rfl) n (by rw [hn]; exact List.mem_cons_self)
    m (by rw [hm]; exact List.mem_cons_self) (hn'.trans hm'.symm)
  have hid : sampleUuids 2 0 = sampleUuids 0 0 := by
    rw [← hp'.1, ← hq'.1, hsame]
  revert hid
  decide +kernel

end Ipms.Server.Hgs
