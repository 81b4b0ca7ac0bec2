import Ipms.Lib.Run
import Ipms.Server.Hgs.Results

/-
  Ipms.Server.Hgs.Steps

  What one action does to the plans of the control plane: nothing, or it
  inserts one sound plan, or it saves one plan over its row, in one of the ways
  `PlanStep` lists.
-/

namespace Ipms.Server.Hgs

open Ipms.Lib Ipms.ManagementJson
open Ipms.Agent.Hgs (Operation Status)

/-! ## The plan that an action fences -/

/-- The job that an exchange of an enrollment is about. -/
def ControlPlane.exchanged (s : ControlPlane) (enrollment tenant : String) :
    ExchangeDocument → Option Located
  | .poll => oldest ((s.jobsOf enrollment tenant).filter (·.job.status.active))
  | .claim jobId _ | .result jobId _ _ => (s.jobsOf enrollment tenant).find? (·.job.id == jobId)

/-- A result settles whatever a fence finds uncertain: nothing but its job is, and it does not ask
for a reconciliation itself. -/
def settles (l : Located) (document : Value) : Bool :=
  !l.plan.jobs.any (fun j => j.id != l.job.id && (j.status.claimed || j.unresolved)) &&
    document.str? "status" != some "reconciliation_required"

/-- The plan that an action fences, without settling at once what the fence finds uncertain. -/
def fenceOf (runtime : Runtime) (uuid : Nat → String) (s : ControlPlane) :
    Action → Option HgsDeployment
  | .act _ _ planId .cancel => s.plans.get? planId
  | .withdrawNext index => do s.plans.get? (← s.withdrawals[index]?).1
  | .exchange authenticated document => do
    let exchange ← (readExchange authenticated.deviceUri document).toOption
    let tenant ← (s.directory.tenant authenticated.tenant).toOption
    let l ← s.exchanged authenticated.id tenant.id exchange
    let req := s.request runtime uuid
    match exchange with
    | .result _ _ document =>
      if !authorityCurrent req tenant l.plan l.job && !l.plan.revoked && l.job.status.claimed &&
          !settles l document then some l.plan
      else none
    | _ => match refusal req tenant l with
        | .ok (some _) => some l.plan
        | _ => none
  | _ => none

/-! ## The ways of a plan -/

/-- One way in which an action saves a plan over its row. -/
inductive PlanStep (runtime : Runtime) (uuid : Nat → String) (s : ControlPlane) (a : Action)
    (p q : HgsDeployment) : Prop where
  /-- A service, other than the fence, that renews no authority. -/
  | served : Change p q → Unrenewed p q → PlanStep runtime uuid s a p q
  /-- A claim by an agent that is not maintained. -/
  | claimed (job : HgsJob) (node : HgsNode) : job ∈ p.jobs → job.status.unclaimed = true →
      p.nodeOf job = some node → s.maintained node.enrollment = false →
      (job.step = true → p.revoked = false) →
      q = p.saveJob { job with status := .running, claimedAt := some s.now } →
      PlanStep runtime uuid s a p q
  /-- A fence. -/
  | fenced (code : String) : fenceOf runtime uuid s a = some p → q = fence s.now code p →
      PlanStep runtime uuid s a p q
  /-- A fence and the result behind it. -/
  | reported (code : String) : Change (fence s.now code p) q → Unrenewed (fence s.now code p) q →
      (fenceOf runtime uuid s a = some p ∨ (p.status.active = false → q.status = .cancelled)) →
      PlanStep runtime uuid s a p q
  /-- The resolution of a reconciliation. -/
  | resolved (tenant : String) (user : Nat) (document : Value) (job inspection : HgsJob) :
      a = .act tenant user p.id (.resolve document) → Change p q →
      ProvenAfresh (s.request runtime uuid) p job inspection → PlanStep runtime uuid s a p q

/-- A plan that is inserted. -/
structure Created (s : ControlPlane) (q : HgsDeployment) : Prop where
  sound : Sound q
  jobs : q.jobs = []
  status : q.status = .draft
  fresh : ∀ p ∈ s.plans.rows, p.id ≠ q.id
  reserved : ∀ p ∈ s.plans.rows, p.status.active = true →
    ∀ n ∈ p.nodes, ∀ m ∈ q.nodes, n.enrollment ≠ m.enrollment
  domain : ∀ p ∈ s.plans.rows, p.tenant = q.tenant → p.domainName = q.domainName →
    p.status.occupies = false

/-- No plan that is being executed has a node of the enrollment. -/
def ControlPlane.Unexecuted (s : ControlPlane) (enrollment : String) : Prop :=
  ∀ p ∈ s.plans.rows, p.status.executing = true → ∀ n ∈ p.nodes, n.enrollment ≠ enrollment

/-- What an action does. -/
inductive Effect (runtime : Runtime) (uuid : Nat → String) (s : ControlPlane) (a : Action)
    (s' : ControlPlane) : Prop where
  | idle : s'.plans = s.plans →
      (∀ e, s'.maintained e = true → s.maintained e = true ∨ s.Unexecuted e) →
      Effect runtime uuid s a s'
  | created (q : HgsDeployment) : Created s q → s'.plans.rows = q :: s.plans.rows →
      s'.lifecycle = s.lifecycle → Effect runtime uuid s a s'
  | saved (p q : HgsDeployment) : p ∈ s.plans.rows → PlanStep runtime uuid s a p q →
      s'.plans = s.plans.save q → s'.lifecycle = s.lifecycle → Effect runtime uuid s a s'

/-- What an action hands out is the assignment of a job that is not refused. -/
def Handed (runtime : Runtime) (uuid : Nat → String) (s : ControlPlane) (reply : Reply) : Prop :=
  ∀ assignment release, reply = .job (some assignment) release →
    ∃ l tenant, l.plan ∈ s.plans.rows ∧ l.job ∈ l.plan.jobs ∧ assignment = l.job.assignment ∧
      refusal (s.request runtime uuid) tenant l = .ok none

theorem mem_jobsOf {s : ControlPlane} {enrollment tenant : String} {l : Located}
    (h : l ∈ s.jobsOf enrollment tenant) : l.plan ∈ s.plans.rows ∧ l.job ∈ l.plan.jobs ∧
      l.plan.nodeOf l.job = some l.node ∧ l.node.enrollment = enrollment := by
  unfold ControlPlane.jobsOf at h
  obtain ⟨plan, hplan, h⟩ := List.mem_flatMap.mp h
  obtain ⟨job, hjob, h⟩ := List.mem_filterMap.mp h
  obtain ⟨node, hnode, rfl⟩ := Option.map_eq_some_iff.mp h
  obtain ⟨hnode, henrollment⟩ := Option.filter_eq_some_iff.mp hnode
  exact ⟨List.mem_of_mem_filter hplan, hjob, hnode, beq_iff_eq.mp henrollment⟩

theorem mem_of_older {jobs : List Located} : ∀ (rest : List Located) (found : Option Located),
    (∀ x, found = some x → x ∈ jobs) → (∀ x ∈ rest, x ∈ jobs) →
    ∀ x, rest.foldl (fun found j => match found with
      | none => some j
      | some best => if j.job.createdAt < best.job.createdAt then some j else some best) found =
        some x → x ∈ jobs := by
  intro rest
  induction rest with
  | nil => exact fun found hfound _ x hx => hfound x hx
  | cons j rest ih =>
    intro found hfound hrest
    refine ih _ (fun x hx => ?_) fun x hx => hrest x (List.mem_cons_of_mem _ hx)
    cases found with
    | none =>
      cases hx
      exact hrest _ List.mem_cons_self
    | some best =>
      dsimp only at hx
      split at hx
      · cases hx
        exact hrest _ List.mem_cons_self
      · cases hx
        exact hfound _ rfl

theorem mem_of_oldest {jobs : List Located} {l : Located} (h : oldest jobs = some l) : l ∈ jobs :=
  mem_of_older jobs none (by intro _ h; cases h) (fun _ h => h) l h

theorem mem_exchanged {s : ControlPlane} {enrollment tenant : String} {x : ExchangeDocument}
    {l : Located} (h : s.exchanged enrollment tenant x = some l) :
    l ∈ s.jobsOf enrollment tenant := by
  cases x with
  | poll => exact List.mem_of_mem_filter (mem_of_oldest h)
  | claim | result => exact List.mem_of_find?_eq_some h

section
variable {req : Request} {p q : HgsDeployment} {node : HgsNode} {job : HgsJob} {document : Value}

theorem readReceipt_status {r : Receipt} (h : readReceipt req p node job document = .ok r) :
    (document.str? "status").bind Status.ofText? = some r.status := by
  unfold readReceipt at h
  obtain ⟨members, rfl⟩ : ∃ members, document = .obj members := by
    cases document with
    | obj members => exact ⟨members, rfl⟩
    | _ => cases h
  dsimp only at h
  obtain ⟨_, _, h⟩ := bind_eq_ok.mp h
  split at h
  · rename_i status code observed hstatus hcode hobserved
    rw [hstatus]
    obtain ⟨_, _, h⟩ := bind_eq_ok.mp h
    split at h
    · obtain ⟨o, _, h⟩ := bind_eq_ok.mp h
      obtain ⟨_, _, h⟩ := bind_eq_ok.mp h
      obtain ⟨_, _, h⟩ := bind_eq_ok.mp h
      obtain ⟨_, _, h⟩ := bind_eq_ok.mp h
      rw [← pure_eq_ok.mp h]
    · split at h
      · rw [← pure_eq_ok.mp h]
      · obtain ⟨o, _, h⟩ := bind_eq_ok.mp h
        rw [← pure_eq_ok.mp h]
  · cases h

theorem fence_claimed (hjob : job ∈ p.jobs) (hclaimed : job.status.claimed = true) (now : Time)
    (code : String) : job ∈ (fence now code p).jobs := by
  refine List.mem_map.mpr ⟨job, hjob, ?_⟩
  unfold HgsJob.withdrawn
  have hno : job.status.unclaimed = false := by
    revert hclaimed
    cases job.status <;> decide
  rw [hno]
  rfl

/-- A plan that was not active stays so when the result settles what the fence finds uncertain. -/
theorem settled_cancelled {now : Time} {code : String} (hp : Sound p) (hjob : job ∈ p.jobs)
    (hclaimed : job.status.claimed = true) (hinactive : p.status.active = false)
    (hsettles : settles ⟨p, node, job⟩ document = true)
    (h : acceptResult req (fence now code p) node job document = .ok q) : q.status = .cancelled := by
  have hactive : job.status.active = true := by
    rw [JobStatus.active_eq, hclaimed, Bool.or_true]
  -- a claimed step would make the plan active: the job is an inspection
  have hinspect : job.operation = .inspect := by
    cases hstep : job.step with
    | false => exact bne_eq_false_iff_eq.mp hstep
    | true =>
      obtain ⟨done, hunderway⟩ := underway hp hjob hstep hactive
      have hplan := hunderway.active
      rw [hinactive] at hplan
      cases hplan
  obtain ⟨hothers, hdocument⟩ := Bool.and_eq_true_iff.mp hsettles
  unfold acceptResult at h
  obtain ⟨r, hr, h⟩ := bind_eq_ok.mp h
  rw [JobStatus.terminal_eq, hactive, Bool.not_true, if_neg (by decide)] at h
  obtain ⟨_, _, h⟩ := bind_eq_ok.mp h
  have hstatus := readReceipt_status hr
  have hr' : r.status ≠ .reconciliationRequired := by
    intro hreceipt
    rw [hreceipt] at hstatus
    obtain ⟨text, htext, hof⟩ := Option.bind_eq_some_iff.mp hstatus
    have hof' : (Status.text .reconciliationRequired == text) = true :=
      List.find?_some (p := fun x : Status => x.text == text) hof
    rw [← beq_iff_eq.mp hof'] at htext
    rw [htext] at hdocument
    revert hdocument
    decide
  have hclosed : (reportedStatus (fence now code p) job r).active = false ∧
      reportedStatus (fence now code p) job r ≠ .reconciliationRequired := by
    unfold reportedStatus
    rw [hinspect]
    revert hr'
    cases r.status <;> simp [readOnly, JobStatus.active]
  have hnone : (recorded req (fence now code p) node job r).jobs.any
      (fun j => j.status.active || j.unresolved) = false := by
    rw [List.any_eq_false]
    intro i hi
    rw [Bool.or_eq_true, not_or, Bool.not_eq_true, Bool.not_eq_true]
    rw [recorded_jobs] at hi
    obtain ⟨i', hi', rfl⟩ := List.mem_map.mp hi
    by_cases hid : i'.id = ((job.reported req (fence now code p) r)).id
    · rw [if_pos hid]
      refine ⟨hclosed.1, ?_⟩
      unfold HgsJob.unresolved
      rw [reported_status, beq_eq_false_iff_ne.mpr hclosed.2, Bool.false_and]
    · rw [if_neg hid]
      obtain ⟨j, hj, rfl⟩ := List.mem_map.mp hi'
      have hother : j.id ≠ job.id := fun h => hid ((withdrawn_same j code now).id.trans h)
      have hj' := not_any hothers j hj
      rw [bne_iff_ne.mpr hother, Bool.true_and, Bool.or_eq_false_iff] at hj'
      unfold HgsJob.unresolved
      rw [withdrawn_status, withdrawn_release]
      by_cases hunclaimed : j.status.unclaimed = true
      · rw [if_pos hunclaimed]
        exact ⟨rfl, rfl⟩
      · rw [if_neg hunclaimed, JobStatus.active_eq, hj'.1, Bool.eq_false_iff.mpr hunclaimed]
        exact ⟨rfl, hj'.2⟩
  have hrevoked : (recorded req (fence now code p) node job r).revoked = true := by
    rw [recorded_revoked]
    exact (fence_fenced hp now code).revoked
  rw [recordResult_eq, if_pos hinspect] at h
  unfold afterResult at h
  rw [hrevoked, hnone, Bool.not_false, Bool.and_true, if_pos rfl] at h
  cases h
  rfl

end

end Ipms.Server.Hgs
