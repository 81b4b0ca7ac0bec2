import Ipms.ManagementJson.Unambiguous
import Ipms.Server.Gpo.Replays
import Ipms.Server.HyperV.SessionRuns

/-
  Ipms.Server.HyperV.Replays

  Requests for management jobs that are made again.  At most one job has the id of
  a request; no step of a job changes whose request it was made by, so a request
  with the id of a job that exists is answered with it, or refused.
-/

namespace Ipms.Server.HyperV

open Ipms.Lib Ipms.ManagementJson

/-! ## Requests -/

/-- The document a request is known by. -/
def State.JobRequest.document (r : State.JobRequest) : Value :=
  .obj ([("actor_id", .str (toString r.actor)),
    ("expected_revision", .str r.expectedRevision), ("operation", .str (State.operationText r.operation)),
    ("parameters", r.parameters)] ++
    (match r.settings with
      | none => []
      | some (dialog, session) =>
        [("settings_dialog_id", .str dialog), ("settings_session", .str session)]) ++
    [("tenant_id", .str r.tenant), ("vm_id", .str r.virtualMachine)])

theorem operationText_injective {a b : Operation} (h : State.operationText a = State.operationText b) :
    a = b := by
  cases a <;> cases b <;> first | rfl | exact absurd h (by decide)

variable {r : State.JobRequest}

theorem jobDocument_injective {r' : State.JobRequest} (hid : r.requestId = r'.requestId)
    (hactor : r.actor = r'.actor) (h : r.document = r'.document) : r = r' := by
  obtain ⟨vm, tenant, actor, id, operation, revision, parameters, settings⟩ := r
  obtain ⟨vm', tenant', actor', id', operation', revision', parameters', settings'⟩ := r'
  dsimp only at hid hactor
  subst hid hactor
  have hmembers := Value.obj.inj h
  cases settings <;> cases settings' <;>
    simp only [List.cons_append, List.nil_append, List.cons.injEq, Prod.mk.injEq, Value.str.injEq,
      String.reduceEq, true_and, false_and, and_false, and_true] at hmembers
  · obtain ⟨rfl, ho, rfl, rfl, rfl⟩ := hmembers
    rw [operationText_injective ho]
  · obtain ⟨rfl, ho, rfl, hd, hs, rfl, rfl⟩ := hmembers
    rw [operationText_injective ho, Prod.ext hd hs]

/-! ## One job for a request -/

/-- What no step of a job changes. -/
structure SameRequest (j k : ManagementJob) : Prop where
  id : k.id = j.id
  request : k.requestId = j.requestId
  digest : k.requestDigest = j.requestDigest
  actor : k.actor = j.actor
  tenant : k.tenant = j.tenant

theorem SameRequest.refl (j : ManagementJob) : SameRequest j j := ⟨rfl, rfl, rfl, rfl, rfl⟩

variable {j k : ManagementJob}

theorem SameRequest.trans {i : ManagementJob} (h : SameRequest i j) (h' : SameRequest j k) :
    SameRequest i k :=
  ⟨h'.id.trans h.id, h'.request.trans h.request, h'.digest.trans h.digest, h'.actor.trans h.actor,
    h'.tenant.trans h.tenant⟩

theorem JobStep.sameRequest {event : Event} (h : JobStep event j k) : SameRequest j k := by
  cases h with
  | stay => exact .refl j
  | deliver s hqueued =>
    unfold State.deliver
    rw [if_pos hqueued]
    exact ⟨rfl, rfl, rfl, rfl, rfl⟩
  | start s _ _ | report s _ _ _ => exact ⟨rfl, rfl, rfl, rfl, rfl⟩
  | withdraw code now _ =>
    unfold ManagementJob.withdraw
    split <;> exact ⟨rfl, rfl, rfl, rfl, rfl⟩

theorem SameRequest.of_steps {event : Event} (h : Relation.ReflTransGen (JobStep event) j k) :
    SameRequest j k := by
  induction h with
  | refl => exact .refl j
  | tail _ hstep ih => exact ih.trans hstep.sameRequest

/-- No two jobs have the id of one request. -/
def State.Distinct (s : State) : Prop :=
  ∀ j ∈ s.jobs.rows, ∀ k ∈ s.jobs.rows, j.requestId = k.requestId → j = k

variable {s t : State}

theorem Step.sameJobs {l : Event × Reply} (h : Step s l t)
    (hevent : ∀ id request findings, l.1 ≠ .createJob id request findings) :
    ∀ k ∈ t.jobs.rows, ∃ j ∈ s.jobs.rows, SameRequest j k := by
  intro k hk
  have hget := Table.get?_of_mem hk
  cases hj : s.jobs.get? k.id with
  | none =>
    obtain ⟨fresh, hfresh, -⟩ := h.jobs.made k.id k hj hget
    obtain ⟨id, request, findings, hcreate⟩ := hfresh.created
    exact absurd hcreate (hevent id request findings)
  | some j =>
    obtain ⟨k', hk', hsteps⟩ := h.jobs.kept k.id j hj
    obtain rfl : k = k' := Option.some.inj (hget.symm.trans hk')
    exact ⟨j, Table.get?_mem hj, .of_steps hsteps⟩

theorem Step.distinct {l : Event × Reply} (h : Step s l t) (hs : s.Distinct) : t.Distinct := by
  by_cases hevent : ∃ id request findings, l.1 = .createJob id request findings
  · obtain ⟨id, request, findings, hevent⟩ := hevent
    obtain ⟨event, reply⟩ := l
    dsimp only at hevent
    subst hevent
    obtain ⟨⟨u, job⟩, hu, hreply⟩ := bind_eq_ok.mp h.1
    cases hreply
    obtain ⟨rfl, -⟩ | ⟨hnone, vm, host, e, jobs, -, -, hinsert, -, rfl⟩ :=
      State.createManagementJob_cases hu
    · exact hs
    · have hfree : ∀ k ∈ s.jobs.rows, k.requestId ≠ request.requestId := by
        intro k hk heq
        exact List.find?_eq_none.mp hnone k hk (beq_iff_eq.mpr heq)
      intro j hj k hk hjk
      change j ∈ jobs.rows at hj
      change k ∈ jobs.rows at hk
      rw [(Table.insert_eq_some hinsert).2, List.mem_cons] at hj hk
      rcases hj with rfl | hj
      · rcases hk with rfl | hk
        · rfl
        · exact absurd hjk.symm (hfree k hk)
      · rcases hk with rfl | hk
        · exact absurd hjk (hfree j hj)
        · exact hs j hj k hk hjk
  · intro j hj k hk hjk
    have hold := h.sameJobs fun id request findings heq => hevent ⟨id, request, findings, heq⟩
    obtain ⟨j', hj', hjsame⟩ := hold j hj
    obtain ⟨k', hk', hksame⟩ := hold k hk
    have heq := hs j' hj' k' hk' (by rw [← hjsame.request, ← hksame.request, hjk])
    exact Table.row_unique hj hk (by rw [hjsame.id, hksame.id, heq])

theorem State.Blank.distinct (h : s.Blank) : s.Distinct := by
  intro j hj
  rw [h.1] at hj
  cases hj

/-- No two active jobs of a tenant are about one machine of an agent. -/
def State.OneActive (s : State) : Prop :=
  ∀ j ∈ s.jobs.rows, ∀ k ∈ s.jobs.rows, j.status.active = true → k.status.active = true →
    j.tenant = k.tenant → j.enrollment = k.enrollment → j.vmSourceId = k.vmSourceId → j = k

theorem State.checkConflicts_idle {vm : VirtualMachine} {host : Host} {e : Enrollment}
    {operation : Operation} (h : s.checkConflicts vm host e operation = .ok ()) (hj : j ∈ s.jobs.rows)
    (hactive : j.status.active = true) (htenant : j.tenant = vm.tenant)
    (henrollment : j.enrollment = e.id) : j.vmSourceId ≠ vm.sourceId := by
  intro hmachine
  unfold checkConflicts at h
  obtain ⟨⟨⟩, hfree, -⟩ := bind_eq_ok.mp h
  refine throwIf_eq_ok.mp hfree (.inl (List.any_eq_true.mpr ⟨j, List.mem_filter.mpr ⟨hj, ?_⟩, rfl⟩))
  simp [hactive, htenant, henrollment, hmachine]

theorem Step.oneActive {l : Event × Reply} (h : Step s l t) (hs : s.OneActive) : t.OneActive := by
  by_cases hevent : ∃ id request findings, l.1 = .createJob id request findings
  · obtain ⟨id, request, findings, hevent⟩ := hevent
    obtain ⟨event, reply⟩ := l
    dsimp only at hevent
    subst hevent
    obtain ⟨⟨u, job⟩, hu, hreply⟩ := bind_eq_ok.mp h.1
    cases hreply
    obtain ⟨rfl, -⟩ | ⟨-, vm, host, e, jobs, hvm, hconflicts, hinsert, -, rfl⟩ :=
      State.createManagementJob_cases hu
    · exact hs
    · -- The machine of the new job has no active one.
      have hfree : ∀ k ∈ s.jobs.rows, k.status.active = true → k.tenant = request.tenant →
          k.enrollment = e.id → k.vmSourceId ≠ vm.sourceId := fun k hk hactive htenant =>
        State.checkConflicts_idle hconflicts hk hactive (htenant.trans (State.lockedVm_tenant hvm).symm)
      intro j hj k hk hjactive hkactive htenant henrollment hmachine
      change j ∈ jobs.rows at hj
      change k ∈ jobs.rows at hk
      rw [(Table.insert_eq_some hinsert).2, List.mem_cons] at hj hk
      rcases hj with rfl | hj <;> rcases hk with rfl | hk
      · rfl
      · exact absurd hmachine.symm (hfree k hk hkactive htenant.symm henrollment.symm)
      · exact absurd hmachine (hfree j hj hjactive htenant henrollment)
      · exact hs j hj k hk hjactive hkactive htenant henrollment hmachine
  · push Not at hevent
    intro j hj k hk hjactive hkactive htenant henrollment hmachine
    obtain ⟨j', hj', hjid, hjactive', hjsame⟩ := h.jobs.back hevent hj hjactive
    obtain ⟨k', hk', hkid, hkactive', hksame⟩ := h.jobs.back hevent hk hkactive
    have heq := hs j' hj' k' hk' hjactive' hkactive'
      (by rw [← hjsame.tenant, ← hksame.tenant, htenant])
      (by rw [← hjsame.enrollment, ← hksame.enrollment, henrollment])
      (by rw [← hjsame.machine, ← hksame.machine, hmachine])
    exact Table.row_unique hj hk (by rw [← hjid, ← hkid, heq])

/-- In every state that is reached from tables without jobs, no request has made two jobs, and no
two jobs that are still active are about one machine. -/
theorem managementJobs_apart {ls : List (Event × Reply)} (h : Run Step s ls t) (hblank : s.Blank) :
    t.Distinct ∧ t.OneActive := by
  have hone : s.OneActive := by
    intro j hj
    rw [hblank.1] at hj
    cases hj
  exact h.preserves (I := fun u => u.Distinct ∧ u.OneActive)
    (fun _ _ _ hstep hu => ⟨hstep.distinct hu.1, hstep.oneActive hu.2⟩) ⟨hblank.distinct, hone⟩

/-- The jobs of the sample. -/
theorem managementJobs_apart_sample :
    ∃ ls t, Run Step sampleState ls t ∧ t.jobs.rows ≠ [] ∧ t.Distinct ∧ t.OneActive := by
  obtain ⟨ls, t, hrun, -, h⟩ := sampleManagement_run
  have hne : t.jobs.rows ≠ [] := List.ne_nil_of_length_pos (by rw [h]; exact Nat.one_pos)
  exact ⟨ls, t, hrun, hne, managementJobs_apart hrun ⟨rfl, rfl, rfl⟩⟩

/-! ## A request whose job exists -/

/-- Who may ask: an account with the permission, in a tenant that is active. -/
def State.Authorized (s : State) (r : State.JobRequest) : Prop :=
  (∃ tenant, s.tenants.get? r.tenant = some tenant ∧ tenant.status = .active) ∧
    s.hasTenantPermission r.actor r.tenant r.operation.permission = true

/-- The job was made by a request with this document. -/
structure State.JobRequest.Made (r : State.JobRequest) (j : ManagementJob) : Prop where
  request : j.requestId = r.requestId
  digest : j.requestDigest = r.digest
  actor : j.actor = r.actor
  tenant : j.tenant = r.tenant

theorem openTenant_eq_ok {id : String} {tenant : Tenant} : s.openTenant id true = .ok tenant ↔
      s.tenants.get? id = some tenant ∧ tenant.status = .active := by
  unfold State.openTenant
  simp only [bind_eq_ok, found_eq_ok, throwIf_eq_ok, pure_eq_ok, true_and, ne_eq, not_not]
  constructor
  · rintro ⟨row, hrow, ⟨⟩, hactive, rfl⟩
    exact ⟨hrow, hactive⟩
  · rintro ⟨hrow, hactive⟩
    exact ⟨tenant, hrow, (), hactive, rfl⟩

theorem freshActor_eq_ok {actor : Nat} {tenant : String} {operation : Operation} {u : Unit} :
    s.freshActor actor tenant operation = .ok u ↔
      s.hasTenantPermission actor tenant operation.permission = true := by
  unfold State.freshActor
  rw [throwIf_eq_ok, Bool.not_eq_false]

theorem replayRequest_eq_ok {prior job : ManagementJob} : State.replayRequest r prior = .ok job ↔
      (prior.requestDigest = r.digest ∧ prior.actor = r.actor ∧ prior.tenant = r.tenant) ∧
        job = prior := by
  unfold State.replayRequest
  simp only [bind_eq_ok, throwIf_eq_ok, pure_eq_ok, ne_eq, not_or, not_not]
  constructor
  · rintro ⟨⟨⟩, hsame, rfl⟩
    exact ⟨hsame, rfl⟩
  · rintro ⟨hsame, rfl⟩
    exact ⟨(), hsame, rfl⟩

/-- A request with the id of a job is answered with it exactly when the account may ask and the job is
its own, and then nothing changes. -/
theorem createManagementJob_existing (hs : s.Distinct) {prior job : ManagementJob}
    (hprior : prior ∈ s.jobs.rows) (hid : prior.requestId = r.requestId) {id : String}
    {findings : Findings} : s.createManagementJob id r findings = .ok (t, job) ↔
      findings.parameters = none ∧ s.Authorized r ∧ r.Made prior ∧ job = prior ∧ t = s := by
  have hfind : s.jobs.rows.find? (·.requestId == r.requestId) = some prior := by
    cases hfound : s.jobs.rows.find? (·.requestId == r.requestId) with
    | none => exact absurd (beq_iff_eq.mpr hid) (List.find?_eq_none.mp hfound prior hprior)
    | some other =>
      have hrequest : other.requestId = r.requestId := by
        simpa using List.find?_some hfound
      rw [hs other (List.mem_of_find?_eq_some hfound) prior hprior (hrequest.trans hid.symm)]
  unfold State.createManagementJob
  rw [hfind]
  simp only [bind_eq_ok, raise_eq_ok]
  constructor
  · rintro ⟨⟨⟩, hparameters, tenant, htenant, ⟨⟩, hactor, found, hfound, hresult⟩
    obtain ⟨hrow, hactive⟩ := openTenant_eq_ok.mp htenant
    obtain ⟨⟨hdigest, hsame, hprior⟩, rfl⟩ := replayRequest_eq_ok.mp hfound
    have hkey : tenant.id = r.tenant := Table.get?_key hrow
    rw [freshActor_eq_ok, hkey] at hactor
    cases hresult
    exact ⟨hparameters, ⟨⟨tenant, hrow, hactive⟩, hactor⟩, ⟨hid, hdigest, hsame, hprior⟩, rfl, rfl⟩
  · rintro ⟨hparameters, ⟨⟨tenant, hrow, hactive⟩, hactor⟩, hmade, rfl, rfl⟩
    have hkey : tenant.id = r.tenant := Table.get?_key hrow
    refine ⟨(), hparameters, tenant, openTenant_eq_ok.mpr ⟨hrow, hactive⟩, (), ?_, job, ?_, rfl⟩
    · rw [freshActor_eq_ok, hkey]
      exact hactor
    · exact replayRequest_eq_ok.mpr ⟨⟨hmade.digest, hmade.actor, hmade.tenant⟩, rfl⟩

/-! ## Repeated requests -/

section
variable {blank s t u : State} {ls ks : List (Event × Reply)} {r r' : State.JobRequest}
variable {id id' : String} {findings findings' : Findings} {job : ManagementJob}

theorem distinct_of_run (hblank : blank.Blank) (h : Run Step blank ls s) : s.Distinct :=
  Run.preserves (fun _ _ _ hstep => hstep.distinct) h hblank.distinct

theorem made_of_create (hs : s.Distinct)
    (h : s.createManagementJob id r findings = .ok (t, job)) :
    findings.parameters = none ∧ job ∈ t.jobs.rows ∧ r.Made job ∧ t.Distinct := by
  have hparameters : findings.parameters = none := by
    obtain ⟨⟨⟩, hraise, -⟩ := bind_eq_ok.mp h
    exact raise_eq_ok.mp hraise
  have hdistinct : t.Distinct := by
    have hstep : Step s (.createJob id r findings, .job job) t :=
      ⟨bind_eq_ok.mpr ⟨(t, job), h, rfl⟩, trivial⟩
    exact hstep.distinct hs
  refine ⟨hparameters, and_assoc.mp ⟨?_, hdistinct⟩⟩
  cases hprior : s.jobs.rows.find? (·.requestId == r.requestId) with
  | some prior =>
    have hid : prior.requestId = r.requestId := by
      simpa using List.find?_some hprior
    have hrow := List.mem_of_find?_eq_some hprior
    obtain ⟨-, -, hmade, rfl, rfl⟩ := (createManagementJob_existing hs hrow hid).mp h
    exact ⟨hrow, hmade⟩
  | none =>
    obtain ⟨-, hsome⟩ | ⟨-, vm, host, e, jobs, -, -, hinsert, rfl, rfl⟩ :=
      State.createManagementJob_cases h
    · rw [hprior] at hsome
      cases hsome
    · refine ⟨?_, rfl, rfl, rfl, rfl⟩
      show s.newJob id r vm e ∈ jobs.rows
      rw [(Table.insert_eq_some hinsert).2]
      exact List.mem_cons_self

theorem made_of_run (h : Run Step t ks u) (hjob : job ∈ t.jobs.rows) (hmade : r.Made job) :
    ∃ k ∈ u.jobs.rows, k.id = job.id ∧ r.Made k := by
  induction h generalizing job with
  | nil => exact ⟨job, hjob, rfl, hmade⟩
  | cons hstep _ ih =>
    obtain ⟨k, hk, hsteps⟩ := hstep.jobs.kept job.id job (Table.get?_of_mem hjob)
    have hsame := SameRequest.of_steps hsteps
    obtain ⟨k', hk', hid, hmade'⟩ := ih (Table.get?_mem hk)
      ⟨hsame.request.trans hmade.request, hsame.digest.trans hmade.digest,
        hsame.actor.trans hmade.actor, hsame.tenant.trans hmade.tenant⟩
    exact ⟨k', hk', hid.trans hsame.id, hmade'⟩

/-- A request that was accepted, made again after any run, returns its job and changes nothing exactly
when the account may still ask. -/
theorem create_again (hblank : blank.Blank) (hbefore : Run Step blank ls s)
    (h : s.createManagementJob id r findings = .ok (t, job)) (hafter : Run Step t ks u)
    (hparameters : findings'.parameters = findings.parameters) :
    (∃ found, u.createManagementJob id' r findings' = .ok (u, found) ∧ found.id = job.id) ↔
      u.Authorized r := by
  obtain ⟨hnone, hjob, hmade, ht⟩ := made_of_create (distinct_of_run hblank hbefore) h
  have hu : u.Distinct := Run.preserves (fun _ _ _ hstep => hstep.distinct) hafter ht
  obtain ⟨k, hk, hid, hmade'⟩ := made_of_run hafter hjob hmade
  constructor
  · rintro ⟨found, hfound, -⟩
    exact ((createManagementJob_existing hu hk hmade'.request).mp hfound).2.1
  · intro hauthorized
    refine ⟨k, (createManagementJob_existing hu hk hmade'.request).mpr ?_, hid⟩
    exact ⟨hparameters.trans hnone, hauthorized, hmade', rfl, rfl⟩

theorem create_other (hblank : blank.Blank) (hbefore : Run Step blank ls s)
    (h : s.createManagementJob id r findings = .ok (t, job)) (hafter : Run Step t ks u)
    (hid : r'.requestId = r.requestId) (hother : r' ≠ r) :
    (∃ e, u.createManagementJob id' r' findings' = .error e) ∨ Collide r'.document r.document := by
  obtain ⟨-, hjob, hmade, ht⟩ := made_of_create (distinct_of_run hblank hbefore) h
  have hu : u.Distinct := Run.preserves (fun _ _ _ hstep => hstep.distinct) hafter ht
  obtain ⟨k, hk, -, hmade'⟩ := made_of_run hafter hjob hmade
  cases hresult : u.createManagementJob id' r' findings' with
  | error e => exact .inl ⟨e, rfl⟩
  | ok result =>
    obtain ⟨v, found⟩ := result
    obtain ⟨-, -, hsame, -, -⟩ :=
      (createManagementJob_existing hu hk (hmade'.request.trans hid.symm)).mp hresult
    refine .inr ((digest_eq (hsame.digest.symm.trans hmade'.digest)).resolve_left fun hdocument => ?_)
    exact hother (jobDocument_injective hid (hsame.actor.symm.trans hmade'.actor) hdocument)

end

end Ipms.Server.HyperV
