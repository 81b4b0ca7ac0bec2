import Ipms.Server.Hgs.Progress

/-
  Ipms.Server.Hgs.Soundness

  Every service on a plan keeps it sound, one lemma for each service.
-/

namespace Ipms.Server.Hgs

open Ipms.Lib Ipms.ManagementJson
open Ipms.Agent.Hgs (Operation)

section
variable {req : Request} {p q : HgsDeployment}

theorem Sound.of_kept (hq : Kept p q) (hrows : Rows q)
    (hprogress : Progress (script p.nodes) q.steps q.revoked q.status) : Sound q :=
  ⟨hrows, by rw [hq.script]; exact hprogress⟩

/-! ## Inspections -/

/-- What the inspections of nodes do to a plan. -/
structure Inspected (p q : HgsDeployment) : Prop where
  kept : Kept p q
  rows : Rows q
  steps : q.steps = p.steps
  status : q.status = p.status
  revoked : q.authorityRevokedAt = p.authorityRevokedAt

variable {reconciliation : Bool} {tenant : Tenant} {actor : Option Nat} {n : HgsNode}

theorem inspectNode_inspected (hp : Rows p) (hn : NodeOf p n)
    (h : inspectNode req tenant actor reconciliation p n = .ok q) : Inspected p q := by
  unfold inspectNode at h
  obtain ⟨live, _, h⟩ := bind_eq_ok.mp h
  obtain ⟨_, _, h⟩ := bind_eq_ok.mp h
  obtain ⟨r, hr, h⟩ := bind_eq_ok.mp h
  obtain rfl := pure_eq_ok.mp h
  have hrows := hp.insertJob hn hr
  obtain ⟨rfl, _, _, _⟩ := insertJob_eq_ok hr
  have hkept : Kept p _ := kept_saveNode (n := { n with status := .inspecting })
    hrows.nodeIds (hn.bare (p := p) rfl)
  refine ⟨hkept, hrows.kept hkept hrows.jobIds fun j hj => ⟨j, hj, rfl, rfl, rfl, rfl, rfl⟩, ?_, rfl,
    rfl⟩
  exact (steps_insert rfl).trans (if_neg fun h => nomatch h)

theorem inspectNodes_inspected {nodes : List HgsNode} (hp : Rows p) (hn : ∀ n ∈ nodes, NodeOf p n)
    (h : inspectNodes req tenant actor reconciliation p nodes = .ok q) : Inspected p q := by
  induction nodes generalizing p with
  | nil =>
    cases h
    exact ⟨rfl, hp, rfl, rfl, rfl⟩
  | cons n nodes ih =>
    obtain ⟨r, hr, h⟩ := bind_eq_ok.mp h
    have hfirst := inspectNode_inspected hp (hn n List.mem_cons_self) hr
    have hrest := ih hfirst.rows
      (fun m hm => (hn m (List.mem_cons_of_mem _ hm)).kept hfirst.kept) h
    exact ⟨hfirst.kept.trans hrest.kept, hrest.rows, hrest.steps.trans hfirst.steps,
      hrest.status.trans hfirst.status, hrest.revoked.trans hfirst.revoked⟩

theorem consistent_idle : ∀ (revoked : Bool) (last : Option JobStatus) (status : PlanStatus),
    consistent revoked last status = true → status.idle = true → last = none ∧ revoked = false := by
  decide +kernel

/-! ## Changes of a plan -/

/-- No step is claimed that was not. -/
def Unclaimed (p q : HgsDeployment) : Prop :=
  ∀ j ∈ q.steps, j.status.claimed = true → ∃ i ∈ p.steps, i.status.claimed = true ∧ i.node = j.node

theorem Unclaimed.of_eq (h : q.steps = p.steps) : Unclaimed p q := by
  intro j hj hclaimed
  rw [h] at hj
  exact ⟨j, hj, hclaimed, rfl⟩

/-- No step of the plan is claimed. -/
def NoneClaimed (p : HgsDeployment) : Prop := ∀ j ∈ p.steps, j.status.claimed = false

variable {r : HgsDeployment}

theorem Unclaimed.trans (h : Unclaimed p q) (h' : Unclaimed q r) : Unclaimed p r := by
  intro j hj hclaimed
  obtain ⟨i, hi, hi', hnode⟩ := h' j hj hclaimed
  obtain ⟨k, hk, hk', hnode'⟩ := h i hi hi'
  exact ⟨k, hk, hk', hnode'.trans hnode⟩

theorem NoneClaimed.unclaimed (h : NoneClaimed q) : Unclaimed p q := by
  intro j hj hclaimed
  rw [h j hj] at hclaimed
  cases hclaimed

theorem NoneClaimed.of_succeeded (h : ∀ j ∈ p.steps, j.status = .succeeded) : NoneClaimed p := by
  intro j hj
  rw [h j hj]
  rfl

/-- What every service but the fence does: the plan stays sound, and one that is not active, or
whose domain is free, stays so. -/
structure Change (p q : HgsDeployment) : Prop where
  kept : Kept p q
  sound : Sound q
  active : q.status.active = true → p.status.active = true
  occupies : q.status.occupies = true → p.status.occupies = true
  claimed : Unclaimed p q

theorem Change.of_active (hkept : Kept p q) (hsound : Sound q) (hactive : p.status.active = true)
    (hclaimed : Unclaimed p q) : Change p q :=
  ⟨hkept, hsound, fun _ => hactive, fun _ => PlanStatus.occupies_of_active _ hactive, hclaimed⟩

theorem Change.trans (h : Change p q) (h' : Change q r) : Change p r :=
  ⟨h.kept.trans h'.kept, h'.sound, fun hr => h.active (h'.active hr),
    fun hr => h.occupies (h'.occupies hr), h.claimed.trans h'.claimed⟩

/-- What every service but the resolution of a reconciliation does: while the authority of a plan
is revoked, it stays so, and no step is added. -/
structure Unrenewed (p q : HgsDeployment) : Prop where
  revoked : p.revoked = true → q.revoked = true
  steps : p.revoked = true → q.steps.map (·.id) = p.steps.map (·.id)

theorem Unrenewed.of_eq (hrevoked : q.authorityRevokedAt = p.authorityRevokedAt)
    (hsteps : q.steps.map (·.id) = p.steps.map (·.id)) : Unrenewed p q :=
  ⟨fun h => by unfold HgsDeployment.revoked; rw [hrevoked]; exact h, fun _ => hsteps⟩

theorem Unrenewed.of_not (h : p.revoked = false) : Unrenewed p q :=
  ⟨fun hr => absurd (h.symm.trans hr) (by decide), fun hr => absurd (h.symm.trans hr) (by decide)⟩

theorem Unrenewed.trans (h : Unrenewed p q) (h' : Unrenewed q r) : Unrenewed p r :=
  ⟨fun hp => h'.revoked (h.revoked hp), fun hp => (h'.steps (h.revoked hp)).trans (h.steps hp)⟩

theorem Sound.withStatus (hp : Sound p) (hq : Kept p q) (hrows : Rows q) (hsteps : q.steps = p.steps)
    (hconsistent : consistent q.revoked (p.steps.getLast?.map (·.status)) q.status = true)
    (hfinished : q.status ≠ .succeeded) : Sound q := by
  refine .of_kept hq hrows ?_
  rw [hsteps]
  exact hp.progress.withStatus hconsistent hfinished

theorem inspectable_idle : ∀ s : PlanStatus, inspectable false s = true → s.idle = true := by
  decide

theorem active_of_inspectable : ∀ s : PlanStatus, inspectable false s = true → s.active = true := by
  decide

theorem requestInspection_change (hp : Sound p)
    (h : requestInspection req tenant actor reconciliation p = .ok q) :
    Change p q ∧ Unrenewed p q := by
  unfold requestInspection at h
  obtain ⟨_, hallowed, h⟩ := bind_eq_ok.mp h
  obtain ⟨_, _, h⟩ := bind_eq_ok.mp h
  obtain ⟨r, hr, h⟩ := bind_eq_ok.mp h
  have hinspected := inspectNodes_inspected hp.rows (fun n hn => .of_mem hn) hr
  have hunrenewed : Unrenewed p r := .of_eq hinspected.revoked (by rw [hinspected.steps])
  rw [throwIf_eq_ok, not_or] at hallowed
  have hrevoked : r.revoked = p.revoked := by
    unfold HgsDeployment.revoked
    rw [hinspected.revoked]
  cases reconciliation with
  | true =>
    obtain rfl : r = q := pure_eq_ok.mp h
    have hsound : Sound r := by
      refine .of_kept hinspected.kept hinspected.rows ?_
      rw [hinspected.steps, hinspected.status, hrevoked]
      exact hp.progress
    refine ⟨⟨hinspected.kept, hsound, ?_, ?_, .of_eq hinspected.steps⟩, hunrenewed⟩
    · rw [hinspected.status]
      exact fun h => h
    · rw [hinspected.status]
      exact fun h => h
  | false =>
    obtain rfl : { r with status := .inspecting } = q := pure_eq_ok.mp h
    have hinspectable : inspectable false p.status = true := by simpa using hallowed.1
    obtain ⟨hnone, hnot⟩ := consistent_idle _ _ _ hp.progress.consistent
      (inspectable_idle _ hinspectable)
    refine ⟨.of_active hinspected.kept ?_ (active_of_inspectable _ hinspectable)
      (.of_eq hinspected.steps), ⟨hunrenewed.revoked, hunrenewed.steps⟩⟩
    refine hp.withStatus hinspected.kept ⟨hinspected.rows.nodeIds, hinspected.rows.ordered,
      hinspected.rows.jobIds, hinspected.rows.placed⟩ hinspected.steps ?_ fun h => nomatch h
    show consistent r.revoked _ .inspecting = true
    rw [hnone, hrevoked, hnot]
    rfl

/-! ## Steps -/

/-- A plan whose last step succeeded, before what follows it. -/
structure Arrived (p : HgsDeployment) (done : List HgsJob) (k : HgsJob) : Prop where
  rows : Rows p
  steps : p.steps = done ++ [k]
  script : (done ++ [k]).map HgsJob.position <+: Hgs.script p.nodes
  settled : ∀ i ∈ done, i.status = .succeeded
  succeeded : k.status = .succeeded
  status : if p.revoked then p.status = .reconciliationRequired
    else p.status = .running ∨ p.status = .waitingForReboot

variable {k : HgsJob}

theorem progress_next {steps : List HgsJob} {positions : List Position}
    (hscript : steps.map HgsJob.position <+: positions)
    (hsettled : ∀ i ∈ steps, i.status = .succeeded)
    (hnext : positions[steps.length]? = some k.position) (hk : k.status = .queued)
    (hrelease : k.reconciliationRelease = none) :
    Progress positions (steps ++ [k]) false .running := by
  refine progress_concat.mpr ⟨?_, hsettled, fun _ => hrelease, ?_, fun h => nomatch h⟩
  · rw [List.map_append, List.map_singleton]
    refine prefix_concat hscript ?_
    rw [List.length_map]
    exact hnext
  · rw [hk]
    rfl

theorem createStep_sound {steps : List HgsJob} {op : Operation} {sequence : Nat} (hp : Rows p)
    (hsteps : p.steps = steps) (hn : NodeOf p n) (hop : op ≠ .inspect)
    (hscript : steps.map HgsJob.position <+: script p.nodes)
    (hsettled : ∀ i ∈ steps, i.status = .succeeded) (hnot : p.revoked = false)
    (hnext : (script p.nodes)[steps.length]? = some (n.id, op, sequence))
    (h : createJob req p n op sequence = .ok q) :
    Kept p q ∧ Sound { q with status := .running } ∧ NoneClaimed q := by
  have hrows := hp.insertJob hn h
  obtain ⟨rfl, _, _, _⟩ := insertJob_eq_ok h
  have hstep : (newJob req p n op sequence none
      (p.approvalExpiresAt.getD p.planExpiresAt)).step = true := bne_iff_ne.mpr hop
  have hsteps' : ({ p with
      jobs := p.jobs ++ [newJob req p n op sequence none (p.approvalExpiresAt.getD p.planExpiresAt)]
      status := .running } : HgsDeployment).steps = steps ++ [newJob req p n op sequence none
        (p.approvalExpiresAt.getD p.planExpiresAt)] := by
    rw [steps_insert (p := p) rfl, if_pos hstep, hsteps]
  refine ⟨rfl, .of_kept (p := p) rfl
    ⟨hrows.nodeIds, hrows.ordered, hrows.jobIds, hrows.placed⟩ ?_, fun j hj => ?_⟩
  · show Progress (script p.nodes) _ p.revoked .running
    rw [hsteps', hnot]
    exact progress_next hscript hsettled hnext rfl rfl
  · rcases List.mem_append.mp (hsteps' ▸ hj) with hj | hj
    · rw [hsettled j hj]
      rfl
    · rw [List.mem_singleton.mp hj]
      rfl

theorem nodeSteps_ne_inspect {role : Agent.Hgs.NodeRole} {i : Nat} {op : Operation}
    (h : (nodeSteps role)[i]? = some op) : op ≠ .inspect := by
  have hmem := List.mem_of_getElem? h
  revert hmem
  cases role <;> cases op <;> decide

/-- What follows a succeeded step is the next position of the script, or the end of the plan. -/
theorem nextStep_sound {done : List HgsJob} (hp : Arrived p done k) (hn : NodeOf p n)
    (hnode : n.id = k.node) (hnot : p.revoked = false) (h : nextStep req p n k = .ok q) :
    Kept p q ∧ Sound q ∧ NoneClaimed q := by
  obtain ⟨n', hn', hbare⟩ := List.mem_map.mp hn
  obtain ⟨m, hm, hget⟩ := List.mem_iff_getElem.mp hn'
  have hgetm : p.nodes[m]? = some n' := by
    rw [List.getElem?_eq_getElem hm, hget]
  have hposition : (script p.nodes)[done.length]? = some (n'.id, k.operation, k.sequence) := by
    have hprefix := hp.script
    rw [List.map_append, List.map_singleton] at hprefix
    have hat := getElem?_of_prefix hprefix
    rw [List.length_map] at hat
    rw [hat, HgsNode.id_of_bare hbare, hnode]
    rfl
  obtain ⟨hindex, hlt⟩ := position_node hp.rows.nodeIds hgetm hposition
  have hrole : n'.role = n.role := HgsNode.role_of_bare hbare
  have hsettled : ∀ i ∈ done ++ [k], i.status = .succeeded := by
    intro i hi
    rcases List.mem_append.mp hi with hi | hi
    · exact hp.settled i hi
    · rw [List.mem_singleton.mp hi]
      exact hp.succeeded
  have hlength : (done ++ [k]).length = 6 * m + (k.sequence + 1) := by
    rw [List.length_append, hindex]
    rfl
  unfold nextStep at h
  split at h
  · rename_i operation hoperation
    obtain ⟨r, hr, h⟩ := bind_eq_ok.mp h
    obtain rfl := pure_eq_ok.mp h
    have hnext : (script p.nodes)[(done ++ [k]).length]? = some (n.id, operation, k.sequence + 1) := by
      rw [hlength, ← HgsNode.id_of_bare hbare]
      exact script_next hgetm (by rw [hrole]; exact hoperation)
    obtain ⟨hkept, hsound, hnone⟩ := createStep_sound hp.rows hp.steps hn
      (nodeSteps_ne_inspect hoperation) hp.script hsettled hnot hnext hr
    exact ⟨hkept, hsound, hnone⟩
  · rename_i hend
    have hlast : k.sequence + 1 = 6 := by
      have hnone := List.getElem?_eq_none_iff.mp hend
      rw [length_nodeSteps] at hnone
      omega
    -- the node is finished: the script goes on with the first step of the following one
    have hkept : Kept p (p.saveNode { n with status := .succeeded }) :=
      kept_saveNode hp.rows.nodeIds (hn.bare rfl)
    have hordered := hkept.ordered hp.rows.ordered
    have hordinal : n.ordinal = m := by
      rw [← HgsNode.ordinal_of_bare hbare, hp.rows.ordered m n' hgetm]
    have hfollowing := find?_following hordered m
    rw [← hordinal] at hfollowing
    dsimp only at h
    rw [hfollowing] at h
    have hrows : Rows (p.saveNode { n with status := .succeeded }) :=
      hp.rows.kept hkept hp.rows.jobIds fun j hj => ⟨j, hj, rfl, rfl, rfl, rfl, rfl⟩
    split at h
    · rename_i following hnext
      have hmem : following ∈ (p.saveNode { n with status := .succeeded }).nodes :=
        List.mem_of_getElem? hnext
      obtain ⟨r, hr, h⟩ := bind_eq_ok.mp h
      obtain rfl := pure_eq_ok.mp h
      have hkept' := kept_saveNode (n := { following with status := .running }) hrows.nodeIds
        ((NodeOf.of_mem hmem).bare rfl)
      have hscript := (hkept.trans hkept').script
      have hfirst : (script ((p.saveNode { n with status := .succeeded }).saveNode
          { following with status := .running }).nodes)[(done ++ [k]).length]? =
            some (following.id, .installRole, 0) := by
        rw [hlength, hlast, hkept'.script, show 6 * m + 6 = 6 * (m + 1) + 0 by omega, ← hordinal]
        exact script_next hnext (nodeSteps_first _)
      obtain ⟨hlater, hsound, hnone⟩ := createStep_sound
        (hrows.kept hkept' hrows.jobIds fun j hj => ⟨j, hj, rfl, rfl, rfl, rfl, rfl⟩) hp.steps
        ((NodeOf.of_mem hmem).kept hkept') (by decide) (by rw [hscript]; exact hp.script) hsettled
        hnot hfirst hr
      exact ⟨(hkept.trans hkept').trans hlater, hsound, hnone⟩
    · rename_i hnone
      obtain rfl := pure_eq_ok.mp h
      have hnodes : p.nodes.length = m + 1 := by
        have hle := List.getElem?_eq_none_iff.mp hnone
        rw [← List.length_map HgsNode.bare, hkept.nodes, List.length_map, hordinal] at hle
        omega
      refine ⟨hkept, .of_kept hkept ⟨hrows.nodeIds, hrows.ordered, hrows.jobIds, hrows.placed⟩ ?_,
        .of_succeeded (by rw [← hp.steps] at hsettled; exact hsettled)⟩
      show Progress (script p.nodes) p.steps p.revoked .succeeded
      rw [hp.steps, hnot]
      refine progress_concat.mpr
        ⟨hp.script, hp.settled, fun h => absurd hp.succeeded h, ?_, fun _ => ?_⟩
      · rw [hp.succeeded]
        rfl
      · rw [length_script, hnodes]
        omega

theorem steps_eq_nil (h : p.steps.getLast?.map (·.status) = none) : p.steps = [] :=
  List.getLast?_eq_none_iff.mp (Option.map_eq_none_iff.mp h)

theorem authorize_change (hp : Sound p) {user : Nat} {document : Value}
    (h : authorize req tenant user document p = .ok q) : Change p q ∧ Unrenewed p q := by
  unfold authorize at h
  obtain ⟨members, rfl⟩ : ∃ members, document = .obj members := by
    cases document with
    | obj members => exact ⟨members, rfl⟩
    | _ => cases h
  dsimp only at h
  obtain ⟨_, _, h⟩ := bind_eq_ok.mp h
  obtain ⟨_, hready, h⟩ := bind_eq_ok.mp h
  obtain ⟨_, _, h⟩ := bind_eq_ok.mp h
  obtain ⟨_, _, h⟩ := bind_eq_ok.mp h
  obtain ⟨_, _, h⟩ := bind_eq_ok.mp h
  rw [throwIf_eq_ok, not_or, not_or, not_not, Bool.not_eq_true] at hready
  obtain ⟨hstatus, hnot, _⟩ := hready
  have hconsistent := hp.progress.consistent
  rw [hstatus] at hconsistent
  have hsteps := steps_eq_nil (consistent_idle _ _ _ hconsistent rfl).1
  split at h
  · cases h
  · rename_i node hhead
    have hmem : node ∈ p.nodes := List.mem_of_head? hhead
    let approved : HgsDeployment := { p with
      approvedBy := some user, approvedAt := some req.now
      approvalExpiresAt := some p.planExpiresAt, status := .running }
    have hnode : NodeOf approved { node with status := .running } :=
      (NodeOf.of_mem (p := approved) hmem).bare rfl
    have hkept : Kept p (approved.saveNode { node with status := .running }) :=
      Kept.trans (show Kept p approved from rfl) (kept_saveNode hp.rows.nodeIds hnode)
    have hrows : Rows (approved.saveNode { node with status := .running }) :=
      hp.rows.kept hkept hp.rows.jobIds fun j hj => ⟨j, hj, rfl, rfl, rfl, rfl, rfl⟩
    -- the first step of the first node is where the script begins
    have hnext : (script (approved.saveNode { node with status := .running }).nodes)[0]? =
        some (node.id, .installRole, 0) := by
      rw [hkept.script]
      exact script_next (m := 0) (by rw [← List.head?_eq_getElem?]; exact hhead) (nodeSteps_first _)
    obtain ⟨hlater, hsound, hnone⟩ := createStep_sound hrows hsteps
      ((NodeOf.of_mem hmem).kept hkept) (by decide) (List.nil_prefix) (fun i hi => nomatch hi) hnot
      hnext h
    obtain ⟨rfl, _, _, _⟩ := insertJob_eq_ok h
    exact ⟨.of_active (hkept.trans hlater) hsound (by rw [hstatus]; rfl) hnone.unclaimed,
      .of_not hnot⟩

/-! ## Fences -/

theorem consistent_fence : ∀ (revoked : Bool) (last : Option JobStatus) (status : PlanStatus)
    (uncertain : Bool), consistent revoked last status = true →
      ((last.any fun l => l.claimed || l == .reconciliationRequired) = true → uncertain = true) →
        consistent true (last.map fun l => if l.unclaimed then .cancelled else l)
          (if uncertain then .reconciliationRequired else .cancelled) = true := by
  decide +kernel

theorem uncertain_of_last (hp : Sound p)
    (h : ((p.steps.getLast?.map (·.status)).any fun l => l.claimed || l == .reconciliationRequired) =
      true) : p.uncertain = true := by
  cases hlast : p.steps.getLast? with
  | none =>
    rw [hlast] at h
    cases h
  | some l =>
    rw [hlast] at h
    have hl := List.mem_of_getLast? hlast
    refine List.any_eq_true.mpr ⟨l, job_of_step hl, ?_⟩
    rcases Bool.or_eq_true_iff.mp (show (l.status.claimed || l.status == .reconciliationRequired) =
      true from h) with hclaimed | hstatus
    · rw [hclaimed]
      rfl
    · have hrelease := hp.progress.unreleased l hl (by rw [beq_iff_eq.mp hstatus]; decide)
      unfold HgsJob.unresolved
      rw [hstatus, hrelease, Option.isNone_none, Bool.and_self, Bool.or_true]

theorem withdrawn_status (j : HgsJob) (code : String) (now : Time) :
    (j.withdrawn code now).status = if j.status.unclaimed then .cancelled else j.status := by
  unfold HgsJob.withdrawn
  split <;> rfl

theorem withdrawn_release (j : HgsJob) (code : String) (now : Time) :
    (j.withdrawn code now).reconciliationRelease = j.reconciliationRelease := by
  unfold HgsJob.withdrawn
  split <;> rfl

theorem steps_withdrawn {now : Time} {code : String} (hq : q.jobs = (cancelUnclaimed now code p).jobs) :
    q.steps = p.steps.map (·.withdrawn code now) :=
  steps_map (fun i _ => (withdrawn_same i code now).step) hq

theorem unclaimed_withdrawn {now : Time} {code : String}
    (hq : q.jobs = (cancelUnclaimed now code p).jobs) : Unclaimed p q := by
  intro j hj hclaimed
  rw [steps_withdrawn hq] at hj
  obtain ⟨i, hi, rfl⟩ := List.mem_map.mp hj
  rw [withdrawn_status] at hclaimed
  refine ⟨i, hi, ?_, (withdrawn_same i code now).node.symm⟩
  by_cases hunclaimed : i.status.unclaimed = true
  · rw [if_pos hunclaimed] at hclaimed
    cases hclaimed
  · rw [if_neg hunclaimed] at hclaimed
    exact hclaimed

/-- What a fence does to a plan. -/
structure Fenced (p q : HgsDeployment) : Prop where
  kept : Kept p q
  sound : Sound q
  unrenewed : Unrenewed p q
  claimed : Unclaimed p q
  revoked : q.revoked = true
  status : q.status = if p.uncertain then .reconciliationRequired else .cancelled

theorem fence_fenced (hp : Sound p) (now : Time) (code : String) : Fenced p (fence now code p) := by
  have hkept : Kept p (fence now code p) := rfl
  have hsteps : (fence now code p).steps = p.steps.map (·.withdrawn code now) :=
    steps_withdrawn rfl
  have hrevoked : (fence now code p).revoked = true := by
    unfold HgsDeployment.revoked fence
    dsimp only
    cases p.authorityRevokedAt <;> rfl
  refine ⟨hkept, .of_kept hkept (hp.rows.cancelUnclaimed hkept rfl) ?_, ⟨fun _ => hrevoked, fun _ => ?_⟩,
    unclaimed_withdrawn rfl, hrevoked, rfl⟩
  · have hprogress := hp.progress
    rw [hsteps, hrevoked]
    refine ⟨?_, ?_, ?_, ?_, fun hfinished => ?_⟩
    · have hpositions : (p.steps.map (·.withdrawn code now)).map HgsJob.position =
          p.steps.map HgsJob.position := by
        rw [List.map_map]
        exact List.map_congr_left fun j _ => (withdrawn_same j code now).position
      rw [hpositions]
      exact hprogress.script
    · intro j hj
      rw [← List.map_dropLast] at hj
      obtain ⟨i, hi, rfl⟩ := List.mem_map.mp hj
      rw [withdrawn_status, hprogress.settled i hi]
      rfl
    · intro j hj hstatus
      obtain ⟨i, hi, rfl⟩ := List.mem_map.mp hj
      rw [withdrawn_release]
      refine hprogress.unreleased i hi fun hi' => hstatus ?_
      rw [withdrawn_status, hi']
      rfl
    · have hlast : (p.steps.map (·.withdrawn code now)).getLast?.map (·.status) =
          (p.steps.getLast?.map (·.status)).map fun l => if l.unclaimed then .cancelled else l := by
        rw [List.getLast?_map, Option.map_map, Option.map_map]
        exact congrArg (Option.map · _) (funext fun j => withdrawn_status j code now)
      rw [hlast]
      exact consistent_fence _ _ _ _ hprogress.consistent (uncertain_of_last hp)
    · revert hfinished
      unfold fence
      dsimp only
      split <;> exact fun h => nomatch h
  · rw [hsteps, List.map_map]
    exact List.map_congr_left fun j _ => (withdrawn_same j code now).id

theorem cancel_fenced (hp : Sound p) (h : cancel req p = .ok q) :
    Fenced p q ∧ q = fence req.now "cancelled_by_operator" p := by
  unfold cancel at h
  obtain ⟨_, _, h⟩ := bind_eq_ok.mp h
  obtain rfl := pure_eq_ok.mp h
  exact ⟨fence_fenced hp _ _, rfl⟩

/-! ## What follows a result -/

theorem not_any {l : List HgsJob} {f : HgsJob → Bool} (h : (!l.any f) = true) :
    ∀ i ∈ l, f i = false := by
  simpa using h

/-- A step result that is followed up. -/
theorem afterStep_sound {done : List HgsJob} (hp : Arrived p done k) (hn : NodeOf p n)
    (hnode : n.id = k.node) (hstep : k.step = true) (h : afterResult req p n k = .ok q) :
    Kept p q ∧ Sound q ∧ Unrenewed p q ∧ NoneClaimed q := by
  have hscript := hp.script
  have hnone : NoneClaimed p := by
    refine .of_succeeded fun i hi => ?_
    rw [hp.steps] at hi
    rcases List.mem_append.mp hi with hi | hi
    · exact hp.settled i hi
    · rw [List.mem_singleton.mp hi]
      exact hp.succeeded
  have hrelease : k.status ≠ .succeeded → k.reconciliationRelease = none :=
    fun h => absurd hp.succeeded h
  unfold afterResult at h
  split at h
  · rename_i hclosed
    rw [Bool.and_eq_true] at hclosed
    cases h
    refine ⟨rfl, .of_kept (p := p) rfl ⟨hp.rows.nodeIds, hp.rows.ordered, hp.rows.jobIds,
      hp.rows.placed⟩ ?_, .of_eq rfl rfl, hnone⟩
    show Progress (script p.nodes) p.steps p.revoked .cancelled
    rw [hp.steps, hclosed.1]
    refine progress_concat.mpr ⟨hscript, hp.settled, hrelease, ?_, fun h => nomatch h⟩
    rw [hp.succeeded]
    rfl
  · rw [if_neg (bne_iff_ne.mp hstep)] at h
    have hstatus := hp.status
    cases hrevoked : p.revoked with
    | true =>
      rw [hrevoked] at h hstatus
      rw [if_pos rfl] at hstatus
      cases h
      refine ⟨rfl, ⟨hp.rows, ?_⟩, .of_eq rfl rfl, hnone⟩
      rw [hp.steps, hrevoked, hstatus]
      refine progress_concat.mpr ⟨hscript, hp.settled, hrelease, ?_, fun h => nomatch h⟩
      rw [hp.succeeded]
      rfl
    | false =>
      rw [hrevoked] at hstatus
      rw [if_neg (by decide)] at hstatus
      have hgoes : ¬(p.revoked || p.status == .cancelled || p.status == .reconciliationRequired) =
          true := by
        rw [hrevoked]
        rcases hstatus with hs | hs
        · rw [hs]
          decide
        · rw [hs]
          decide
      rw [if_neg hgoes] at h
      obtain ⟨hkept, hsound, hnone⟩ := nextStep_sound hp hn hnode hrevoked h
      exact ⟨hkept, hsound, .of_not hrevoked, hnone⟩

theorem consistent_cancelled : ∀ (last : Option JobStatus) (status : PlanStatus),
    consistent true last status = true →
      (last.all fun l => !l.active && l != .reconciliationRequired) = true →
        consistent true last .cancelled = true := by
  decide +kernel

theorem consistent_of_idle : ∀ (last : Option JobStatus) (status status' : PlanStatus),
    consistent false last status = true → status.idle = true → status'.idle = true →
      consistent false last status' = true := by
  decide +kernel

theorem idle_of_inspected : ∀ s : PlanStatus,
    (s == .inspecting || s == .draft || s == .blocked || s == .ready) = s.idle := by
  decide

theorem active_of_idle : ∀ s : PlanStatus, s.idle = true → s.active = true ∧ s ≠ .succeeded := by
  decide

/-- The result of an inspection is followed up. -/
theorem afterInspection_change (hp : Sound p) (hk : k.operation = .inspect)
    (h : afterResult req p n k = .ok q) : Change p q ∧ Unrenewed p q := by
  have hrows : ∀ {status blockers}, Rows { p with status, blockers } := fun {_ _} =>
    ⟨hp.rows.nodeIds, hp.rows.ordered, hp.rows.jobIds, hp.rows.placed⟩
  unfold afterResult at h
  by_cases hclosed : (p.revoked && !p.jobs.any fun j => j.status.active || j.unresolved) = true
  · rw [if_pos hclosed] at h
    rw [Bool.and_eq_true] at hclosed
    cases h
    have hlast : ((p.steps.getLast?.map (·.status)).all
        fun l => !l.active && l != .reconciliationRequired) = true := by
      cases hlast : p.steps.getLast? with
      | none => rfl
      | some l =>
        have hl := List.mem_of_getLast? hlast
        have hidle := not_any hclosed.2 l (job_of_step hl)
        rw [Bool.or_eq_false_iff] at hidle
        show (!l.status.active && l.status != .reconciliationRequired) = true
        rw [hidle.1, Bool.not_false, Bool.true_and, bne_iff_ne]
        intro hstatus
        have hrelease := hp.progress.unreleased l hl (by rw [hstatus]; decide)
        have hunresolved := hidle.2
        unfold HgsJob.unresolved at hunresolved
        rw [hstatus, hrelease] at hunresolved
        cases hunresolved
    have hconsistent := hp.progress.consistent
    rw [hclosed.1] at hconsistent
    refine ⟨⟨rfl, hp.withStatus rfl hrows rfl ?_ (fun h => nomatch h), (fun h => nomatch h),
      (fun h => nomatch h), .of_eq rfl⟩, .of_eq rfl rfl⟩
    show consistent p.revoked _ .cancelled = true
    rw [hclosed.1]
    exact consistent_cancelled _ _ hconsistent hlast
  · rw [if_neg hclosed, if_pos hk] at h
    cases h
    unfold afterInspection
    split
    · exact ⟨⟨rfl, hp, (fun h => h), (fun h => h), .of_eq rfl⟩, .of_eq rfl rfl⟩
    · split
      · exact ⟨⟨rfl, hp, (fun h => h), (fun h => h), .of_eq rfl⟩, .of_eq rfl rfl⟩
      · rename_i hidle
        rw [idle_of_inspected, Bool.or_eq_true, not_or, Bool.not_eq_true', Bool.not_eq_false,
          Bool.not_eq_true] at hidle
        refine ⟨.of_active rfl (hp.withStatus rfl hrows rfl ?_ ?_) (active_of_idle _ hidle.1).1
          (.of_eq rfl), .of_eq rfl rfl⟩
        · have hconsistent := hp.progress.consistent
          rw [hidle.2] at hconsistent
          show consistent p.revoked _ _ = true
          rw [hidle.2]
          refine consistent_of_idle _ _ _ hconsistent hidle.1 ?_
          dsimp only
          split <;> rfl
        · dsimp only
          split <;> exact fun h => nomatch h

end

end Ipms.Server.Hgs
