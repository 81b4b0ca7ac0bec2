import Ipms.Server.Hgs.Script

/-
  Ipms.Server.Hgs.Rows

  What every service keeps of the rows of a plan: the columns that are written
  once, the identifiers, and that each job carries the assignment of its node.
-/

namespace Ipms.Server.Hgs

open Ipms.Lib
open Ipms.Agent.Hgs (Operation)

/-! ## The columns that are written once -/

/-- The columns of a plan and of its nodes that are written once. -/
def HgsDeployment.bare (p : HgsDeployment) : HgsDeployment :=
  { p with
    status := .draft, approvedBy := none, approvedAt := none, planExpiresAt := 0
    approvalExpiresAt := none, authorityRevokedAt := none, blockers := []
    nodes := p.nodes.map HgsNode.bare, jobs := [] }

/-- A plan keeps the columns that are written once. -/
def Kept (p q : HgsDeployment) : Prop := q.bare = p.bare

variable {n : HgsNode}

section
variable {p q r : HgsDeployment}

theorem Kept.trans (h : Kept p q) (h' : Kept q r) : Kept p r := Eq.trans h' h

theorem Kept.nodes (h : Kept p q) : q.nodes.map HgsNode.bare = p.nodes.map HgsNode.bare :=
  congrArg HgsDeployment.nodes h

theorem Kept.id (h : Kept p q) : q.id = p.id :=
  show q.bare.id = p.bare.id from congrArg HgsDeployment.id h

theorem Kept.tenant (h : Kept p q) : q.tenant = p.tenant :=
  show q.bare.tenant = p.bare.tenant from congrArg HgsDeployment.tenant h

theorem Kept.domainName (h : Kept p q) : q.domainName = p.domainName :=
  show q.bare.domainName = p.bare.domainName from congrArg HgsDeployment.domainName h

variable {m : HgsNode}

theorem Kept.assignmentOf (h : Kept p q) (hn : n.bare = m.bare) :
    q.assignmentOf n = p.assignmentOf m := by
  show q.bare.assignmentOf n.bare = p.bare.assignmentOf m.bare
  rw [h, hn]

theorem Kept.node (h : Kept p q) {n : HgsNode} (hn : n ∈ p.nodes) :
    ∃ n' ∈ q.nodes, n'.bare = n.bare := by
  have hmem : n.bare ∈ q.nodes.map HgsNode.bare := by
    rw [h.nodes]
    exact List.mem_map_of_mem hn
  obtain ⟨n', hn', hbare⟩ := List.mem_map.mp hmem
  exact ⟨n', hn', hbare⟩

theorem HgsNode.id_of_bare (h : n.bare = m.bare) : n.id = m.id :=
  show n.bare.id = m.bare.id from congrArg HgsNode.id h

theorem HgsNode.ordinal_of_bare (h : n.bare = m.bare) : n.ordinal = m.ordinal :=
  show n.bare.ordinal = m.bare.ordinal from congrArg HgsNode.ordinal h

theorem HgsNode.role_of_bare (h : n.bare = m.bare) : n.role = m.role :=
  show n.bare.role = m.bare.role from congrArg HgsNode.role h

theorem HgsNode.enrollment_of_bare (h : n.bare = m.bare) : n.enrollment = m.enrollment :=
  show n.bare.enrollment = m.bare.enrollment from congrArg HgsNode.enrollment h

theorem Kept.map_eq {α : Type} (h : Kept p q) (f : HgsNode → α) (hf : ∀ n, f n = f n.bare) :
    q.nodes.map f = p.nodes.map f := by
  have hmap : ∀ r : HgsDeployment, r.nodes.map f = (r.nodes.map HgsNode.bare).map f := by
    intro r
    rw [List.map_map]
    exact List.map_congr_left fun n _ => hf n
  rw [hmap q, h.nodes, ← hmap p]

theorem Kept.ids (h : Kept p q) : q.nodes.map (·.id) = p.nodes.map (·.id) :=
  h.map_eq _ fun _ => rfl

theorem Kept.script (h : Kept p q) : script q.nodes = script p.nodes := by
  have hmap := h.map_eq HgsNode.script fun _ => rfl
  unfold Hgs.script
  rw [List.flatMap_def, hmap, ← List.flatMap_def]

theorem Kept.ordered (h : Kept p q) (hp : Ordered p.nodes) : Ordered q.nodes := by
  intro m n hn
  have hbare : (p.nodes.map HgsNode.bare)[m]? = some n.bare := by
    rw [← h.nodes, List.getElem?_map, hn]
    rfl
  obtain ⟨n', hn', heq⟩ := Option.map_eq_some_iff.mp (by rwa [List.getElem?_map] at hbare)
  rw [← hp m n' hn', ← HgsNode.ordinal_of_bare heq]

theorem Kept.enrollments (h : Kept p q) :
    q.nodes.map (·.enrollment) = p.nodes.map (·.enrollment) := h.map_eq _ fun _ => rfl

/-- A node that is one of a plan's, up to the columns that change. -/
def NodeOf (p : HgsDeployment) (n : HgsNode) : Prop := n.bare ∈ p.nodes.map HgsNode.bare

theorem NodeOf.of_mem {n : HgsNode} (hn : n ∈ p.nodes) : NodeOf p n := List.mem_map_of_mem hn

theorem NodeOf.kept (hn : NodeOf p n) (h : Kept p q) : NodeOf q n := by
  unfold NodeOf
  rw [h.nodes]
  exact hn

theorem NodeOf.bare {n m : HgsNode} (hn : NodeOf p n) (h : m.bare = n.bare) : NodeOf p m := by
  unfold NodeOf
  rw [h]
  exact hn

theorem kept_saveNode (hids : (p.nodes.map (·.id)).Nodup) {n : HgsNode} (hn : NodeOf p n) :
    Kept p (p.saveNode n) := by
  obtain ⟨old, hold, hbare⟩ := List.mem_map.mp hn
  have hnodes : (p.nodes.map fun m => if m.id = n.id then n else m).map HgsNode.bare =
      p.nodes.map HgsNode.bare := by
    rw [List.map_map]
    refine List.map_congr_left fun m hm => ?_
    by_cases hid : m.id = n.id
    · have hsame : m = old := List.inj_on_of_nodup_map hids hm hold
        (hid.trans (HgsNode.id_of_bare hbare).symm)
      simp only [Function.comp_apply, if_pos hid]
      rw [hsame, hbare]
    · simp only [Function.comp_apply, if_neg hid]
  have hbare : (p.saveNode n).bare = { p.bare with
      nodes := (p.nodes.map fun m => if m.id = n.id then n else m).map HgsNode.bare } := rfl
  unfold Kept
  rw [hbare, hnodes]
  rfl

end

/-! ## Rows -/

/-- What holds of the rows of a plan. -/
structure Rows (p : HgsDeployment) : Prop where
  nodeIds : (p.nodes.map (·.id)).Nodup
  ordered : Ordered p.nodes
  jobIds : (p.jobs.map (·.id)).Nodup
  placed : ∀ j ∈ p.jobs, ∃ n ∈ p.nodes, n.id = j.node ∧
    j.assignment = p.assignmentOf n j.id j.operation j.expiresAt

section
variable {p q : HgsDeployment}

variable {j : HgsJob}

theorem nodeOf_mem (h : p.nodeOf j = some n) : n ∈ p.nodes ∧ n.id = j.node :=
  ⟨List.mem_of_find?_eq_some h, by simpa using List.find?_some h⟩

theorem Rows.kept (hp : Rows p) (h : Kept p q) (hjobs : (q.jobs.map (·.id)).Nodup)
    (hplaced : ∀ j ∈ q.jobs, ∃ k ∈ p.jobs, k.id = j.id ∧ k.node = j.node ∧
      k.operation = j.operation ∧ k.expiresAt = j.expiresAt ∧ k.assignment = j.assignment) :
    Rows q where
  nodeIds := by
    rw [h.ids]
    exact hp.nodeIds
  ordered := h.ordered hp.ordered
  jobIds := hjobs
  placed j hj := by
    obtain ⟨k, hk, hid, hnode, hop, hexpires, hassignment⟩ := hplaced j hj
    obtain ⟨n, hn, hn', hassigned⟩ := hp.placed k hk
    obtain ⟨m, hm, hbare⟩ := h.node hn
    refine ⟨m, hm, (HgsNode.id_of_bare hbare).trans (hn'.trans hnode), ?_⟩
    rw [h.assignmentOf hbare, ← hassignment, hassigned, hid, hop, hexpires]

/-- A job that only differs from its row in the columns of its progress. -/
structure SameJob (j k : HgsJob) : Prop where
  id : k.id = j.id
  node : k.node = j.node
  operation : k.operation = j.operation
  sequence : k.sequence = j.sequence
  expiresAt : k.expiresAt = j.expiresAt
  assignment : k.assignment = j.assignment

theorem SameJob.refl (j : HgsJob) : SameJob j j := ⟨rfl, rfl, rfl, rfl, rfl, rfl⟩

variable {k : HgsJob}

theorem SameJob.position (h : SameJob j k) : k.position = j.position := by
  unfold HgsJob.position
  rw [h.node, h.operation, h.sequence]

theorem SameJob.step (h : SameJob j k) : k.step = j.step := by
  unfold HgsJob.step
  rw [h.operation]

theorem job_unique (hp : Rows p) (hj : j ∈ p.jobs) (hk : k ∈ p.jobs) (h : j.id = k.id) :
    j = k := List.inj_on_of_nodup_map hp.jobIds hj hk h

theorem Rows.saveJob (hp : Rows p) {j k : HgsJob} (hj : j ∈ p.jobs) (h : SameJob j k)
    (hq : Kept p q) (hjobs : q.jobs = (p.saveJob k).jobs) : Rows q := by
  refine hp.kept hq ?_ fun i hi => ?_
  · rw [hjobs]
    show ((p.jobs.map fun i => if i.id = k.id then k else i).map (·.id)).Nodup
    rw [Table.map_key_replace]
    exact hp.jobIds
  · rw [hjobs] at hi
    obtain ⟨i', hi', rfl⟩ := List.mem_map.mp hi
    by_cases hid : i'.id = k.id
    · rw [if_pos hid]
      exact ⟨j, hj, h.id.symm, h.node.symm, h.operation.symm, h.expiresAt.symm, h.assignment.symm⟩
    · rw [if_neg hid]
      exact ⟨i', hi', rfl, rfl, rfl, rfl, rfl⟩

theorem mem_saveJob {i : HgsJob} (hi : i ∈ (p.saveJob k).jobs) : i ∈ p.jobs ∨ i = k := by
  obtain ⟨i', hi', rfl⟩ := List.mem_map.mp hi
  by_cases hid : i'.id = k.id
  · rw [if_pos hid]
    exact .inr rfl
  · rw [if_neg hid]
    exact .inl hi'

theorem withdrawn_same (j : HgsJob) (code : String) (now : Time) : SameJob j (j.withdrawn code now) := by
  unfold HgsJob.withdrawn
  split
  · exact ⟨rfl, rfl, rfl, rfl, rfl, rfl⟩
  · exact .refl j

theorem Rows.cancelUnclaimed (hp : Rows p) {now : Time} {code : String} (hq : Kept p q)
    (hjobs : q.jobs = (cancelUnclaimed now code p).jobs) : Rows q := by
  refine hp.kept hq ?_ fun i hi => ?_
  · rw [hjobs]
    show ((p.jobs.map (·.withdrawn code now)).map (·.id)).Nodup
    have hids : (p.jobs.map (·.withdrawn code now)).map (·.id) = p.jobs.map (·.id) := by
      rw [List.map_map]
      exact List.map_congr_left fun j _ => (withdrawn_same j code now).id
    rw [hids]
    exact hp.jobIds
  · rw [hjobs] at hi
    obtain ⟨j, hj, rfl⟩ := List.mem_map.mp hi
    have h := withdrawn_same j code now
    exact ⟨j, hj, h.id.symm, h.node.symm, h.operation.symm, h.expiresAt.symm, h.assignment.symm⟩

theorem insertJob_eq_ok {req : Request} {job : HgsJob} (h : insertJob req p job = .ok q) :
    q = { p with jobs := p.jobs ++ [job] } ∧ (∀ j ∈ p.jobs, j.id ≠ job.id) ∧
      req.taken job.id = false ∧
      (job.status.active = true → ∀ j ∈ p.jobs, j.node = job.node → j.status.active = false) := by
  unfold insertJob at h
  obtain ⟨_, hfree, h⟩ := bind_eq_ok.mp h
  obtain ⟨_, hidle, h⟩ := bind_eq_ok.mp h
  rw [throwIf_eq_ok] at hfree hidle
  refine ⟨(pure_eq_ok.mp h).symm, fun j hj hid => hfree (.inr ?_),
    Bool.eq_false_iff.mpr fun htaken => hfree (.inl htaken), fun hactive j hj hnode => ?_⟩
  · exact List.any_eq_true.mpr ⟨j, hj, beq_iff_eq.mpr hid⟩
  · refine Bool.eq_false_iff.mpr fun hbusy => hidle ⟨hactive, ?_⟩
    exact List.any_eq_true.mpr ⟨j, hj, by rw [hnode, beq_self_eq_true, hbusy]; rfl⟩

theorem Rows.insertJob (hp : Rows p) {req : Request} {op : Operation} {sequence : Nat}
    {actor : Option Nat} {expiresAt : Time} (hn : NodeOf p n)
    (h : insertJob req p (newJob req p n op sequence actor expiresAt) = .ok q) : Rows q := by
  obtain ⟨rfl, hfree, _, _⟩ := insertJob_eq_ok h
  refine ⟨hp.nodeIds, hp.ordered, ?_, fun j hj => ?_⟩
  · rw [List.map_append, List.nodup_append]
    refine ⟨hp.jobIds, by simp, fun id hid id' hid' => ?_⟩
    obtain ⟨j, hj, rfl⟩ := List.mem_map.mp hid
    rw [List.map_singleton, List.mem_singleton] at hid'
    rw [hid']
    exact hfree j hj
  · rcases List.mem_append.mp hj with hj | hj
    · exact hp.placed j hj
    · rw [List.mem_singleton.mp hj]
      obtain ⟨m, hm, hbare⟩ := List.mem_map.mp hn
      refine ⟨m, hm, HgsNode.id_of_bare hbare, ?_⟩
      exact congrFun (congrFun (congrFun
        (Kept.assignmentOf (show Kept p p from rfl) hbare.symm) _) _) _

end

end Ipms.Server.Hgs
