import Ipms.Server.Hgs.Services

/-
  Ipms.Server.Hgs.Script

  The steps a plan has to take: those of its first node, then those of the
  next, and so on.  What the source calls the next step of a node or the first
  step of the following node is the next position of this one list.
-/

namespace Ipms.Server.Hgs

open Ipms.Lib
open Ipms.Agent.Hgs (Operation NodeRole)

/-- The columns of a node that are written once. -/
def HgsNode.bare (n : HgsNode) : HgsNode :=
  { n with status := .pending, readiness := none, blockers := [], observedAt := none }

/-- A position of a script: a node, the operation there and its sequence number. -/
abbrev Position := String × Operation × Nat

/-- The steps of one node. -/
def HgsNode.script (n : HgsNode) : List Position :=
  (nodeSteps n.role).zipIdx.map fun (operation, sequence) => (n.id, operation, sequence)

/-- The steps of the nodes of a plan, in their ordinal order. -/
def script (nodes : List HgsNode) : List Position := nodes.flatMap HgsNode.script

def HgsJob.position (j : HgsJob) : Position := (j.node, j.operation, j.sequence)

/-! ## Positions -/

theorem length_nodeSteps (role : NodeRole) : (nodeSteps role).length = 6 := by
  cases role <;> rfl

theorem nodeSteps_first (role : NodeRole) : (nodeSteps role)[0]? = some .installRole := by
  cases role <;> rfl

theorem length_nodeScript (n : HgsNode) : n.script.length = 6 := by
  rw [HgsNode.script, List.length_map, List.length_zipIdx, length_nodeSteps]

theorem length_script (nodes : List HgsNode) : (script nodes).length = 6 * nodes.length := by
  induction nodes with
  | nil => rfl
  | cons n nodes ih =>
    rw [show script (n :: nodes) = n.script ++ script nodes from List.flatMap_cons,
      List.length_append, ih, length_nodeScript, List.length_cons]
    omega

theorem getElem?_nodeScript {n : HgsNode} {i : Nat} {x : Position} :
    n.script[i]? = some x ↔ (nodeSteps n.role)[i]? = some x.2.1 ∧ x.1 = n.id ∧ x.2.2 = i := by
  obtain ⟨node, operation, sequence⟩ := x
  simp only [HgsNode.script, List.getElem?_map, List.getElem?_zipIdx, Option.map_map,
    Option.map_eq_some_iff, Function.comp_apply, Prod.mk.injEq, Nat.zero_add]
  constructor
  · rintro ⟨op, hop, rfl, rfl, rfl⟩
    exact ⟨hop, rfl, rfl⟩
  · rintro ⟨hop, rfl, rfl⟩
    exact ⟨operation, hop, rfl, rfl, rfl⟩

/-- A position of a script is a step of one of its nodes. -/
theorem getElem?_script {nodes : List HgsNode} {k : Nat} {x : Position} :
    (script nodes)[k]? = some x ↔
      ∃ m n, nodes[m]? = some n ∧ k = 6 * m + x.2.2 ∧ n.script[x.2.2]? = some x := by
  induction nodes generalizing k with
  | nil => simp [script]
  | cons n nodes ih =>
    rw [show script (n :: nodes) = n.script ++ script nodes from List.flatMap_cons]
    by_cases hk : k < 6
    · rw [List.getElem?_append_left (by rw [length_nodeScript]; exact hk)]
      constructor
      · intro hx
        have hsequence := (getElem?_nodeScript.mp hx).2.2
        exact ⟨0, n, rfl, by omega, by rw [hsequence]; exact hx⟩
      · rintro ⟨m, n', hn', rfl, hx⟩
        have hm : m = 0 := by omega
        subst hm
        cases hn'
        simpa using hx
    · rw [List.getElem?_append_right (by rw [length_nodeScript]; omega), length_nodeScript, ih]
      constructor
      · rintro ⟨m, n', hn', hk', hx⟩
        exact ⟨m + 1, n', hn', by omega, hx⟩
      · rintro ⟨m, n', hn', hk', hx⟩
        have hlt : x.2.2 < 6 := by
          rw [← length_nodeScript n']
          exact (List.getElem?_eq_some_iff.mp hx).1
        cases m with
        | zero => omega
        | succ m => exact ⟨m, n', hn', by omega, hx⟩

theorem script_next {nodes : List HgsNode} {m i : Nat} {n : HgsNode} {operation : Operation}
    (hn : nodes[m]? = some n) (hnext : (nodeSteps n.role)[i]? = some operation) :
    (script nodes)[6 * m + i]? = some (n.id, operation, i) :=
  getElem?_script.mpr ⟨m, n, hn, rfl, getElem?_nodeScript.mpr ⟨hnext, rfl, rfl⟩⟩

theorem position_node {nodes : List HgsNode} (hids : (nodes.map (·.id)).Nodup) {k m : Nat}
    {n : HgsNode} {operation : Operation} {i : Nat} (hn : nodes[m]? = some n)
    (hk : (script nodes)[k]? = some (n.id, operation, i)) : k = 6 * m + i ∧ i < 6 := by
  obtain ⟨m', n', hn', hk', hx⟩ := getElem?_script.mp hk
  have hid := (getElem?_nodeScript.mp hx).2.1
  have hlt : i < 6 := by
    rw [← length_nodeScript n']
    exact (List.getElem?_eq_some_iff.mp hx).1
  have hsame : m = m' := by
    have hlm : m < (nodes.map (·.id)).length := by
      rw [List.length_map]
      exact (List.getElem?_eq_some_iff.mp hn).1
    refine (List.getElem?_inj hlm hids).mp ?_
    rw [List.getElem?_map, List.getElem?_map, hn, hn']
    exact congrArg some hid
  exact ⟨by rw [hsame]; exact hk', hlt⟩

theorem prefix_concat {α : Type} {l s : List α} {x : α} (h : l <+: s) (hx : s[l.length]? = some x) :
    l ++ [x] <+: s := by
  obtain ⟨rest, rfl⟩ := h
  rw [List.getElem?_append_right (Nat.le_refl _), Nat.sub_self] at hx
  cases rest with
  | nil => cases hx
  | cons y rest =>
    cases hx
    exact ⟨rest, by rw [List.append_assoc]; rfl⟩

theorem getElem?_of_prefix {α : Type} {l s : List α} {x : α} (h : l ++ [x] <+: s) :
    s[l.length]? = some x := by
  obtain ⟨rest, rfl⟩ := h
  rw [List.append_assoc, List.getElem?_append_right (Nat.le_refl _), Nat.sub_self]
  rfl

/-- The nodes of a plan are in their ordinal order. -/
def Ordered (nodes : List HgsNode) : Prop :=
  ∀ (m : Nat) (n : HgsNode), nodes[m]? = some n → n.ordinal = m

theorem find?_following {nodes : List HgsNode} (hordered : Ordered nodes) (m : Nat) :
    nodes.find? (fun n => decide (m < n.ordinal)) = nodes[m + 1]? := by
  cases hnext : nodes[m + 1]? with
  | none =>
    rw [List.find?_eq_none]
    intro n hn
    obtain ⟨k, hk, rfl⟩ := List.mem_iff_getElem.mp hn
    have hlen := List.getElem?_eq_none_iff.mp hnext
    rw [hordered k _ (List.getElem?_eq_getElem hk)]
    simp only [decide_eq_true_eq]
    omega
  | some n =>
    obtain ⟨hlt, hget⟩ := List.getElem?_eq_some_iff.mp hnext
    rw [List.find?_eq_some_iff_getElem]
    refine ⟨?_, m + 1, hlt, hget, fun k hk => ?_⟩
    · rw [hordered _ _ hnext]
      simp
    · rw [hordered k _ (List.getElem?_eq_getElem (by omega))]
      simp only [Bool.not_eq_true', decide_eq_false_iff_not]
      omega

end Ipms.Server.Hgs
