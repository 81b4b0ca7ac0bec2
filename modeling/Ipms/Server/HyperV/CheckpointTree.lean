import Mathlib.Data.String.Basic
import Ipms.Agent.HyperV.Commands
import Ipms.Lib.Lookup

/-
  Ipms.Server.HyperV.CheckpointTree

  A deletion takes a checkpoint and everything below it.  The control plane,
  the agent and the portal each compute that set with a loop of their own; all
  three come to the checkpoints the parent relation reaches, and the control
  plane and the agent take the same parent maps for forests.
-/

namespace Ipms.Portal

open Ipms.Lib
open Ipms.Server.HyperV (Checkpoint)

/-- One pass of the loop of `checkpointSubtree`, in the order of the rows. -/
def portalPass (checkpoints : List Checkpoint) (selected : Finset String) : Finset String :=
  checkpoints.foldl
    (fun selected item =>
      match item.parentId with
      | some parent => if parent ∈ selected then insert item.id selected else selected
      | none => selected)
    selected

/-- `left.id < right.id`.  Identifiers are ASCII, so code units and code points are in one
    order. -/
def before (left right : Checkpoint) : Bool := decide (left.id < right.id)

def checkpointSubtree (checkpoints : List Checkpoint) (selectedId : String) : List Checkpoint :=
  if decide (256 < checkpoints.length) || !checkpoints.any (·.id == selectedId) then []
  else
    let selected := sweepUpTo (portalPass checkpoints) checkpoints.length {selectedId}
    (checkpoints.filter fun item => item.id ∈ selected).mergeSort fun a b => !before b a

end Ipms.Portal

namespace Ipms.Server.HyperV

open Ipms.Lib Ipms.ManagementJson Relation
open Ipms.Agent.HyperV (Command agentAffected agentForest agentPass canonicalGuid cursorAt
  deletionVerdict emplace parentIn parentMap preflight selectCheckpoint stateVerdict
  validateManagementCommand)
open Ipms.Portal (before checkpointSubtree portalPass)

/-! ## The parent relation -/

/-- A row of that id names that parent. -/
def Child (rows : List Checkpoint) (parent child : String) : Prop :=
  ∃ row ∈ rows, row.id = child ∧ row.parentId = some parent

/-- The selected checkpoint and its descendants. -/
def Subtree (rows : List Checkpoint) (selected id : String) : Prop :=
  ReflTransGen (Child rows) selected id

variable {rows : List Checkpoint}

theorem mem_childLinks {parent child : String} :
    (parent, child) ∈ childLinks rows ↔ Child rows parent child := by
  simp only [childLinks, List.mem_filterMap, Option.map_eq_some_iff, Prod.mk.injEq]
  constructor
  · rintro ⟨row, hrow, p, hparent, rfl, rfl⟩
    exact ⟨row, hrow, rfl, hparent⟩
  · rintro ⟨row, hrow, rfl, hparent⟩
    exact ⟨row, hrow, parent, hparent, rfl, rfl⟩

theorem edge_childLinks (rows : List Checkpoint) : Edge (childLinks rows) = Child rows := by
  funext parent child
  exact propext mem_childLinks

theorem childLinks_length (rows : List Checkpoint) : (childLinks rows).length ≤ rows.length :=
  List.length_filterMap_le _ _

variable {selected id : String}

theorem reached_singleton {edge : String → String → Prop} :
    Reached edge {selected} id ↔ ReflTransGen edge selected id := by
  constructor
  · rintro ⟨y, hy, hpath⟩
    rw [Finset.mem_singleton.mp hy] at hpath
    exact hpath
  · intro hpath
    exact ⟨selected, Finset.mem_singleton_self _, hpath⟩

theorem card_missing_le (edges : List (String × String)) (s : Finset String) :
    ((edges.map (·.2)).toFinset \ s).card ≤ edges.length := by
  calc ((edges.map (·.2)).toFinset \ s).card
      ≤ (edges.map (·.2)).toFinset.card := Finset.card_le_card Finset.sdiff_subset
    _ ≤ (edges.map (·.2)).length := List.toFinset_card_le _
    _ = edges.length := List.length_map _

theorem union_descendants (rows : List Checkpoint) (affected : Finset String) :
    affected ∪ descendants rows affected = sweepAtOnce (childLinks rows) affected := by
  ext id
  rw [mem_sweepAtOnce, Finset.mem_union]
  apply or_congr_right
  simp only [descendants, List.mem_toFinset, List.mem_map, List.mem_filter, mem_childLinks, Child,
    Option.any_eq_true_iff_get, decide_eq_true_eq]
  constructor
  · rintro ⟨row, ⟨hrow, hsome, haffected⟩, rfl⟩
    exact ⟨_, haffected, row, hrow, rfl, (Option.some_get hsome).symm⟩
  · rintro ⟨parent, haffected, row, hrow, rfl, hparent⟩
    refine ⟨row, ⟨hrow, by rw [hparent]; rfl, ?_⟩, rfl⟩
    simpa only [hparent, Option.get_some] using haffected

theorem affectedIds_eq_some (rows : List Checkpoint) (selected : String) :
    ∃ affected, affectedIds rows selected = some affected ∧
      ∀ id, id ∈ affected ↔ Subtree rows selected id := by
  have hsweep := sweepAtOnce_isSweep (childLinks rows)
  have hfuel := card_missing_le (childLinks rows) {selected}
  have hlength := childLinks_length rows
  have hdone : ∀ s, decide (descendants rows s ⊆ s) = true ↔
      sweepAtOnce (childLinks rows) s = s := by
    intro s
    rw [decide_eq_true_eq, ← union_descendants, Finset.union_eq_left]
  have hless : (((childLinks rows).map (·.2)).toFinset \ {selected}).card < rounds rows := by
    unfold rounds
    omega
  obtain ⟨affected, hrun, hmem⟩ := saturate_eq_some hsweep (edge_within _) hdone hless
  refine ⟨affected, ?_, fun id => ?_⟩
  · rw [← hrun, affectedIds]
    congr 1
    exact funext (union_descendants rows)
  · rw [hmem, edge_childLinks, reached_singleton]
    rfl

theorem portalPass_eq (rows : List Checkpoint) : portalPass rows = sweepInOrder (childLinks rows) := by
  funext selected
  unfold portalPass sweepInOrder
  induction rows generalizing selected with
  | nil => rfl
  | cons row rows ih =>
    rw [List.foldl_cons, ih]
    unfold childLinks
    rw [List.filterMap_cons]
    cases row.parentId with
    | none => rfl
    | some parent => rfl

theorem mem_checkpointSubtree (hlength : rows.length ≤ 256)
    (hselected : ∃ row ∈ rows, row.id = selected) (item : Checkpoint) :
    item ∈ checkpointSubtree rows selected ↔ item ∈ rows ∧ Subtree rows selected item.id := by
  have hany : rows.any (·.id == selected) = true := by
    obtain ⟨row, hrow, hid⟩ := hselected
    exact List.any_eq_true.mpr ⟨row, hrow, beq_iff_eq.mpr hid⟩
  have hless : decide (256 < rows.length) = false := decide_eq_false (by omega)
  have hbound := card_missing_le (childLinks rows) {selected}
  have hlinks := childLinks_length rows
  rw [checkpointSubtree, hany, hless]
  simp only [Bool.false_or, Bool.not_true, Bool.false_eq_true, if_false, List.mem_mergeSort,
    List.mem_filter, decide_eq_true_eq]
  rw [portalPass_eq, mem_sweepUpTo (sweepInOrder_isSweep _) (edge_within _) (by omega),
    edge_childLinks, reached_singleton]
  rfl

theorem checkpointSubtree_sorted (rows : List Checkpoint) (selected : String) :
    (checkpointSubtree rows selected).Pairwise fun a b => ¬ b.id < a.id := by
  unfold checkpointSubtree
  split
  · exact List.Pairwise.nil
  · have htrans : ∀ a b c : Checkpoint, (!before b a) = true → (!before c b) = true →
        (!before c a) = true := by
      intro a b c hab hbc
      simp only [before, Bool.not_eq_true', decide_eq_false_iff_not, not_lt] at hab hbc ⊢
      exact le_trans hab hbc
    have htotal : ∀ a b : Checkpoint, (!before b a || !before a b) = true := by
      intro a b
      simp only [before, Bool.or_eq_true, Bool.not_eq_true', decide_eq_false_iff_not, not_lt]
      exact le_total a.id b.id
    refine List.Pairwise.imp ?_ (List.pairwise_mergeSort htrans htotal _)
    intro a b h
    simpa only [before, Bool.not_eq_true', decide_eq_false_iff_not] using h

/-! ## The agent's map -/

/-- The pair a row adds to the agent's map. -/
def entryOf (row : Checkpoint) : String × String := (row.id, row.parentId.getD "")

/-- Adding the rows to a map succeeds exactly when no id repeats, and gives all of the pairs. -/
theorem parentMap_from (rows : List Checkpoint) (start : List (String × String))
    (hstart : (start.map (·.1)).Nodup) :
    (∀ parents, rows.foldlM (fun parents row => emplace parents row.id (row.parentId.getD "")) start =
        some parents →
      parents.Perm (start ++ rows.map entryOf) ∧ (parents.map (·.1)).Nodup) ∧
    (((start ++ rows.map entryOf).map (·.1)).Nodup →
      ∃ parents, rows.foldlM (fun parents row => emplace parents row.id (row.parentId.getD "")) start =
        some parents) := by
  induction rows generalizing start with
  | nil =>
    refine ⟨fun parents h => ?_, fun _ => ⟨start, rfl⟩⟩
    cases h
    rw [List.map_nil, List.append_nil]
    exact ⟨List.Perm.refl _, hstart⟩
  | cons row rows ih =>
    rw [List.foldlM_cons]
    have hperm : (start.orderedInsert (fun a b => a.1 ≤ b.1) (entryOf row)).Perm
        (entryOf row :: start) := List.perm_orderedInsert _ _ _
    have hall : (start.orderedInsert (fun a b => a.1 ≤ b.1) (entryOf row) ++ rows.map entryOf).Perm
        (start ++ (row :: rows).map entryOf) := by
      rw [List.map_cons]
      exact (hperm.append_right _).trans List.perm_middle.symm
    by_cases hold : (start.lookup row.id).isSome = true
    · rw [emplace, if_pos hold]
      refine ⟨fun parents h => (nomatch h), fun hnodup => ?_⟩
      -- the id that is there already would stand in the list twice
      obtain ⟨parent, hparent⟩ := Option.isSome_iff_exists.mp hold
      have hin := List.mem_map_of_mem (f := (·.1)) ((lookup_eq_some_iff hstart).mp hparent)
      rw [List.map_append, List.map_map, List.nodup_append] at hnodup
      exact absurd rfl (hnodup.2.2 _ hin _ (List.mem_map_of_mem List.mem_cons_self))
    · rw [emplace, if_neg hold]
      have hnew : ((start.orderedInsert (fun a b => a.1 ≤ b.1) (entryOf row)).map (·.1)).Nodup := by
        rw [(hperm.map (·.1)).nodup_iff, List.map_cons, List.nodup_cons]
        refine ⟨fun hin => hold ?_, hstart⟩
        obtain ⟨⟨k, parent⟩, hmem, hk⟩ := List.mem_map.mp hin
        have hlookup : start.lookup row.id = some parent := by
          rw [lookup_eq_some_iff hstart, ← show k = row.id from hk]
          exact hmem
        rw [hlookup]
        rfl
      obtain ⟨hgives, hsucceeds⟩ := ih _ hnew
      constructor
      · intro parents h
        obtain ⟨hrest, hnodup⟩ := hgives parents h
        exact ⟨hrest.trans hall, hnodup⟩
      · intro hnodup
        exact hsucceeds ((hall.map (·.1)).nodup_iff.mpr hnodup)

theorem map_entryOf_fst (rows : List Checkpoint) :
    (rows.map entryOf).map (·.1) = rows.map (·.id) := by
  rw [List.map_map]
  rfl

theorem perm_of_parentMap {parents : List (String × String)} (h : parentMap rows = some parents) :
    parents.Perm (rows.map entryOf) ∧ (parents.map (·.1)).Nodup ∧ (rows.map (·.id)).Nodup := by
  obtain ⟨hperm, hnodup⟩ := (parentMap_from rows [] List.nodup_nil).1 parents h
  rw [List.nil_append] at hperm
  refine ⟨hperm, hnodup, ?_⟩
  rw [← map_entryOf_fst, ← (hperm.map (·.1)).nodup_iff]
  exact hnodup

theorem parentMap_eq_some (h : (rows.map (·.id)).Nodup) :
    ∃ parents, parentMap rows = some parents := by
  apply (parentMap_from rows [] List.nodup_nil).2
  rw [List.nil_append, map_entryOf_fst]
  exact h

/-! ## The agent's loop -/

/-- The steps the agent's map allows: from the value of a pair to its key. -/
def agentLinks (parents : List (String × String)) : List (String × String) := parents.map Prod.swap

theorem agentPass_eq (parents : List (String × String)) :
    agentPass parents = sweepInOrder (agentLinks parents) := by
  funext affected
  rw [agentPass, sweepInOrder, agentLinks, List.foldl_map]
  rfl

theorem agentAffected_eq_some (parents : List (String × String)) (selected : String) :
    ∃ affected, agentAffected parents selected = some affected ∧
      ∀ id, id ∈ affected ↔ ReflTransGen (Edge (agentLinks parents)) selected id := by
  have hsweep := sweepInOrder_isSweep (agentLinks parents)
  have hfuel := card_missing_le (agentLinks parents) {selected}
  have hlength : (agentLinks parents).length = parents.length := List.length_map _
  have hdone : ∀ s, decide ((sweepInOrder (agentLinks parents) s).card = s.card) = true ↔
      sweepInOrder (agentLinks parents) s = s := by
    intro s
    rw [decide_eq_true_eq]
    exact ⟨hsweep.fixed_of_card, fun h => by rw [h]⟩
  have hless : (((agentLinks parents).map (·.2)).toFinset \ {selected}).card <
      Ipms.Agent.HyperV.rounds parents := by
    unfold Ipms.Agent.HyperV.rounds
    omega
  obtain ⟨affected, hrun, hmem⟩ := saturate_eq_some hsweep (edge_within _) hdone hless
  refine ⟨affected, ?_, fun id => ?_⟩
  · rw [← hrun, agentAffected, agentPass_eq]
  · rw [hmem, reached_singleton]

theorem ne_empty_of_uuidText (h : uuidText id = true) : id ≠ "" := by
  rintro rfl
  exact absurd h (by decide)

section Canonical

variable {rows : List Checkpoint} {parents : List (String × String)}
  (hcanonical : rows.all canonicalIds = true) (hmap : parentMap rows = some parents)
include hmap

theorem agent_edge_iff {parent child : String} (hparent : parent ≠ "") :
    Edge (agentLinks parents) parent child ↔ Child rows parent child := by
  have hmem : Edge (agentLinks parents) parent child ↔ (child, parent) ∈ rows.map entryOf := by
    rw [← (perm_of_parentMap hmap).1.mem_iff]
    simp only [Edge, agentLinks, List.mem_map, Prod.exists, Prod.swap_prod_mk, Prod.mk.injEq]
    constructor
    · rintro ⟨c, p, hin, rfl, rfl⟩
      exact hin
    · intro hin
      exact ⟨child, parent, hin, rfl, rfl⟩
  rw [hmem, List.mem_map]
  simp only [entryOf, Prod.mk.injEq, Child]
  constructor
  · rintro ⟨row, hrow, hid, hvalue⟩
    refine ⟨row, hrow, hid, ?_⟩
    cases hrowParent : row.parentId with
    | none =>
      rw [hrowParent, Option.getD_none] at hvalue
      exact absurd hvalue.symm hparent
    | some p =>
      rw [hrowParent, Option.getD_some] at hvalue
      rw [hvalue]
  · rintro ⟨row, hrow, hid, hrowParent⟩
    exact ⟨row, hrow, hid, by rw [hrowParent, Option.getD_some]⟩

include hcanonical

theorem agent_reaches_iff (hselected : selected ≠ "") :
    ReflTransGen (Edge (agentLinks parents)) selected id ↔ Subtree rows selected id := by
  -- no id of a row is the empty text, so no path comes to it
  have hchild : ∀ {parent child : String}, Child rows parent child → child ≠ "" := by
    rintro parent child ⟨row, hrow, rfl, _⟩
    have hid := List.all_eq_true.mp hcanonical row hrow
    rw [canonicalIds, Bool.and_eq_true] at hid
    exact ne_empty_of_uuidText hid.1
  constructor
  · intro hpath
    suffices h : Subtree rows selected id ∧ id ≠ "" from h.1
    induction hpath with
    | refl => exact ⟨ReflTransGen.refl, hselected⟩
    | tail _ hlast ih =>
      have hstep := (agent_edge_iff hmap ih.2).mp hlast
      exact ⟨ih.1.tail hstep, hchild hstep⟩
  · intro hpath
    suffices h : ReflTransGen (Edge (agentLinks parents)) selected id ∧ id ≠ "" from h.1
    induction hpath with
    | refl => exact ⟨ReflTransGen.refl, hselected⟩
    | tail _ hlast ih =>
      exact ⟨ih.1.tail ((agent_edge_iff hmap ih.2).mpr hlast), hchild hlast⟩

theorem parentIn_eq : parentIn parents = parentOf rows := by
  obtain ⟨hperm, hnodup, hids⟩ := perm_of_parentMap hmap
  have hpairs : ((rows.map fun row => (row.id, row.parentId)).map (·.1)).Nodup := by
    rw [List.map_map]
    exact hids
  have hend : ∀ row ∈ rows, cursorAt (row.parentId.getD "") = row.parentId := by
    intro row hrow
    have hid := List.all_eq_true.mp hcanonical row hrow
    rw [canonicalIds, Bool.and_eq_true] at hid
    cases hparent : row.parentId with
    | none => rfl
    | some p =>
      rw [hparent] at hid
      rw [Option.getD_some, cursorAt, if_neg (ne_empty_of_uuidText hid.2)]
  funext id
  apply Option.ext
  intro following
  rw [parentIn, parentOf, Option.map_eq_some_iff, lookup_eq_some_iff hpairs]
  simp only [lookup_eq_some_iff hnodup, hperm.mem_iff, List.mem_map, entryOf, Prod.mk.injEq]
  constructor
  · rintro ⟨value, ⟨row, hrow, hid, rfl⟩, hcursor⟩
    exact ⟨row, hrow, hid, by rw [← hend row hrow, hcursor]⟩
  · rintro ⟨row, hrow, hid, hparent⟩
    exact ⟨row.parentId.getD "", ⟨row, hrow, hid, rfl⟩, by rw [hend row hrow, hparent]⟩

end Canonical

theorem serverForest_eq_some (rows : List Checkpoint) :
    ∃ b, serverForest rows = some b ∧
      (b = true ↔ ∀ row ∈ rows, Ends (parentOf rows) (some row.id)) := by
  have hcard : ((rows.map fun row => (row.id, row.parentId)).map (·.1)).toFinset.card <
      rounds rows := by
    have hle := List.toFinset_card_le ((rows.map fun row => (row.id, row.parentId)).map (·.1))
    rw [List.length_map, List.length_map] at hle
    unfold rounds
    omega
  have hkeys : ∀ id, (parentOf rows id).isSome = true →
      id ∈ ((rows.map fun row => (row.id, row.parentId)).map (·.1)).toFinset :=
    fun _ h => List.mem_toFinset.mpr (key_mem_iff.mp h)
  obtain ⟨b, hrun, hb⟩ := forest_eq_some hkeys hcard (rows.map (·.id))
  refine ⟨b, hrun, ?_⟩
  rw [hb, List.forall_mem_map]

theorem agentForest_eq_some (parents : List (String × String)) :
    ∃ b, agentForest parents = some b ∧
      (b = true ↔ ∀ entry ∈ parents, Ends (parentIn parents) (some entry.1)) := by
  have hcard : (parents.map (·.1)).toFinset.card < Ipms.Agent.HyperV.rounds parents := by
    have hle := List.toFinset_card_le (parents.map (·.1))
    rw [List.length_map] at hle
    unfold Ipms.Agent.HyperV.rounds
    omega
  have hkeys : ∀ id, (parentIn parents id).isSome = true → id ∈ (parents.map (·.1)).toFinset := by
    intro id h
    rw [parentIn, Option.isSome_map] at h
    exact List.mem_toFinset.mpr (key_mem_iff.mp h)
  obtain ⟨b, hrun, hb⟩ := forest_eq_some hkeys hcard (parents.map (·.1))
  refine ⟨b, hrun, ?_⟩
  rw [hb, List.forall_mem_map]

theorem forests_agree {parents : List (String × String)} (hcanonical : rows.all canonicalIds = true)
    (hmap : parentMap rows = some parents) : agentForest parents = serverForest rows := by
  obtain ⟨a, hagent, ha⟩ := agentForest_eq_some parents
  obtain ⟨b, hserver, hb⟩ := serverForest_eq_some rows
  rw [hagent, hserver]
  congr 1
  rw [Bool.eq_iff_iff, ha, hb, parentIn_eq hcanonical hmap]
  have hperm := (perm_of_parentMap hmap).1
  constructor
  · intro h row hrow
    exact h (entryOf row) (hperm.mem_iff.mpr (List.mem_map_of_mem hrow))
  · intro h entry hentry
    obtain ⟨row, hrow, heq⟩ := List.mem_map.mp (hperm.mem_iff.mp hentry)
    rw [← heq]
    exact h row hrow

/-! ## The deletion -/

/-- What `validate_snapshot` establishes about the rows. -/
structure RowsValid (rows : List Checkpoint) : Prop where
  length : rows.length ≤ 256
  canonical : rows.all canonicalIds = true
  nodup : (rows.map (·.id)).Nodup
  forest : serverForest rows = some true

theorem rowsValid_of_validateSnapshot {aware : String → Bool} {s : Snapshot}
    (h : validateSnapshot aware s = .ok s) : RowsValid s.checkpoints := by
  unfold validateSnapshot at h
  split at h
  · rename_i hvalid
    rw [Bool.and_eq_true] at hvalid
    have hrows := hvalid.2
    simp only [validCheckpoints, Bool.and_eq_true, decide_eq_true_eq, beq_iff_eq] at hrows
    obtain ⟨⟨⟨⟨hlength, hall⟩, hnodup⟩, _⟩, hforest⟩ := hrows
    refine ⟨hlength, ?_, hnodup, hforest⟩
    rw [List.all_eq_true] at hall ⊢
    intro row hrow
    have hchecks := hall row hrow
    simp only [validCheckpoint, Bool.and_eq_true] at hchecks
    exact hchecks.1.1.1
  · cases h

variable {row : Checkpoint}

theorem RowsValid.find? (h : RowsValid rows) (hrow : row ∈ rows) :
    rows.find? (·.id == row.id) = some row := by
  have hsome : (rows.find? (·.id == row.id)).isSome = true :=
    List.find?_isSome.mpr ⟨row, hrow, beq_self_eq_true row.id⟩
  obtain ⟨found, hfound⟩ := Option.isSome_iff_exists.mp hsome
  have hid : found.id = row.id := by simpa using List.find?_some hfound
  rw [hfound, List.inj_on_of_nodup_map h.nodup (List.mem_of_find?_eq_some hfound) hrow hid]

variable {ids : List String}

/-- What `validate_parameters` establishes about the acknowledged ids. -/
theorem delete_of_validateParameters {parameters : Parameters}
    (h : validateParameters (.delete selected ids) = .ok parameters) :
    ∃ sorted, parameters = .delete selected sorted ∧ sorted.Perm ids ∧ uuidText selected = true ∧
      1 ≤ ids.length ∧ ids.length ≤ 256 ∧ ids.all uuidText = true ∧ ids.Nodup := by
  rw [validateParameters] at h
  split at h
  · rename_i hvalid
    simp only [Bool.and_eq_true, decide_eq_true_eq] at hvalid
    obtain ⟨⟨⟨⟨hselected, hone⟩, hmany⟩, hids⟩, hnodup⟩ := hvalid
    injection h with h
    exact ⟨_, h.symm, List.mergeSort_perm _ _, hselected, hone, hmany, hids, hnodup⟩
  · cases h

theorem toFinset_eq_iff {affected : Finset String} {P : String → Prop}
    (haffected : ∀ id, id ∈ affected ↔ P id) : ids.toFinset = affected ↔ ∀ id, id ∈ ids ↔ P id := by
  simp only [Finset.ext_iff, List.mem_toFinset, haffected]

theorem checkCheckpoint_delete (hrows : RowsValid rows) (hrow : row ∈ rows)
    (hdelete : row.canDelete = true) (vm : VirtualMachine) (ids : List String) :
    ((∀ id, id ∈ ids ↔ Subtree rows row.id id) →
      checkCheckpoint vm rows (.delete row.id ids) = .ok ()) ∧
    (¬ (∀ id, id ∈ ids ↔ Subtree rows row.id id) →
      checkCheckpoint vm rows (.delete row.id ids) =
        .error (deny "management_checkpoint_tree_changed")) := by
  obtain ⟨affected, hrun, hmem⟩ := affectedIds_eq_some rows row.id
  rw [← toFinset_eq_iff hmem, checkCheckpoint, hrows.find? hrow]
  simp only [hdelete, Bool.not_true, Bool.false_eq_true, if_false, hrun, ne_eq, Option.some.injEq]
  constructor
  · intro heq
    rw [if_neg (not_not.mpr heq.symm)]
  · intro hne
    rw [if_pos (fun heq => hne heq.symm)]

theorem selectCheckpoint_eq (hrows : RowsValid rows) (hrow : row ∈ rows) :
    ∃ parents, parentMap rows = some parents ∧ selectCheckpoint rows row.id = .ok (row, parents) := by
  obtain ⟨parents, hmap⟩ := parentMap_eq_some hrows.nodup
  have hid := List.all_eq_true.mp hrows.canonical row hrow
  rw [canonicalIds, Bool.and_eq_true] at hid
  have hguid : canonicalGuid row.id = true := hid.1
  have hforest : agentForest parents = some true := by
    rw [forests_agree hrows.canonical hmap, hrows.forest]
  refine ⟨parents, hmap, ?_⟩
  rw [selectCheckpoint, hguid, hmap, hrows.find? hrow]
  simp only [Bool.not_true, Bool.false_eq_true, if_false, hforest, ne_eq, not_true]

/-- The agent's answer, once its earlier checks have passed and the checkpoint may be deleted. -/
theorem validateManagementCommand_delete {s : Snapshot} (hrows : RowsValid s.checkpoints)
    (hrow : row ∈ s.checkpoints) (hdelete : row.canDelete = true) {command : Command}
    (hparameters : command.parameters = .delete row.id ids) (hone : 1 ≤ ids.length)
    (hmany : ids.length ≤ 256) (hids : ids.all uuidText = true) (hnodup : ids.Nodup)
    (hready : preflight command s = none) : ((∀ id, id ∈ ids ↔ Subtree s.checkpoints row.id id) →
      validateManagementCommand command s = stateVerdict s.state) ∧
    (¬ (∀ id, id ∈ ids ↔ Subtree s.checkpoints row.id id) →
      validateManagementCommand command s = "management_checkpoint_tree_changed") := by
  obtain ⟨parents, hmap, hselect⟩ := selectCheckpoint_eq hrows hrow
  obtain ⟨affected, hrun, hmem⟩ := agentAffected_eq_some parents row.id
  have hselected : row.id ≠ "" := by
    have hid := List.all_eq_true.mp hrows.canonical row hrow
    rw [canonicalIds, Bool.and_eq_true] at hid
    exact ne_empty_of_uuidText hid.1
  have hsubtree : ∀ id, id ∈ affected ↔ Subtree s.checkpoints row.id id := fun id =>
    (hmem id).trans (agent_reaches_iff hrows.canonical hmap hselected)
  have hguids : (ids.all canonicalGuid && decide ids.Nodup) = true := by
    rw [Bool.and_eq_true, decide_eq_true_eq]
    exact ⟨hids, hnodup⟩
  have hsize : (ids.isEmpty || decide (256 < ids.length)) = false := by
    rw [Bool.or_eq_false_iff, decide_eq_false_iff_not]
    refine ⟨?_, by omega⟩
    cases ids with
    | nil => exact absurd hone (by decide)
    | cons _ _ => rfl
  rw [← toFinset_eq_iff hsubtree, validateManagementCommand, hready, hparameters]
  simp only [hselect, deletionVerdict, hdelete, hsize, hguids, hrun, Bool.not_true,
    Bool.false_eq_true, if_false, ne_eq, Option.some.injEq]
  constructor
  · intro heq
    rw [if_neg (not_not.mpr heq)]
  · intro hne
    rw [if_pos hne]

/-- A deletion takes exactly a subtree, and the three loops agree on it.

    For a snapshot the control plane accepts, a well-formed request and a
    checkpoint that may be deleted, the acknowledged ids pass exactly when they
    are the checkpoint and its descendants, in the control plane's admission and
    in the agent's check of the command, once what either asks before has passed;
    and the portal lists exactly those rows, by id.  On any rows, and in the agent
    on any map, the loops and the forest checks end.  On rows with canonical ids
    the two sides accept the same: distinct ids whose lines of parents all end. -/
theorem checkpoint_deletion (aware : String → Bool) :
    (∀ (s : Snapshot) (ids : List String) (parameters : Parameters) (row : Checkpoint),
      validateSnapshot aware s = .ok s → row ∈ s.checkpoints → row.canDelete = true →
      validateParameters (.delete row.id ids) = .ok parameters →
      (∀ (vm : VirtualMachine) (stored : Option StoredSnapshot) (now : Time) (revision : String),
        comparedSnapshot aware vm stored now .checkpointDelete revision = .ok s →
        ((∀ id, id ∈ ids ↔ Subtree s.checkpoints row.id id) →
          checkSnapshot aware vm stored now revision parameters = .ok ()) ∧
        (¬ (∀ id, id ∈ ids ↔ Subtree s.checkpoints row.id id) →
          checkSnapshot aware vm stored now revision parameters =
            .error (deny "management_checkpoint_tree_changed"))) ∧
      (∀ command : Command, command.parameters = parameters → preflight command s = none →
        ((∀ id, id ∈ ids ↔ Subtree s.checkpoints row.id id) →
          validateManagementCommand command s = stateVerdict s.state) ∧
        (¬ (∀ id, id ∈ ids ↔ Subtree s.checkpoints row.id id) →
          validateManagementCommand command s = "management_checkpoint_tree_changed")) ∧
      (∀ item, item ∈ checkpointSubtree s.checkpoints row.id ↔
        item ∈ s.checkpoints ∧ Subtree s.checkpoints row.id item.id) ∧
      (checkpointSubtree s.checkpoints row.id).Pairwise fun a b => ¬ b.id < a.id) ∧
    (∀ (rows : List Checkpoint) (selected : String),
      (affectedIds rows selected).isSome = true ∧ (serverForest rows).isSome = true) ∧
    (∀ (parents : List (String × String)) (selected : String),
      (agentAffected parents selected).isSome = true ∧ (agentForest parents).isSome = true) ∧
    (∀ rows : List Checkpoint, rows.all canonicalIds = true →
      ((rows.map (·.id)).Nodup ∧ serverForest rows = some true ↔
        ∃ parents, parentMap rows = some parents ∧ agentForest parents = some true) ∧
      ((rows.map (·.id)).Nodup ∧ serverForest rows = some true ↔
        (rows.map (·.id)).Nodup ∧ ∀ row ∈ rows, Ends (parentOf rows) (some row.id))) := by
  refine ⟨?_, fun rows selected => ⟨?_, ?_⟩, fun parents selected => ⟨?_, ?_⟩, ?_⟩
  · intro s ids parameters row hvalid hrow hdelete hrequest
    have hrows := rowsValid_of_validateSnapshot hvalid
    obtain ⟨sorted, rfl, hperm, _, hone, hmany, hids, hnodup⟩ := delete_of_validateParameters hrequest
    have hsame : (∀ id, id ∈ sorted ↔ Subtree s.checkpoints row.id id) ↔
        ∀ id, id ∈ ids ↔ Subtree s.checkpoints row.id id := by
      simp only [hperm.mem_iff]
    refine ⟨?_, ?_, mem_checkpointSubtree hrows.length ⟨row, hrow, rfl⟩, checkpointSubtree_sorted _ _⟩
    · intro vm stored now revision hcompared
      rw [← hsame, checkSnapshot]
      · simp only [Parameters.operation, hcompared]
        exact checkCheckpoint_delete hrows hrow hdelete vm sorted
      · exact fun h => Parameters.noConfusion h
    · intro command hparameters hready
      rw [← hsame]
      have hguids : sorted.all uuidText = true := by
        rw [List.all_eq_true] at hids ⊢
        exact fun id hid => hids id (hperm.mem_iff.mp hid)
      exact validateManagementCommand_delete hrows hrow hdelete hparameters
        (by rw [hperm.length_eq]; exact hone) (by rw [hperm.length_eq]; exact hmany) hguids
        (hperm.nodup_iff.mpr hnodup) hready
  · obtain ⟨_, hrun, _⟩ := affectedIds_eq_some rows selected
    rw [hrun]
    rfl
  · obtain ⟨_, hrun, _⟩ := serverForest_eq_some rows
    rw [hrun]
    rfl
  · obtain ⟨_, hrun, _⟩ := agentAffected_eq_some parents selected
    rw [hrun]
    rfl
  · obtain ⟨_, hrun, _⟩ := agentForest_eq_some parents
    rw [hrun]
    rfl
  · intro rows hcanonical
    constructor
    · constructor
      · rintro ⟨hnodup, hforest⟩
        obtain ⟨parents, hmap⟩ := parentMap_eq_some hnodup
        exact ⟨parents, hmap, by rw [forests_agree hcanonical hmap, hforest]⟩
      · rintro ⟨parents, hmap, hforest⟩
        exact ⟨(perm_of_parentMap hmap).2.2, by rw [← forests_agree hcanonical hmap, hforest]⟩
    · obtain ⟨b, hrun, hb⟩ := serverForest_eq_some rows
      rw [hrun, ← hb, Option.some.injEq]

/-! ### Two checkpoints -/

/-- The identifier of a checkpoint. -/
def rootId : String := "11111111-1111-4111-8111-111111111111"

/-- The identifier of the checkpoint below it. -/
def leafId : String := "22222222-2222-4222-8222-222222222222"

/-- A checkpoint that may be deleted. -/
def deletableRow (id : String) (parentId : Option String) : Checkpoint :=
  { id, parentId, name := "c", createdAt := none, type := "standard", isCurrent := false,
    canApply := true, canDelete := true }

/-- A machine with a checkpoint below another, the lower one reported first. -/
def twoCheckpoints : Snapshot :=
  { schemaVersion := 2, vmSourceId := rootId, vmName := "v", state := "running"
    revision := "0000000000000000000000000000000000000000000000000000000000000000"
    settings :=
      { name := none, notes := none, configurationVersion := none, generation := none
        processor := ⟨none, none, none, none, none⟩
        memory := ⟨none, none, none, none, none, none⟩
        automaticStartAction := none, automaticStartDelay := none, automaticStopAction := none
        checkpointPolicy := none }
    checkpoints := [deletableRow leafId (some rootId), deletableRow rootId none]
    networkAdapters := [], storage := [], capabilities := ⟨true, true, true, true, true⟩
    collectionStatus := ⟨"collected", "collected", "unavailable"⟩ }

theorem twoCheckpoints_size :
    (canonicalDocument twoCheckpoints.value).length ≤ maxSnapshotBytes := by
  rw [canonicalDocument, sortKeys_eq_stdMap _ (by decide), canonical_eq_render]
  decide +kernel

theorem twoCheckpoints_valid :
    validateSnapshot (fun _ => true) twoCheckpoints = .ok twoCheckpoints := by
  rw [validateSnapshot, decide_eq_true twoCheckpoints_size]
  exact if_pos (by decide)

theorem checkpoint_deletion_sample :
    checkSnapshot (fun _ => true) ⟨"vm", "tenant", "host", rootId, "v", "running"⟩
      (some ⟨twoCheckpoints.revision, 0, twoCheckpoints⟩) 0 twoCheckpoints.revision
      (.delete rootId [rootId]) = .error (deny "management_checkpoint_tree_changed") ∧
    validateManagementCommand ⟨rootId, "v", twoCheckpoints.revision, .delete rootId [rootId]⟩
      twoCheckpoints = "management_checkpoint_tree_changed" := by
  have hrequest : validateParameters (.delete rootId [rootId]) = .ok (.delete rootId [rootId]) := by
    rw [validateParameters, List.mergeSort_singleton]
    exact if_pos (by decide)
  have hmissing : ¬ ∀ id, id ∈ [rootId] ↔ Subtree twoCheckpoints.checkpoints rootId id := by
    intro h
    have hchild : Child twoCheckpoints.checkpoints rootId leafId :=
      ⟨deletableRow leafId (some rootId), List.mem_cons_self, rfl, rfl⟩
    exact absurd ((h leafId).mpr (ReflTransGen.single hchild)) (by decide)
  obtain ⟨hserver, hagent, _⟩ := (checkpoint_deletion fun _ => true).1 twoCheckpoints [rootId]
    (.delete rootId [rootId]) (deletableRow rootId none) twoCheckpoints_valid
    (List.mem_cons_of_mem _ List.mem_cons_self) rfl hrequest
  constructor
  · refine (hserver _ _ _ _ ?_).2 hmissing
    rw [comparedSnapshot]
    simp only [twoCheckpoints_valid]
    rfl
  · exact (hagent _ rfl (by decide)).2 hmissing
end Ipms.Server.HyperV
