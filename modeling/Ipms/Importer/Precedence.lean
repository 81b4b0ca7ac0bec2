import Mathlib.Data.List.Chain
import Ipms.Importer.Controls

/-
  Ipms.Importer.Precedence

  The controls of a baseline against its records.  The last record of an identity
  wins; the earlier ones are marked one after the other, each when the next one
  comes, so the marks say what the claim about them says only where the next
  record and the last agree on what differs.
-/

namespace Ipms.Importer

open Ipms.Lib Ipms.ManagementJson Server
open Ipms.Server (Unicode)

variable (unicode : Unicode)

/-! ## Marks -/

/-- What the control of a record asserts. -/
def signature (r : SourceRecord) : String × String × Value := (normalizedControl unicode r).signature

/-- The provenance of a record that another value took the place of, or an equal one. -/
def settled (r : SourceRecord) (equivalent : Bool) : Provenance :=
  (provenance r).settle equivalent

/-- The marks `normalize_controls` makes: a record is compared with the next one of its identity. -/
def marks : List SourceRecord → List Provenance
  | [] => []
  | [r] => [provenance r]
  | r :: s :: rest => settled r (decide (signature unicode r = signature unicode s)) :: marks (s :: rest)

/-- The marks by the effective value: a record is compared with the last one of its identity. -/
def marksByLast (records : List SourceRecord) : List Provenance :=
  match records.getLast? with
  | none => []
  | some last =>
    records.dropLast.map (fun r =>
      settled r (decide (signature unicode r = signature unicode last))) ++ [provenance last]

/-- Two records of one component and different files with different values. -/
def Clash (r s : SourceRecord) : Prop :=
  signature unicode r ≠ signature unicode s ∧ r.componentId = s.componentId ∧
    r.sourcePath ≠ s.sourcePath

/-- Every record but the last has the value of the next one exactly when it has that of the last. -/
def Steady (records : List SourceRecord) : Prop :=
  ∀ before r s after last, records = before ++ r :: s :: after → records.getLast? = some last →
    (signature unicode r = signature unicode s ↔ signature unicode r = signature unicode last)

variable {unicode}

theorem settle_settled (r : SourceRecord) (equivalent other : Bool) :
    (settled r equivalent).settle other = settled r equivalent := by
  cases equivalent <;> rfl

theorem settled_inj {r : SourceRecord} {a b : Bool} : settled r a = settled r b ↔ a = b := by
  constructor
  · intro h
    cases a <;> cases b <;> first | rfl | cases congrArg Provenance.resolution h
  · rintro rfl
    rfl

theorem marks_snoc (d : List SourceRecord) (r s : SourceRecord) :
    marks unicode (d ++ [r, s]) = (marks unicode (d ++ [r])).map
      (Provenance.settle (decide (signature unicode r = signature unicode s))) ++ [provenance s] := by
  induction d with
  | nil => rfl
  | cons a d ih =>
    cases d with
    | nil =>
      show [_, _, _] = [_, _, _]
      rw [settle_settled]
      rfl
    | cons b d =>
      show settled a _ :: marks unicode (b :: d ++ [r, s]) =
        (settled a _).settle _ :: ((marks unicode (b :: d ++ [r])).map _ ++ _)
      rw [settle_settled, ih]

theorem getLast?_marks (d : List SourceRecord) (r : SourceRecord) :
    (marks unicode (d ++ [r])).getLast? = some (provenance r) := by
  induction d with
  | nil => rfl
  | cons a d ih =>
    cases d with
    | nil => rfl
    | cons b d =>
      show (settled a _ :: marks unicode (b :: d ++ [r])).getLast? = _
      have hne : marks unicode (b :: d ++ [r]) ≠ [] := by
        intro hnil
        rw [hnil] at ih
        cases ih
      rw [List.getLast?_cons_of_ne_nil hne, ih]

/-! ## The control of an identity -/

variable (unicode) in
/-- A control stands for the records of its identity. -/
structure StandsFor (c : Control) (records : List SourceRecord) (last : SourceRecord) : Prop where
  final : records.getLast? = some last
  asserts : c.signature = signature unicode last
  named : controlIdentity unicode c = recordIdentity unicode last
  accounts : c.sourceRecords = marks unicode records

theorem standsFor_single (r : SourceRecord) :
    StandsFor unicode (normalizedControl unicode r) [r] r := by
  refine ⟨rfl, rfl, rfl, ?_⟩
  show (normalizedControl unicode r).sourceRecords = [provenance r]
  have hkind : (kindControl unicode r).1.sourceRecords = [provenance r] := by
    unfold kindControl registryControl
    cases r.instruction with
    | registry number type hive dataSize =>
      dsimp only
      split
      · rfl
      · split
        · rfl
        · split
          · rfl
          · split
            · rfl
            · split <;> rfl
    | _ => rfl
  unfold normalizedControl
  generalize kindControl unicode r = pair at hkind
  obtain ⟨control, reason⟩ := pair
  dsimp only at hkind ⊢
  split
  · exact hkind
  · split
    · exact hkind
    · exact hkind

variable (unicode) in
/-- The control of one more record behind a control that stands for the ones before it. -/
def merged (c : Control) (records : List SourceRecord) (s : SourceRecord) : Control :=
  { normalizedControl unicode s with
    sourceRecords := marks unicode records
    sourceComponents :=
      (c.sourceComponents ++ (normalizedControl unicode s).sourceComponents).eraseDups }

theorem mergeControl_eq_ok {c c' : Control} {d : List SourceRecord} {r s : SourceRecord}
    (h : StandsFor unicode c (d ++ [r]) r) : mergeControl unicode (some c) s = .ok c' ↔
      ¬ Clash unicode r s ∧ merged unicode c (d ++ [r, s]) s = c' := by
  have hlast : c.sourceRecords.getLast? = some (provenance r) := by
    rw [h.accounts, getLast?_marks]
  have hone : (normalizedControl unicode s).sourceRecords = [provenance s] :=
    (standsFor_single s).accounts
  have hmerged : merged unicode c (d ++ [r, s]) s = { normalizedControl unicode s with
      sourceRecords := c.sourceRecords.map (Provenance.settle
        (decide (c.signature = (normalizedControl unicode s).signature))) ++
          (normalizedControl unicode s).sourceRecords
      sourceComponents :=
        (c.sourceComponents ++ (normalizedControl unicode s).sourceComponents).eraseDups } := by
    rw [merged, marks_snoc, h.accounts, h.asserts, hone]
    rfl
  unfold mergeControl
  rw [bind_eq_ok, hmerged]
  simp only [hlast, h.asserts, throwIf_eq_ok, pure_eq_ok, Option.map_some, exists_const]
  refine and_congr_left' (not_congr ?_)
  unfold Clash
  simp only [provenance, Option.some.injEq, beq_iff_eq, ne_eq]
  exact and_congr_left' decide_eq_false_iff_not

/-- The control of an identity after more records: there is one when no two that follow each other
clash, and it stands for all of them. -/
theorem foldGroup_stands (rest : List SourceRecord) (d : List SourceRecord) (r : SourceRecord)
    (c : Control) (h : StandsFor unicode c (d ++ [r]) r) :
    (List.IsChain (fun r s => ¬ Clash unicode r s) (r :: rest) ↔
      ∃ b, foldGroup (mergeControl unicode) rest (some c) = .ok b) ∧
    ∀ b, foldGroup (mergeControl unicode) rest (some c) = .ok b →
      ∃ c' last, b = some c' ∧ StandsFor unicode c' (d ++ r :: rest) last := by
  induction rest generalizing d r c with
  | nil =>
    refine ⟨⟨fun _ => ⟨some c, rfl⟩, fun _ => List.isChain_singleton r⟩, ?_⟩
    rintro b ⟨⟩
    exact ⟨c, r, rfl, h⟩
  | cons s rest ih =>
    have hstands : StandsFor unicode (merged unicode c (d ++ [r, s]) s) ((d ++ [r]) ++ [s]) s := by
      refine ⟨by simp, rfl, rfl, ?_⟩
      rw [List.append_assoc]
      rfl
    obtain ⟨hchain, hresult⟩ := ih (d ++ [r]) s _ hstands
    rw [List.append_assoc, List.singleton_append] at hresult
    constructor
    · rw [List.isChain_cons_cons, hchain]
      constructor
      · rintro ⟨hclash, b, hb⟩
        exact ⟨b, bind_eq_ok.mpr ⟨_, (mergeControl_eq_ok h).mpr ⟨hclash, rfl⟩, hb⟩⟩
      · rintro ⟨b, hb⟩
        obtain ⟨c', hc', hb⟩ := bind_eq_ok.mp hb
        obtain ⟨hclash, rfl⟩ := (mergeControl_eq_ok h).mp hc'
        exact ⟨hclash, b, hb⟩
    · intro b hb
      obtain ⟨c', hc', hb⟩ := bind_eq_ok.mp hb
      obtain ⟨-, rfl⟩ := (mergeControl_eq_ok h).mp hc'
      exact hresult b hb

/-- The control of an identity: there is one when it has records of which no two that follow each
other clash, and it stands for all of them. -/
theorem foldGroup_group (records : List SourceRecord) :
    (List.IsChain (fun r s => ¬ Clash unicode r s) records ↔
      ∃ b, foldGroup (mergeControl unicode) records none = .ok b) ∧
    ∀ b, foldGroup (mergeControl unicode) records none = .ok b →
      (b = none ∧ records = []) ∨ ∃ c last, b = some c ∧ StandsFor unicode c records last := by
  cases records with
  | nil =>
    refine ⟨⟨fun _ => ⟨none, rfl⟩, fun _ => List.isChain_nil⟩, ?_⟩
    rintro b ⟨⟩
    exact .inl ⟨rfl, rfl⟩
  | cons r rest =>
    obtain ⟨hchain, hresult⟩ := foldGroup_stands rest [] r _ (standsFor_single r)
    have hfirst : foldGroup (mergeControl unicode) (r :: rest) none =
        foldGroup (mergeControl unicode) rest (some (normalizedControl unicode r)) := rfl
    rw [hfirst]
    refine ⟨hchain, fun b hb => .inr ?_⟩
    exact hresult b hb

variable {records : List SourceRecord}

theorem marks_eq_iff {last : SourceRecord} (h : records.getLast? = some last) :
    marks unicode records = marksByLast unicode records ↔
      List.IsChain (fun r s => signature unicode r = signature unicode s ↔
        signature unicode r = signature unicode last) records := by
  have hlast : marksByLast unicode records = records.dropLast.map (fun r =>
      settled r (decide (signature unicode r = signature unicode last))) ++ [provenance last] := by
    unfold marksByLast
    rw [h]
  rw [hlast]
  clear hlast
  induction records with
  | nil => cases h
  | cons r rest ih =>
    cases rest with
    | nil =>
      cases h
      exact ⟨fun _ => List.isChain_singleton r, fun _ => rfl⟩
    | cons s rest =>
      rw [List.getLast?_cons_cons] at h
      have hrest := ih h
      rw [List.isChain_cons_cons]
      show settled r _ :: marks unicode (s :: rest) = settled r _ :: (_ ++ _) ↔ _
      rw [List.cons.injEq, settled_inj, decide_eq_decide]
      exact and_congr_right' hrest

theorem marks_eq_marksByLast_iff :
    marks unicode records = marksByLast unicode records ↔ Steady unicode records := by
  cases hlast : records.getLast? with
  | none =>
    have hnil : records = [] := List.getLast?_eq_none_iff.mp hlast
    subst hnil
    exact ⟨fun _ before r s after last heq => by simp at heq, fun _ => rfl⟩
  | some last =>
    rw [marks_eq_iff hlast, List.isChain_iff_forall_rel_of_append_cons_cons]
    constructor
    · intro h before r s after last' heq hlast'
      rw [hlast] at hlast'
      cases hlast'
      exact h heq
    · intro h r s before after heq
      exact h before r s after last heq hlast

/-! ## All controls -/

variable (unicode) in
/-- The records of an identity, in order. -/
abbrev recordsOf (records : List SourceRecord) (i : Identity) : List SourceRecord :=
  group (recordIdentity unicode) records i

variable (unicode) in
/-- Two records with different identities and one id. -/
def IdsCollide (records : List SourceRecord) (baselineId profile : String) : Prop :=
  ∃ r ∈ records, ∃ s ∈ records, recordIdentity unicode r ≠ recordIdentity unicode s ∧
    controlId baselineId profile (recordIdentity unicode r) =
      controlId baselineId profile (recordIdentity unicode s)

variable (unicode) in
/-- Two records of an identity that follow each other clash. -/
def NeighboursClash (records : List SourceRecord) : Prop :=
  ∃ i, ¬ List.IsChain (fun r s => ¬ Clash unicode r s) (recordsOf unicode records i)

variable (unicode) in
/-- What the controls of some records should be. -/
structure Accounted (records : List SourceRecord) (controls : List Control) : Prop where
  once : (controls.map (controlIdentity unicode)).Nodup
  identities : ∀ i, i ∈ controls.map (controlIdentity unicode) ↔
    ∃ r ∈ records, recordIdentity unicode r = i
  every : (controls.map (·.sourceRecords.length)).sum = records.length
  effective : ∀ c ∈ controls, ∃ last,
    (recordsOf unicode records (controlIdentity unicode c)).getLast? = some last ∧
      c.signature = signature unicode last ∧
      c.sourceRecords = marksByLast unicode (recordsOf unicode records (controlIdentity unicode c))

variable (unicode) in
/-- A control of the result, whose records are marked one after the other. -/
structure Listed (records : List SourceRecord) (c : Control) : Prop where
  stands : ∃ last, StandsFor unicode c (recordsOf unicode records (controlIdentity unicode c)) last

theorem listed_of_entry {i : Identity} {c : Control} {last : SourceRecord}
    (h : StandsFor unicode c (recordsOf unicode records i) last) (id : String) :
    controlIdentity unicode { c with id } = i ∧ Listed unicode records { c with id } := by
  have hlast : last ∈ recordsOf unicode records i := List.mem_of_getLast? h.final
  have hidentity : controlIdentity unicode { c with id } = i :=
    h.named.trans (mem_group.mp hlast).2
  refine ⟨hidentity, last, ?_⟩
  rw [hidentity]
  exact ⟨h.final, h.asserts, h.named, h.accounts⟩

/-- The controls that are made before the result is checked. -/
theorem controls_of_result {result : List (Identity × Control)}
    (h : foldKeyed (recordIdentity unicode) (mergeControl unicode) records [] = .ok result)
    (baselineId profile : String) :
    let controls := (result.mergeSort entryLe).map fun (identity, control) =>
      { control with id := controlId baselineId profile identity }
    (controls.map (controlIdentity unicode)).Nodup ∧
      (∀ i, i ∈ controls.map (controlIdentity unicode) ↔
        ∃ r ∈ records, recordIdentity unicode r = i) ∧
      (∀ c ∈ controls, Listed unicode records c) ∧
      controls.map (·.id) = (controls.map (controlIdentity unicode)).map (controlId baselineId profile) := by
  intro controls
  obtain ⟨hnodup, hkeys⟩ := keys_of_foldKeyed h List.nodup_nil
  have hperm : (result.mergeSort entryLe).Perm result := List.mergeSort_perm result entryLe
  have hentry : ∀ e ∈ result.mergeSort entryLe, ∃ last,
      StandsFor unicode e.2 (recordsOf unicode records e.1) last := by
    rintro ⟨i, c⟩ he
    have hlookup := (lookup_eq_some_iff hnodup).mpr (hperm.mem_iff.mp he)
    have hgroup := foldGroup_of_foldKeyed h i
    rw [hlookup] at hgroup
    rcases (foldGroup_group _).2 _ hgroup with ⟨hnone, -⟩ | ⟨c', last, heq, hstands⟩
    · cases hnone
    · cases heq
      exact ⟨last, hstands⟩
  have hmap : controls.map (controlIdentity unicode) = (result.mergeSort entryLe).map (·.1) := by
    rw [List.map_map]
    refine List.map_congr_left fun e he => ?_
    obtain ⟨last, hstands⟩ := hentry e he
    exact (listed_of_entry hstands _).1
  rw [hmap]
  refine ⟨((hperm.map (·.1)).nodup_iff).mpr hnodup, ?_, ?_, ?_⟩
  · intro i
    rw [(hperm.map (·.1)).mem_iff, hkeys]
    simp
  · intro c hc
    obtain ⟨e, he, rfl⟩ := List.mem_map.mp hc
    obtain ⟨last, hstands⟩ := hentry e he
    exact (listed_of_entry hstands _).2
  · rw [List.map_map, List.map_map]
    rfl

theorem length_marks (records : List SourceRecord) : (marks unicode records).length = records.length := by
  induction records with
  | nil => rfl
  | cons r rest ih =>
    cases rest with
    | nil => rfl
    | cons s rest => exact congrArg Nat.succ ih

variable {controls : List Control}

theorem sum_sourceRecords (hnodup : (controls.map (controlIdentity unicode)).Nodup)
    (hkeys : ∀ i, i ∈ controls.map (controlIdentity unicode) ↔
      ∃ r ∈ records, recordIdentity unicode r = i)
    (hlisted : ∀ c ∈ controls, Listed unicode records c) :
    (controls.map (·.sourceRecords.length)).sum = records.length := by
  have hmap : controls.map (·.sourceRecords.length) =
      (controls.map (controlIdentity unicode)).map fun i => (recordsOf unicode records i).length := by
    rw [List.map_map]
    refine List.map_congr_left fun c hc => ?_
    obtain ⟨last, hstands⟩ := (hlisted c hc).stands
    rw [hstands.accounts, length_marks]
    rfl
  rw [hmap]
  exact sum_length_group hnodup fun r hr => (hkeys _).mpr ⟨r, hr, rfl⟩

variable {baselineId profile : String}

theorem normalizeControls_eq_ok
    (h : normalizeControls unicode records baselineId profile = .ok controls) :
    (∀ i, List.IsChain (fun r s => ¬ Clash unicode r s) (recordsOf unicode records i)) ∧
      (controls.map (controlIdentity unicode)).Nodup ∧
      (∀ i, i ∈ controls.map (controlIdentity unicode) ↔
        ∃ r ∈ records, recordIdentity unicode r = i) ∧
      (∀ c ∈ controls, Listed unicode records c) ∧
      ((controls.map (controlIdentity unicode)).map (controlId baselineId profile)).Nodup := by
  obtain ⟨result, hresult, h⟩ := bind_eq_ok.mp h
  obtain ⟨_, hids, h⟩ := bind_eq_ok.mp h
  obtain ⟨_, -, h⟩ := bind_eq_ok.mp h
  obtain rfl := pure_eq_ok.mp h
  obtain ⟨hnodup, hkeys, hlisted, heq⟩ := controls_of_result hresult baselineId profile
  rw [throwIf_eq_ok, not_not, heq] at hids
  refine ⟨fun i => ?_, hnodup, hkeys, hlisted, hids⟩
  exact (foldGroup_group _).1.mpr (foldKeyed_isOk.mp ⟨result, hresult⟩ i)

/-- When the controls of a baseline are made. -/
theorem normalizeControls_isOk :
    (∃ controls, normalizeControls unicode records baselineId profile = .ok controls) ↔
      ¬ NeighboursClash unicode records ∧ ¬ IdsCollide unicode records baselineId profile := by
  constructor
  · rintro ⟨controls, h⟩
    obtain ⟨hchain, -, hkeys, -, hids⟩ := normalizeControls_eq_ok h
    constructor
    · rintro ⟨i, hi⟩
      exact hi (hchain i)
    · rintro ⟨r, hr, s, hs, hne, hid⟩
      exact hne (List.inj_on_of_nodup_map hids ((hkeys _).mpr ⟨r, hr, rfl⟩)
        ((hkeys _).mpr ⟨s, hs, rfl⟩) hid)
  · rintro ⟨hclash, hids⟩
    have hgroups : ∀ i, ∃ b, foldGroup (mergeControl unicode) (recordsOf unicode records i) none = .ok b := by
      intro i
      refine (foldGroup_group _).1.mp ?_
      by_contra hi
      exact hclash ⟨i, hi⟩
    obtain ⟨result, hresult⟩ := (@foldKeyed_isOk _ _ _ _ _ (recordIdentity unicode)
      (mergeControl unicode) records []).mpr hgroups
    obtain ⟨hnodup, hkeys, hlisted, heq⟩ := controls_of_result hresult baselineId profile
    refine ⟨_, bind_eq_ok.mpr ⟨result, hresult, bind_eq_ok.mpr ⟨(), throwIf_eq_ok.mpr ?_,
      bind_eq_ok.mpr ⟨(), throwIf_eq_ok.mpr ?_, rfl⟩⟩⟩⟩
    · rw [not_not, heq]
      refine hnodup.map_on fun i hi j hj hij => ?_
      obtain ⟨r, hr, rfl⟩ := (hkeys i).mp hi
      obtain ⟨s, hs, rfl⟩ := (hkeys j).mp hj
      by_contra hne
      exact hids ⟨r, hr, s, hs, hne, hij⟩
    · rw [ne_eq, not_not]
      exact sum_sourceRecords hnodup hkeys hlisted

/-! ## Precedence -/

variable (unicode) in
/-- The controls account for the records by the last of each identity, and records of one component
and different files with different values are refused. -/
def Precedence (records : List SourceRecord) (baselineId profile : String) : Prop :=
  (∀ controls, normalizeControls unicode records baselineId profile = .ok controls →
    Accounted unicode records controls) ∧
  ((∃ r ∈ records, ∃ s ∈ records, recordIdentity unicode r = recordIdentity unicode s ∧
      Clash unicode r s) → ∃ e, normalizeControls unicode records baselineId profile = .error e)

variable (unicode) in
/-- In every identity the records are steady, and no two of them clash. -/
def Harmonious (records : List SourceRecord) : Prop :=
  ∀ i, Steady unicode (recordsOf unicode records i) ∧
    ∀ r ∈ recordsOf unicode records i, ∀ s ∈ recordsOf unicode records i, ¬ Clash unicode r s

/-- Controls that were made account for the records exactly when the records of every identity are
steady. -/
theorem accounted_iff (h : normalizeControls unicode records baselineId profile = .ok controls) :
    Accounted unicode records controls ↔ ∀ i, Steady unicode (recordsOf unicode records i) := by
  obtain ⟨-, hnodup, hkeys, hlisted, -⟩ := normalizeControls_eq_ok h
  constructor
  · intro haccounted i
    by_cases hi : i ∈ controls.map (controlIdentity unicode)
    · obtain ⟨c, hc, rfl⟩ := List.mem_map.mp hi
      obtain ⟨_, -, -, hmarks⟩ := haccounted.effective c hc
      obtain ⟨_, hstands⟩ := (hlisted c hc).stands
      exact marks_eq_marksByLast_iff.mp (hstands.accounts.symm.trans hmarks)
    · have hnil : recordsOf unicode records i = [] := by
        rw [List.eq_nil_iff_forall_not_mem]
        intro r hr
        exact hi ((hkeys i).mpr ⟨r, mem_group.mp hr⟩)
      rw [hnil]
      intro before r s after last heq
      simp at heq
  · intro hsteady
    refine ⟨hnodup, hkeys, sum_sourceRecords hnodup hkeys hlisted, fun c hc => ?_⟩
    obtain ⟨last, hstands⟩ := (hlisted c hc).stands
    exact ⟨last, hstands.final, hstands.asserts,
      hstands.accounts.trans (marks_eq_marksByLast_iff.mpr (hsteady _))⟩

theorem precedence_of_isOk
    (h : ∃ controls, normalizeControls unicode records baselineId profile = .ok controls) :
    Precedence unicode records baselineId profile ↔ Harmonious unicode records := by
  obtain ⟨controls, hcontrols⟩ := h
  constructor
  · rintro ⟨haccounted, hclash⟩ i
    refine ⟨(accounted_iff hcontrols).mp (haccounted controls hcontrols) i, ?_⟩
    intro r hr s hs hrs
    obtain ⟨hr, hri⟩ := mem_group.mp hr
    obtain ⟨hs, hsi⟩ := mem_group.mp hs
    obtain ⟨e, he⟩ := hclash ⟨r, hr, s, hs, hri.trans hsi.symm, hrs⟩
    rw [hcontrols] at he
    cases he
  · intro hharmony
    refine ⟨fun controls' hcontrols' => ?_, ?_⟩
    · exact (accounted_iff hcontrols').mpr fun i => (hharmony i).1
    · rintro ⟨r, hr, s, hs, hidentity, hrs⟩
      exact absurd hrs ((hharmony (recordIdentity unicode s)).2 r (mem_group.mpr ⟨hr, hidentity⟩) s
        (mem_group.mpr ⟨hs, rfl⟩))

/-- When the controls of a baseline account for its records by the last of each identity. -/
theorem precedence_iff (unicode : Unicode) (records : List SourceRecord)
    (baselineId profile : String) : Precedence unicode records baselineId profile ↔
      NeighboursClash unicode records ∨ IdsCollide unicode records baselineId profile ∨
        Harmonious unicode records := by
  by_cases hok : ∃ controls, normalizeControls unicode records baselineId profile = .ok controls
  · have hnot := normalizeControls_isOk.mp hok
    rw [precedence_of_isOk hok]
    constructor
    · exact fun h => .inr (.inr h)
    · exact fun h => (h.resolve_left hnot.1).resolve_left hnot.2
  · have herror : ∃ e, normalizeControls unicode records baselineId profile = .error e := by
      cases hresult : normalizeControls unicode records baselineId profile with
      | error e => exact ⟨e, rfl⟩
      | ok controls => exact absurd ⟨controls, hresult⟩ hok
    have hprecedence : Precedence unicode records baselineId profile :=
      ⟨fun controls hcontrols => absurd ⟨controls, hcontrols⟩ hok, fun _ => herror⟩
    rw [normalizeControls_isOk, not_and_or, not_not, not_not] at hok
    exact ⟨fun _ => hok.imp id .inl, fun _ => hprecedence⟩

/-! ### Three records -/

def registryRecord (component file : String) (value : Int) : SourceRecord :=
  { instruction := .registry 4 "REG_DWORD" none (some 4), scope := "machine", path := "k", name := "v"
    expected := .int value, componentId := component, sourcePath := file, sourceRecord := 0
    sourceSha256 := "", sourceFormat := "registry.pol", byteOffset := some 8, line := none
    part := none }

/-- One value in two components, and another in a third. -/
def changedLast : List SourceRecord :=
  [registryRecord "a" "x" 1, registryRecord "b" "x" 1, registryRecord "c" "x" 2]

/-- One value in two files of a component, and another in the second file. -/
def hiddenClash : List SourceRecord :=
  [registryRecord "a" "x" 1, registryRecord "a" "y" 1, registryRecord "a" "y" 2]

instance (unicode : Unicode) (r s : SourceRecord) : Decidable (Clash unicode r s) :=
  inferInstanceAs (Decidable (_ ∧ _ ∧ _))

/-- Records of one identity keep the precedence only in harmony when no two of them that follow each
other clash. -/
theorem harmonious_of_precedence {i : Identity} (hone : ∀ r ∈ records, recordIdentity unicode r = i)
    (hchain : List.IsChain (fun r s => ¬ Clash unicode r s) records)
    (h : Precedence unicode records baselineId profile) :
    Steady unicode records ∧ ∀ r ∈ records, ∀ s ∈ records, ¬ Clash unicode r s := by
  have hall : recordsOf unicode records i = records := by
    refine List.filter_eq_self.mpr fun r hr => ?_
    exact beq_iff_eq.mpr (hone r hr)
  have hnone : ∀ j, j ≠ i → recordsOf unicode records j = [] := by
    intro j hj
    refine List.filter_eq_nil_iff.mpr fun r hr heq => ?_
    exact hj ((beq_iff_eq.mp heq).symm.trans (hone r hr))
  have hneighbours : ¬ NeighboursClash unicode records := by
    rintro ⟨j, hj⟩
    by_cases hji : j = i
    · rw [hji, hall] at hj
      exact hj hchain
    · rw [hnone j hji] at hj
      exact hj List.isChain_nil
  have hids : ¬ IdsCollide unicode records baselineId profile := by
    rintro ⟨r, hr, s, hs, hne, -⟩
    exact hne ((hone r hr).trans (hone s hs).symm)
  have hharmony := (precedence_of_isOk (normalizeControls_isOk.mpr ⟨hneighbours, hids⟩)).mp h i
  rwa [hall] at hharmony

/-- The first of three records is marked for a value that the last does not have, and a clash that the
second of three records hides is not refused. -/
theorem precedence_broken :
    ¬ Precedence Server.asciiUnicode changedLast "b" "server" ∧
      ¬ Precedence Server.asciiUnicode hiddenClash "b" "server" := by
  constructor
  · intro h
    have hone : ∀ r ∈ changedLast,
        recordIdentity asciiUnicode r = ⟨"registry", "machine", "k", "v"⟩ := by
      decide +kernel
    have hchain : List.IsChain (fun r s => ¬ Clash asciiUnicode r s) changedLast := by
      decide +kernel
    have hsteady := (harmonious_of_precedence hone hchain h).1 [] (registryRecord "a" "x" 1)
      (registryRecord "b" "x" 1) [registryRecord "c" "x" 2] (registryRecord "c" "x" 2) rfl rfl
    have hnot : ¬ (signature asciiUnicode (registryRecord "a" "x" 1) =
        signature asciiUnicode (registryRecord "b" "x" 1) ↔
        signature asciiUnicode (registryRecord "a" "x" 1) =
          signature asciiUnicode (registryRecord "c" "x" 2)) := by
      decide +kernel
    exact hnot hsteady
  · intro h
    have hone : ∀ r ∈ hiddenClash,
        recordIdentity asciiUnicode r = ⟨"registry", "machine", "k", "v"⟩ := by
      decide +kernel
    have hchain : List.IsChain (fun r s => ¬ Clash asciiUnicode r s) hiddenClash := by
      decide +kernel
    have hclash : Clash asciiUnicode (registryRecord "a" "x" 1) (registryRecord "a" "y" 2) := by
      decide +kernel
    refine (harmonious_of_precedence hone hchain h).2 _ ?_ _ ?_ hclash
    · exact List.mem_cons_self
    · exact List.mem_cons_of_mem _ (List.mem_cons_of_mem _ List.mem_cons_self)

end Ipms.Importer
