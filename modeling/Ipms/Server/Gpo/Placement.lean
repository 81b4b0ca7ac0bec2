import Ipms.Lib.Insertion
import Ipms.Server.Gpo.Capacity
import Ipms.Server.Gpo.Changes

/-
  Ipms.Server.Gpo.Placement

  Where `_orders` puts a link.  Without the preserving mode the place is the
  lowest one below every managed link of a higher priority and above every
  other managed link and every default one; with it an override moves up to the
  topmost managed baseline or default link, and not past another override.
-/

namespace Ipms.Server.Gpo

open Ipms.Lib Ipms.ManagementJson
open Ipms.Agent.Gpo (ManagedJob Operation Snapshot Ou Link LinkKind)

/-! ## The classes of existing links -/

section
variable (config : DomainSecuritySettings) (managed : List ManagedGpoPolicy)
  (selected : Bool × Int)

/-- A managed link of a higher priority than a new one.  A default policy is never managed. -/
def outranks (l : Link) : Bool :=
  !defaultGpoIds.contains l.guid &&
    (managedLink managed l).any fun p => priorityBelow selected (linkPriority config p)

/-- A default link, or a managed link of no higher priority than a new one. -/
def yieldsTo (l : Link) : Bool :=
  defaultGpoIds.contains l.guid ||
    (managedLink managed l).any fun p => !priorityBelow selected (linkPriority config p)

/-- The place of a new link is admissible among the others of its container. -/
def AdmitsLink (others : List Link) (i : Nat) : Prop :=
  Admits (outranks config managed selected) (yieldsTo config managed selected) others i

end

section
variable {config : DomainSecuritySettings} {managed : List ManagedGpoPolicy}
  {selected : Bool × Int}

theorem not_outranks_of_yieldsTo (l : Link) (h : yieldsTo config managed selected l = true) :
    outranks config managed selected l = false := by
  unfold yieldsTo at h
  unfold outranks
  cases hdefault : defaultGpoIds.contains l.guid with
  | true => rfl
  | false =>
    rw [hdefault] at h
    cases hmanaged : managedLink managed l with
    | none => rfl
    | some p =>
      rw [hmanaged] at h
      simpa using h

/-- The bounds of the code are those of the two classes. -/
theorem narrow_eq (bounds : Nat × Nat) (entry : Link × Nat) :
    narrow config managed selected bounds entry =
      narrowBy (outranks config managed selected) (yieldsTo config managed selected) bounds entry := by
  obtain ⟨l, i⟩ := entry
  unfold narrow
  simp only
  by_cases hdefault : defaultGpoIds.contains l.guid = true
  · have hyields : yieldsTo config managed selected l = true := by
      unfold yieldsTo
      rw [hdefault, Bool.true_or]
    rw [if_pos hdefault, narrowBy_below hyields]
  · rw [if_neg hdefault]
    have hfree := eq_false_of_ne_true hdefault
    cases hmanaged : managedLink managed l with
    | none =>
      have hyields : yieldsTo config managed selected l = false := by
        unfold yieldsTo
        rw [hfree, hmanaged, Option.any_none, Bool.or_false]
      have houtranks : outranks config managed selected l = false := by
        unfold outranks
        rw [hmanaged, Option.any_none, Bool.and_false]
      rw [narrowBy_free hyields houtranks]
    | some p =>
      have hyields : yieldsTo config managed selected l =
          !priorityBelow selected (linkPriority config p) := by
        unfold yieldsTo
        rw [hfree, hmanaged, Option.any_some, Bool.false_or]
      have houtranks : outranks config managed selected l =
          priorityBelow selected (linkPriority config p) := by
        unfold outranks
        rw [hfree, hmanaged, Option.any_some, Bool.not_false, Bool.true_and]
      by_cases hp : priorityBelow selected (linkPriority config p) = true
      · rw [narrowBy_above (by rw [hyields, hp]; rfl) (houtranks.trans hp)]
        exact if_pos hp
      · have hle := eq_false_of_ne_true hp
        rw [narrowBy_below (by rw [hyields, hle]; rfl)]
        exact if_neg hp

theorem insertionIndex_eq_ok {others : List Link} {i : Nat} :
    insertionIndex config managed selected others = .ok i ↔
      IsGreatest {j | AdmitsLink config managed selected others j} i := by
  have hnarrow : narrow config managed selected =
      narrowBy (outranks config managed selected) (yieldsTo config managed selected) :=
    funext fun bounds => funext fun entry => narrow_eq bounds entry
  unfold insertionIndex
  simp only [hnarrow, bind_eq_ok, throwIf_eq_ok, exists_const, not_lt, gt_iff_lt, pure_eq_ok]
  constructor
  · rintro ⟨hbounds, rfl⟩
    exact isGreatest_admits not_outranks_of_yieldsTo hbounds
  · intro h
    have hbounds := (exists_admits_iff not_outranks_of_yieldsTo).mp ⟨i, h.1⟩
    exact ⟨hbounds, (isGreatest_admits not_outranks_of_yieldsTo hbounds).unique h⟩

theorem insertionIndex_isOk {others : List Link} :
    (∃ i, insertionIndex config managed selected others = .ok i) ↔
      ∃ i, AdmitsLink config managed selected others i := by
  constructor
  · rintro ⟨i, hi⟩
    exact ⟨i, (insertionIndex_eq_ok.mp hi).1⟩
  · rintro ⟨i, hi⟩
    have hbounds := (exists_admits_iff not_outranks_of_yieldsTo).mp ⟨i, hi⟩
    exact ⟨_, insertionIndex_eq_ok.mpr (isGreatest_admits not_outranks_of_yieldsTo hbounds)⟩

end

/-! ## Orders without the preserving mode -/

/-- The order of a new link is its lowest admissible place, within the bounds of an order, and the
other links stay in their order around it. -/
structure PlacedLowest (config : DomainSecuritySettings) (managed : List ManagedGpoPolicy)
    (selected : Bool × Int) (guid : String) (o : Ou) (order : Int) : Prop where
  lowest : ∃ i : Nat, order = i + 1 ∧
    IsGreatest {j | AdmitsLink config managed selected (unrelated guid o.links) j} i ∧
      ∀ l, (insertAt (unrelated guid o.links) i l)[i]? = some l ∧
        (insertAt (unrelated guid o.links) i l).eraseIdx i = unrelated guid o.links
  bounds : 1 ≤ order ∧ order ≤ 128

section
variable {content : Content} {a : ManagedJob} {s : Snapshot} {allow : Bool} {db : Db}
  {config : DomainSecuritySettings} {managed : List ManagedGpoPolicy} {policy : ManagedGpoPolicy}
  {selected : Bool × Int} {preserve : Bool} {o : Ou}

theorem containerOrder_insertion (hmode : (preserve && policy.override.isSome) = false)
    (hroom : (unrelated policy.gpoGuid o.links).length < 128) {order : Int} :
    containerOrder config managed policy selected preserve o = .ok order ↔
      ∃ i : Nat, insertionIndex config managed selected (unrelated policy.gpoGuid o.links) = .ok i ∧
        order = i + 1 := by
  unfold containerOrder
  simp only [bind_eq_ok, throwIf_eq_ok, exists_const, hmode, Bool.false_eq_true, if_false,
    pure_eq_ok, ge_iff_le, not_le]
  constructor
  · rintro ⟨-, i, hi, rfl⟩
    exact ⟨i, hi, rfl⟩
  · rintro ⟨i, hi, rfl⟩
    exact ⟨hroom, i, hi, rfl⟩

theorem length_unrelated (guid : String) (ls : List Link) : (unrelated guid ls).length ≤ ls.length :=
  List.length_filter_le _ _

theorem containerOrder_placed (hmode : (preserve && policy.override.isSome) = false)
    (hroom : o.links.length < 128) {order : Int}
    (h : containerOrder config managed policy selected preserve o = .ok order) :
    PlacedLowest config managed selected policy.gpoGuid o order := by
  have hothers := length_unrelated policy.gpoGuid o.links
  obtain ⟨i, hi, rfl⟩ := (containerOrder_insertion hmode (by omega)).mp h
  have hgreatest := insertionIndex_eq_ok.mp hi
  have hbound := hgreatest.1.bound
  refine ⟨⟨i, rfl, hgreatest, fun l => ?_⟩, by omega, by omega⟩
  exact ⟨getElem?_insertAt hbound l, eraseIdx_insertAt hbound l⟩

theorem orders_eq (hranked : policy.baselineId ∈ config.baselineOrder) :
    db.orders config policy s preserve = s.ous.mapM (containerOrder config (db.managedGpos policy)
      policy (linkPriority config policy) preserve) := by
  obtain ⟨rank, hrank⟩ : ∃ rank, baselineRank config policy.baselineId = some rank := by
    rw [← Option.ne_none_iff_exists']
    exact fun hnone => List.idxOf?_eq_none_iff.mp hnone hranked
  unfold Db.orders linkPriority
  rw [hrank]
  rfl

variable (db config policy preserve) in
/-- Without the preserving mode, the orders of a valid state exist exactly where every target
admits the link, and each is the lowest admissible one. -/
theorem orders_lowest {value : Value} (hstate : validateSnapshot content a value allow = .ok s)
    (hranked : policy.baselineId ∈ config.baselineOrder)
    (hmode : (preserve && policy.override.isSome) = false) :
    ((∃ orders, db.orders config policy s preserve = .ok orders) ↔
      ∀ o ∈ s.ous, ∃ i, AdmitsLink config (db.managedGpos policy) (linkPriority config policy)
        (unrelated policy.gpoGuid o.links) i) ∧
    ∀ orders, db.orders config policy s preserve = .ok orders →
      List.Forall₂ (PlacedLowest config (db.managedGpos policy) (linkPriority config policy)
        policy.gpoGuid) s.ous orders := by
  obtain ⟨-, hvalid⟩ := validateSnapshot_eq_ok.mp hstate
  have hroom : ∀ o ∈ s.ous, (unrelated policy.gpoGuid o.links).length < 128 := fun o ho =>
    Nat.lt_of_le_of_lt (length_unrelated policy.gpoGuid o.links) (hvalid.length_links ho)
  rw [orders_eq hranked]
  constructor
  · rw [mapM_isOk]
    refine forall₂_congr fun o ho => ?_
    rw [← insertionIndex_isOk]
    constructor
    · rintro ⟨order, h⟩
      obtain ⟨i, hi, -⟩ := (containerOrder_insertion hmode (hroom o ho)).mp h
      exact ⟨i, hi⟩
    · rintro ⟨i, hi⟩
      exact ⟨_, (containerOrder_insertion hmode (hroom o ho)).mpr ⟨i, hi, rfl⟩⟩
  · intro orders h
    have hmembers := (List.forall₂_and_left (p := fun o => o ∈ s.ous) _ _).mpr
      ⟨fun _ ho => ho, mapM_eq_ok.mp h⟩
    exact hmembers.imp fun o order ⟨ho, horder⟩ =>
      containerOrder_placed hmode (hvalid.length_links ho) horder

end

/-! ## Orders of an activated override -/

def overrideLink (managed : List ManagedGpoPolicy) (l : Link) : Bool :=
  (managedLink managed l).any fun p => p.override.isSome

/-- The order of an activated override: above every managed baseline and default link, not below
where it stood, on the same side of every other override, the other links as they were. -/
structure KeepsOverrides (managed : List ManagedGpoPolicy) (guid : String) (o : Ou) (order : Int) :
    Prop where
  place : ∃ index current : Nat, order = index + 1 ∧
    (o.links.findIdx? fun l => l.guid == guid) = some current ∧ index ≤ current ∧
    (∀ j (hj : j < (unrelated guid o.links).length),
      belowOverrides managed (unrelated guid o.links)[j] = true → index ≤ j) ∧
    (∀ j (hj : j < (unrelated guid o.links).length),
      overrideLink managed (unrelated guid o.links)[j] = true → (j < current ↔ j < index)) ∧
    ∀ l, (insertAt (unrelated guid o.links) index l)[index]? = some l ∧
      (insertAt (unrelated guid o.links) index l).eraseIdx index = unrelated guid o.links

/-- The topmost managed baseline or default link among the others of a container. -/
def topmostFixed (managed : List ManagedGpoPolicy) (guid : String) (o : Ou) : Nat :=
  (unrelated guid o.links).findIdx (belowOverrides managed)

/-- Every override linked above the own link has a link above the topmost managed baseline or
default link. -/
def OverridesOnTop (managed : List ManagedGpoPolicy) (guid : String) (o : Ou) : Prop :=
  ∀ current, (o.links.findIdx? fun l => l.guid == guid) = some current →
    ∀ l ∈ o.links.take current, overrideLink managed l = true →
      ∃ j, ∃ hj : j < (unrelated guid o.links).length, j < topmostFixed managed guid o ∧
        (unrelated guid o.links)[j].guid = l.guid

/-- No override is linked between the topmost managed baseline or default link and the own link. -/
def NoOverrideBetween (managed : List ManagedGpoPolicy) (guid : String) (o : Ou) : Prop :=
  ∀ current, (o.links.findIdx? fun l => l.guid == guid) = some current →
    ∀ j (hj : j < (unrelated guid o.links).length), j < current →
      overrideLink managed (unrelated guid o.links)[j] = true → j < topmostFixed managed guid o

section
variable {managed : List ManagedGpoPolicy} {guid : String} {o : Ou}

theorem unrelated_take {ls : List Link} {current : Nat}
    (h : (ls.findIdx? fun l => l.guid == guid) = some current) :
    (unrelated guid ls).take current = ls.take current ∧ current ≤ (unrelated guid ls).length := by
  obtain ⟨hlt, -, hbefore⟩ := List.findIdx?_eq_some_iff_getElem.mp h
  have hkept : (ls.take current).filter (fun l => l.guid != guid) = ls.take current := by
    rw [List.filter_eq_self]
    intro l hl
    obtain ⟨j, hj, rfl⟩ := List.mem_take_iff_getElem.mp hl
    have hother := hbefore j (by omega)
    simpa [bne] using hother
  have hsplit : unrelated guid ls =
      ls.take current ++ (ls.drop current).filter fun l => l.guid != guid := by
    conv_lhs => rw [← List.take_append_drop current ls]
    unfold unrelated
    rw [List.filter_append, hkept]
  have hlength : (ls.take current).length = current := by
    rw [List.length_take, Nat.min_eq_left (Nat.le_of_lt hlt)]
  constructor
  · rw [hsplit, List.take_append_of_le_length (by omega), List.take_of_length_le (by omega)]
  · rw [hsplit, List.length_append]
    omega

/-- An override moves to the topmost managed baseline or default link, if every other override
above it has a link above that one. -/
theorem preservingIndex_eq_ok {current index : Nat}
    (hcurrent : (o.links.findIdx? fun l => l.guid == guid) = some current) :
    preservingIndex managed guid o.links (unrelated guid o.links) = .ok index ↔
      index = min (topmostFixed managed guid o) current ∧ OverridesOnTop managed guid o := by
  obtain ⟨htake, hlength⟩ := unrelated_take hcurrent
  have htop : topmostFixed managed guid o ≤ (unrelated guid o.links).length :=
    List.findIdx_le_length
  -- a link above the own one is found among the others above the own one's place
  have hfound : ∀ l ∈ o.links.take current,
      (unrelated guid o.links).findIdx (fun m => m.guid == l.guid) < current := by
    intro l hl
    rw [← htake] at hl
    obtain ⟨j, hj, rfl⟩ := List.mem_take_iff_getElem.mp hl
    exact (findIdx_lt_iff hlength).mpr ⟨j, by omega, by omega, beq_self_eq_true _⟩
  have hontop : (∀ l ∈ o.links.take current, overrideLink managed l = true →
      (unrelated guid o.links).findIdx (fun m => m.guid == l.guid) <
        min (topmostFixed managed guid o) current) ↔ OverridesOnTop managed guid o := by
    constructor
    · intro h current' hcurrent' l hl hoverride
      rw [hcurrent] at hcurrent'
      cases hcurrent'
      have hlt := Nat.lt_of_lt_of_le (h l hl hoverride) (Nat.min_le_left _ _)
      obtain ⟨j, hj, hjtop, hguid⟩ := (findIdx_lt_iff htop).mp hlt
      exact ⟨j, hj, hjtop, beq_iff_eq.mp hguid⟩
    · intro h l hl hoverride
      obtain ⟨j, hj, hjtop, hguid⟩ := h current hcurrent l hl hoverride
      refine Nat.lt_min.mpr ⟨?_, hfound l hl⟩
      exact (findIdx_lt_iff htop).mpr ⟨j, hj, hjtop, beq_iff_eq.mpr hguid⟩
  rw [← hontop]
  unfold preservingIndex
  rw [hcurrent]
  simp only [bind_eq_ok, throwIf_eq_ok, exists_const, pure_eq_ok, List.any_eq_true,
    List.mem_filter, decide_eq_true_eq, not_exists, not_and, not_le, and_imp]
  constructor
  · rintro ⟨hbefore, rfl⟩
    exact ⟨rfl, hbefore⟩
  · rintro ⟨rfl, hbefore⟩
    exact ⟨hbefore, rfl⟩

/-- At the place of an activation, the other overrides keep their side unless one stands between. -/
theorem keepsOverrides_iff {current : Nat}
    (hcurrent : (o.links.findIdx? fun l => l.guid == guid) = some current) {order : Int}
    (horder : order = (min (topmostFixed managed guid o) current : Nat) + 1) :
    KeepsOverrides managed guid o order ↔ NoOverrideBetween managed guid o := by
  obtain ⟨-, hlength⟩ := unrelated_take hcurrent
  constructor
  · rintro ⟨index, current', hplace, hcurrent', -, -, hsides, -⟩ current'' hcurrent'' j hj hjc hoverride
    rw [hcurrent] at hcurrent' hcurrent''
    cases hcurrent'
    cases hcurrent''
    have hindex := (hsides j hj hoverride).mp hjc
    omega
  · intro h
    refine ⟨min (topmostFixed managed guid o) current, current, horder, hcurrent,
      Nat.min_le_right _ _, fun j hj hfixed => ?_, fun j hj hoverride => ?_, fun l => ?_⟩
    · by_contra hlt
      have hfalse := List.not_of_lt_findIdx (p := belowOverrides managed)
        (Nat.lt_of_lt_of_le (Nat.not_le.mp hlt) (Nat.min_le_left (topmostFixed managed guid o) current))
      rw [hfixed] at hfalse
      cases hfalse
    · have hbetween := h current hcurrent j hj
      constructor
      · intro hjc
        exact Nat.lt_min.mpr ⟨hbetween hjc hoverride, hjc⟩
      · intro hlt
        exact Nat.lt_of_lt_of_le hlt (Nat.min_le_right _ _)
    · have hbound : min (topmostFixed managed guid o) current ≤ (unrelated guid o.links).length :=
        (Nat.min_le_right _ _).trans hlength
      exact ⟨getElem?_insertAt hbound l, eraseIdx_insertAt hbound l⟩

variable {content : Content} {a : ManagedJob} {s : Snapshot} {allow : Bool} {db : Db}
  {config : DomainSecuritySettings} {policy : ManagedGpoPolicy} {selected : Bool × Int}

/-- The order of an activated override in one container. -/
theorem containerOrder_preserving (hoverride : policy.override.isSome = true)
    (hroom : o.links.length < 128) {order : Int} :
    containerOrder config managed policy selected true o = .ok order ↔
      ∃ current, (o.links.findIdx? fun l => l.guid == policy.gpoGuid) = some current ∧
        order = (min (topmostFixed managed policy.gpoGuid o) current : Nat) + 1 ∧
          OverridesOnTop managed policy.gpoGuid o := by
  have hothers := length_unrelated policy.gpoGuid o.links
  have hplace : containerOrder config managed policy selected true o = .ok order ↔
      ∃ index, preservingIndex managed policy.gpoGuid o.links (unrelated policy.gpoGuid o.links) =
        .ok index ∧ order = index + 1 := by
    unfold containerOrder
    simp only [bind_eq_ok, throwIf_eq_ok, exists_const, hoverride, Bool.and_self, if_true,
      pure_eq_ok, ge_iff_le, not_le]
    constructor
    · rintro ⟨-, index, hindex, rfl⟩
      exact ⟨index, hindex, rfl⟩
    · rintro ⟨index, hindex, rfl⟩
      exact ⟨Nat.lt_of_le_of_lt hothers hroom, index, hindex, rfl⟩
  rw [hplace]
  constructor
  · rintro ⟨index, hindex, rfl⟩
    cases hcurrent : o.links.findIdx? fun l => l.guid == policy.gpoGuid with
    | none =>
      unfold preservingIndex at hindex
      rw [hcurrent] at hindex
      cases hindex
    | some current =>
      obtain ⟨rfl, hontop⟩ := (preservingIndex_eq_ok hcurrent).mp hindex
      exact ⟨current, rfl, rfl, hontop⟩
  · rintro ⟨current, hcurrent, rfl, hontop⟩
    exact ⟨_, (preservingIndex_eq_ok hcurrent).mpr ⟨rfl, hontop⟩, rfl⟩

variable (db config policy) in
/-- In a valid state with the own link in every target, an activation keeps its promises to the
other links exactly if it is refused, or no override is linked between the topmost managed baseline
or default link of a target and the own link. -/
theorem orders_keep_overrides_iff {value : Value}
    (hstate : validateSnapshot content a value allow = .ok s)
    (hranked : policy.baselineId ∈ config.baselineOrder)
    (hoverride : policy.override.isSome = true)
    (hown : ∀ o ∈ s.ous, ∃ l ∈ o.links, l.guid = policy.gpoGuid) :
    (∀ orders, db.orders config policy s true = .ok orders →
      List.Forall₂ (KeepsOverrides (db.managedGpos policy) policy.gpoGuid) s.ous orders) ↔
    ((∀ o ∈ s.ous, OverridesOnTop (db.managedGpos policy) policy.gpoGuid o) →
      ∀ o ∈ s.ous, NoOverrideBetween (db.managedGpos policy) policy.gpoGuid o) := by
  obtain ⟨-, hvalid⟩ := validateSnapshot_eq_ok.mp hstate
  have hplaces : ∀ orders, db.orders config policy s true = .ok orders ↔
      List.Forall₂ (fun o order => o ∈ s.ous ∧ ∃ current,
        (o.links.findIdx? fun l => l.guid == policy.gpoGuid) = some current ∧
        order = ((min (topmostFixed (db.managedGpos policy) policy.gpoGuid o) current : Nat) : Int) + 1 ∧
          OverridesOnTop (db.managedGpos policy) policy.gpoGuid o) s.ous orders := by
    intro orders
    rw [orders_eq hranked, mapM_eq_ok]
    constructor
    · intro h
      have hmembers := (List.forall₂_and_left (p := fun o => o ∈ s.ous) _ _).mpr ⟨fun _ ho => ho, h⟩
      exact hmembers.imp fun o order ⟨ho, horder⟩ =>
        ⟨ho, (containerOrder_preserving hoverride (hvalid.length_links ho)).mp horder⟩
    · exact fun h => h.imp fun o order ⟨ho, horder⟩ =>
        (containerOrder_preserving hoverride (hvalid.length_links ho)).mpr horder
  constructor
  · intro hkeeps hontop
    have hsome : ∃ orders, db.orders config policy s true = .ok orders := by
      rw [orders_eq hranked, mapM_isOk]
      intro o ho
      obtain ⟨l, hl, hguid⟩ := hown o ho
      have hfound : (o.links.findIdx? fun l => l.guid == policy.gpoGuid).isSome = true := by
        rw [List.findIdx?_isSome, List.any_eq_true]
        exact ⟨l, hl, beq_iff_eq.mpr hguid⟩
      obtain ⟨current, hcurrent⟩ := Option.isSome_iff_exists.mp hfound
      exact ⟨_, (containerOrder_preserving hoverride (hvalid.length_links ho)).mpr
        ⟨current, hcurrent, rfl, hontop o ho⟩⟩
    obtain ⟨orders, horders⟩ := hsome
    have hboth := ((hplaces orders).mp horders).mp
      (fun o order ⟨_, current, hcurrent, horder, _⟩ (hkept : KeepsOverrides _ _ o order) =>
        (⟨(keepsOverrides_iff hcurrent horder).mp hkept, trivial⟩ :
          NoOverrideBetween (db.managedGpos policy) policy.gpoGuid o ∧ True)) (hkeeps orders horders)
    exact ((List.forall₂_and_left _ _).mp hboth).1
  · intro hbetween orders horders
    have hmembers := (hplaces orders).mp horders
    have hontop : ∀ o ∈ s.ous, OverridesOnTop (db.managedGpos policy) policy.gpoGuid o :=
      ((List.forall₂_and_left _ _).mp (hmembers.imp fun o order ⟨_, _, _, _, htop⟩ =>
        (⟨htop, trivial⟩ : OverridesOnTop (db.managedGpos policy) policy.gpoGuid o ∧ True))).1
    exact hmembers.imp fun o order ⟨ho, current, hcurrent, horder, _⟩ =>
      (keepsOverrides_iff hcurrent horder).mpr (hbetween hontop o ho)

end

/-! ### A container with links of every class -/

/-- Settings that rank three baselines. -/
def sampleConfig : DomainSecuritySettings where
  id := sampleDraft.scopeId
  tenant := "t"
  domainName := "corp.example"
  revision := 1
  tierOus := ⟨[], ["OU=Servers,DC=corp,DC=example"], []⟩
  gpoNameTemplate := "IPMS"
  baselineOrder := ["first", "microsoft-windows-server-2025", "last"]

/-- A managed policy of the domain. -/
def sampleManaged (id baselineId guid : String) (override : Option String) : ManagedGpoPolicy where
  id := id
  tenant := "t"
  domain := sampleDraft.scopeId
  domainGuid := sampleDraft.domainGuid
  override := override
  logicalKey := id
  tier := 1
  targetOus := sampleDraft.targetOus
  baselineId := baselineId
  profile := sampleDraft.profile
  purpose := "C-MS-WS2025-Member"
  target := "Servers"
  gpoGuid := guid
  displayName := id
  nameKey := id
  version := "1"
  backupId := sampleDraft.backupId
  state := .linked

/-- An override, a later baseline and an earlier one, and a policy that is not linked yet. -/
def placementDb : Db :=
  { Db.empty with
    policies := ⟨[sampleManaged "new" "microsoft-windows-server-2025" "" none,
      sampleManaged "override" "first" "00000000-0000-4000-8000-0000000000f1" (some "o"),
      sampleManaged "later" "last" "00000000-0000-4000-8000-0000000000f2" none,
      sampleManaged "earlier" "first" "00000000-0000-4000-8000-0000000000f3" none], by decide⟩ }

/-- The unit with a link to each, one to a foreign policy and one to a default policy. -/
def placementState : Snapshot :=
  { sampleSnapshot with
    ous := [sampleUnit [sampleLink "00000000-0000-4000-8000-0000000000f1" 1,
      sampleLink "00000000-0000-4000-8000-0000000000f2" 2,
      sampleLink "00000000-0000-4000-8000-0000000000f4" 3,
      sampleLink "00000000-0000-4000-8000-0000000000f3" 4,
      sampleLink "31b2f340-016d-11d2-945f-00c04fb984f9" 5]] }

set_option maxRecDepth 20000 in
theorem placementState_valid : validateSnapshot sampleContent sampleDraft placementState.toJson =
    .ok placementState := by
  decide +kernel

/-- The new link goes below the override, the later baseline and the foreign link. -/
theorem orders_lowest_sample :
    List.Forall₂ (PlacedLowest sampleConfig
      (placementDb.managedGpos (sampleManaged "new" "microsoft-windows-server-2025" "" none))
      (linkPriority sampleConfig (sampleManaged "new" "microsoft-windows-server-2025" "" none)) "")
      placementState.ous [4] :=
  (orders_lowest placementDb sampleConfig (sampleManaged "new" "microsoft-windows-server-2025" "" none)
    false placementState_valid (by decide) rfl).2 [4] (by decide)

/-! ### Activated overrides -/

/-- The override to activate. -/
def sampleOverride : ManagedGpoPolicy :=
  sampleManaged "own" "microsoft-windows-server-2025" "00000000-0000-4000-8000-0000000000f9" (some "p")

/-- The override to activate, another one and a baseline. -/
def activationDb : Db :=
  { Db.empty with
    policies := ⟨[sampleOverride,
      sampleManaged "override" "first" "00000000-0000-4000-8000-0000000000f1" (some "o"),
      sampleManaged "later" "last" "00000000-0000-4000-8000-0000000000f2" none], by decide⟩ }

/-- The override to activate stands below a baseline. -/
def activationState : Snapshot :=
  { sampleSnapshot with
    ous := [sampleUnit [sampleLink "00000000-0000-4000-8000-0000000000f2" 1,
      sampleLink "00000000-0000-4000-8000-0000000000f9" 2]] }

/-- Another override is linked twice, under two spellings of the unit, around a baseline. -/
def splitState : Snapshot :=
  { sampleSnapshot with
    ous := [sampleUnit [sampleLink "00000000-0000-4000-8000-0000000000f1" 1,
      sampleLink "00000000-0000-4000-8000-0000000000f2" 2,
      sampleLink "00000000-0000-4000-8000-0000000000f1" 3 "OU=Servers, DC=corp,DC=example",
      sampleLink "00000000-0000-4000-8000-0000000000f9" 4]] }

set_option maxRecDepth 20000 in
theorem activationStates_valid :
    validateSnapshot sampleContent sampleDraft activationState.toJson = .ok activationState ∧
      validateSnapshot sampleContent sampleDraft splitState.toJson = .ok splitState := by
  constructor <;> decide +kernel

/-- The override to activate moves above the baseline. -/
theorem orders_keep_overrides_sample :
    activationDb.orders sampleConfig sampleOverride activationState true = .ok [1] ∧
      List.Forall₂ (KeepsOverrides (activationDb.managedGpos sampleOverride) sampleOverride.gpoGuid)
        activationState.ous [1] := by
  have horders : activationDb.orders sampleConfig sampleOverride activationState true = .ok [1] := by
    decide
  refine ⟨horders, (orders_keep_overrides_iff activationDb sampleConfig sampleOverride
    activationStates_valid.1 (by decide) rfl (by decide)).mpr (fun _ o ho => ?_) _ horders⟩
  rw [List.mem_singleton.mp ho]
  intro current hcurrent j hj hjc hoverride
  -- the only other link is the baseline, which is no override
  have hfirst : j = 0 := by
    have hlength : (unrelated sampleOverride.gpoGuid (sampleUnit
      [sampleLink "00000000-0000-4000-8000-0000000000f2" 1,
        sampleLink "00000000-0000-4000-8000-0000000000f9" 2]).links).length = 1 := by decide
    omega
  subst hfirst
  have hbaseline : overrideLink (activationDb.managedGpos sampleOverride)
      (sampleLink "00000000-0000-4000-8000-0000000000f2" 1) = false := by decide
  exact absurd (hbaseline.symm.trans hoverride) Bool.false_ne_true

/-- The activated override moves between the two links of the other one: above the lower of them,
which stood above it. -/
theorem override_split_by_activation :
    validateSnapshot sampleContent sampleDraft splitState.toJson = .ok splitState ∧
      (∀ o ∈ splitState.ous, ∃ l ∈ o.links, l.guid = sampleOverride.gpoGuid) ∧
      activationDb.orders sampleConfig sampleOverride splitState true = .ok [2] ∧
      ¬List.Forall₂ (KeepsOverrides (activationDb.managedGpos sampleOverride) sampleOverride.gpoGuid)
        splitState.ous [2] := by
  refine ⟨activationStates_valid.2, by decide, by decide, fun h => ?_⟩
  cases h with
  | cons hkept _ =>
    obtain ⟨index, current, hindex, hcurrent, -, -, hsides, -⟩ := hkept.place
    have hthree : current = 3 :=
      Option.some.inj (hcurrent.symm.trans (by decide))
    subst hthree
    have hlower := (hsides 2 (by decide) (by decide)).mp (by decide)
    omega

end Ipms.Server.Gpo
