import Ipms.Server.Gpo.Placement

/-
  Ipms.Server.Gpo.Activation

  What the checks before an activation say of the policy's own links.  They
  compare the number of own links with the number of targets, while the change
  looks a link up target by target.  The two agree as long as the own links of
  one container spell its name alike: a list of links may hold two to the same
  policy under two spellings of the name.
-/

namespace Ipms.Server.Gpo

open Ipms.Lib Ipms.ManagementJson
open Ipms.Agent.Gpo (ManagedJob Operation Snapshot Ou Link LinkKind)

/-! ## Counting -/

theorem eq_one_of_sum_eq_length {α : Type} {f : α → Nat} {xs : List α} (hle : ∀ x ∈ xs, f x ≤ 1)
    (hsum : (xs.map f).sum = xs.length) : ∀ x ∈ xs, f x = 1 := by
  induction xs with
  | nil => nofun
  | cons x xs ih =>
    have hfirst := hle x List.mem_cons_self
    have hrest : ∀ y ∈ xs, f y ≤ 1 := fun y hy => hle y (List.mem_cons_of_mem _ hy)
    have hbound : (xs.map f).sum ≤ xs.length := by
      have h := List.sum_le_card_nsmul (xs.map f) 1 (by simpa using hrest)
      simpa using h
    rw [List.map_cons, List.sum_cons, List.length_cons] at hsum
    intro y hy
    rcases List.mem_cons.mp hy with rfl | hy
    · omega
    · exact ih hrest (by omega) y hy

theorem length_le_one_of_nodup {α : Type} {xs : List α} (h : xs.Nodup)
    (hsame : ∀ x ∈ xs, ∀ y ∈ xs, x = y) : xs.length ≤ 1 := by
  match xs, h, hsame with
  | [], _, _ => exact Nat.zero_le 1
  | [_], _, _ => exact Nat.le_refl 1
  | x :: y :: rest, h, hsame =>
    have hxy : x = y :=
      hsame x List.mem_cons_self y (List.mem_cons_of_mem _ List.mem_cons_self)
    exact absurd (hxy ▸ List.mem_cons_self) (List.nodup_cons.mp h).1

/-! ## Own links -/

/-- The links of a container to a policy. -/
def ownLinksOf (guid : String) (o : Ou) : List Link := o.links.filter fun l => l.guid == guid

/-- The own links of a container spell its name alike. -/
def SpelledAlike (guid : String) (o : Ou) : Prop :=
  ∀ l ∈ ownLinksOf guid o, ∀ m ∈ ownLinksOf guid o, l.dn = m.dn

section
variable {content : Content} {a : ManagedJob} {s : Snapshot} {o : Ou} {guid : String}

theorem mem_ownLinksOf {l : Link} : l ∈ ownLinksOf guid o ↔ l ∈ o.links ∧ l.guid = guid := by
  unfold ownLinksOf
  rw [List.mem_filter, beq_iff_eq]

theorem length_linksOf (guid : String) (ous : List Ou) :
    (linksOf guid ous).length = (ous.map fun o => (ownLinksOf guid o).length).sum := by
  unfold linksOf
  rw [List.length_flatMap]
  rfl

/-- Own links of a container that spell its name alike are one at most: guid, domain and kind of
two are the same, and a list of links has no two with all four the same. -/
theorem length_ownLinksOf_le (hvalid : ValidOu content a o) (halike : SpelledAlike guid o) :
    (ownLinksOf guid o).length ≤ 1 := by
  have hnodup : (o.links.map linkIdentity).Nodup := by
    have hlinks := hvalid.links
    unfold validLinks at hlinks
    rw [Bool.and_eq_true, decide_eq_true_eq] at hlinks
    exact hlinks.2
  have hown : ((ownLinksOf guid o).map linkIdentity).Nodup :=
    hnodup.sublist (List.filter_sublist.map linkIdentity)
  rw [← List.length_map linkIdentity]
  refine length_le_one_of_nodup hown fun x hx y hy => ?_
  obtain ⟨l, hl, rfl⟩ := List.mem_map.mp hx
  obtain ⟨m, hm, rfl⟩ := List.mem_map.mp hy
  obtain ⟨hlo, hlguid⟩ := mem_ownLinksOf.mp hl
  obtain ⟨hmo, hmguid⟩ := mem_ownLinksOf.mp hm
  obtain ⟨-, hlkind, -, hldomain⟩ := hvalid.own_link hlo
  obtain ⟨-, hmkind, -, hmdomain⟩ := hvalid.own_link hmo
  unfold linkIdentity
  rw [hlguid, hmguid, hlkind, hmkind, hldomain, hmdomain, halike l hl m hm]

theorem safeBefore_activation (h : safeBefore content a s = .ok ())
    (hop : a.intendedOperation = .activateManagedGpo) :
    (linksOf a.gpoGuid s.ous).length = s.ous.length ∧ linksOf a.gpoGuid s.ous ≠ [] := by
  unfold safeBefore at h
  obtain ⟨_, -, h⟩ := bind_eq_ok.mp h
  obtain ⟨_, -, h⟩ := bind_eq_ok.mp h
  cases hgpo : s.gpo with
  | none =>
    rw [hgpo] at h
    have himport := throwIf_eq_ok.mp h
    rw [hop, not_or] at himport
    exact absurd rfl himport.2
  | some g =>
    rw [hgpo] at h
    obtain ⟨_, htarget, h⟩ := bind_eq_ok.mp h
    obtain ⟨_, -, h⟩ := bind_eq_ok.mp h
    obtain ⟨_, -, h⟩ := bind_eq_ok.mp h
    rw [if_neg (by rw [hop]; decide)] at h
    unfold checkLinksBefore at h
    obtain ⟨_, -, h⟩ := bind_eq_ok.mp h
    obtain ⟨_, -, h⟩ := bind_eq_ok.mp h
    obtain ⟨_, -, h⟩ := bind_eq_ok.mp h
    have hguid : g.guid = a.gpoGuid := (not_or.mp (throwIf_eq_ok.mp htarget)).1 |> not_not.mp
    have hcount := throwIf_eq_ok.mp h
    rw [hguid] at hcount
    simp only [hop, true_and, not_or, not_not] at hcount
    exact hcount

theorem ownLinksOf_singleton (hvalid : ∀ o ∈ s.ous, ValidOu content a o)
    (hcount : (linksOf guid s.ous).length = s.ous.length)
    (halike : ∀ o ∈ s.ous, SpelledAlike guid o) : ∀ o ∈ s.ous, ∃ l, ownLinksOf guid o = [l] := by
  rw [length_linksOf] at hcount
  have hle : ∀ o ∈ s.ous, (ownLinksOf guid o).length ≤ 1 :=
    fun o ho => length_ownLinksOf_le (hvalid o ho) (halike o ho)
  intro o ho
  exact List.length_eq_one_iff.mp (eq_one_of_sum_eq_length hle hcount o ho)

end

/-! ## The orders of an activation -/

/-- The order an activation gives the only own link of a container: its own, or that of a place
further up if the policy is an override. -/
def OrderOfOwnLink (policy : ManagedGpoPolicy) (o : Ou) (order : Int) : Prop :=
  ∃ l, ownLinksOf policy.gpoGuid o = [l] ∧ order ≤ l.order ∧
    (policy.override = none → order = l.order)

section
variable {content : Content} {a : ManagedJob} {s : Snapshot} {o : Ou} {db : Db}
  {config : DomainSecuritySettings} {managed : List ManagedGpoPolicy} {policy : ManagedGpoPolicy}
  {selected : Bool × Int} {l : Link} {order : Int}

theorem ownOrder_singleton (h : ownLinksOf policy.gpoGuid o = [l]) :
    ownOrder policy o = some l.order := by
  unfold ownOrder
  unfold ownLinksOf at h
  rw [← List.head?_filter, h]
  rfl

theorem findIdx?_singleton (h : ownLinksOf policy.gpoGuid o = [l]) :
    ∃ current, (o.links.findIdx? fun m => m.guid == policy.gpoGuid) = some current ∧
      o.links[current]? = some l := by
  have hl : l ∈ ownLinksOf policy.gpoGuid o := by
    rw [h]
    exact List.mem_singleton_self l
  obtain ⟨hlo, hguid⟩ := mem_ownLinksOf.mp hl
  have hfound : (o.links.findIdx? fun m => m.guid == policy.gpoGuid).isSome = true := by
    rw [List.findIdx?_isSome, List.any_eq_true]
    exact ⟨l, hlo, beq_iff_eq.mpr hguid⟩
  obtain ⟨current, hcurrent⟩ := Option.isSome_iff_exists.mp hfound
  obtain ⟨hlt, hown, -⟩ := List.findIdx?_eq_some_iff_getElem.mp hcurrent
  refine ⟨current, hcurrent, ?_⟩
  rw [List.getElem?_eq_getElem hlt]
  have hmem : o.links[current] ∈ ownLinksOf policy.gpoGuid o :=
    mem_ownLinksOf.mpr ⟨List.getElem_mem hlt, beq_iff_eq.mp hown⟩
  rw [h] at hmem
  exact congrArg some (List.mem_singleton.mp hmem)

theorem ValidOu.order_eq (h : ValidOu content a o) {i : Nat} (hi : o.links[i]? = some l) :
    l.order = (i : Int) + 1 := by
  have hown := h.own
  unfold ownLinks at hown
  rw [Bool.and_eq_true, beq_iff_eq] at hown
  have hlt : i < o.links.length := (List.getElem?_eq_some_iff.mp hi).1
  have horder : (o.links.map Link.order)[i]? = some l.order := by
    rw [List.getElem?_map, hi]
    rfl
  simp only [hown.2, bind_pure_comp, List.map_eq_map, List.getElem?_map,
    List.getElem?_range hlt, Option.map_some] at horder
  exact (Option.some.inj horder).symm

theorem containerOrder_own (hvalid : ValidOu content a o) (hroom : o.links.length < 128)
    (hoverride : policy.override.isSome = true) (h : ownLinksOf policy.gpoGuid o = [l])
    (horder : containerOrder config managed policy selected true o = .ok order) :
    OrderOfOwnLink policy o order := by
  obtain ⟨current, hcurrent, hl⟩ := findIdx?_singleton h
  obtain ⟨current', hcurrent', rfl, -⟩ := (containerOrder_preserving hoverride hroom).mp horder
  rw [hcurrent] at hcurrent'
  cases hcurrent'
  have hown := hvalid.order_eq hl
  refine ⟨l, h, by omega, fun hnone => ?_⟩
  rw [hnone] at hoverride
  cases hoverride

theorem containerOrder_onlyFails (hoverride : policy.override.isSome = true)
    (h : ownLinksOf policy.gpoGuid o = [l]) :
    OnlyFails (· = linkConflict) (containerOrder config managed policy selected true o) := by
  obtain ⟨current, hcurrent, -⟩ := findIdx?_singleton h
  unfold containerOrder
  refine .bind (.throwIf rfl) fun _ _ => ?_
  rw [hoverride]
  refine .bind ?_ fun _ _ => .pure _
  unfold preservingIndex
  rw [hcurrent]
  exact .bind (.throwIf rfl) fun _ _ => .pure _

theorem ownOrders_singleton (hown : ∀ o ∈ s.ous, ∃ l, ownLinksOf policy.gpoGuid o = [l]) :
    ∃ orders, s.ous.mapM (ownOrder policy) = some orders ∧
      List.Forall₂ (fun o order => ∃ l, ownLinksOf policy.gpoGuid o = [l] ∧ order = l.order)
        s.ous orders := by
  generalize s.ous = ous at hown
  induction ous with
  | nil => exact ⟨[], rfl, .nil⟩
  | cons o ous ih =>
    obtain ⟨l, hl⟩ := hown o List.mem_cons_self
    obtain ⟨rest, hrest, horders⟩ := ih fun o' ho' => hown o' (List.mem_cons_of_mem o ho')
    refine ⟨l.order :: rest, ?_, .cons ⟨l, hl, rfl⟩ horders⟩
    rw [List.mapM_cons, ownOrder_singleton hl, hrest]
    rfl

/-- With one own link in every target, the orders of an activation come from them, or the
activation is refused for the other links. -/
theorem changeOrders_own (hvalid : ValidSnapshot content a false s)
    (hop : a.intendedOperation = .activateManagedGpo)
    (hranked : policy.baselineId ∈ config.baselineOrder)
    (hown : ∀ o ∈ s.ous, ∃ l, ownLinksOf policy.gpoGuid o = [l]) :
    OnlyFails (· = linkConflict) (db.changeOrders config policy a s) ∧
      ∀ orders, db.changeOrders config policy a s = .ok orders →
        List.Forall₂ (OrderOfOwnLink policy) s.ous orders := by
  unfold Db.changeOrders
  rw [hop]
  simp only
  by_cases hoverride : policy.override.isSome = true
  · rw [if_pos hoverride, orders_eq hranked]
    constructor
    · refine .mapM fun o ho => ?_
      obtain ⟨l, hl⟩ := hown o ho
      exact containerOrder_onlyFails hoverride hl
    · intro orders h
      have hmembers := (List.forall₂_and_left (p := fun o => o ∈ s.ous) _ _).mpr
        ⟨fun _ ho => ho, mapM_eq_ok.mp h⟩
      refine hmembers.imp fun o order ⟨ho, horder⟩ => ?_
      obtain ⟨l, hl⟩ := hown o ho
      exact containerOrder_own (hvalid.ous o ho) (hvalid.length_links ho) hoverride hl horder
  · obtain ⟨orders, horders, hlinks⟩ := ownOrders_singleton hown
    rw [if_neg hoverride, horders]
    constructor
    · exact .bind (.throwIf rfl) fun _ _ => .pure _
    · intro orders' h
      obtain ⟨_, -, h⟩ := bind_eq_ok.mp h
      obtain rfl := pure_eq_ok.mp h
      exact hlinks.imp fun o order ⟨l, hl, horder⟩ => ⟨l, hl, Int.le_of_eq horder, fun _ => horder⟩

/-! ## The precondition of an activation -/

/-- What an activation may be refused with: a name in use, a link in the way, too large a scope. -/
def activationRefusals : List ServerError :=
  [.publicApiError "security_gpo_name_collision" 409, linkConflict,
    .parseError "The inspected scope exceeds the bounded GPO transport budget."]

/-- In every target the policy has one link, which the planned change takes its order from, and
the plan fails with a refusal only. -/
structure ActivationReady (content : Content) (a : ManagedJob) (s : Snapshot) : Prop where
  linked : ∀ o ∈ s.ous, ∃ l, ownLinksOf a.gpoGuid o = [l]
  planned : ∀ (db : Db) (tenant : Tenant) (config : DomainSecuritySettings) (data : ChangeData)
    (policy : ManagedGpoPolicy), policy.gpoGuid = a.gpoGuid →
    policy.baselineId ∈ config.baselineOrder →
    OnlyFails (· ∈ activationRefusals) (db.plannedChange content tenant config data policy a s) ∧
      ∀ b, db.plannedChange content tenant config data policy a s = .ok b →
        List.Forall₂ (OrderOfOwnLink policy) s.ous b.linkOrders

variable (content a s) in
/-- A state the checks accept for an activation has one own link in every target, exactly if the own
links of a container always spell its name alike. -/
theorem activation_ready_iff {value : Value}
    (hstate : validateSnapshot content a value = .ok s)
    (hsafe : safeBefore content a s = .ok ())
    (hop : a.intendedOperation = .activateManagedGpo) :
    ActivationReady content a s ↔ ∀ o ∈ s.ous, SpelledAlike a.gpoGuid o := by
  obtain ⟨-, hvalid⟩ := validateSnapshot_eq_ok.mp hstate
  constructor
  · intro h o ho l hl m hm
    obtain ⟨own, hown⟩ := h.linked o ho
    rw [hown] at hl hm
    rw [List.mem_singleton.mp hl, List.mem_singleton.mp hm]
  · intro halike
    have hown := ownLinksOf_singleton hvalid.ous (safeBefore_activation hsafe hop).1 halike
    refine ⟨hown, fun db tenant config data policy hpolicy hranked => ?_⟩
    rw [← hpolicy] at hown
    have hplaces : OnlyFails (· = linkConflict) (db.changeOrders config policy a s) ∧
        ∀ orders, db.changeOrders config policy a s = .ok orders →
          List.Forall₂ (OrderOfOwnLink policy) s.ous orders :=
      changeOrders_own hvalid hop hranked hown
    obtain ⟨hfails, horders⟩ := hplaces
    unfold Db.plannedChange
    constructor
    · refine .bind (.throwIf (by decide)) fun _ _ => .bind ?_ fun orders _ => ?_
      · intro e he
        rw [hfails e he]
        decide
      · exact .bind (.throwIf (by decide)) fun _ _ => .pure _
    · intro b h
      obtain ⟨_, -, h⟩ := bind_eq_ok.mp h
      obtain ⟨orders, hok, h⟩ := bind_eq_ok.mp h
      obtain ⟨_, -, h⟩ := bind_eq_ok.mp h
      obtain rfl := pure_eq_ok.mp h
      exact horders orders hok

end

/-! ### Two links in one unit and none in another -/

/-- A disabled policy with links, in units. -/
def linkedSnapshot (links : List Link) (ous : List Ou) : Snapshot :=
  { sampleSnapshot with
    gpo := sampleSnapshot.gpo.map fun g => { g with links := links }
    ous := ous }

/-- The inspection of an activation over units. -/
def activationDraft (targets : List String) : ManagedJob :=
  { sampleDraft with
    operation := .inspectManagedGpo
    intendedOperation := .activateManagedGpo
    gpoGuid := "00000000-0000-4000-8000-000000000009"
    targetOus := targets
    linkOrders := targets.map fun _ => 1 }

/-- A link of the policy. -/
def ownLink (order : Int) (dn : String := "OU=Servers,DC=corp,DC=example") : Link :=
  sampleLink "00000000-0000-4000-8000-000000000009" order dn

/-- The policy is linked to its unit. -/
def readyState : Snapshot := linkedSnapshot [ownLink 1] [sampleUnit [ownLink 1]]

def secondUnit : Ou where
  dn := "OU=Desks,DC=corp,DC=example"
  guid := "00000000-0000-4000-8000-00000000000d"
  usn := "18"
  blocked := false
  links := []
  inheritedLinks := []

/-- The policy is linked to one unit twice, under two spellings, and not to the other. -/
def misspeltState : Snapshot :=
  linkedSnapshot [ownLink 1, ownLink 2 "OU=servers,DC=corp,DC=example"]
    [sampleUnit [ownLink 1, ownLink 2 "OU=servers,DC=corp,DC=example"], secondUnit]

/-- The targets of the misspelt state. -/
def twoTargets : List String := ["OU=Servers,DC=corp,DC=example", "OU=Desks,DC=corp,DC=example"]

/-- The policy the states are about. -/
def activatedPolicy : ManagedGpoPolicy :=
  sampleManaged "own" "microsoft-windows-server-2025" "00000000-0000-4000-8000-000000000009" none

set_option maxRecDepth 20000 in
theorem activation_ready_sample :
    ActivationReady sampleContent (activationDraft sampleDraft.targetOus) readyState :=
  (activation_ready_iff sampleContent (activationDraft sampleDraft.targetOus) readyState
    (show validateSnapshot sampleContent (activationDraft sampleDraft.targetOus)
      readyState.toJson = .ok readyState by decide +kernel)
    (by decide +kernel) rfl).mpr fun o ho => by
      rw [List.mem_singleton.mp ho]
      exact fun l hl m hm =>
        (congrArg Link.dn (List.mem_singleton.mp hl)).trans
          (congrArg Link.dn (List.mem_singleton.mp hm)).symm

set_option maxRecDepth 20000 in
/-- The links are as many as the units, so the checks pass; the change of a plain policy does not
find its link in the second unit. -/
theorem activation_misses_link :
    validateSnapshot sampleContent (activationDraft twoTargets) misspeltState.toJson =
        .ok misspeltState ∧
      safeBefore sampleContent (activationDraft twoTargets) misspeltState = .ok () ∧
      Db.empty.changeOrders sampleConfig activatedPolicy (activationDraft twoTargets)
        misspeltState = .error .valueError ∧
      ¬ActivationReady sampleContent (activationDraft twoTargets) misspeltState := by
  refine ⟨by decide +kernel, by decide +kernel, by decide, fun h => ?_⟩
  obtain ⟨l, hl⟩ := h.linked secondUnit (List.mem_cons_of_mem _ (List.mem_singleton_self _))
  exact absurd hl (List.cons_ne_nil _ _).symm

end Ipms.Server.Gpo
