import Ipms.Server.Collections.Finality

/-
  Ipms.Server.Collections.Order

  The order of a rollout.  Only the first pending item of a domain is dispatched,
  and after a refresh nothing stays pending behind an item that stopped: a domain
  comes up once for each of its items, so where the first call fails an item the
  second one blocks what is behind it.
-/

namespace Ipms.Server.Collections

open Ipms.Server.Gpo
open List (Forall₂ count_pos_iff forall₂_same getElem_of_mem map_cons mem_append mem_append_right mem_cons mem_cons_self mem_map pairwise_iff_getElem)

variable {services : Services} {items items' : List Item} {i j : Item} {d domainId : String}

/-- An item that just failed in its turn; everything before it has succeeded. -/
def Halted (items : List Item) (domainId : String) : Prop :=
  ∃ j ∈ items, j.domainId = domainId ∧ j.status = .failed ∧
    ∀ a ∈ items, a.domainId = domainId → a.sequence < j.sequence → a.status = .succeeded

/-- What is behind an item that stopped is blocked. -/
def Settled (items : List Item) : Prop :=
  items.Pairwise fun a b => a.domainId = b.domainId → a.status.stops = true → b.status = .blocked

/-! ## One dispatch -/

theorem blockPending_idle (items : List Item) (domainId : String) (now : Time) :
    Idle (blockPending items domainId now) domainId := by
  refine .inr fun b hb hdomain hpending => ?_
  obtain ⟨a, _, rfl⟩ := mem_map.mp hb
  split at hpending
  · cases hpending
  · rename_i hno
    rw [if_neg hno] at hdomain
    exact hno ⟨hdomain, hpending⟩

theorem mem_before {before after : List Item} (hsorted : Sorted (before ++ i :: after)) {a : Item}
    (ha : a ∈ before ++ i :: after) (hlt : a.sequence < i.sequence) : a ∈ before := by
  rcases mem_append.mp ha with hin | hin
  · exact hin
  · rcases mem_cons.mp hin with rfl | hin
    · omega
    · have hgt := (List.pairwise_cons.mp (List.pairwise_append.mp hsorted).2.1).1 a hin
      omega

theorem Dispatched.idle_or_halted (h : Sound items) (hd : Dispatched services domainId items items') :
    Idle items' domainId ∨ Halted items' domainId := by
  have hsound := (hd.sound h).1
  cases hd with
  | idle hidle => exact .inl hidle
  | blocks => exact .inl (blockPending_idle _ _ _)
  | @turn before after i j hitems hdomain hpending hbefore hquiet hj =>
    subst hitems hdomain
    obtain ⟨hstays, _, hstatus⟩ :=
      i.dispatch_cases (h.consistent i (mem_append_right _ mem_cons_self)) hpending hj
    have hmem : j ∈ before ++ j :: after := mem_append_right _ mem_cons_self
    rcases hstatus with hpreparing | hfailed
    · exact .inl (.inl ⟨j, hmem, hstays.domainId, by rw [hpreparing]; rfl⟩)
    · exact .inr ⟨j, hmem, hstays.domainId, hfailed, fun a ha hsame hlt =>
        hbefore a (mem_before hsound.sorted ha hlt) hsame⟩

theorem Dispatched.idle_of_idle (hidle : Idle items domainId)
    (hd : Dispatched services domainId items items') : Idle items' domainId := by
  cases hd with
  | idle h => exact h
  | blocks => exact blockPending_idle _ _ _
  | @turn before after i j hitems hdomain hpending _ hquiet _ =>
    subst hitems
    rcases hidle with ⟨a, ha, hsame, hactive⟩ | hnone
    · rw [hquiet a ha hsame] at hactive
      cases hactive
    · exact absurd hpending (hnone i (mem_append_right _ mem_cons_self) hdomain)

theorem Dispatched.idle_of_halted (h : Sound items) (hhalted : Halted items domainId)
    (hd : Dispatched services domainId items items') : Idle items' domainId := by
  cases hd with
  | idle h => exact h
  | blocks => exact blockPending_idle _ _ _
  | @turn before after i j hitems hdomain hpending hbefore _ _ =>
    subst hitems
    obtain ⟨k, hk, hsame, hfailed, hall⟩ := hhalted
    have hi : i ∈ before ++ i :: after := mem_append_right _ mem_cons_self
    -- the item that failed stands behind the pending one, which must then have succeeded
    have hlt : i.sequence < k.sequence := by
      rcases mem_append.mp hk with hin | hin
      · rw [hbefore k hin hsame] at hfailed
        cases hfailed
      · rcases mem_cons.mp hin with rfl | hin
        · rw [hpending] at hfailed
          cases hfailed
        · exact (List.pairwise_cons.mp (List.pairwise_append.mp h.sorted).2.1).1 k hin
    rw [hall i hi hdomain hlt] at hpending
    cases hpending

theorem Dispatched.other (h : Sound items) (hd : Dispatched services d items items')
    (hne : d ≠ domainId) : Forall₂ (fun a b => b.sequence = a.sequence ∧ b.domainId = a.domainId ∧
      (a.domainId = domainId → b = a)) items items' := by
  have hrefl (l : List Item) : Forall₂ (fun a b : Item => b.sequence = a.sequence ∧
      b.domainId = a.domainId ∧ (a.domainId = domainId → b = a)) l l :=
    forall₂_same.mpr fun a _ => ⟨rfl, rfl, fun _ => rfl⟩
  cases hd with
  | idle _ => exact hrefl items
  | blocks =>
    unfold blockPending
    rw [List.forall₂_map_right_iff]
    refine forall₂_same.mpr fun a _ => ?_
    split
    · rename_i ha
      exact ⟨rfl, rfl, fun hsame => absurd (ha.1.symm.trans hsame) hne⟩
    · exact ⟨rfl, rfl, fun _ => rfl⟩
  | @turn before after i j hitems hdomain hpending _ _ hj =>
    subst hitems hdomain
    have hstays := (i.dispatch_cases
      (h.consistent i (mem_append_right _ mem_cons_self)) hpending hj).1
    exact List.rel_append (hrefl before) (.cons
      ⟨hstays.sequence, hstays.domainId, fun hdomain => absurd hdomain hne⟩ (hrefl after))

theorem Dispatched.idle_other (h : Sound items) (hd : Dispatched services d items items')
    (hne : d ≠ domainId) (hidle : Idle items domainId) : Idle items' domainId := by
  have hother := hd.other h hne
  rcases hidle with ⟨a, ha, hsame, hactive⟩ | hnone
  · obtain ⟨b, hb, _, _, hkept⟩ := forall₂_exists hother ha
    obtain rfl := hkept hsame
    exact .inl ⟨b, hb, hsame, hactive⟩
  · refine .inr fun b hb hdomain => ?_
    obtain ⟨a, ha, _, hsame, hkept⟩ := exists_of_forall₂ hother hb
    have hin : a.domainId = domainId := hsame.symm.trans hdomain
    rw [hkept hin]
    exact hnone a ha hin

theorem Dispatched.halted_other (h : Sound items) (hd : Dispatched services d items items')
    (hne : d ≠ domainId) (hhalted : Halted items domainId) : Halted items' domainId := by
  have hother := hd.other h hne
  obtain ⟨j, hj, hsame, hfailed, hall⟩ := hhalted
  obtain ⟨k, hk, _, _, hkept⟩ := forall₂_exists hother hj
  obtain rfl := hkept hsame
  refine ⟨k, hk, hsame, hfailed, fun b hb hdomain hlt => ?_⟩
  obtain ⟨a, ha, _, hdom, hkept⟩ := exists_of_forall₂ hother hb
  have hin : a.domainId = domainId := hdom.symm.trans hdomain
  rw [hkept hin] at hlt ⊢
  exact hall a ha hin hlt

theorem dispatchDomains_idle (domains : List String) (domainId : String) {items items' : List Item}
    (h : Sound items) (hd : dispatchDomains services items domains = .ok items') :
    (Idle items domainId → Idle items' domainId) ∧
    (Halted items domainId → if domainId ∈ domains then Idle items' domainId
      else Halted items' domainId) ∧
    (domainId ∈ domains → Idle items' domainId ∨ Halted items' domainId) ∧
    (2 ≤ domains.count domainId → Idle items' domainId) := by
  induction domains generalizing items with
  | nil =>
    cases hd
    exact ⟨id, id, nofun, fun h => absurd h (by rw [List.count_nil]; decide)⟩
  | cons d rest ih =>
    unfold dispatchDomains at hd
    split at hd
    · rename_i next hnext
      have hfirst := dispatchDomain_cases h.sorted hnext
      obtain ⟨hidle, hhalted, honce, htwice⟩ := ih (hfirst.sound h).1 hd
      by_cases hdomain : d = domainId
      · subst hdomain
        refine ⟨fun hi => hidle (hfirst.idle_of_idle hi), fun hh => ?_, fun _ => ?_, fun hcount => ?_⟩
        · rw [if_pos mem_cons_self]
          exact hidle (hfirst.idle_of_halted h hh)
        · rcases hfirst.idle_or_halted h with hi | hh
          · exact .inl (hidle hi)
          · have hlater := hhalted hh
            split at hlater
            · exact .inl hlater
            · exact .inr hlater
        · rcases hfirst.idle_or_halted h with hi | hh
          · exact hidle hi
          · have hlater := hhalted hh
            rw [List.count_cons_self] at hcount
            rw [if_pos (count_pos_iff.mp (by omega))] at hlater
            exact hlater
      · refine ⟨fun hi => hidle (hfirst.idle_other h hdomain hi), fun hh => ?_, fun hmem => ?_,
          fun hcount => ?_⟩
        · have hlater := hhalted (hfirst.halted_other h hdomain hh)
          have hsame : domainId ∈ d :: rest ↔ domainId ∈ rest := by
            rw [mem_cons, or_iff_right (fun heq => hdomain heq.symm)]
          simp only [hsame]
          exact hlater
        · exact honce ((mem_cons.mp hmem).resolve_left fun heq => hdomain heq.symm)
        · rw [List.count_cons_of_ne hdomain] at hcount
          exact htwice hcount
    · cases hd

theorem stays_domains (h : Forall₂ Stays items items') :
    items'.map Item.domainId = items.map Item.domainId := by
  induction h with
  | nil => rfl
  | cons hhead _ ih => rw [map_cons, map_cons, hhead.domainId, ih]

/-- The dispatches leave nothing to dispatch in any domain. -/
theorem dispatchDomains_settles (h : Sound items)
    (hd : dispatchDomains services items (items.map Item.domainId) = .ok items') (domainId : String) :
    Idle items' domainId := by
  obtain ⟨_, _, honce, htwice⟩ := dispatchDomains_idle _ domainId h hd
  have hstays := (dispatchDomains_sound _ h hd).2
  have hdomains := stays_domains hstays
  by_contra hbusy
  have hpending : ∃ a ∈ items', a.domainId = domainId ∧ a.status = .pending := by
    by_contra hno
    exact hbusy (.inr fun a ha hsame hpending => hno ⟨a, ha, hsame, hpending⟩)
  obtain ⟨a, ha, hsame, hpending⟩ := hpending
  have hmem : domainId ∈ items.map Item.domainId := by
    rw [← hdomains]
    exact mem_map.mpr ⟨a, ha, hsame⟩
  rcases honce hmem with hidle | ⟨j, hj, hdomain, hfailed, _⟩
  · exact hbusy hidle
  · -- the item that failed and the pending one are two items of the domain
    refine hbusy (htwice ?_)
    obtain ⟨before, after, rfl⟩ := List.append_of_mem hj
    rw [← hdomains, List.map_append, map_cons, List.count_append, hdomain, List.count_cons_self]
    rcases mem_append.mp ha with hin | hin
    · have hpos := count_pos_iff.mpr (mem_map.mpr ⟨a, hin, hsame⟩)
      omega
    · rcases mem_cons.mp hin with rfl | hin
      · rw [hpending] at hfailed
        cases hfailed
      · have hpos := count_pos_iff.mpr (mem_map.mpr ⟨a, hin, hsame⟩)
        omega

/-- Where nothing is left to dispatch, what is behind an item that stopped is blocked. -/
theorem settled_of_idle (h : Sound items) (hidle : ∀ domainId, Idle items domainId) : Settled items := by
  unfold Settled
  have hfollows := h.follows
  rw [pairwise_iff_getElem] at hfollows ⊢
  intro m n hm hn hlt hdomain hstops
  have hnot : items[m].status ≠ .succeeded := by
    intro hs
    rw [hs] at hstops
    cases hstops
  rcases hfollows m n hm hn hlt hdomain with hs | hblocked | ⟨hpending, hne⟩
  · exact absurd hs hnot
  · exact hblocked
  · rcases hidle items[n].domainId with ⟨x, hx, hsame, hactive⟩ | hnone
    · obtain ⟨k, hk, rfl⟩ := getElem_of_mem hx
      rcases Nat.lt_trichotomy k m with hkm | rfl | hmk
      · -- an active item before: the one that stopped is then blocked, or pending
        rcases hfollows k m hk hm hkm (hsame.trans hdomain.symm) with hs | hb | ⟨hp, _⟩
        · rw [hs] at hactive
          cases hactive
        · exact absurd hb hne
        · rw [hp] at hstops
          cases hstops
      · revert hactive hstops
        cases items[k].status <;> simp [ItemStatus.active, ItemStatus.stops]
      · rcases hfollows m k hm hk hmk (hdomain.trans hsame.symm) with hs | hb | ⟨hp, _⟩
        · exact absurd hs hnot
        · rw [hb] at hactive
          cases hactive
        · rw [hp] at hactive
          cases hactive
    · exact absurd hpending (hnone _ (List.getElem_mem hn) rfl)

/-! ## Every run -/

theorem step_settled {d : Deployment} (h : Sound d.items) (hs : Settled d.items) (event : Event) :
    Settled (step d event).items := by
  have hjobs (sequence : Nat) (f : Item → Item) (hf : ∀ i, (f i).domainId = i.domainId ∧
      (f i).status = i.status) : Settled (updateItem d.items sequence f) := by
    refine List.pairwise_map.mpr (hs.imp fun {a b} hab => ?_)
    have hsame (i : Item) : (if i.sequence = sequence then f i else i).domainId = i.domainId ∧
        (if i.sequence = sequence then f i else i).status = i.status := by
      split
      · exact hf i
      · exact ⟨rfl, rfl⟩
    rw [(hsame a).1, (hsame b).1, (hsame a).2, (hsame b).2]
    exact hab
  cases event with
  | preflight sequence e | write sequence e => exact hjobs sequence _ fun _ => ⟨rfl, rfl⟩
  | refresh services =>
    unfold step
    dsimp only
    split
    · rename_i d' hr
      obtain ⟨moved, hmoved, hitems, _⟩ := refreshDeployment_cases hr
      have hexpired := h.expireJobs d.tenant services.now
      have hsound := hexpired.moves (refreshItems_forall₂
        (fun i hi j hj => i.refresh_moves (hexpired.consistent i hi) hj) hmoved)
      exact settled_of_idle (dispatchDomains_sound _ hsound hitems).1
        (dispatchDomains_settles hsound hitems)
    · exact hs

theorem run_settled (tenant : String) (bindings : List Binding) (entries : List Bool)
    (events : List Event) : Settled (run (newDeployment tenant bindings entries) events).items := by
  have hrun : ∀ d : Deployment, Sound d.items → Settled d.items → Settled (run d events).items := by
    induction events with
    | nil => exact fun _ _ hs => hs
    | cons event rest ih =>
      exact fun d h hs => ih (step d event) (step_sound h event) (step_settled h hs event)
  refine hrun _ (newItems_sound bindings entries) ?_
  refine List.pairwise_of_forall_mem_list fun a ha b _ _ hstops => ?_
  obtain ⟨n, hn, rfl⟩ := List.mem_mapIdx.mp ha
  cases hstops

/-- A job that comes in a step leaves its item active. -/
structure Created (i j : Item) : Prop where
  sequence : j.sequence = i.sequence
  preflight : i.preflightJob = none → j.preflightJob ≠ none → j.status.active = true
  write : i.writeJob = none → j.writeJob ≠ none → j.status.active = true

theorem Item.mapJobs_created (i : Item) (f g : GpoImportJob → GpoImportJob) :
    Created i (i.mapJobs f g) := by
  refine ⟨rfl, fun hnone hsome => absurd ?_ hsome, fun hnone hsome => absurd ?_ hsome⟩
  · exact Option.map_eq_none_iff.mpr hnone
  · exact Option.map_eq_none_iff.mpr hnone

theorem Item.refresh_created (hj : i.refresh services = .ok j) : j.sequence = i.sequence ∧
    j.preflightJob = i.preflightJob ∧
    (i.writeJob = none → j.writeJob ≠ none → j.status.active = true) := by
  unfold Item.refresh at hj
  split at hj
  · rename_i w hwrite
    cases hj
    have hno : i.writeJob ≠ none := by rw [hwrite]; exact nofun
    unfold Item.followWrite
    split <;> exact ⟨rfl, rfl, fun h => absurd h hno⟩
  · cases hj
    exact ⟨rfl, rfl, fun h h' => absurd h h'⟩
  · rename_i p hwrite hpreflight
    split at hj
    · split at hj
      · rename_i write _
        cases hj
        refine ⟨rfl, rfl, fun _ _ => ?_⟩
        dsimp only
        split <;> rfl
      · split at hj
        · cases hj
          exact ⟨rfl, rfl, fun h h' => absurd h h'⟩
        · cases hj
    · cases hj
      exact ⟨rfl, rfl, fun h h' => absurd h h'⟩
    · cases hj
      exact ⟨rfl, rfl, fun h h' => absurd h h'⟩
    · cases hj
      exact ⟨rfl, rfl, fun h h' => absurd h h'⟩
    · cases hj
      exact ⟨rfl, rfl, fun h h' => absurd h h'⟩

theorem refreshDeployment_created {d d' : Deployment} (h : Sound d.items)
    (hr : refreshDeployment services d = .ok d') : Forall₂ Created d.items d'.items := by
  obtain ⟨moved, hmoved, hitems, _⟩ := refreshDeployment_cases hr
  have hexpired := h.expireJobs d.tenant services.now
  have hsound := hexpired.moves
    (refreshItems_forall₂ (fun i hi j hj => i.refresh_moves (hexpired.consistent i hi) hj) hmoved)
  have hloop := refreshItems_forall₂ (fun _ _ _ hj => Item.refresh_created hj) hmoved
  rw [List.forall₂_map_left_iff] at hloop
  refine forall₂_comp (fun {i j k} hij hjk => ?_) hloop (dispatchDomains_sound _ hsound hitems).2
  obtain ⟨hsequence, hpreflight, hwrite⟩ := hij
  refine ⟨hjk.sequence.trans hsequence, fun hnone hsome => ?_, fun hnone hsome => ?_⟩
  · rcases hjk.preflight with hsame | hpreparing
    · refine absurd (hsame.trans (hpreflight.trans ?_)) hsome
      exact Option.map_eq_none_iff.mpr hnone
    · rw [hpreparing]
      rfl
  · rw [hjk.write] at hsome
    have hactive := hwrite (Option.map_eq_none_iff.mpr hnone) hsome
    rw [hjk.kept (fun hpending => by rw [hpending] at hactive; cases hactive)]
    exact hactive

theorem step_created {d : Deployment} (h : Sound d.items) (event : Event) :
    Forall₂ Created d.items (step d event).items := by
  have hrefl (i : Item) : Created i i := ⟨rfl, fun h h' => absurd h h', fun h h' => absurd h h'⟩
  have hjobs (sequence : Nat) (f g : GpoImportJob → GpoImportJob) :
      Forall₂ Created d.items (updateItem d.items sequence fun i => i.mapJobs f g) := by
    unfold updateItem
    rw [List.forall₂_map_right_iff]
    refine forall₂_same.mpr fun i _ => ?_
    split
    · exact i.mapJobs_created f g
    · exact hrefl i
  cases event with
  | preflight sequence e =>
    have hcreated := hjobs sequence (fun job => e.apply job) id
    unfold Item.mapJobs at hcreated
    simpa only [step, Option.map_id_fun, id] using hcreated
  | write sequence e =>
    have hcreated := hjobs sequence id fun job => e.apply job
    unfold Item.mapJobs at hcreated
    simpa only [step, Option.map_id_fun, id] using hcreated
  | refresh services =>
    unfold step
    dsimp only
    split
    · rename_i hr
      exact refreshDeployment_created h hr
    · exact forall₂_same.mpr fun i _ => hrefl i

theorem Sorted.lt_of_sequence (h : Sorted items) {m n : Nat} (hm : m < items.length)
    (hn : n < items.length) (hlt : items[m].sequence < items[n].sequence) : m < n := by
  unfold Sorted at h
  rw [pairwise_iff_getElem] at h
  rcases Nat.lt_trichotomy m n with hmn | rfl | hnm
  · exact hmn
  · omega
  · have hgt := h n m hn hm hnm
    omega

theorem Sorted.unique (h : Sorted items) (hi : i ∈ items) (hj : j ∈ items)
    (hsame : j.sequence = i.sequence) : j = i := by
  obtain ⟨m, hm, rfl⟩ := getElem_of_mem hi
  obtain ⟨n, hn, rfl⟩ := getElem_of_mem hj
  unfold Sorted at h
  rw [pairwise_iff_getElem] at h
  rcases Nat.lt_trichotomy m n with hlt | rfl | hlt
  · have hgt := h m n hm hn hlt
    omega
  · rfl
  · have hgt := h n m hn hm hlt
    omega

/-- Around an active item of a sound rollout everything before has succeeded, and nothing else is
active. -/
theorem Sound.around_active (h : Sound items) (hj : j ∈ items) (hactive : j.status.active = true)
    {a : Item} (ha : a ∈ items) (hdomain : a.domainId = j.domainId) :
    (a.sequence < j.sequence → a.status = .succeeded) ∧
      (a.sequence ≠ j.sequence → a.status.active = false) := by
  obtain ⟨n, hn, rfl⟩ := getElem_of_mem hj
  obtain ⟨m, hm, rfl⟩ := getElem_of_mem ha
  have hfollows := h.follows
  rw [pairwise_iff_getElem] at hfollows
  have hbefore (hlt : m < n) : items[m].status = .succeeded := by
    rcases hfollows m n hm hn hlt hdomain with hs | hb | ⟨hp, _⟩
    · exact hs
    · rw [hb] at hactive
      cases hactive
    · rw [hp] at hactive
      cases hactive
  refine ⟨fun hlt => hbefore (h.sorted.lt_of_sequence hm hn hlt), fun hne => ?_⟩
  rcases Nat.lt_trichotomy m n with hlt | rfl | hgt
  · rw [hbefore hlt]
    rfl
  · exact absurd rfl hne
  · rcases hfollows n m hn hm hgt hdomain.symm with hs | hb | ⟨hp, _⟩
    · rw [hs] at hactive
      cases hactive
    · rw [hb]
      rfl
    · rw [hp]
      rfl

/-- In every run of a rollout: when a preflight or a write job of an item is created, every item of a
lower number of its domain has succeeded and no other item of the domain is active; and behind an
item that failed or is blocked every item of the domain is blocked. -/
theorem rollout_in_order (tenant : String) (bindings : List Binding) (entries : List Bool)
    (events : List Event) :
    let d := run (newDeployment tenant bindings entries) events
    (∀ event, ∀ i ∈ d.items, ∀ j ∈ (step d event).items, j.sequence = i.sequence →
      i.preflightJob = none ∧ j.preflightJob ≠ none ∨ i.writeJob = none ∧ j.writeJob ≠ none →
      ∀ a ∈ (step d event).items, a.domainId = j.domainId →
        (a.sequence < j.sequence → a.status = .succeeded) ∧
        (a.sequence ≠ j.sequence → a.status.active = false)) ∧
    ∀ a ∈ d.items, ∀ b ∈ d.items, a.domainId = b.domainId → a.sequence < b.sequence →
      a.status = .failed ∨ a.status = .blocked → b.status = .blocked := by
  intro d
  have hsound : Sound d.items := run_sound tenant bindings entries events
  refine ⟨fun event i hi j hj hsame hnew a ha hdomain => ?_, fun a ha b hb hsame hlt hstopped => ?_⟩
  · obtain ⟨i', hi', hcreated⟩ := exists_of_forall₂ (step_created hsound event) hj
    obtain rfl := hsound.sorted.unique hi hi' (hcreated.sequence.symm.trans hsame)
    have hactive : j.status.active = true := by
      rcases hnew with ⟨hnone, hsome⟩ | ⟨hnone, hsome⟩
      · exact hcreated.preflight hnone hsome
      · exact hcreated.write hnone hsome
    exact (step_sound hsound event).around_active hj hactive ha hdomain
  · have hsettled : Settled d.items := run_settled tenant bindings entries events
    unfold Settled at hsettled
    rw [pairwise_iff_getElem] at hsettled
    obtain ⟨m, hm, rfl⟩ := getElem_of_mem ha
    obtain ⟨n, hn, rfl⟩ := getElem_of_mem hb
    refine hsettled m n hm hn (hsound.sorted.lt_of_sequence hm hn hlt) hsame ?_
    rcases hstopped with h | h <;> rw [h] <;> rfl

/-- No executor can run the first policy of two: it fails, and the second is blocked. -/
theorem rollout_in_order_sample :
    (run (newDeployment "tenant" [⟨"domain", 1⟩] [false, false])
      [.refresh { sampleServices domainBusy with executorOptions := fun _ => [] }]).items.map Item.status =
      [.failed, .blocked] ∧
    ∀ a ∈ (run (newDeployment "tenant" [⟨"domain", 1⟩] [false, false])
        [.refresh { sampleServices domainBusy with executorOptions := fun _ => [] }]).items,
      ∀ b ∈ (run (newDeployment "tenant" [⟨"domain", 1⟩] [false, false])
        [.refresh { sampleServices domainBusy with executorOptions := fun _ => [] }]).items,
      a.domainId = b.domainId → a.sequence < b.sequence →
      a.status = .failed ∨ a.status = .blocked → b.status = .blocked :=
  ⟨by decide +kernel, (rollout_in_order "tenant" [⟨"domain", 1⟩] [false, false] _).2⟩

end Ipms.Server.Collections
