import Ipms.Lib.Fallible
import Ipms.Lib.Run
import Ipms.Server.Tenants.Identity

/-
  Ipms.Server.Tenants.NamePermanence

  A name belongs to one user for ever.  The reservation of a normalized name is
  never given to another user: it keeps its user, or loses it with the user's
  deletion.  Every account holds the reservation of its name, so the account an
  operation is authorized as is the one of the user who queued it.
-/

namespace Ipms.Server.Tenants.Names

open Ipms.Lib Txn Table

variable {n : NameRules}

/-! ## What happens to reservations -/

/-- The reservations of `s` are still there, none under another user. -/
def ReservationsKept (s t : Identities) : Prop :=
  ∀ name r, s.reservations.get? name = some r →
    ∃ q, t.reservations.get? name = some q ∧ (q.user = r.user ∨ q.user = none)

/-- The user holds the reservation of the name. -/
def Holds (n : NameRules) (s : Identities) (user : Nat) (username : String) : Prop :=
  ∃ r, s.reservations.get? (n.normalizeUsername username) = some r ∧ r.user = some user

/-- Every account holds the reservation of its name. -/
def AllHeld (n : NameRules) (s : Identities) : Prop :=
  ∀ x ∈ s.users.rows, Holds n s x.id x.username

/-- An account was there before, or has a key the sequence had not given: none is reused. -/
structure IdsKept (s t : Identities) : Prop where
  next : s.nextId ≤ t.nextId
  users : ∀ x ∈ t.users.rows,
    (∃ y ∈ s.users.rows, y.id = x.id) ∨ s.nextId ≤ x.id ∧ x.id < t.nextId

/-- What every request does to names. -/
structure NamesKept (n : NameRules) (s t : Identities) : Prop where
  ids : IdsKept s t
  reservations : ReservationsKept s t
  held : AllHeld n s → AllHeld n t
  operations : ∀ o ∈ t.operations, ∃ p ∈ s.operations,
    o.requestedBy = p.requestedBy ∧ o.queuedBy = p.queuedBy

theorem ReservationsKept.refl (s : Identities) : ReservationsKept s s :=
  fun _ r hr => ⟨r, hr, .inl rfl⟩

variable {s t u : Identities}

theorem ReservationsKept.trans (h : ReservationsKept s t) (h' : ReservationsKept t u) :
    ReservationsKept s u := by
  intro name r hr
  obtain ⟨q, hq, hqr⟩ := h name r hr
  obtain ⟨p, hp, hpq⟩ := h' name q hq
  refine ⟨p, hp, ?_⟩
  rcases hpq with hpq | hnone
  · rcases hqr with hqr | hnone
    · exact .inl (hpq.trans hqr)
    · exact .inr (hpq.trans hnone)
  · exact .inr hnone

theorem IdsKept.of_users (hnext : t.nextId = s.nextId)
    (husers : ∀ x ∈ t.users.rows, ∃ y ∈ s.users.rows, y.id = x.id) : IdsKept s t :=
  ⟨Nat.le_of_eq hnext.symm, fun x hx => .inl (husers x hx)⟩

theorem IdsKept.trans (h : IdsKept s t) (h' : IdsKept t u) : IdsKept s u := by
  refine ⟨Nat.le_trans h.next h'.next, fun x hx => ?_⟩
  have hnext := h'.next
  rcases h'.users x hx with ⟨y, hy, hyx⟩ | hnew
  · rcases h.users y hy with ⟨z, hz, hzy⟩ | hnew
    · exact .inl ⟨z, hz, hzy.trans hyx⟩
    · rw [hyx] at hnew
      exact .inr ⟨hnew.1, by omega⟩
  · have hfirst := h.next
    exact .inr ⟨by omega, hnew.2⟩

theorem NamesKept.refl (s : Identities) : NamesKept n s s :=
  ⟨.of_users rfl fun x hx => ⟨x, hx, rfl⟩, .refl s, id, fun o ho => ⟨o, ho, rfl, rfl⟩⟩

theorem NamesKept.trans (h : NamesKept n s t) (h' : NamesKept n t u) : NamesKept n s u := by
  refine ⟨h.ids.trans h'.ids, h.reservations.trans h'.reservations,
    fun hs => h'.held (h.held hs), fun o ho => ?_⟩
  obtain ⟨p, hp, hname, huser⟩ := h'.operations o ho
  obtain ⟨q, hq, hname', huser'⟩ := h.operations p hp
  exact ⟨q, hq, hname.trans hname', huser.trans huser'⟩

theorem NamesKept.of_eq (hnext : t.nextId = s.nextId)
    (hreservations : t.reservations = s.reservations)
    (husers : ∀ x ∈ t.users.rows, ∃ y ∈ s.users.rows, y.id = x.id ∧ y.username = x.username)
    (hoperations : ∀ o ∈ t.operations, ∃ p ∈ s.operations,
      o.requestedBy = p.requestedBy ∧ o.queuedBy = p.queuedBy) : NamesKept n s t := by
  refine ⟨.of_users hnext fun x hx => ?_, fun name r hr => ⟨r, by rw [hreservations]; exact hr, .inl rfl⟩, ?_, hoperations⟩
  · obtain ⟨y, hy, hid, -⟩ := husers x hx
    exact ⟨y, hy, hid⟩
  intro hs x hx
  obtain ⟨y, hy, hid, hname⟩ := husers x hx
  obtain ⟨r, hr, huser⟩ := hs y hy
  refine ⟨r, ?_, by rw [← hid]; exact huser⟩
  rw [hreservations, ← hname]
  exact hr

/-! ## One lemma for each request -/

section
variable {s t : Identities}

/-- What a reservation that succeeds establishes. -/
structure Reserved (n : NameRules) (s : Identities) (username : String) (user : Option Nat)
    (current : Bool) (r : UsernameReservation) (t : Identities) : Prop where
  rest : t = { s with reservations := t.reservations }
  key : r.normalizedUsername = n.normalizeUsername username
  found : t.reservations.get? (n.normalizeUsername username) = some r
  bound : r.user = user
  others : ∀ name, name ≠ n.normalizeUsername username →
    t.reservations.get? name = s.reservations.get? name
  old : ∀ q, s.reservations.get? (n.normalizeUsername username) = some q → q = r ∧ current = true
  alone : ∀ x ∈ s.users.rows, n.normalizeUsername x.username = n.normalizeUsername username →
    user = some x.id

theorem reserveUsername_yields (username : String) (user : Option Nat) (current : Bool) :
    (reserveUsername n username user current).Yields (Reserved n s username user current) s := by
  unfold reserveUsername
  simp only [yields_bind, yields_get, yields_throwIf]
  intro hfree
  have halone : ∀ x ∈ s.users.rows, n.normalizeUsername x.username = n.normalizeUsername username →
      user = some x.id := by
    intro x hx hname
    simp only [List.any_eq_true, not_exists, not_and, Bool.and_eq_true, beq_iff_eq, bne_iff_ne,
      not_not] at hfree
    exact hfree x hx hname
  split
  · next existing hexisting =>
      rw [yields_bind, yields_throwIf]
      intro hcurrent
      rw [yields_pure]
      obtain ⟨hcurrent, -, huser⟩ := not_not.mp hcurrent
      refine ⟨rfl, get?_key hexisting, hexisting, huser, fun _ _ => rfl, fun q hq => ?_, halone⟩
      rw [hexisting] at hq
      exact ⟨(Option.some.inj hq).symm, hcurrent⟩
  · next hnone =>
      split
      · rw [yields_throw]
        trivial
      · next reservations hinsert =>
          rw [yields_bind, yields_set, yields_pure]
          have hget := get?_insert hinsert
          refine ⟨rfl, rfl, (hget _).trans (if_pos rfl), rfl, fun name hname => ?_, fun q hq => ?_,
            halone⟩
          · exact (hget name).trans (if_neg hname)
          · rw [hnone] at hq
            cases hq

theorem Reserved.kept {username : String} {user : Option Nat} {current : Bool}
    {r : UsernameReservation} (h : Reserved n s username user current r t) : NamesKept n s t := by
  have hkept : ∀ name q, s.reservations.get? name = some q → t.reservations.get? name = some q := by
    intro name q hq
    by_cases hname : name = n.normalizeUsername username
    · subst hname
      rw [(h.old q hq).1]
      exact h.found
    · rw [h.others name hname]
      exact hq
  have husers : t.users = s.users := by rw [h.rest]
  refine ⟨.of_users (by rw [h.rest]) fun x hx => ⟨x, by rw [← husers]; exact hx, rfl⟩,
    fun name q hq => ⟨q, hkept name q hq, .inl rfl⟩, ?_, ?_⟩
  · intro hs x hx
    rw [husers] at hx
    obtain ⟨q, hq, huser⟩ := hs x hx
    exact ⟨q, hkept _ q hq, huser⟩
  · rw [h.rest]
    exact fun o ho => ⟨o, ho, rfl, rfl⟩

theorem createUser_yields (username : String) (isActive isStaff isSuperuser : Bool) :
    (createUser n username isActive isStaff isSuperuser).Yields (fun x t =>
      x.id = s.nextId ∧ x.username = n.nfkc username ∧ ∃ users, s.users.insert x = some users ∧
        t = { s with users, nextId := s.nextId + 1 }) s := by
  unfold createUser
  simp only [yields_bind, yields_get, yields_throwIf]
  intro _
  split
  · rw [yields_throw]
    trivial
  · next users hinsert =>
      rw [yields_bind, yields_set, yields_pure]
      exact ⟨rfl, rfl, users, hinsert, rfl⟩

theorem createLocalUser_yields (username : String) (isActive isStaff isSuperuser : Bool) :
    (createLocalUser n username isActive isStaff isSuperuser).Yields (fun x t =>
      NamesKept n s t ∧ x ∈ t.users.rows) s := by
  unfold createLocalUser
  rw [yields_bind, yields_ofExcept]
  intro name hname
  -- the validated name is normalized already
  have hstable : n.nfkc name = name := by
    unfold NameRules.validateUsername at hname
    obtain ⟨_, -, hname⟩ := bind_eq_ok.mp hname
    rw [← pure_eq_ok.mp hname, n.nfkc_nfkc]
  rw [yields_bind]
  refine (reserveUsername_yields name none false).mono fun r u hr => ?_
  rw [yields_bind]
  refine (createUser_yields name isActive isStaff isSuperuser).mono fun x v hx => ?_
  obtain ⟨hid, hxname, users, hinsert, rfl⟩ := hx
  rw [yields_bind, yields_modify, yields_pure]
  have hfree : s.reservations.get? (n.normalizeUsername name) = none := by
    cases hold : s.reservations.get? (n.normalizeUsername name) with
    | none => rfl
    | some q => exact absurd (hr.old q hold).2 Bool.false_ne_true
  have husers : u.users = s.users := by rw [hr.rest]
  have hrows : users.rows = x :: s.users.rows := by
    rw [(insert_eq_some hinsert).2, husers]
  have hnextId : u.nextId = s.nextId := by rw [hr.rest]
  have hothers : ∀ name', name' ≠ n.normalizeUsername name →
      (u.reservations.save { r with user := some x.id }).get? name' =
        s.reservations.get? name' := by
    intro name' hne
    rw [get?_save_ne (by rw [show UsernameReservation.normalizedUsername _ = _ from hr.key]; exact hne)]
    exact hr.others name' hne
  have hnew : (u.reservations.save { r with user := some x.id }).get?
      (n.normalizeUsername name) = some { r with user := some x.id } := by
    have hfound : u.reservations.get? r.normalizedUsername = some r := by
      rw [hr.key]
      exact hr.found
    have hsaved := get?_save_self (a := { r with user := some x.id }) hfound
    exact (congrArg _ hr.key.symm).trans hsaved
  have hmem : x ∈ users.rows := by
    rw [hrows]
    exact List.mem_cons_self
  refine ⟨⟨⟨by rw [hnextId]; exact Nat.le_succ _, ?_⟩, ?_, ?_, ?_⟩, hmem⟩
  · intro y hy
    replace hy : y ∈ users.rows := hy
    rw [hrows] at hy
    rcases List.mem_cons.mp hy with rfl | hold
    · rw [hid, hnextId]
      exact .inr ⟨Nat.le_refl _, Nat.lt_succ_self _⟩
    · exact .inl ⟨y, hold, rfl⟩
  · intro name' q hq
    have hne : name' ≠ n.normalizeUsername name := by
      intro heq
      rw [heq, hfree] at hq
      cases hq
    exact ⟨q, (hothers name' hne).trans hq, .inl rfl⟩
  · intro hs y hy
    replace hy : y ∈ users.rows := hy
    rw [hrows] at hy
    rcases List.mem_cons.mp hy with rfl | hold
    · refine ⟨{ r with user := some y.id }, ?_, rfl⟩
      rw [hxname, hstable]
      exact hnew
    · obtain ⟨q, hq, huser⟩ := hs y hold
      refine ⟨q, ?_, huser⟩
      have hne : n.normalizeUsername y.username ≠ n.normalizeUsername name := by
        intro heq
        cases hr.alone y hold heq
      exact (hothers _ hne).trans hq
  · intro o ho
    refine ⟨o, ?_, rfl, rfl⟩
    rw [hr.rest] at ho
    exact ho

theorem withdrawn_kept (actor : String) :
    NamesKept n s { s with operations := s.operations.map fun o =>
      if o.requestedBy = actor then { o with withdrawn := true } else o } := by
  refine .of_eq rfl rfl (fun x hx => ⟨x, hx, rfl, rfl⟩) fun o ho => ?_
  obtain ⟨p, hp, rfl⟩ := List.mem_map.mp ho
  refine ⟨p, hp, ?_⟩
  split <;> exact ⟨rfl, rfl⟩

theorem saved_kept {x : Principal} (hx : Holds n s x.id x.username) :
    NamesKept n s { s with users := s.users.save x } := by
  refine ⟨.of_users rfl fun y hy => ?_, .refl s, fun hs y hy => ?_, fun o ho => ⟨o, ho, rfl, rfl⟩⟩
  · rcases mem_save.mp hy with ⟨hold, -⟩ | ⟨rfl, old, hold, hid⟩
    · exact ⟨y, hold, rfl⟩
    · exact ⟨old, hold, hid⟩
  rcases mem_save.mp hy with ⟨hold, -⟩ | ⟨rfl, -⟩
  · exact hs y hold
  · exact hx

theorem Reserved.holds {username : String} {user : Nat} {current : Bool} {r : UsernameReservation}
    (h : Reserved n s username (some user) current r t) : Holds n t user username :=
  ⟨r, h.found, h.bound⟩

theorem renameIdentity_yields (target : Principal) (username : String) :
    (renameIdentity n target username).Yields (fun _ t => NamesKept n s t) s := by
  unfold renameIdentity
  simp only
  rw [yields_bind]
  refine (reserveUsername_yields target.username (some target.id) true).mono fun r u hr => ?_
  -- behind both branches the target holds the new name
  have hrest : ∀ v, NamesKept n s v → Holds n v target.id username →
      Yields (do
        withdrawIdentityOperations target.username
        let s ← get
        throwIf (s.users.rows.any fun y => y.username == username && y.id != target.id)
          nameUnavailable
        set { s with users := s.users.save { target with username } } : Request Unit)
        (fun _ t => NamesKept n s t) v := by
    intro v hkept hholds
    unfold withdrawIdentityOperations
    simp only [yields_bind, yields_modify, yields_get, yields_throwIf,
      yields_set]
    intro _
    refine (hkept.trans (withdrawn_kept target.username)).trans ?_
    exact saved_kept (x := { target with username }) hholds
  by_cases hname : n.normalizeUsername username = n.normalizeUsername target.username
  · rw [if_neg (not_not.mpr hname)]
    refine hrest u hr.kept ?_
    obtain ⟨q, hq, hbound⟩ := hr.holds
    exact ⟨q, by rw [hname]; exact hq, hbound⟩
  · rw [if_pos hname, yields_bind]
    refine (reserveUsername_yields username (some target.id) false).mono fun q v hq => ?_
    exact hrest v (hr.kept.trans hq.kept) hq.holds

theorem resaved_kept {x y : Principal} (hy : y ∈ s.users.rows) (hid : x.id = y.id)
    (hname : x.username = y.username) : NamesKept n s { s with users := s.users.save x } := by
  refine .of_eq rfl rfl (fun z hz => ?_) fun o ho => ⟨o, ho, rfl, rfl⟩
  rcases mem_save.mp hz with ⟨hold, -⟩ | ⟨rfl, -⟩
  · exact ⟨z, hold, rfl, rfl⟩
  · exact ⟨y, hy, hid.symm, hname.symm⟩

theorem changePassword_yields {target : Principal} (htarget : target ∈ s.users.rows)
    (strong : Bool) : (changePassword target strong).Yields (fun _ t => NamesKept n s t) s := by
  unfold changePassword withdrawIdentityOperations
  simp only [yields_bind, yields_modify, yields_throwIf]
  intro _
  exact (withdrawn_kept target.username).trans (resaved_kept htarget rfl rfl)

theorem changeIdentity_yields (grants : Grants) (now : Time) (actor target : Nat)
    (tenant : Option String) (change : IdentityChange) (reauthenticated : Bool) :
    (changeIdentity n grants now actor target tenant change reauthenticated).Yields
      (fun _ t => NamesKept n s t) s := by
  unfold changeIdentity
  rw [yields_bind, yields_get]
  simp only
  rw [yields_bind, yields_throwIf]
  intro _
  split
  · next actor target _ htarget =>
      rw [yields_bind, yields_throwIf]
      intro _
      rw [yields_bind, yields_ofExcept]
      intro _ _
      rw [yields_bind, yields_throwIf]
      intro _
      split
      · rw [yields_bind, yields_ofExcept]
        exact fun username _ => renameIdentity_yields target username
      · exact changePassword_yields (get?_mem htarget) _
  · rw [yields_throw]
    trivial

theorem bootstrapInstance_yields (adminUsername : String) :
    (bootstrapInstance n adminUsername).Yields (fun _ t => NamesKept n s t) s := by
  unfold bootstrapInstance
  rw [yields_bind, yields_ofExcept]
  intro username _
  rw [yields_bind, yields_get]
  split
  · rw [yields_bind]
    refine (createLocalUser_yields username true false false).mono fun x t ⟨hkept, hx⟩ => ?_
    rw [yields_modify]
    exact hkept.trans (resaved_kept hx rfl rfl)
  · next x _ =>
      rw [yields_bind, yields_throwIf]
      intro _
      rw [yields_bind]
      refine (reserveUsername_yields x.username (some x.id) true).mono fun r t hr => ?_
      rw [yields_pure]
      exact hr.kept

theorem deleteUser_yields (id : Nat) :
    (deleteUser id).Yields (fun _ t => NamesKept n s t) s := by
  unfold deleteUser
  rw [yields_modify]
  have hget : ∀ name r, s.reservations.get? name = some r →
      (s.reservations.mapRows (fun r => if r.user = some id then { r with user := none } else r)
        fun r => by split <;> rfl).get? name =
        some (if r.user = some id then { r with user := none } else r) := by
    intro name r hr
    rw [get?_mapRows, hr]
    rfl
  refine ⟨.of_users rfl fun x hx => ⟨x, List.mem_of_mem_filter hx, rfl⟩, fun name r hr => ?_,
    fun hs x hx => ?_, fun o ho => ⟨o, ho, rfl, rfl⟩⟩
  · refine ⟨_, hget name r hr, ?_⟩
    split
    · exact .inr rfl
    · exact .inl rfl
  · obtain ⟨hold, hother⟩ := List.mem_filter.mp hx
    obtain ⟨r, hr, huser⟩ := hs x hold
    have hne : r.user ≠ some id := by
      rw [huser]
      intro heq
      exact of_decide_eq_true hother (Option.some.inj heq)
    refine ⟨_, hget _ r hr, ?_⟩
    rw [if_neg hne]
    exact huser

end

/-! ## Runs -/

/-- The tables, and the identities that requests were authenticated as, with the names they had. -/
structure System where
  db : Identities
  seen : List (Nat × String)

/-- What may happen to accounts and their operations. -/
inductive Event where
  | create (username : String) (isActive isStaff isSuperuser : Bool)
  | bootstrap (adminUsername : String)
  | change (now : Time) (actor target : Nat) (tenant : Option String) (change : IdentityChange)
      (reauthenticated : Bool)
  | delete (id : Nat)
  /-- the flags of an account, with its roles, and the tenants -/
  | account (x : Principal)
  | records (memberships : List TenantMembership) (tenants : Table Tenant String Tenant.id)
  /-- a request is authenticated as a user -/
  | authenticate (id : Nat)
  /-- a request queues an operation under the name its user had when it was authenticated -/
  | enqueue (tenant : String) (requester : Nat × String)

/-- The tables behind a request: those it committed, or the ones before. -/
def System.commit {α : Type} (s : System) (request : Request α) : System :=
  match request.exec s.db with
  | .ok (_, db) => { s with db }
  | .error _ => s

variable (n) in
/-- The state behind an event. -/
def System.next (grants : Grants) (s : System) : Event → System
  | .create username isActive isStaff isSuperuser =>
    s.commit (createLocalUser n username isActive isStaff isSuperuser)
  | .bootstrap adminUsername => s.commit (bootstrapInstance n adminUsername)
  | .change now actor target tenant change reauthenticated =>
    s.commit (changeIdentity n grants now actor target tenant change reauthenticated)
  | .delete id => s.commit (deleteUser id)
  | .account x =>
    match s.db.users.get? x.id with
    | none => s
    | some old => { s with db := { s.db with
        users := s.db.users.save { x with username := old.username } } }
  | .records memberships tenants => { s with db := { s.db with memberships, tenants } }
  | .authenticate id =>
    match s.db.users.get? id with
    | none => s
    | some x => { s with seen := (x.id, x.username) :: s.seen }
  | .enqueue tenant requester =>
    if requester ∈ s.seen then
      { s with db := { s.db with
        operations := ⟨tenant, requester.2, requester.1, false⟩ :: s.db.operations } }
    else s

variable (n) in
def Step (grants : Grants) (s : System) (e : Event) (t : System) : Prop := t = s.next n grants e

variable (n) in
/-- The names are reserved by the migration, and nothing is queued yet. -/
structure Initial (s : System) : Prop where
  reserved : reserveExistingNames n s.db.users.rows = some s.db.reservations
  ids : ∀ x ∈ s.db.users.rows, x.id < s.db.nextId
  operations : s.db.operations = []
  seen : s.seen = []

/-! ## The invariant -/

variable (n) in
/-- The name is reserved for the user, or for nobody any more. -/
def Named (s : Identities) (user : Nat) (username : String) : Prop :=
  ∃ r, s.reservations.get? (n.normalizeUsername username) = some r ∧
    (r.user = some user ∨ r.user = none)

variable (n) in
/-- What holds in every reachable state. -/
structure Inv (s : System) : Prop where
  held : AllHeld n s.db
  ids : ∀ x ∈ s.db.users.rows, x.id < s.db.nextId
  seen : ∀ e ∈ s.seen, Named n s.db e.1 e.2
  operations : ∀ o ∈ s.db.operations, Named n s.db o.queuedBy o.requestedBy

section
variable {s t : System} {grants : Grants}

theorem Named.kept {s t : Identities} {user : Nat} {username : String}
    (h : Named n s user username) (hkept : ReservationsKept s t) : Named n t user username := by
  obtain ⟨r, hr, huser⟩ := h
  obtain ⟨q, hq, hqr⟩ := hkept _ r hr
  refine ⟨q, hq, ?_⟩
  rcases hqr with hsame | hnone
  · rw [hsame]
    exact huser
  · exact .inr hnone

/-- The migration gives every account the reservation of its name. -/
theorem reserveExistingNames_held {users : List Principal}
    {start reservations : Table UsernameReservation String UsernameReservation.normalizedUsername}
    (h : users.foldlM (fun reservations x =>
      reservations.insert ⟨n.normalizeUsername x.username, some x.id⟩) start = some reservations) :
    (∀ name r, start.get? name = some r → reservations.get? name = some r) ∧
      ∀ x ∈ users, reservations.get? (n.normalizeUsername x.username) =
        some ⟨n.normalizeUsername x.username, some x.id⟩ := by
  induction users generalizing start with
  | nil =>
    cases h
    exact ⟨fun _ _ hr => hr, nofun⟩
  | cons x users ih =>
    rw [List.foldlM_cons] at h
    obtain ⟨next, hinsert, hrest⟩ := Option.bind_eq_some_iff.mp h
    obtain ⟨hkept, hnew⟩ := ih hrest
    have hget := get?_insert hinsert
    constructor
    · intro name r hr
      refine hkept name r ((hget name).trans ?_)
      rw [if_neg, hr]
      intro heq
      subst heq
      rw [(insert_eq_some hinsert).1] at hr
      cases hr
    · intro y hy
      rcases List.mem_cons.mp hy with rfl | hy
      · exact hkept _ _ ((hget _).trans (if_pos rfl))
      · exact hnew y hy

theorem Inv.init (h : Initial n s) : Inv n s := by
  refine ⟨fun x hx => ?_, h.ids, ?_, ?_⟩
  · exact ⟨_, (reserveExistingNames_held h.reserved).2 x hx, rfl⟩
  · rw [h.seen]
    nofun
  · rw [h.operations]
    nofun

theorem Inv.kept (h : Inv n s) {db : Identities} (hkept : NamesKept n s.db db) :
    Inv n { s with db } := by
  refine ⟨hkept.held h.held, fun x hx => ?_,
    fun e he => (h.seen e he).kept hkept.reservations, fun o ho => ?_⟩
  · rcases hkept.ids.users x hx with ⟨y, hy, hyx⟩ | hnew
    · rw [← hyx]
      exact Nat.lt_of_lt_of_le (h.ids y hy) hkept.ids.next
    · exact hnew.2
  obtain ⟨p, hp, hname, huser⟩ := hkept.operations o ho
  have hnamed := (h.operations p hp).kept hkept.reservations
  rwa [← hname, ← huser] at hnamed

/-- What a step does to names: it keeps them, and what it queues is under a name that was read. -/
theorem Step.cases {e : Event} (h : Step n grants s e t) :
    (NamesKept n s.db t.db ∧ (t.seen = s.seen ∨ ∃ x ∈ s.db.users.rows, t.db = s.db ∧
      t.seen = (x.id, x.username) :: s.seen)) ∨
    ∃ tenant, ∃ requester ∈ s.seen, t = { s with db := { s.db with
      operations := ⟨tenant, requester.2, requester.1, false⟩ :: s.db.operations } } := by
  have hcommit : ∀ {α : Type} {request : Request α},
      request.Yields (fun _ db => NamesKept n s.db db) s.db →
        NamesKept n s.db (s.commit request).db ∧ (s.commit request).seen = s.seen := by
    intro α request hrequest
    unfold System.commit
    cases hresult : request.exec s.db with
    | error e => exact ⟨.refl s.db, rfl⟩
    | ok r => exact ⟨hrequest r.1 r.2 hresult, rfl⟩
  rw [show t = s.next n grants e from h]
  cases e with
  | create username isActive isStaff isSuperuser =>
    obtain ⟨hkept, hseen⟩ := hcommit
      ((createLocalUser_yields username isActive isStaff isSuperuser).mono fun _ _ hx => hx.1)
    exact .inl ⟨hkept, .inl hseen⟩
  | bootstrap adminUsername =>
    obtain ⟨hkept, hseen⟩ := hcommit (bootstrapInstance_yields adminUsername)
    exact .inl ⟨hkept, .inl hseen⟩
  | change now actor target tenant change reauthenticated =>
    obtain ⟨hkept, hseen⟩ := hcommit
      (changeIdentity_yields grants now actor target tenant change reauthenticated)
    exact .inl ⟨hkept, .inl hseen⟩
  | delete id =>
    obtain ⟨hkept, hseen⟩ := hcommit (deleteUser_yields (n := n) id)
    exact .inl ⟨hkept, .inl hseen⟩
  | account x =>
    unfold System.next
    simp only
    split
    · exact .inl ⟨.refl s.db, .inl rfl⟩
    · next old hold =>
        exact .inl ⟨resaved_kept (get?_mem hold) (get?_key hold).symm rfl, .inl rfl⟩
  | records memberships tenants =>
    exact .inl ⟨.of_eq rfl rfl (fun x hx => ⟨x, hx, rfl, rfl⟩) fun o ho => ⟨o, ho, rfl, rfl⟩,
      .inl rfl⟩
  | authenticate id =>
    unfold System.next
    simp only
    split
    · exact .inl ⟨.refl s.db, .inl rfl⟩
    · next x hx => exact .inl ⟨.refl s.db, .inr ⟨x, get?_mem hx, rfl, rfl⟩⟩
  | enqueue tenant requester =>
    unfold System.next
    simp only
    split
    · next hseen => exact .inr ⟨tenant, requester, hseen, rfl⟩
    · exact .inl ⟨.refl s.db, .inl rfl⟩

theorem Step.inv {e : Event} (h : Step n grants s e t) (hs : Inv n s) : Inv n t := by
  rcases h.cases with ⟨hkept, hseen | ⟨x, hx, hdb, hseen⟩⟩ | ⟨tenant, requester, hread, rfl⟩
  · have ht := hs.kept hkept
    exact ⟨ht.held, ht.ids, fun e he => ht.seen e (by rw [← hseen]; exact he), ht.operations⟩
  · -- a user who is authenticated holds its name
    refine ⟨by rw [hdb]; exact hs.held, by rw [hdb]; exact hs.ids, fun e he => ?_,
      by rw [hdb]; exact hs.operations⟩
    rw [hseen] at he
    rw [hdb]
    rcases List.mem_cons.mp he with rfl | he
    · obtain ⟨r, hr, huser⟩ := hs.held x hx
      exact ⟨r, hr, .inl huser⟩
    · exact hs.seen e he
  · refine ⟨hs.held, hs.ids, hs.seen, fun o ho => ?_⟩
    rcases List.mem_cons.mp ho with rfl | ho
    · exact hs.seen requester hread
    · exact hs.operations o ho

theorem Step.later {e : Event} (h : Step n grants s e t) :
    ReservationsKept s.db t.db ∧ IdsKept s.db t.db := by
  rcases h.cases with ⟨hkept, -⟩ | ⟨tenant, requester, hread, rfl⟩
  · exact ⟨hkept.reservations, hkept.ids⟩
  · exact ⟨.refl s.db, .of_users rfl fun x hx => ⟨x, hx, rfl⟩⟩

theorem later_of_run {es : List Event} (h : Run (Step n grants) s es t) :
    ReservationsKept s.db t.db ∧ IdsKept s.db t.db := by
  induction h with
  | nil s => exact ⟨.refl s.db, .of_users rfl fun x hx => ⟨x, hx, rfl⟩⟩
  | cons hstep _ ih =>
    exact ⟨hstep.later.1.trans ih.1, hstep.later.2.trans ih.2⟩

theorem same_user {s t : Identities} (hs : AllHeld n s) (ht : AllHeld n t)
    (hkept : ReservationsKept s t) {x y : Principal} (hx : x ∈ s.users.rows) (hy : y ∈ t.users.rows)
    (hname : n.normalizeUsername x.username = n.normalizeUsername y.username) : x.id = y.id := by
  obtain ⟨r, hr, hrx⟩ := hs x hx
  obtain ⟨q, hq, hqy⟩ := ht y hy
  obtain ⟨p, hp, hpr⟩ := hkept _ r hr
  rw [hname, hq] at hp
  obtain rfl := Option.some.inj hp
  rcases hpr with hsame | hnone
  · exact Option.some.inj (hrx.symm.trans (hsame.symm.trans hqy))
  · rw [hqy] at hnone
    cases hnone

theorem Inv.authorized (h : Inv n s) {o : QueuedOperation} (ho : o ∈ s.db.operations)
    {x : Principal} (hx : s.db.queuedActor o.requestedBy = some x) : x.id = o.queuedBy := by
  have hfound := List.find?_some hx
  rw [Bool.and_eq_true, beq_iff_eq] at hfound
  obtain ⟨r, hr, hrx⟩ := h.held x (List.mem_of_find?_eq_some hx)
  obtain ⟨q, hq, hqo⟩ := h.operations o ho
  rw [hfound.1, hq] at hr
  obtain rfl := Option.some.inj hr
  rcases hqo with hsame | hnone
  · exact Option.some.inj (hrx.symm.trans hsame)
  · rw [hrx] at hnone
    cases hnone

end

/-! ## Names are permanent -/

/-- What a run promises of names: between any two of its states, a name is of one user, a
reservation is of one user, and no key comes back; and an operation that is allowed is
authorized as the user who queued it. -/
structure NamesPermanent (n : NameRules) (grants : Grants) (s : System) (es : List Event)
    (t : System) : Prop where
  names : ∀ u v before between after, es = before ++ between ++ after →
    Run (Step n grants) s before u → Run (Step n grants) u between v →
      ∀ x ∈ u.db.users.rows, ∀ y ∈ v.db.users.rows,
        n.normalizeUsername x.username = n.normalizeUsername y.username → x.id = y.id
  reservations : ∀ u v before between after, es = before ++ between ++ after →
    Run (Step n grants) s before u → Run (Step n grants) u between v →
      ReservationsKept u.db v.db
  keys : ∀ u v before between after, es = before ++ between ++ after →
    Run (Step n grants) s before u → Run (Step n grants) u between v →
      ∀ y ∈ v.db.users.rows, y.id < u.db.nextId → ∃ x ∈ u.db.users.rows, x.id = y.id
  actors : ∀ u, Run.Visits (Step n grants) s es t u → ∀ o ∈ u.db.operations, ∀ now permission,
    u.db.queuedActorAllowed grants now o.tenant o.requestedBy permission = true →
      ∃ x, u.db.queuedActor o.requestedBy = some x ∧ x.id = o.queuedBy

/-- Over every run names are permanent. -/
theorem names_permanent (grants : Grants) {s : System} (es : List Event) (t : System)
    (hinit : Initial n s) : NamesPermanent n grants s es t := by
  have hinv : ∀ {u : System} {before : List Event}, Run (Step n grants) s before u → Inv n u :=
    fun hu => hu.preserves (fun _ _ _ hstep hs => hstep.inv hs) (Inv.init hinit)
  refine ⟨?_, ?_, ?_, ?_⟩
  · intro u v before between after _ hu hv x hx y hy hname
    exact same_user (hinv hu).held (hinv (hu.append hv)).held (later_of_run hv).1 hx hy hname
  · intro u v before between after _ _ hv
    exact (later_of_run hv).1
  · intro u v before between after _ _ hv y hy hlt
    rcases (later_of_run hv).2.users y hy with hold | hnew
    · exact hold
    · exact absurd hlt (Nat.not_lt.mpr hnew.1)
  · rintro u ⟨before, after, -, hu, -⟩ o ho now permission hallowed
    unfold Identities.queuedActorAllowed at hallowed
    split at hallowed
    · cases hallowed
    · rw [Bool.and_eq_true] at hallowed
      cases hx : u.db.queuedActor o.requestedBy with
      | none =>
        rw [hx] at hallowed
        cases hallowed.2
      | some x => exact ⟨x, rfl, (hinv hu).authorized ho hx⟩

/-! ### Two users of a portal -/

/-- Names of ASCII text. -/
def asciiNames : NameRules where
  nfkc := id
  casefold := asciiLower
  valid _ := true
  nfkc_nfkc _ := rfl

/-- A member of a tenant. -/
def sampleMember : Principal where
  user := ⟨1, true, false, false, false⟩
  username := "Alice"
  usablePassword := true
  external := false

/-- The member of an active tenant, with the reservation of the migration. -/
def sampleAccounts : System where
  db := {
    users := .single sampleMember
    nextId := 2
    reservations := .single ⟨"alice", some 1⟩
    memberships := [⟨"t", 1, .operator, true, none⟩]
    tenants := .single ⟨"t", .active, .infrastructure⟩
    operations := [] }
  seen := []

/-- The member queues an operation and is renamed; another user asks for the name. -/
def sampleEvents : List Event :=
  [.authenticate 1, .enqueue "t" (1, "Alice"), .change 0 1 1 none (.rename "Bob") true,
    .create "ALICE" true false false, .delete 1, .create "alice" true false false]

theorem names_permanent_sample :
    NamesPermanent asciiNames (fun _ _ _ => true) sampleAccounts sampleEvents
      (sampleEvents.foldl (System.next asciiNames fun _ _ _ => true) sampleAccounts) :=
  names_permanent (fun _ _ _ => true) sampleEvents _
    { reserved := rfl
      ids := fun x hx => by rw [List.mem_singleton.mp hx]; decide
      operations := rfl
      seen := rfl }

end Ipms.Server.Tenants.Names
