import Mathlib.Data.Option.Basic
import Ipms.Lib.Run
import Ipms.Lib.Table
import Ipms.Server.Tenancy

/-
  Ipms.Server.Tenants.Administrators

  The memberships of one tenant and the three views that edit them.  The first
  administrator is created once; from then on the tenant's administrators manage
  its users, each with a membership that may expire by itself.
-/

namespace Ipms.Server.Tenants

open Ipms.Lib
open Option (any_eq_true bind_eq_bind bind_eq_some_iff pure_def some)

/-! ## Memberships -/

/-- `TenantMembership`, with the account of its user. -/
structure Membership where
  id : String
  user : User
  role : Role
  isActive : Bool
  expiresAt : Option Time
  deriving DecidableEq

/-- The rows of `TenantMembership` of the tenant. -/
abbrev Memberships := Table Membership String Membership.id

/-- `effective_memberships`. -/
def Membership.effective (now : Time) (m : Membership) : Bool :=
  isTenantPrincipal m.user && m.isActive && m.expiresAt.all fun t => decide (now < t)

/-- An account with its name. -/
structure Account where
  username : String
  user : User
  deriving DecidableEq

/-- The records of one tenant. -/
structure State where
  now : Time
  status : TenantStatus
  initialAdministratorCreatedAt : Option Time
  accounts : List Account
  memberships : Memberships

def State.administrators (s : State) (now : Time) : List Membership :=
  s.memberships.rows.filter fun m => m.role == .tenantAdmin && m.effective now

/-- `has_tenant_permission` of an account for `USERS_MANAGE`, which only the role of a tenant
administrator gives. -/
def State.managesUsers (s : State) (actor : Nat) : Bool :=
  s.status == .active && (s.administrators s.now).any fun m => m.user.id == actor

def State.independentAdministratorHistory (s : State) : Bool :=
  s.memberships.rows.any fun m =>
    m.role == .tenantAdmin && !m.user.isStaff && !m.user.isSuperuser &&
      !m.user.platformAdministrator

/-- `TenantMembership.save`: an administrator closes the creation of the first one for good. -/
def State.recordAdministrator (s : State) (role : Role) : State :=
  if role = .tenantAdmin ∧ s.initialAdministratorCreatedAt = none then
    { s with initialAdministratorCreatedAt := some s.now }
  else s

/-! ## The views -/

section Views

-- the `iexact` of the database on user names
variable (sameName : String → String → Bool)

/-- A request to create a user, as the serializer passes it on. -/
structure UserRequest where
  username : String
  role : Role
  expiresAt : Option Time
  /-- when the serializer compared the expiry with the clock -/
  validatedAt : Time

/-- `validate_expires_at`. -/
def expiryValid (expiresAt : Option Time) (validatedAt : Time) : Bool :=
  expiresAt.all fun t => decide (validatedAt < t)

/-- `create_local_user`: an active account that belongs to no platform role. -/
def newUser (id : Nat) : User := ⟨id, true, false, false, false⟩

/-- A new account with its membership. -/
def State.create (s : State) (userId : Nat) (membershipId : String) (request : UserRequest) :
    Option State := do
  guard ((s.accounts.any fun a => sameName a.username request.username) = false)
  guard ((s.accounts.any fun a => a.user.id == userId) = false)
  let m : Membership := ⟨membershipId, newUser userId, request.role, true, request.expiresAt⟩
  let memberships ← s.memberships.insert m
  pure { s.recordAdministrator request.role with
    memberships
    accounts := ⟨request.username, newUser userId⟩ :: s.accounts }

/-- `InitialTenantAdministratorView.post`. -/
def State.createInitialAdministrator (s : State) (userId : Nat) (membershipId username : String) :
    Option State := do
  guard (s.status ≠ .decommissioned)
  guard (s.initialAdministratorCreatedAt = none ∧ s.independentAdministratorHistory = false)
  s.create sameName userId membershipId ⟨username, .tenantAdmin, none, s.now⟩

/-- `TenantUserListCreateView.post`. -/
def State.createUser (s : State) (actor userId : Nat) (membershipId : String)
    (request : UserRequest) : Option State := do
  guard (request.validatedAt ≤ s.now ∧ expiryValid request.expiresAt request.validatedAt = true)
  guard (s.managesUsers actor = true)
  s.create sameName userId membershipId request

/-- The changes of a request, as the serializer passes them on. -/
structure Changes where
  role : Option Role
  isActive : Option Bool
  expiresAt : Option (Option Time)
  validatedAt : Time

def Membership.apply (m : Membership) (changes : Changes) : Membership :=
  { m with
    role := changes.role.getD m.role
    isActive := changes.isActive.getD m.isActive
    expiresAt := changes.expiresAt.getD m.expiresAt }

def Membership.removesTenantAdmin (m : Membership) (changes : Changes) : Bool :=
  let resulting := m.apply changes
  m.role == .tenantAdmin &&
    (resulting.role != .tenantAdmin || !resulting.isActive || resulting.expiresAt.isSome)

/-- `TenantUserDetailView.patch`. -/
def State.patch (s : State) (actor : Nat) (pk : String) (changes : Changes) : Option State := do
  guard (changes.role.isSome ∨ changes.isActive.isSome ∨ changes.expiresAt.isSome)
  guard (changes.validatedAt ≤ s.now ∧
    changes.expiresAt.all (expiryValid · changes.validatedAt) = true)
  guard (s.managesUsers actor = true)
  let m ← s.memberships.get? pk
  guard (m.user.isStaff = false ∧ m.user.isSuperuser = false ∧ m.user.platformAdministrator = false)
  guard (m.removesTenantAdmin changes = true →
    ((s.administrators s.now).any fun other => other.id != m.id) = true ∧ m.user.id ≠ actor)
  pure { s.recordAdministrator (m.apply changes).role with
    memberships := s.memberships.save (m.apply changes) }

/-- The steps of the tenant: the three views, a change of its status and the passage of time. -/
inductive Event where
  | createInitialAdministrator (userId : Nat) (membershipId username : String)
  | createUser (actor userId : Nat) (membershipId : String) (request : UserRequest)
  | patch (actor : Nat) (pk : String) (changes : Changes)
  | setStatus (status : TenantStatus)
  | tick (later : Time)

/-- One step; a refused request is no step. -/
def State.step (s : State) : Event → Option State
  | .createInitialAdministrator userId membershipId username =>
    s.createInitialAdministrator sameName userId membershipId username
  | .createUser actor userId membershipId request =>
    s.createUser sameName actor userId membershipId request
  | .patch actor pk changes => s.patch actor pk changes
  | .setStatus status => some { s with status }
  | .tick later => if s.now ≤ later then some { s with now := later } else none

/-- A step as a relation. -/
def Step (s : State) (event : Event) (t : State) : Prop := s.step sameName event = some t

/-- A tenant before its first membership. -/
def State.Initial (s : State) : Prop :=
  s.initialAdministratorCreatedAt = none ∧ s.memberships.rows = []

end Views

/-! ## Administrators without an expiry -/

/-- An administrator whose membership does not lapse by itself. -/
def Membership.permanent (m : Membership) : Bool :=
  m.role == .tenantAdmin && isTenantPrincipal m.user && m.isActive && m.expiresAt.isNone

theorem Membership.permanent_effective {m : Membership} (h : m.permanent = true) (now : Time) :
    m.role = .tenantAdmin ∧ m.effective now = true := by
  simp only [Membership.permanent, Bool.and_eq_true, beq_iff_eq, Option.isNone_iff_eq_none] at h
  obtain ⟨⟨⟨hrole, hprincipal⟩, hactive⟩, hexpiry⟩ := h
  refine ⟨hrole, ?_⟩
  simp [Membership.effective, hprincipal, hactive, hexpiry]

/-- The tenant has at every time from now on an administrator, as far as its memberships go. -/
def Continues (s : State) : Prop :=
  s.initialAdministratorCreatedAt ≠ none →
    ∀ later, s.now ≤ later → s.administrators later ≠ []

/-- Some administrator is permanent. -/
def Anchored (s : State) : Prop := ∃ m ∈ s.memberships.rows, m.permanent = true

theorem exists_after (rows : List Membership) (now : Time) :
    ∃ later, now ≤ later ∧ ∀ m ∈ rows, ∀ t, m.expiresAt = some t → t ≤ later := by
  induction rows with
  | nil => exact ⟨now, Int.le_refl now, fun _ h => nomatch h⟩
  | cons m rows ih =>
    obtain ⟨later, hnow, hlater⟩ := ih
    refine ⟨max later (m.expiresAt.getD later), Int.le_trans hnow (Int.le_max_left _ _), fun other hother t ht => ?_⟩
    rcases List.mem_cons.mp hother with rfl | hmem
    · rw [ht]
      exact Int.le_max_right later t
    · exact Int.le_trans (hlater other hmem t ht) (Int.le_max_left _ _)

theorem continues_iff (s : State) :
    Continues s ↔ (s.initialAdministratorCreatedAt ≠ none → Anchored s) := by
  constructor
  · intro h hcreated
    obtain ⟨later, hnow, hexpired⟩ := exists_after s.memberships.rows s.now
    obtain ⟨m, hm⟩ := List.exists_mem_of_ne_nil _ (h hcreated later hnow)
    simp only [State.administrators, List.mem_filter, Membership.effective, Bool.and_eq_true,
      beq_iff_eq] at hm
    obtain ⟨hrow, hrole, ⟨hprincipal, hactive⟩, hunexpired⟩ := hm
    refine ⟨m, hrow, ?_⟩
    have hexpiry : m.expiresAt = none := by
      cases hexpiry : m.expiresAt with
      | none => rfl
      | some t =>
        rw [hexpiry, Option.all_some, decide_eq_true_eq] at hunexpired
        exact absurd (Int.lt_of_lt_of_le hunexpired (hexpired m hrow t hexpiry))
          (Int.lt_irrefl later)
    simp [Membership.permanent, hrole, hprincipal, hactive, hexpiry]
  · intro h hcreated later _
    obtain ⟨m, hrow, hpermanent⟩ := h hcreated
    obtain ⟨hrole, heffective⟩ := Membership.permanent_effective hpermanent later
    apply List.ne_nil_of_mem (a := m)
    rw [State.administrators, List.mem_filter, hrole, heffective]
    exact ⟨hrow, rfl⟩

/-! ## Steps -/

variable {s t : State}

section Steps

variable {sameName : String → String → Bool}

/-- Whoever is an administrator has closed the creation of the first one. -/
def Recorded (s : State) : Prop :=
  ∀ m ∈ s.memberships.rows, m.role = .tenantAdmin → s.initialAdministratorCreatedAt ≠ none

theorem State.recordAdministrator_closed {role : Role}
    (h : role = .tenantAdmin ∨ s.initialAdministratorCreatedAt ≠ none) :
    (s.recordAdministrator role).initialAdministratorCreatedAt ≠ none := by
  unfold State.recordAdministrator
  split
  · simp
  · next hnot =>
      rcases h with rfl | hclosed
      · exact fun hnone => hnot ⟨rfl, hnone⟩
      · exact hclosed

theorem State.create_cases {userId : Nat} {membershipId : String} {request : UserRequest}
    (h : s.create sameName userId membershipId request = some t) : t.memberships.rows =
        ⟨membershipId, newUser userId, request.role, true, request.expiresAt⟩ ::
          s.memberships.rows ∧
      t.initialAdministratorCreatedAt =
        (s.recordAdministrator request.role).initialAdministratorCreatedAt := by
  simp only [State.create, bind_eq_bind, bind_eq_some_iff, pure_def,
    some.injEq] at h
  obtain ⟨_, -, _, -, memberships, hinsert, rfl⟩ := h
  exact ⟨(Table.insert_eq_some hinsert).2, rfl⟩

/-- An edit saves one membership and closes the window if it makes an administrator; its actor
manages users. -/
theorem State.patch_cases {actor : Nat} {pk : String} {changes : Changes}
    (h : s.patch actor pk changes = some t) :
    ∃ m, s.memberships.get? pk = some m ∧ t.memberships = s.memberships.save (m.apply changes) ∧
      t.initialAdministratorCreatedAt =
        (s.recordAdministrator (m.apply changes).role).initialAdministratorCreatedAt ∧
      s.managesUsers actor = true := by
  simp only [State.patch, bind_eq_bind, bind_eq_some_iff, pure_def,
    some.injEq, Option.guard_eq_some'] at h
  obtain ⟨_, -, _, -, _, hactor, m, hm, _, -, _, -, rfl⟩ := h
  exact ⟨m, hm, rfl, rfl, hactor⟩

theorem mem_save_apply {pk : String} {m other : Membership} {changes : Changes}
    (hm : s.memberships.get? pk = some m) : other ∈ (s.memberships.save (m.apply changes)).rows ↔
      other ∈ s.memberships.rows ∧ other.id ≠ m.id ∨ other = m.apply changes := by
  rw [Table.mem_save]
  constructor
  · rintro (⟨hrow, hne⟩ | ⟨hother, -⟩)
    · exact .inl ⟨hrow, hne⟩
    · exact .inr hother
  · rintro (⟨hrow, hne⟩ | hother)
    · exact .inl ⟨hrow, hne⟩
    · exact .inr ⟨hother, m, Table.get?_mem hm, rfl⟩

theorem State.managesUsers_administrator {actor : Nat} (h : s.managesUsers actor = true) :
    ∃ m ∈ s.memberships.rows, m.role = .tenantAdmin := by
  simp only [State.managesUsers, Bool.and_eq_true, List.any_eq_true] at h
  obtain ⟨-, m, hm, -⟩ := h
  simp only [State.administrators, List.mem_filter, Bool.and_eq_true, beq_iff_eq] at hm
  exact ⟨m, hm.1, hm.2.1⟩

theorem recorded_step {event : Event} (h : Step sameName s event t) (hs : Recorded s) :
    Recorded t := by
  have hcreate : ∀ {t : State} {userId membershipId request},
      s.create sameName userId membershipId request = some t → Recorded t := by
    intro t userId membershipId request h
    obtain ⟨hrows, hclosed⟩ := State.create_cases h
    intro m hm hrole
    rw [hclosed]
    apply State.recordAdministrator_closed
    rw [hrows] at hm
    rcases List.mem_cons.mp hm with rfl | hrow
    · exact .inl hrole
    · exact .inr (hs m hrow hrole)
  cases event with
  | createInitialAdministrator userId membershipId username =>
    simp only [Step, State.step, State.createInitialAdministrator, bind_eq_bind,
      bind_eq_some_iff] at h
    obtain ⟨_, -, _, -, h⟩ := h
    exact hcreate h
  | createUser actor userId membershipId request =>
    simp only [Step, State.step, State.createUser, bind_eq_bind,
      bind_eq_some_iff] at h
    obtain ⟨_, -, _, -, h⟩ := h
    exact hcreate h
  | patch actor pk changes =>
    obtain ⟨m, hm, hsave, hclosed, -⟩ := State.patch_cases h
    intro other hother hrole
    rw [hclosed]
    apply State.recordAdministrator_closed
    rw [hsave, mem_save_apply hm] at hother
    rcases hother with ⟨hrow, -⟩ | rfl
    · exact .inr (hs other hrow hrole)
    · exact .inl hrole
  | setStatus status =>
    cases h
    exact hs
  | tick later =>
    simp only [Step, State.step] at h
    split at h
    · cases h
      exact hs
    · cases h

/-- The condition on a step: an edit that ends a permanent administrator leaves another one. -/
def KeepsAdministrator (s : State) : Event → Prop
  | .patch _ pk changes =>
    ∀ m, s.memberships.get? pk = some m → m.permanent = true →
      (m.apply changes).permanent = false →
      ∃ other ∈ s.memberships.rows, other.id ≠ m.id ∧ other.permanent = true
  | _ => True

theorem continues_step {event : Event} (h : Step sameName s event t) (hrecorded : Recorded s)
    (hs : Continues s) : Continues t ↔ KeepsAdministrator s event := by
  rw [continues_iff] at hs ⊢
  -- a creation keeps the permanent administrators, and the first one is permanent
  have hcreate : ∀ {t : State} {userId membershipId} {request : UserRequest},
      s.create sameName userId membershipId request = some t →
      (Anchored s ∨ request.role = .tenantAdmin ∧ request.expiresAt = none) → Anchored t := by
    intro t userId membershipId request h hanchor
    obtain ⟨hrows, -⟩ := State.create_cases h
    rcases hanchor with ⟨m, hrow, hpermanent⟩ | ⟨hrole, hexpiry⟩
    · exact ⟨m, by rw [hrows]; exact List.mem_cons_of_mem _ hrow, hpermanent⟩
    · refine ⟨_, by rw [hrows]; exact List.mem_cons_self, ?_⟩
      simp [Membership.permanent, hrole, hexpiry, isTenantPrincipal, newUser]
  cases event with
  | createInitialAdministrator userId membershipId username =>
    simp only [Step, State.step, State.createInitialAdministrator, bind_eq_bind,
      bind_eq_some_iff] at h
    obtain ⟨_, -, _, -, h⟩ := h
    exact iff_of_true (fun _ => hcreate h (.inr ⟨rfl, rfl⟩)) trivial
  | createUser actor userId membershipId request =>
    simp only [Step, State.step, State.createUser, bind_eq_bind,
      bind_eq_some_iff, Option.guard_eq_some'] at h
    obtain ⟨_, -, _, hactor, h⟩ := h
    obtain ⟨m, hrow, hrole⟩ := State.managesUsers_administrator hactor
    exact iff_of_true (fun _ => hcreate h (.inl (hs (hrecorded m hrow hrole)))) trivial
  | patch actor pk changes =>
    obtain ⟨m, hm, hsave, hclosed, hactor⟩ := State.patch_cases h
    obtain ⟨admin, hadmin, hrole⟩ := State.managesUsers_administrator hactor
    have hcreated := hrecorded admin hadmin hrole
    have hcreated' : t.initialAdministratorCreatedAt ≠ none := by
      rw [hclosed]
      exact State.recordAdministrator_closed (.inr hcreated)
    constructor
    · intro ht m' hm' _ hends
      rw [hm] at hm'
      cases hm'
      obtain ⟨other, hother, hpermanent⟩ := ht hcreated'
      rw [hsave, mem_save_apply hm] at hother
      rcases hother with ⟨hrow, hne⟩ | rfl
      · exact ⟨other, hrow, hne, hpermanent⟩
      · rw [hends] at hpermanent
        cases hpermanent
    · intro hkeeps _
      have hmem : ∀ other, other ∈ s.memberships.rows → other.id ≠ m.id →
          other ∈ t.memberships.rows := by
        intro other hrow hne
        rw [hsave, mem_save_apply hm]
        exact .inl ⟨hrow, hne⟩
      obtain ⟨anchor, hrow, hpermanent⟩ := hs hcreated
      by_cases hself : anchor.id = m.id
      · have hsame : anchor = m := Table.row_unique hrow (Table.get?_mem hm) hself
        rw [hsame] at hpermanent
        cases hends : (m.apply changes).permanent with
        | true =>
          refine ⟨m.apply changes, ?_, hends⟩
          rw [hsave, mem_save_apply hm]
          exact .inr rfl
        | false =>
          obtain ⟨other, hother, hne, hother'⟩ := hkeeps m hm hpermanent hends
          exact ⟨other, hmem other hother hne, hother'⟩
      · exact ⟨anchor, hmem anchor hrow hself, hpermanent⟩
  | setStatus status =>
    cases h
    exact iff_of_true hs trivial
  | tick later =>
    simp only [Step, State.step] at h
    split at h
    · cases h
      exact iff_of_true hs trivial
    · cases h

theorem State.Initial.recorded {s : State} (hs : s.Initial) : Recorded s ∧ Continues s := by
  obtain ⟨hnone, hrows⟩ := hs
  constructor
  · intro m hm
    rw [hrows] at hm
    cases hm
  · exact fun hcreated => absurd hnone hcreated

/-- Along a run from the tenant's creation every state keeps an administrator at every later
time, exactly if every edit that ends a permanent administrator leaves another one. -/
theorem administrators_continue_iff {s t : State} {events : List Event} (hs : s.Initial)
    (h : Run (Step sameName) s events t) :
    (∀ u, Run.Visits (Step sameName) s events t u → Continues u) ↔
      ∀ u event, Run.Takes (Step sameName) s events t u event → KeepsAdministrator u event := by
  apply Run.forall_visits_iff (fun _ _ _ hstep hrecorded => recorded_step hstep hrecorded) _ h
    hs.recorded.1 hs.recorded.2
  exact fun u event v _ hstep hrecorded hu => continues_step hstep hrecorded hu

end Steps

/-! ## A tenant that loses its administrators -/

/-- A tenant as it is created. -/
def sampleState : State where
  now := 0
  status := .active
  initialAdministratorCreatedAt := none
  accounts := []
  memberships := Table.empty

/-- The first administrator creates a second one until time 10, who demotes the first. -/
def sampleEvents : List Event :=
  [.createInitialAdministrator 1 "m-1" "alice",
   .createUser 1 2 "m-2" ⟨"bob", .tenantAdmin, some 10, 0⟩,
   .patch 2 "m-1" ⟨some .reader, none, none, 0⟩,
   .tick 10]

/-- The states after the events, where each of them is a step. -/
def State.runAll (s : State) : List Event → Option State
  | [] => some s
  | event :: events => (s.step (fun a b => a == b) event).bind fun t => t.runAll events

theorem State.run_of_runAll {events : List Event} (h : s.runAll events = some t) :
    Run (Step fun a b => a == b) s events t := by
  induction events generalizing s with
  | nil =>
    cases h
    exact .nil _
  | cons event events ih =>
    obtain ⟨u, hstep, hrest⟩ := bind_eq_some_iff.mp h
    exact .cons hstep (ih hrest)

/-- The last administrator without an expiry may be demoted while another one is about to expire:
at time 10 the tenant has an administrator no more, nobody manages its users, and no first
administrator can be created. -/
theorem administrators_lapse :
    ∃ t, Run (Step fun a b => a == b) sampleState sampleEvents t ∧
      t.initialAdministratorCreatedAt ≠ none ∧ t.administrators t.now = [] ∧
      (∀ actor, t.managesUsers actor = false) ∧
      ∀ userId membershipId username,
        t.createInitialAdministrator (fun a b => a == b) userId membershipId username = none := by
  have hsample : (sampleState.runAll sampleEvents).any (fun t =>
      t.initialAdministratorCreatedAt.isSome && t.administrators t.now == []) = true := by
    decide +kernel
  obtain ⟨t, hrun, h⟩ := (any_eq_true _ _).mp hsample
  simp only [Bool.and_eq_true, beq_iff_eq] at h
  obtain ⟨hcreated, hnone⟩ := h
  have hclosed : t.initialAdministratorCreatedAt ≠ none := by
    intro hnone
    rw [hnone] at hcreated
    cases hcreated
  refine ⟨t, State.run_of_runAll hrun, hclosed, hnone, fun actor => ?_, fun _ _ _ => ?_⟩
  · simp [State.managesUsers, hnone]
  · simp [State.createInitialAdministrator, hclosed, guard, failure]

/-- The first administrator creates a second one without an expiry before it is demoted. -/
theorem administrators_continue_iff_sample :
    ∃ t, t.administrators 1000 ≠ [] ∧
      ((∀ u, Run.Visits (Step fun a b => a == b) sampleState
          [.createInitialAdministrator 1 "m-1" "alice",
           .createUser 1 2 "m-2" ⟨"bob", .tenantAdmin, none, 0⟩,
           .patch 2 "m-1" ⟨some .reader, none, none, 0⟩] t u → Continues u) ↔
        ∀ u event, Run.Takes (Step fun a b => a == b) sampleState
          [.createInitialAdministrator 1 "m-1" "alice",
           .createUser 1 2 "m-2" ⟨"bob", .tenantAdmin, none, 0⟩,
           .patch 2 "m-1" ⟨some .reader, none, none, 0⟩] t u event → KeepsAdministrator u event) := by
  have hsample : (sampleState.runAll
      [.createInitialAdministrator 1 "m-1" "alice",
       .createUser 1 2 "m-2" ⟨"bob", .tenantAdmin, none, 0⟩,
       .patch 2 "m-1" ⟨some .reader, none, none, 0⟩]).any
      (fun t => t.administrators 1000 != []) = true := by
    decide +kernel
  obtain ⟨t, hrun, h⟩ := (any_eq_true _ _).mp hsample
  exact ⟨t, by simpa using h, administrators_continue_iff ⟨rfl, rfl⟩ (State.run_of_runAll hrun)⟩

end Ipms.Server.Tenants
