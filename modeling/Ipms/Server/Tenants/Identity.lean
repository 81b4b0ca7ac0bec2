import Ipms.Lib.Table
import Ipms.Lib.Transaction
import Ipms.Server.Document
import Ipms.Server.Tenancy

/-
  Ipms.Server.Tenants.Identity

  Local accounts and their names.  A name is reserved under its normalized form
  when it is first given, and the reservation stays: it outlives a rename, and the
  deletion of its user leaves it without one.  Queued operations carry the name of
  the user who queued them and are authorized by that name later.
-/

namespace Ipms.Server.Tenants

open Ipms.Lib

/-! ## Names -/

/-- What Python and the user model say of names. -/
structure NameRules where
  /-- `unicodedata.normalize('NFKC', …)` -/
  nfkc : String → String
  /-- `str.casefold` -/
  casefold : String → String
  /-- the validators of the username field -/
  valid : String → Bool
  /-- a normalization form is stable -/
  nfkc_nfkc : ∀ s, nfkc (nfkc s) = nfkc s

def NameRules.normalizeUsername (n : NameRules) (username : String) : String :=
  n.casefold (n.nfkc username)

def NameRules.validateUsername (n : NameRules) (username : String) : Except ServerError String := do
  throwIf (n.valid (n.nfkc username) = false) (.publicApiError "invalid_request" 400)
  pure (n.nfkc username)

/-! ## Tables -/

/-- An account, with what the identity code reads of it. -/
structure Principal where
  user : User
  username : String
  usablePassword : Bool
  /-- an active `ExternalIdentity` -/
  external : Bool
  deriving DecidableEq

/-- The key of an account. -/
def Principal.id (x : Principal) : Nat := x.user.id

structure UsernameReservation where
  normalizedUsername : String
  user : Option Nat
  deriving DecidableEq

/-- A queued operation: the name it carries, and who it was that queued it, which is not stored. -/
structure QueuedOperation where
  tenant : String
  requestedBy : String
  queuedBy : Nat
  withdrawn : Bool
  deriving DecidableEq

/-- The tables of the accounts. -/
structure Identities where
  users : Table Principal Nat Principal.id
  /-- the sequence of the primary key -/
  nextId : Nat
  reservations : Table UsernameReservation String UsernameReservation.normalizedUsername
  memberships : List TenantMembership
  tenants : Table Tenant String Tenant.id
  operations : List QueuedOperation

/-- A request: a transaction over the tables. -/
abbrev Request (α : Type) := Txn Identities ServerError α

/-- The refusal of a name. -/
def nameUnavailable : ServerError := .publicApiError "username_unavailable" 409

section
variable (n : NameRules)

/-- `reserve_existing_names` of the migration; nothing where it raises. -/
def reserveExistingNames (users : List Principal) :
    Option (Table UsernameReservation String UsernameReservation.normalizedUsername) :=
  users.foldlM (fun reservations x =>
    reservations.insert ⟨n.normalizeUsername x.username, some x.id⟩) .empty

def reserveUsername (username : String) (user : Option Nat) (current : Bool) :
    Request UsernameReservation := do
  let normalized := n.normalizeUsername username
  let s ← get
  throwIf (s.users.rows.any fun x =>
    n.normalizeUsername x.username == normalized && user != some x.id) nameUnavailable
  match s.reservations.get? normalized with
  | some existing => do
    throwIf (¬(current = true ∧ user.isSome = true ∧ existing.user = user)) nameUnavailable
    pure existing
  | none =>
    match s.reservations.insert ⟨normalized, user⟩ with
    | none => throw nameUnavailable
    | some reservations => do
      set { s with reservations }
      pure ⟨normalized, user⟩

/-- `create_user`: the name is normalized and the key is the next of the sequence. -/
def createUser (username : String) (isActive isStaff isSuperuser : Bool) : Request Principal := do
  let s ← get
  let x : Principal :=
    { user := ⟨s.nextId, isActive, isStaff, isSuperuser, false⟩, username := n.nfkc username
      usablePassword := true, external := false }
  throwIf (s.users.rows.any fun y => y.username == x.username) .integrityError
  match s.users.insert x with
  | none => throw .integrityError
  | some users => do
    set { s with users, nextId := s.nextId + 1 }
    pure x

def createLocalUser (username : String) (isActive isStaff isSuperuser : Bool) :
    Request Principal := do
  let username ← Txn.ofExcept (n.validateUsername username)
  let reservation ← reserveUsername n username none false
  let x ← createUser n username isActive isStaff isSuperuser
  modify fun s => { s with
    reservations := s.reservations.save { reservation with user := some x.id } }
  pure x

/-! ## Changes of an identity -/

def Principal.canManageOwnIdentity (x : Principal) : Bool :=
  x.user.isActive && !x.user.isStaff && !x.user.isSuperuser &&
    (isTenantPrincipal x.user || x.user.platformAdministrator)

/-- `is_local_identity`. -/
def Principal.local (x : Principal) : Bool := x.usablePassword && !x.external

/-- What a permission of a role in a tenant is called. -/
abbrev Grants := Purpose → Role → String → Bool

/-- `has_tenant_permission`; `grants` is what a role may in a tenant of a purpose. -/
def Identities.hasPermission (s : Identities) (grants : Grants) (now : Time) (x : Principal)
    (tenant : Tenant) (permission : String) : Bool :=
  (effectiveTenantRole s.memberships now x.user tenant).any fun role =>
    grants tenant.purpose role permission

def Identities.checkTarget (s : Identities) (target : Principal) (tenant : Option String)
    (actor : Principal) (password : Bool) : Except ServerError Unit := do
  throwIf (target.user.isActive = false) (.publicApiError "user_inactive" 409)
  match tenant with
  | some tenant => do
    throwIf (isTenantPrincipal target.user = false) (.publicApiError "user_not_found" 404)
    throwIf (s.memberships.any fun m => m.user == target.id && m.tenant != tenant)
      (.publicApiError "shared_identity_protected" 409)
    throwIf (password = true ∧ target.id = actor.id)
      (.publicApiError "self_password_reset_denied" 409)
  | none => throwIf (target.canManageOwnIdentity = false) (.publicApiError "forbidden" 403)
  throwIf (target.local = false) (.publicApiError "external_identity_managed" 409)

/-- What a request changes of an identity; of a new password, whether it is strong enough. -/
inductive IdentityChange where
  | rename (username : String)
  | password (strong : Bool)
  deriving DecidableEq

/-- `withdraw_identity_operations`: the operations under the name are withdrawn. -/
def withdrawIdentityOperations (actor : String) : Request Unit :=
  modify fun s => { s with
    operations := s.operations.map fun o =>
      if o.requestedBy = actor then { o with withdrawn := true } else o }

/-- The `rename` of an identity. -/
def renameIdentity (target : Principal) (username : String) : Request Unit := do
  let before := target.username
  let _ ← reserveUsername n before (some target.id) true
  if n.normalizeUsername username ≠ n.normalizeUsername before then
    let _ ← reserveUsername n username (some target.id) false
  withdrawIdentityOperations before
  let s ← get
  throwIf (s.users.rows.any fun y => y.username == username && y.id != target.id) nameUnavailable
  set { s with users := s.users.save { target with username } }

/-- The new password of an identity. -/
def changePassword (target : Principal) (strong : Bool) : Request Unit := do
  throwIf (strong = false) (.publicApiError "weak_password" 400)
  withdrawIdentityOperations target.username
  modify fun s => { s with users := s.users.save { target with usablePassword := true } }

/-- `change_identity`, of a member where a tenant is selected; `reauthenticated` is whether the
session and the current password are those of the actor.  The serializer validates a new name. -/
def changeIdentity (grants : Grants) (now : Time) (actor target : Nat) (tenant : Option String)
    (change : IdentityChange) (reauthenticated : Bool) : Request Unit := do
  let s ← get
  let member := tenant.all fun tenant =>
    s.memberships.any fun m => m.tenant == tenant && m.user == target
  throwIf (member = false ∨ tenant = none ∧ target ≠ actor) (.publicApiError "user_not_found" 404)
  match s.users.get? actor, s.users.get? target with
  | some actor, some target => do
    let permitted := tenant.all fun tenant => (s.tenants.get? tenant).any fun tenant =>
      s.hasPermission grants now actor tenant "users.manage"
    throwIf (permitted = false) (.publicApiError "forbidden" 403)
    Txn.ofExcept (s.checkTarget target tenant actor (change matches .password _))
    throwIf (actor.canManageOwnIdentity = false ∨ actor.local = false ∨ reauthenticated = false)
      (.publicApiError "current_password_invalid" 403)
    match change with
    | .rename username => do
      let username ← Txn.ofExcept (n.validateUsername username)
      renameIdentity n target username
    | .password strong => changePassword target strong
  | _, _ => throw (.publicApiError "user_not_found" 404)

def bootstrapInstance (adminUsername : String) : Request Unit := do
  let username ← Txn.ofExcept (n.validateUsername adminUsername)
  let s ← get
  match s.users.rows.find? fun x => x.username == username with
  | none => do
    let x ← createLocalUser n username true false false
    modify fun s => { s with
      users := s.users.save { x with user := { x.user with platformAdministrator := true } } }
  | some x => do
    throwIf (x.user.platformAdministrator = false ∨ x.user.isActive = false ∨
        x.user.isStaff = true ∨ x.user.isSuperuser = true ∨
        (s.memberships.any fun m => m.user == x.id) = true)
      (.validationError "The bootstrap username is already assigned to another identity; no privileges were changed.")
    let _ ← reserveUsername n x.username (some x.id) true

end

/-- The deletion of a user: its memberships go, its reservations lose their user. -/
def deleteUser (id : Nat) : Request Unit :=
  modify fun s => { s with
    users := s.users.delete id
    memberships := s.memberships.filter fun m => m.user != id
    reservations := s.reservations.mapRows
      (fun r => if r.user = some id then { r with user := none } else r)
      fun r => by split <;> rfl }

/-- The user a queued operation is authorized as. -/
def Identities.queuedActor (s : Identities) (actor : String) : Option Principal :=
  s.users.rows.find? fun x => x.username == actor && x.user.isActive

def Identities.queuedActorAllowed (s : Identities) (grants : Grants) (now : Time) (tenant : String)
    (actor permission : String) : Bool :=
  match s.tenants.get? tenant with
  | none => false
  | some tenant => tenant.status == .active &&
      (s.queuedActor actor).any fun x => s.hasPermission grants now x tenant permission

end Ipms.Server.Tenants
