import Mathlib.Data.List.Basic
import Ipms.Server.Text

/-
  Ipms.Server.Tenancy

  Tenants, users and memberships, and the permissions a membership gives.  Only
  the permissions the group-policy code asks for are listed.
-/

namespace Ipms.Server

/-- `Tenant.Status`. -/
inductive TenantStatus where
  | active | suspended | decommissioned
  deriving DecidableEq

/-- `Tenant.Purpose`. -/
inductive Purpose where
  | infrastructure | hgs
  deriving DecidableEq

/-- A tenant. -/
structure Tenant where
  id : String
  status : TenantStatus
  purpose : Purpose
  deriving DecidableEq

/-- A user account. -/
structure User where
  id : Nat
  isActive : Bool
  isStaff : Bool
  isSuperuser : Bool
  platformAdministrator : Bool
  deriving DecidableEq

/-- `TenantMembership.Role`. -/
inductive Role where
  | tenantAdmin | operator | approver | auditor | reader
  deriving DecidableEq

structure TenantMembership where
  tenant : String
  user : Nat
  role : Role
  isActive : Bool
  expiresAt : Option Time
  deriving DecidableEq

/-- The permissions the group-policy code asks for. -/
inductive Permission where
  | securityGpoImportsRun | securityGpoImportsApprove
  deriving DecidableEq

def rolePermissions : Role → Permission → Bool
  | .tenantAdmin, _ => true
  | .approver, .securityGpoImportsApprove => true
  | _, _ => false

def isTenantPrincipal (user : User) : Bool :=
  user.isActive && !user.isStaff && !user.isSuperuser && !user.platformAdministrator

/-- `effective_memberships`: the filters on the membership's own columns. -/
def effectiveMembership (now : Time) (m : TenantMembership) : Bool :=
  m.isActive && m.expiresAt.all fun t => decide (now < t)

/-- `effective_tenant_role`; the filters on the account are those of a tenant principal. -/
def effectiveTenantRole (memberships : List TenantMembership) (now : Time) (user : User)
    (tenant : Tenant) : Option Role :=
  if !isTenantPrincipal user || tenant.status != .active then none
  else (memberships.find? fun m =>
    m.user == user.id && m.tenant == tenant.id && effectiveMembership now m).map TenantMembership.role

/-- `has_tenant_permission`: an HGS tenant gives none of these. -/
def hasTenantPermission (memberships : List TenantMembership) (now : Time) (user : User)
    (tenant : Tenant) (permission : Permission) : Bool :=
  tenant.purpose != .hgs &&
    (effectiveTenantRole memberships now user tenant).any fun role => rolePermissions role permission

end Ipms.Server
