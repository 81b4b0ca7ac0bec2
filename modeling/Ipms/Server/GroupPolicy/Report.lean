import Mathlib.Data.Option.Basic
import Ipms.Lib.Datetime
import Ipms.Lib.Fallible
import Ipms.Server.Document

/-
  Ipms.Server.GroupPolicy.Report

  The checks of a native observation of the computer's group policies.  Every
  failure is the same validation error, so a check either passes or does not.
-/

namespace Ipms.Server.GroupPolicy

open Ipms.ManagementJson Ipms.Lib Ipms.Crypto

/-! ## Bounds and names -/

def maxGroupPolicyBytes : Nat := 64 * 1024

def maxGroupPolicyGpos : Nat := 256

/-- `GROUP_POLICY_CLOCK_SKEW`, in microseconds. -/
def clockSkew : Nat := 5 * 60 * 1000000

def fields : List String :=
  ["schema_version", "source", "scope", "status", "observed_at", "domain_dns", "domain_guid", "gpos"]

def gpoFields : List String := ["guid", "version", "status", "processed_at"]

def statuses : List String := ["collected", "incomplete", "unavailable", "not-domain-joined"]

def gpoStatuses : List String := ["applied", "excluded", "failed", "unknown"]

/-! ## Values -/

def utcTimestamp : Value → Option Datetime
  | .str s => Datetime.read s.toList
  | _ => none

/-- The text of a time, as `isoformat` writes it with `Z` for the offset. -/
def timestamp (t : Datetime) : Value := .str (String.ofList t.text)

def canonicalGuid : Value → Option String
  | .str s => if uuidText s && s != "00000000-0000-0000-0000-000000000000" then some s else none
  | _ => none

def canonicalDomain : Value → Option String
  | .str s =>
    let labels := s.toList.splitOn '.'
    if 3 ≤ len s ∧ len s ≤ 253 ∧ 2 ≤ labels.length ∧
        !(labels.all fun label => label.all Agent.Gpo.digit) ∧ labels.all domainLabel then some s
    else none
  | _ => none

/-- JSON with the shortest separators, in ASCII. -/
def asciiJson (v : Value) : Bytes := encode ((dumps v).flatMap escapeAscii)

/-- `_sha256`. -/
def sha256Json (v : Value) : String := sha256 (asciiJson v)

def str? : Value → Option String
  | .str s => some s
  | _ => none

/-- A value that is an integer. -/
def int? : Value → Option Int
  | .int n => some n
  | _ => none

def arr? : Value → Option (List Value)
  | .arr items => some items
  | _ => none

/-- A value that is a dictionary. -/
def obj? : Value → Option (List (String × Value))
  | .obj members => some members
  | _ => none

/-! ## Reports -/

/-- The time a row was processed is not after the observation, and an applied row has one. -/
def processedBefore (observed : Datetime) (status : String) (processedAt : Value) : Bool :=
  if processedAt = .null then status != "applied"
  else (utcTimestamp processedAt).any fun processed => decide (processed ≤ observed)

/-- One row of the policies of a report; returns its identity. -/
def validateGpo (observed : Datetime) (seen : List String) (row : Value) : Option String := do
  let members ← obj? row
  guard (keysAre members gpoFields)
  let version ← (← row.get? "version") |> int?
  guard (0 ≤ version ∧ version ≤ 2 ^ 32 - 1)
  let status ← (← row.get? "status") |> str?
  guard (status ∈ gpoStatuses)
  let identity ← (← row.get? "guid") |> canonicalGuid
  guard (identity ∉ seen)
  guard (processedBefore observed status (← row.get? "processed_at"))
  return identity

/-- The rows of a report one after another. -/
def validateGpos (observed : Datetime) : List String → List Value → Option Unit
  | _, [] => some ()
  | seen, row :: rows => do
    let identity ← validateGpo observed seen row
    validateGpos observed (identity :: seen) rows

/-- A reported domain is the domain of the inventory. -/
def domainMatches (unicode : Unicode) (dns inventoryDomain : Value) : Bool :=
  dns == .null || (canonicalDomain dns).any fun domain =>
    (str? inventoryDomain).any fun inventory => domain == unicode.casefold inventory

/-- The domain of a report fits its status and the inventory. -/
def validDomain (unicode : Unicode) (dns guid inventoryDomain : Value) (status : String)
    (gpos : List Value) : Bool :=
  domainMatches unicode dns inventoryDomain &&
    !(status == "collected" && (dns == .null || guid == .null)) &&
    !(status != "collected" && !gpos.isEmpty) &&
    !(status == "not-domain-joined" && (dns != .null || guid != .null))

/-- `validate_group_policy`: nothing is salvaged from a bad report, and a good one is kept as it
is. -/
def validateGroupPolicy (unicode : Unicode) (value inventoryDomain : Value) (now : Datetime) :
    Option Value := do
  let members ← obj? value
  guard (keysAre members fields)
  guard (value.get? "schema_version" = some (.str "1"))
  guard (value.get? "source" = some (.str "windows-rsop-computer"))
  guard (value.get? "scope" = some (.str "computer"))
  let status ← (← value.get? "status") |> str?
  guard (status ∈ statuses)
  let gpos ← (← value.get? "gpos") |> arr?
  guard (gpos.length ≤ maxGroupPolicyGpos)
  let observed ← (← value.get? "observed_at") |> utcTimestamp
  let latest ← now.later clockSkew
  guard (observed ≤ latest)
  let dns ← value.get? "domain_dns"
  let guid ← value.get? "domain_guid"
  guard (guid = .null ∨ (canonicalGuid guid).isSome)
  guard (validDomain unicode dns guid inventoryDomain status gpos)
  validateGpos observed [] gpos
  guard ((asciiJson value).length ≤ maxGroupPolicyBytes)
  return value

/-! ## What is known of a report -/

/-- The time a report was observed. -/
def observedAt (report : Value) : Option Datetime := (report.get? "observed_at").bind utcTimestamp

/-- `report["domain_guid"]`, unless it is null. -/
def reportedDomain (report : Value) : Option String := (report.get? "domain_guid").bind canonicalGuid

theorem canonicalGuid_eq_some {value : Value} {s : String} (h : canonicalGuid value = some s) :
    value = .str s := by
  cases value with
  | str t =>
    unfold canonicalGuid at h
    dsimp only at h
    split at h
    · exact congrArg Value.str (Option.some.inj h)
    · cases h
  | _ => cases h

/-- What is known of a report that passes. -/
structure Validated (now : Datetime) (report : Value) : Prop where
  observed : ∃ observed latest, observedAt report = some observed ∧
    now.later clockSkew = some latest ∧ observed ≤ latest
  guid : report.get? "domain_guid" = some .null ∧ reportedDomain report = none ∨
    ∃ guid, report.get? "domain_guid" = some (.str guid) ∧ reportedDomain report = some guid

theorem validateGroupPolicy_facts {unicode : Unicode} {value inventoryDomain report : Value}
    {now : Datetime} (h : validateGroupPolicy unicode value inventoryDomain now = some report) :
    report = value ∧ Validated now report := by
  unfold validateGroupPolicy at h
  simp only [Option.bind_eq_bind, Option.bind_eq_some_iff, Option.guard_eq_some', Option.pure_def,
    Option.some.injEq] at h
  obtain ⟨_, _, _, _, _, _, _, _, _, _, _, _, _, _, _, _, _, _, _, _, _, _, at_, hat, observed, hobserved,
    latest, hlatest, _, hle, _, _, guid, hguid, _, hcanonical, _, _, _, _, _, _, rfl⟩ := h
  have hseen : observedAt value = some observed := by
    unfold observedAt
    rw [hat]
    exact hobserved
  refine ⟨rfl, ⟨observed, latest, hseen, hlatest, hle⟩, ?_⟩
  unfold reportedDomain
  rw [hguid]
  rcases hcanonical with rfl | hcanonical
  · exact .inl ⟨rfl, rfl⟩
  · obtain ⟨s, hs⟩ := Option.isSome_iff_exists.mp hcanonical
    exact .inr ⟨s, by rw [canonicalGuid_eq_some hs], hs⟩

end Ipms.Server.GroupPolicy
