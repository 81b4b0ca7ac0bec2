import Mathlib.Data.List.Basic
import Ipms.ManagementJson.Serialize

/-
  Ipms.Agent.Gpo.Text

  The text checks of the agent's group-policy contract: GUIDs, digests, SIDs,
  DNS and distinguished names, principals and time stamps.
-/

namespace Ipms.Agent.Gpo

open Ipms.ManagementJson

/-- A point in time, in microseconds since the epoch. -/
abbrev Time := Int

/-- Seconds as a span of time. -/
def seconds (n : Int) : Time := n * 1000000

/-- `throw operation_error(code)`. -/
def operationError (code : String) : Exn := ⟨code⟩

/-- The byte length of a text. -/
def size (s : String) : Nat := (utf8 s).length

/-- A lowercase hexadecimal digit. -/
def lowerHex (c : Char) : Bool :=
  decide ('0' ≤ c) && decide (c ≤ '9') || decide ('a' ≤ c) && decide (c ≤ 'f')

/-- A decimal digit. -/
def digit (c : Char) : Bool := decide ('0' ≤ c) && decide (c ≤ '9')

/-- The number a list of decimal digits stands for. -/
def digitsValue (cs : List Char) : Nat := cs.foldl (fun n c => 10 * n + (c.toNat - 48)) 0

/-- Text without control characters, within a length. -/
def clean (s : String) (maximum : Nat) (empty : Bool := false) : Bool :=
  (empty || s != "") && decide (size s ≤ maximum) &&
    s.toList.all fun c => !(decide (c.toNat < 32) || c.toNat == 127)

/-- A SHA-256 digest in lowercase hexadecimal. -/
def digest (s : String) : Bool :=
  s.toList.length == 64 && s.toList.all lowerHex

/-- A text without the ASCII capitals. -/
def lower (s : String) : String := String.ofList (s.toList.map Char.toLower)

/-- One numeric part of a SID, without leading zeros and within its maximum. -/
def sidPart (part : List Char) (maximum : Nat) : Bool :=
  !part.isEmpty && !(decide (part.length > 1) && part.head? == some '0') &&
    part.all digit && decide (digitsValue part ≤ maximum)

/-- The parts of a SID after `S-1-`: an authority and up to fifteen sub-authorities. -/
def sidParts : List (List Char) → Bool
  | [] => false
  | authority :: rest =>
    sidPart authority 281474976710655 && rest.all (sidPart · 4294967295) &&
      decide (2 ≤ rest.length + 1) && decide (rest.length + 1 ≤ 16)

/-- A security identifier. -/
def sid (s : String) : Bool :=
  "S-1-".toList.isPrefixOf s.toList && decide (size s ≤ 184) && s.toList.getLast? != some '-' &&
    sidParts ((s.toList.drop 4).splitOn '-')

/-- An unsigned decimal of at most twenty digits. -/
def decimal (s : String) : Bool :=
  s != "" && decide (s.toList.length ≤ 20) &&
    (s.toList.length == 1 || s.toList.head? != some '0') && s.toList.all digit

/-- One label of a DNS name. -/
def dnsLabel (label : List Char) : Bool :=
  !label.isEmpty && decide (label.length ≤ 63) && label.head? != some '-' &&
    label.getLast? != some '-' &&
    label.all fun c => decide ('a' ≤ c) && decide (c ≤ 'z') || digit c || c == '-'

/-- A lowercase DNS name of at least two labels. -/
def dns (s : String) : Bool :=
  s != "" && decide (size s ≤ 253) && s.toList.contains '.' &&
    (s.toList.splitOn '.').all dnsLabel

/-- The separators of a GUID. -/
def uuidSeparator (i : Nat) : Bool := i == 8 || i == 13 || i == 18 || i == 23

/-- A non-zero GUID in lowercase without braces. -/
def validUuid (s : String) : Bool :=
  s.toList.length == 36 &&
    (s.toList.zipIdx.all fun (c, i) => if uuidSeparator i then c == '-' else lowerHex c) &&
    s.toList.zipIdx.any fun (c, i) => !uuidSeparator i && c != '0'

/-- Lower only the hexadecimal capitals. -/
def lowerHexCapitals (cs : List Char) : List Char :=
  cs.map fun c => if decide ('A' ≤ c) && decide (c ≤ 'F') then c.toLower else c

/-- The GUID inside a pair of braces, or the text itself. -/
def withoutBraces (s : String) : List Char :=
  let cs := s.toList
  if cs.length == 38 && cs.head? == some '{' && cs.getLast? == some '}' then (cs.drop 1).take 36
  else cs

/-- The two default policies, which nothing may manage. -/
def protectedGpo (s : String) : Bool :=
  let lowered := lowerHexCapitals (withoutBraces s)
  lowered == "31b2f340-016d-11d2-945f-00c04fb984f9".toList ||
    lowered == "6ac1786c-016f-11d2-945f-00c04fb984f9".toList

/-- The distinguished-name suffix of a domain, `,dc=a,dc=b` for `a.b`. -/
def dcSuffix (domain : String) : List Char :=
  (domain.toList.splitOn '.').flatMap fun label => ",dc=".toList ++ label

/-- The distinguished name of an organizational unit of a domain. -/
def ouDn (value domain : String) : Bool :=
  clean value 2048 && !value.toList.contains '/' &&
    (let dn := (lower value).toList
     "ou=".toList.isPrefixOf dn && decide (dn.length > (dcSuffix domain).length) &&
       (dcSuffix domain).isSuffixOf dn)

/-- The distinguished name of a domain, `dc=a,dc=b` for `a.b`. -/
def rootDn (domain : String) : String :=
  String.ofList ((dcSuffix domain).drop 1)

/-- A positive identifier of a portal user. -/
def principal (s : String) : Bool :=
  let maximum := "9223372036854775807"
  s != "" && decide (s.toList.length ≤ maximum.toList.length) &&
    (s.toList.head?.any fun c => decide ('1' ≤ c) && decide (c ≤ '9')) && s.toList.all digit &&
    decide (digitsValue s.toList ≤ 9223372036854775807)

/-! ## Time stamps -/

/-- Leap years of the Gregorian calendar. -/
def leapYear (y : Nat) : Bool := y % 4 == 0 && (y % 100 != 0 || y % 400 == 0)

def daysInMonth (y m : Nat) : Nat :=
  if m == 2 then (if leapYear y then 29 else 28)
  else if m == 4 || m == 6 || m == 9 || m == 11 then 30 else 31

/-- The days of a year before the first of a month. -/
def daysBeforeMonth (y m : Nat) : Nat :=
  ((List.range m).drop 1).foldl (fun n k => n + daysInMonth y k) 0

/-- The days from the first of January 1970 to a date from then on. -/
def daysSinceEpoch (y m d : Nat) : Nat :=
  let leaps (n : Nat) := n / 4 - n / 100 + n / 400
  (y - 1970) * 365 + (leaps (y - 1) - leaps 1969) + daysBeforeMonth y m + (d - 1)

/-- The number at a place of a time stamp, if it consists of digits. -/
def stampNumber (cs : List Char) (i n : Nat) : Option Nat :=
  let part := (cs.drop i).take n
  if part.length == n && part.all digit then some (digitsValue part) else none

/-- The instant a time stamp `YYYY-MM-DDThh:mm:ssZ` between 2020 and 2100 names. -/
def expiry? (s : String) : Option Time :=
  let cs := s.toList
  if cs.length != 20 || cs[4]? != some '-' || cs[7]? != some '-' || cs[10]? != some 'T' ||
      cs[13]? != some ':' || cs[16]? != some ':' || cs[19]? != some 'Z' then none
  else do
    let y ← stampNumber cs 0 4
    let m ← stampNumber cs 5 2
    let d ← stampNumber cs 8 2
    let h ← stampNumber cs 11 2
    let min ← stampNumber cs 14 2
    let sec ← stampNumber cs 17 2
    if m < 1 || m > 12 || d < 1 || d > daysInMonth y m || y < 2020 || y > 2100 || h > 23 ||
        min > 59 || sec > 59 then none
    else some (seconds (((daysSinceEpoch y m d * 24 + h) * 60 + min) * 60 + sec))

/-- The instant of a time stamp, or the job error. -/
def expiry (s : String) : Except Exn Time :=
  match expiry? s with
  | some t => .ok t
  | none => .error (operationError "gpo_invalid_job")

/-- Every code a receipt may carry. -/
def knownCodes : List String :=
  ["gpo_staged_unlinked", "gpo_local_approval_required", "gpo_job_expired",
    "gpo_invalid_job", "gpo_unsupported_component", "gpo_identity_mismatch", "gpo_not_writable_dc",
    "gpo_domain_identity_unavailable", "gpmc_unavailable", "gpo_permission_denied",
    "gpo_name_collision", "gpo_source_mismatch", "gpo_artifact_invalid",
    "gpo_local_approval_invalid", "gpo_reconciliation_required",
    "gpo_provider_failed", "gpo_verification_failed", "gpo_worker_timeout", "gpo_worker_failed",
    "gpo_journal_invalid", "gpo_claim_uncertain", "gpo_authority_expired",
    "gpo_enrollment_changed", "gpo_portal_approval_required", "gpo_portal_approval_invalid",
    "gpo_inspected", "gpo_prepared", "gpo_linked", "gpo_activated", "gpo_deactivated",
    "gpo_deleted", "gpo_state_changed", "gpo_requires_disabled", "gpo_unmanaged_target",
    "gpo_target_invalid", "gpo_link_conflict", "gpo_backup_failed", "gpo_preflight_required",
    "gpo_preflight_inventory_failed", "gpo_preflight_controller_failed",
    "gpo_preflight_directory_failed", "gpo_preflight_domain_visibility_failed",
    "gpo_preflight_domain_search_failed", "gpo_preflight_site_visibility_failed",
    "gpo_preflight_site_search_failed", "gpo_preflight_census_mismatch",
    "gpo_preflight_domain_open_failed", "gpo_preflight_domain_identity_failed",
    "gpo_preflight_domain_query_failed", "gpo_preflight_domain_links_failed",
    "gpo_preflight_domain_merge_failed"]

/-- A code a receipt may carry. -/
def knownCode (code : String) : Bool := knownCodes.contains code

theorem validUuid_ne_empty {s : String} (h : validUuid s = true) : s ≠ "" := by
  rintro rfl
  exact absurd h (by decide)

end Ipms.Agent.Gpo
