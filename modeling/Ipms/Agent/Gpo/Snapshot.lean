import Mathlib.Data.List.Nodup
import Ipms.Agent.Gpo.Text

/-
  Ipms.Agent.Gpo.Snapshot

  The directory snapshot a managed provider reports: the policy, the target
  containers and their links.  A snapshot document is read into a record that
  has exactly the document's members, and then checked.
-/

namespace Ipms.Agent.Gpo

open Ipms.ManagementJson Value

/-- The largest `std::int64_t`. -/
def int64Max : Int := 9223372036854775807

/-- Where a policy link stands. -/
inductive LinkKind where
  | ou | domain | site
  deriving DecidableEq

def LinkKind.text : LinkKind → String
  | .ou => "ou"
  | .domain => "domain"
  | .site => "site"

def LinkKind.ofText (s : String) : Option LinkKind :=
  if s == "ou" then some .ou else if s == "domain" then some .domain
  else if s == "site" then some .site else none

theorem LinkKind.ofText_text (k : LinkKind) : LinkKind.ofText k.text = some k := by
  cases k <;> decide

/-- One link of a policy to a container. -/
structure Link where
  guid : String
  domain : String
  dn : String
  kind : LinkKind
  enabled : Bool
  enforced : Bool
  order : Int
  deriving DecidableEq

/-- One target container. -/
structure Ou where
  dn : String
  guid : String
  usn : String
  blocked : Bool
  links : List Link
  inheritedLinks : List Link
  deriving DecidableEq

/-- One group policy object. -/
structure Policy where
  guid : String
  name : String
  description : String
  computerEnabled : Bool
  userEnabled : Bool
  computerDs : Int
  computerSysvol : Int
  userDs : Int
  userSysvol : Int
  ownerSid : String
  securityDigest : String
  wmiFilter : String
  links : List Link
  deriving DecidableEq

/-- What `inspect` reports. -/
structure Snapshot where
  domainAdminsSid : String
  gpo : Option Policy
  ous : List Ou
  nameAvailable : Bool
  deriving DecidableEq

/-! ## Documents -/

/-- The document of a link. -/
def Link.toJson (l : Link) : Value :=
  .obj [("dn", .str l.dn), ("domain", .str l.domain), ("enabled", .bool l.enabled),
    ("enforced", .bool l.enforced), ("guid", .str l.guid), ("kind", .str l.kind.text),
    ("order", .int l.order)]

/-- The fields of a link document. -/
def Link.read (v : Value) : Option Link := do
  let guid ← v.str? "guid"
  let domain ← v.str? "domain"
  let dn ← v.str? "dn"
  let kind ← LinkKind.ofText (← v.str? "kind")
  let enabled ← v.bool? "enabled"
  let enforced ← v.bool? "enforced"
  let order ← v.int? "order"
  pure { guid, domain, dn, kind, enabled, enforced, order }

/-- The document of a list of links. -/
def linksJson (ls : List Link) : Value := .arr (ls.map Link.toJson)

/-- The links of an array. -/
def readLinks (v : Value) (key : String) : Option (List Link) := do
  (← v.arr? key).mapM Link.read

/-- The document of a container. -/
def Ou.toJson (o : Ou) : Value :=
  .obj [("blocked", .bool o.blocked), ("dn", .str o.dn), ("guid", .str o.guid),
    ("inherited_links", linksJson o.inheritedLinks), ("links", linksJson o.links),
    ("usn", .str o.usn)]

/-- The fields of a container document. -/
def Ou.read (v : Value) : Option Ou := do
  let dn ← v.str? "dn"
  let guid ← v.str? "guid"
  let usn ← v.str? "usn"
  let blocked ← v.bool? "blocked"
  let links ← readLinks v "links"
  let inheritedLinks ← readLinks v "inherited_links"
  pure { dn, guid, usn, blocked, links, inheritedLinks }

/-- The document of a policy. -/
def Policy.toJson (g : Policy) : Value :=
  .obj [("computer_ds", .int g.computerDs), ("computer_enabled", .bool g.computerEnabled),
    ("computer_sysvol", .int g.computerSysvol), ("description", .str g.description),
    ("guid", .str g.guid), ("links", linksJson g.links), ("name", .str g.name),
    ("owner_sid", .str g.ownerSid), ("security_digest", .str g.securityDigest),
    ("user_ds", .int g.userDs), ("user_enabled", .bool g.userEnabled),
    ("user_sysvol", .int g.userSysvol), ("wmi_filter", .str g.wmiFilter)]

/-- The fields of a policy document. -/
def Policy.read (v : Value) : Option Policy := do
  let guid ← v.str? "guid"
  let name ← v.str? "name"
  let description ← v.str? "description"
  let computerEnabled ← v.bool? "computer_enabled"
  let userEnabled ← v.bool? "user_enabled"
  let computerDs ← v.int? "computer_ds"
  let computerSysvol ← v.int? "computer_sysvol"
  let userDs ← v.int? "user_ds"
  let userSysvol ← v.int? "user_sysvol"
  let ownerSid ← v.str? "owner_sid"
  let securityDigest ← v.str? "security_digest"
  let wmiFilter ← v.str? "wmi_filter"
  let links ← readLinks v "links"
  pure { guid, name, description, computerEnabled, userEnabled, computerDs, computerSysvol,
         userDs, userSysvol, ownerSid, securityDigest, wmiFilter, links }

/-- The document of a snapshot. -/
def Snapshot.toJson (s : Snapshot) : Value :=
  .obj [("domain_admins_sid", .str s.domainAdminsSid), ("gpo", (s.gpo.map Policy.toJson).getD .null),
    ("name_available", .bool s.nameAvailable), ("ous", .arr (s.ous.map Ou.toJson)),
    ("schema", .int 1)]

/-- The policy of a snapshot document, absent when it is null. -/
def readGpo (v : Value) : Option (Option Policy) :=
  match v.get? "gpo" with
  | some .null => some none
  | some g => (Policy.read g).map some
  | none => none

/-- The fields of a snapshot document. -/
def Snapshot.read (v : Value) : Option Snapshot := do
  let domainAdminsSid ← v.str? "domain_admins_sid"
  let gpo ← readGpo v
  let ous ← (← v.arr? "ous").mapM Ou.read
  let nameAvailable ← v.bool? "name_available"
  pure { domainAdminsSid, gpo, ous, nameAvailable }

/-- Read a snapshot document that has exactly a snapshot's members. -/
def Snapshot.decode : Value → Option Snapshot := Value.exactly Snapshot.toJson Snapshot.read

/-! ### A record is read back from its document -/

theorem Link.read_toJson (l : Link) : Link.read l.toJson = some l := by
  simp [Link.read, Link.toJson, str?, bool?, int?, get?, List.lookup,
    LinkKind.ofText_text]

theorem mapM_read_toJson {α : Type} {toJson : α → Value} {read : Value → Option α}
    (h : ∀ a, read (toJson a) = some a) (as : List α) :
    (as.map toJson).mapM read = some as := by
  induction as with
  | nil => rfl
  | cons a as ih => simp [List.mapM_cons, h, ih]

theorem Ou.read_toJson (o : Ou) : Ou.read o.toJson = some o := by
  simp [Ou.read, Ou.toJson, readLinks, linksJson, str?, bool?, arr?, get?,
    List.lookup, mapM_read_toJson Link.read_toJson]

theorem Policy.read_toJson (g : Policy) : Policy.read g.toJson = some g := by
  simp [Policy.read, Policy.toJson, readLinks, linksJson, str?, bool?, int?,
    arr?, get?, List.lookup, mapM_read_toJson Link.read_toJson]

theorem Snapshot.read_toJson (s : Snapshot) : Snapshot.read s.toJson = some s := by
  obtain ⟨sid, gpo, ous, name⟩ := s
  cases gpo with
  | none =>
    simp [Snapshot.read, Snapshot.toJson, readGpo, str?, bool?, arr?,
      get?, List.lookup, mapM_read_toJson Ou.read_toJson]
  | some g =>
    have hg : readGpo (Snapshot.toJson ⟨sid, some g, ous, name⟩) = some (some g) := by
      show (Policy.read g.toJson).map some = _
      rw [Policy.read_toJson]
      rfl
    simp only [Snapshot.read, hg]
    simp [Snapshot.toJson, str?, bool?, arr?, get?, List.lookup,
      mapM_read_toJson Ou.read_toJson]

theorem Snapshot.decode_eq_some {v : Value} {s : Snapshot} :
    Snapshot.decode v = some s ↔ v = s.toJson :=
  exactly_eq_some Snapshot.read_toJson

theorem Snapshot.toJson_injective : Function.Injective Snapshot.toJson := by
  intro s t h
  have hs := Snapshot.decode_eq_some.mpr (rfl : s.toJson = s.toJson)
  rw [h, Snapshot.decode_eq_some.mpr rfl] at hs
  exact (Option.some.inj hs).symm

/-! ## Validation -/

/-- The checks of one link. -/
def Link.valid (l : Link) : Bool :=
  validUuid l.guid && dns l.domain && clean l.dn 2048 && decide (1 ≤ l.order) &&
    decide (l.order ≤ 128)

/-- What makes a link unique in its list: its place and its policy. -/
def Link.key (l : Link) : String := lower l.dn ++ "/" ++ l.guid

/-- The checks of a list of links. -/
def validLinks (ls : List Link) : Bool :=
  decide (ls.length ≤ 128) && ls.all Link.valid && decide (ls.map Link.key).Nodup

/-- The checks of one container. -/
def Ou.valid (o : Ou) : Bool :=
  clean o.dn 2048 && validUuid o.guid && decimal o.usn && validLinks o.links &&
    validLinks o.inheritedLinks

/-- A version number. -/
def version (n : Int) : Bool := decide (0 ≤ n) && decide (n ≤ int64Max)

/-- The checks of a policy. -/
def Policy.valid (g : Policy) : Bool :=
  validUuid g.guid && !protectedGpo g.guid && clean g.name 240 && clean g.description 2048 true &&
    clean g.wmiFilter 2048 true && sid g.ownerSid && digest g.securityDigest &&
    [g.computerDs, g.computerSysvol, g.userDs, g.userSysvol].all version && validLinks g.links

/-- The length of a document's text, if it can be serialized. -/
def serializedSize (v : Value) : Option Nat := (serialize v).toOption.map List.length

theorem serializedSize_eq (v : Value) :
    serializedSize v = if fits v then some (render v).length else none := by
  unfold serializedSize
  rw [serialize_eq]
  by_cases hf : fits v = true
  · rw [if_pos hf, if_pos hf]
    rfl
  · rw [if_neg hf, if_neg hf]
    rfl

/-- The checks of a snapshot. -/
def Snapshot.valid (s : Snapshot) : Bool :=
  ((serializedSize s.toJson).any fun n => decide (n ≤ 16384)) && sid s.domainAdminsSid &&
    decide (s.ous.length ≤ 32) && s.ous.all Ou.valid && decide (s.ous.map Ou.guid).Nodup &&
    decide (s.ous.map fun o => lower o.dn).Nodup && s.gpo.all Policy.valid

/-- `valid_snapshot`: the snapshot of a document that passes every check. -/
def validSnapshot (v : Value) : Option Snapshot := (Snapshot.decode v).filter Snapshot.valid

theorem validSnapshot_eq_some {v : Value} {s : Snapshot} :
    validSnapshot v = some s ↔ v = s.toJson ∧ s.valid = true := by
  unfold validSnapshot
  rw [Option.filter_eq_some_iff, Snapshot.decode_eq_some]

/-- `state_guid`: the GUID of a snapshot document's policy, empty when there is none. -/
def stateGuid (state : Value) : Except Exn String := do
  match ← state.at! "gpo" with
  | .null => pure ""
  | g => (← g.at! "guid").asStr

/-- The GUID of a snapshot's policy, empty when there is none. -/
def Snapshot.guid (s : Snapshot) : String := (s.gpo.map Policy.guid).getD ""

theorem stateGuid_toJson (s : Snapshot) : stateGuid s.toJson = .ok s.guid := by
  obtain ⟨sid, gpo, ous, name⟩ := s
  cases gpo <;> rfl

end Ipms.Agent.Gpo
