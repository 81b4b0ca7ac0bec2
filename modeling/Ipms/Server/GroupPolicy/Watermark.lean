import Ipms.Server.GroupPolicy.Report

/-
  Ipms.Server.GroupPolicy.Watermark

  The watermark the control plane keeps of the reports of one enrollment, and
  what a receipt does to it and to the report that is shown.
-/

namespace Ipms.Server.GroupPolicy

open Ipms.ManagementJson Ipms.Lib Ipms.Crypto

/-! ## Contexts -/

def contextFields : List String :=
  ["enrollment_id", "domain_name", "operating_system_role", "os_build", "operating_system",
    "received_at"]

/-- `_CONTEXT_FIELDS - {"received_at"}`, in key order. -/
def identityFields : List String :=
  ["domain_name", "enrollment_id", "operating_system", "operating_system_role", "os_build"]

/-- `_identity`. -/
def identityOf (context : Value) : Option String := do
  let entries ← identityFields.mapM fun key => (context.get? key).map (key, ·)
  return sha256Json (.obj entries)

/-- The identifier of an enrollment: a canonical GUID. -/
abbrev Guid := { s : String // canonicalGuid (.str s) = some s }

/-- The inventory a report came with. -/
structure Context where
  enrollmentId : Guid
  domainName : String
  operatingSystemRole : String
  osBuild : String
  operatingSystem : String
  receivedAt : Datetime

/-- `group_policy_context`. -/
def Context.toJson (c : Context) : Value :=
  .obj [("domain_name", .str c.domainName), ("enrollment_id", .str c.enrollmentId.val),
    ("operating_system", .str c.operatingSystem),
    ("operating_system_role", .str c.operatingSystemRole), ("os_build", .str c.osBuild),
    ("received_at", timestamp c.receivedAt)]

/-- `_identity` of the context of an inventory. -/
def Context.identity (c : Context) : String :=
  sha256Json (.obj [("domain_name", .str c.domainName), ("enrollment_id", .str c.enrollmentId.val),
    ("operating_system", .str c.operatingSystem),
    ("operating_system_role", .str c.operatingSystemRole), ("os_build", .str c.osBuild)])

theorem identityOf_toJson (c : Context) : identityOf c.toJson = some c.identity := rfl

/-! ## Watermarks -/

/-- The watermark of an enrollment, read. -/
structure Watermark where
  enrollmentId : String
  identitySha256 : String
  domainGuid : Option String
  highestObserved : Option Datetime
  reportSha256 : Option String
  blockedThrough : Option Datetime
  recordedAt : Datetime
  deriving DecidableEq

def watermarkFields : List String :=
  ["schema_version", "enrollment_id", "identity_sha256", "domain_guid", "highest_observed",
    "report_sha256", "blocked_through", "recorded_at"]

/-- `None` or a text. -/
def orNull (s : Option String) : Value := (s.map Value.str).getD .null

/-- `None` or a time. -/
def timeOrNull (t : Option Datetime) : Value := (t.map timestamp).getD .null

/-- The watermark as it is stored. -/
def Watermark.toJson (w : Watermark) : Value :=
  .obj [("blocked_through", timeOrNull w.blockedThrough), ("domain_guid", orNull w.domainGuid),
    ("enrollment_id", .str w.enrollmentId), ("highest_observed", timeOrNull w.highestObserved),
    ("identity_sha256", .str w.identitySha256), ("recorded_at", timestamp w.recordedAt),
    ("report_sha256", orNull w.reportSha256), ("schema_version", .str "1")]

/-- What a member that may be null holds. -/
def nullable {α : Type} (read : Value → Option α) (value : Value) : Option (Option α) :=
  if value = .null then some none else (read value).map some

/-- `_SHA256.fullmatch`. -/
def shaText : Value → Option String
  | .str s => if sha s then some s else none
  | _ => none

/-- A bound is not after a time. -/
def notAfter (bound : Option Datetime) (latest : Datetime) : Bool :=
  bound.all fun t => decide (t ≤ latest)

def watermark (value : Value) (enrollmentId : String) : Option Watermark := do
  let members ← obj? value
  guard (keysAre members watermarkFields)
  guard (value.get? "schema_version" = some (.str "1"))
  let enrollment ← (← value.get? "enrollment_id") |> canonicalGuid
  guard (enrollment = enrollmentId)
  let identitySha256 ← (← value.get? "identity_sha256") |> shaText
  let domainGuid ← (← value.get? "domain_guid") |> nullable canonicalGuid
  let highestObserved ← (← value.get? "highest_observed") |> nullable utcTimestamp
  let blockedThrough ← (← value.get? "blocked_through") |> nullable utcTimestamp
  let recordedAt ← (← value.get? "recorded_at") |> utcTimestamp
  let latest ← recordedAt.later clockSkew
  let reportSha256 ← (← value.get? "report_sha256") |> nullable shaText
  guard (highestObserved.isSome = reportSha256.isSome)
  guard (notAfter highestObserved latest ∧ notAfter blockedThrough latest)
  return { enrollmentId := enrollment, identitySha256, domainGuid, highestObserved, reportSha256,
           blockedThrough, recordedAt }

/-- A time is beyond a bound. -/
def beyond (t : Datetime) (bound : Option Datetime) : Bool := bound.all fun b => decide (b < t)

def watermarkMatchesReport (w : Watermark) (report context : Value) : Bool :=
  (observedAt report).any fun observed =>
    identityOf context == some w.identitySha256 &&
      w.highestObserved == some observed && w.reportSha256 == some (sha256Json report) &&
      beyond observed w.blockedThrough &&
      (report.get? "domain_guid" == some .null ||
        (report.get? "domain_guid").any fun guid => guid == orNull w.domainGuid) &&
      ((context.get? "received_at").bind utcTimestamp).any fun received =>
        decide (received ≤ w.recordedAt)

/-- `_previous_report`: the report and its context, if they are still valid. -/
def previousReport (unicode : Unicode) (snapshot : Value) (w : Watermark) (now : Datetime) :
    Option (Value × Value) := do
  let context ← snapshot.get? "group_policy_context"
  let members ← obj? context
  guard (keysAre members contextFields)
  let report ← validateGroupPolicy unicode (← snapshot.get? "group_policy")
    (← context.get? "domain_name") now
  let received ← (← context.get? "received_at") |> utcTimestamp
  guard (received ≤ (← now.later clockSkew))
  guard ((← observedAt report) ≤ (← received.later clockSkew))
  guard (watermarkMatchesReport w report context)
  return (report, context)

def legacyWatermark (unicode : Unicode) (previous : Value) (enrollmentId : String) (now : Datetime) :
    Option Watermark := do
  let context ← previous.get? "group_policy_context"
  let members ← obj? context
  guard (keysAre members contextFields ∨ keysAre members ("evidence_conflict" :: contextFields))
  guard (context.get? "enrollment_id" = some (.str enrollmentId))
  let conflict := context.get? "evidence_conflict"
  guard (conflict = none ∨ conflict = some (.bool true))
  let report ← validateGroupPolicy unicode (← previous.get? "group_policy")
    (← context.get? "domain_name") now
  let observed ← observedAt report
  let received ← (← context.get? "received_at") |> utcTimestamp
  guard (observed ≤ (← received.later clockSkew))
  guard (received ≤ (← now.later clockSkew))
  return {
    enrollmentId, identitySha256 := ← identityOf context, domainGuid := reportedDomain report
    highestObserved := some observed, reportSha256 := some (sha256Json report)
    blockedThrough := if conflict.isSome then some observed else none
    recordedAt := max now received }

/-! ## Receipts -/

/-- A report, or none, with the inventory it came with, at the time of the server's clock. -/
structure Incoming where
  context : Context
  report : Option Value

/-- The watermark of an enrollment without one. -/
def Watermark.blank (context : Context) (now : Datetime) : Watermark :=
  { enrollmentId := context.enrollmentId.val, identitySha256 := context.identity
    domainGuid := none, highestObserved := none, reportSha256 := none, blockedThrough := none
    recordedAt := now }

/-- The watermark a snapshot holds; none if what it holds cannot be read. -/
def storedWatermark (unicode : Unicode) (previous : Value) (context : Context) (now : Datetime) :
    Option Watermark :=
  match previous with
  | .null => some (.blank context now)
  | .obj _ =>
    match previous.get? "group_policy_watermark" with
    | some value => watermark value context.enrollmentId.val
    | none =>
      if (previous.get? "group_policy").isSome || (previous.get? "group_policy_context").isSome then
        legacyWatermark unicode previous context.enrollmentId.val now
      else some (.blank context now)
  | _ => none

/-- The watermark a receipt starts from: what cannot be read is recovered from the report of the
snapshot where that is possible. -/
def startingWatermark (unicode : Unicode) (previous : Value) (context : Context) (now : Datetime) :
    Watermark :=
  (storedWatermark unicode previous context now).getD
    ((legacyWatermark unicode previous context.enrollmentId.val now).getD (.blank context now))

/-- The later of two bounds. -/
def laterOf : Option Datetime → Option Datetime → Option Datetime
  | some s, some t => some (max s t)
  | some s, none => some s
  | none, t => t

/-- What the snapshot shows is not what its watermark says it shows. -/
def unproven (w : Watermark) (prior : Option (Value × Value)) : Bool :=
  (w.highestObserved.any fun highest => beyond highest w.blockedThrough) && prior.isNone

/-- The reported domain is another one. -/
def otherDomain (w : Watermark) (reported : Option String) : Bool :=
  reported.isSome && w.domainGuid.isSome && reported != w.domainGuid

/-- The time through which a receipt blocks reports. -/
def barrier (w : Watermark) (observed : Option Datetime) (reportHash : Option String)
    (clears : Bool) (now : Datetime) : Except ServerError (Option Datetime) :=
  if clears then
    match now.later clockSkew with
    | none => .error .overflowError
    | some latest => .ok (laterOf (laterOf w.blockedThrough w.highestObserved) (some latest))
  else if observed = w.highestObserved ∧ reportHash ≠ w.reportSha256 then
    .ok (laterOf w.blockedThrough w.highestObserved)
  else .ok w.blockedThrough

/-- The report and the context that are shown after a receipt that clears nothing. -/
def accepted (w : Watermark) (prior : Option (Value × Value)) (incoming : Incoming)
    (observed : Option Datetime) (blocked : Option Datetime) : Option (Value × Value) :=
  if observed.any fun t => beyond t w.highestObserved && beyond t blocked then
    incoming.report.map (·, incoming.context.toJson)
  else if w.highestObserved.any fun t => beyond t blocked then prior
  else none

/-- The watermark after a receipt. -/
def Watermark.advance (w : Watermark) (incoming : Incoming) (observed blocked : Option Datetime)
    (now : Datetime) : Watermark :=
  let higher := observed.any fun t => beyond t w.highestObserved
  let reported := incoming.report.bind reportedDomain
  { w with
    highestObserved := if higher then observed else w.highestObserved
    reportSha256 := if higher then incoming.report.map sha256Json else w.reportSha256
    identitySha256 := incoming.context.identity
    blockedThrough := blocked
    recordedAt := max w.recordedAt now
    domainGuid := if reported.isSome then reported
      else if incoming.context.identity ≠ w.identitySha256 then none else w.domainGuid }

/-- The snapshot that holds a watermark and what is shown. -/
def snapshotOf (shown : Option (Value × Value)) (w : Watermark) : Value :=
  .obj (match shown with
    | some (report, context) => [("group_policy", report), ("group_policy_context", context),
        ("group_policy_watermark", w.toJson)]
    | none => [("group_policy_watermark", w.toJson)])

def preserveNewerGroupPolicy (unicode : Unicode) (previous : Value) (incoming : Incoming)
    (now : Datetime) : Except ServerError Value := do
  let w := startingWatermark unicode previous incoming.context now
  let prior := previousReport unicode previous w now
  let invalid := (storedWatermark unicode previous incoming.context now).isNone || unproven w prior
  let observed := incoming.report.bind observedAt
  let changed := incoming.context.identity != w.identitySha256 ||
    otherDomain w (incoming.report.bind reportedDomain)
  let clears := invalid || incoming.report.isNone || changed
  -- decided against the clocks before this receipt
  let blocked ← barrier w observed (incoming.report.map sha256Json) clears now
  let shown := if clears then none else accepted w prior incoming observed blocked
  return snapshotOf shown (w.advance incoming observed blocked now)

/-- A receipt: the inventory of an enrollment, and its report if it has one. -/
structure Receipt where
  domainName : String
  operatingSystemRole : String
  osBuild : String
  operatingSystem : String
  report : Option Value
  now : Datetime

def Receipt.context (r : Receipt) (enrollmentId : Guid) : Context :=
  { enrollmentId, domainName := r.domainName, operatingSystemRole := r.operatingSystemRole
    osBuild := r.osBuild, operatingSystem := r.operatingSystem, receivedAt := r.now }

/-- The report of a receipt, validated. -/
def Receipt.validated (unicode : Unicode) (r : Receipt) : Except ServerError (Option Value) :=
  match r.report with
  | none => .ok none
  | some report =>
    match validateGroupPolicy unicode report (.str r.domainName) r.now with
    | some report => .ok (some report)
    | none => .error (.validationError "The Agent Group Policy report is invalid.")

/-- The part of `confirm_inventory` about group policies: the snapshot to store. -/
def confirmInventory (unicode : Unicode) (enrollmentId : Guid) (previous : Value) (r : Receipt) :
    Except ServerError Value := do
  let report ← r.validated unicode
  preserveNewerGroupPolicy unicode previous ⟨r.context enrollmentId, report⟩ r.now

end Ipms.Server.GroupPolicy
