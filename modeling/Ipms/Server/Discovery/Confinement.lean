import Mathlib.Data.List.DropRight
import Ipms.Crypto.Sha256
import Ipms.Lib.Fallible
import Ipms.Server.Text

/-
  Ipms.Server.Discovery.Confinement

  The connections of a discovery.  The job resolves the host of a connector and
  checks the addresses; then the transport of an iLO resolves it again, and the
  HTTP library once more for every request, while the pinned client connects to
  the addresses that it has checked itself.  What the network does in a request is
  an input: the answer of the resolver, the peers that accept a connection, and
  their certificates.
-/

namespace Ipms.Server.Discovery

open Ipms.ManagementJson
open Ipms.Crypto (sha256)
open Ipms.Lib (throwIf throwIf_bind ok_bind bind_eq_ok throwIf_eq_ok pure_eq_ok)

variable {A : Type} [DecidableEq A]

/-! ## The libraries and the network -/

/-- The classes that `ipaddress` puts an address in. -/
structure Classes (A : Type) where
  isPrivate : A → Bool
  isLoopback : A → Bool
  isLinkLocal : A → Bool
  isMulticast : A → Bool
  isReserved : A → Bool
  isUnspecified : A → Bool

/-- What the connectors use of the standard library: `str.lower`, `int(text, 16)`, and the bytes
that `http.client` puts together for a request, unless it refuses a part of it. -/
structure Python where
  lower : String → String
  hexadecimal : String → Bool
  compose : String → String → Option Bytes → List (String × String) → Option Bytes

/-- The parts of a base URL that `urlsplit` tells apart. -/
structure SplitUrl where
  scheme : String
  hostname : String
  username : String
  password : String
  path : String
  query : String
  fragment : String
  port : Except Unit (Option Nat)

/-- What the network does during a request: the answer to its lookup of the host, the addresses
that accept a connection, the certificates they show unless the handshake fails, and whether the
response is read to its end. -/
structure Exchange (A : Type) where
  answer : Option (List A)
  accepts : A → Bool
  certificate : A → Option (Option Bytes)
  responds : A → Bool

/-- What a discovery does that can be seen from outside, and the checks it makes. -/
inductive Event (A : Type) where
  | checked (addresses : List A)
  | opened (address : A)
  | compared (digest : String)
  | sent (bytes : Bytes)
  | closed

/-! ## The address checks -/

/-- What the three checks refuse of an address. -/
def Classes.refuses (k : Classes A) (a : A) : Bool :=
  !k.isPrivate a || k.isLoopback a || k.isLinkLocal a || k.isMulticast a || k.isReserved a ||
    k.isUnspecified a

/-- The lookup and the check of its answer. -/
def privateAddresses (k : Classes A) (unresolved empty refused : String) :
    Option (List A) → Except String (List A)
  | none => throw unresolved
  | some addresses => do
    throwIf (addresses = []) empty
    throwIf (addresses.any k.refuses) refused
    return addresses

def validatePrivateTarget (k : Classes A) (url : SplitUrl) (answer : Option (List A)) :
    Except String (List A) := do
  throwIf (url.hostname = "") "target_invalid"
  privateAddresses k "target_unresolved" "target_unresolved" "target_not_private" answer

def validatedEndpoint (k : Classes A) (url : SplitUrl) (answer : Option (List A)) :
    Except String (List A) := do
  throwIf (url.scheme ≠ "https" ∨ url.hostname = "" ∨ url.username ≠ "" ∨ url.password ≠ "" ∨
      url.query ≠ "" ∨ url.fragment ≠ "" ∨ ¬(url.path = "" ∨ url.path = "/")) "invalid_endpoint"
  match url.port with
  | .error () => throw "ValueError"
  | .ok _ =>
    privateAddresses k "dns_failed" "endpoint_address_rejected" "endpoint_address_rejected" answer

/-- `_private_addresses`, each address once. -/
def privateAddressesOf (k : Classes A) (answer : Option (List A)) : Except String (List A) :=
  privateAddresses k "target_unresolved" "target_unresolved" "target_not_private"
    (answer.map List.eraseDups)

/-! ## The transport of an iLO -/

/-- A call of `request_json`, with the session that earlier ones have left. -/
structure RedfishCall (A : Type) where
  method : String
  path : String
  payload : Option Bytes
  odataVersion : Bool
  token : String
  sessionPath : String
  exchange : Exchange A

/-- The checks in front of the connection. -/
def RedfishCall.admitted (c : RedfishCall A) : Bool :=
  "/redfish/v1/".toList.isPrefixOf c.path.toList && !decide ("://".toList <:+: c.path.toList) &&
    ["GET", "HEAD", "POST", "DELETE"].contains c.method &&
    (c.method != "POST" ||
      "/SessionService/Sessions".toList.isSuffixOf (c.path.toList.rdropWhile (· == '/'))) &&
    (c.method != "DELETE" || c.path == c.sessionPath)

def RedfishCall.headers (c : RedfishCall A) : List (String × String) :=
  [("Accept", "application/json")] ++ (if c.odataVersion then [("OData-Version", "4.0")] else []) ++
    (if c.token ≠ "" then [("X-Auth-Token", c.token)] else []) ++
    if c.payload.isSome then [("Content-Type", "application/json")] else []

/-- `socket.create_connection`: the first address that accepts. -/
def createConnection (x : Exchange A) (addresses : List A) : Option A := addresses.find? x.accepts

/-- `_PinnedHTTPSConnection.connect`: the library resolves the host and opens a connection, then
the certificate of the peer is compared. -/
def pinnedConnect (pin : String) (x : Exchange A) : Bool × List (Event A) :=
  match x.answer.bind (createConnection x) with
  | none => (false, [])
  | some a =>
    match x.certificate a with
    | none | some none => (false, [.opened a, .closed])
    | some (some certificate) =>
      if sha256 certificate ≠ pin then
        (false, [.opened a, .compared (sha256 certificate), .closed])
      else (true, [.opened a, .compared (sha256 certificate)])

/-- `RedfishTransport.request_json`. -/
def requestJson (py : Python) (pin : String) (c : RedfishCall A) : List (Event A) :=
  if c.admitted then
    match py.compose c.method c.path c.payload c.headers with
    | none => []
    | some bytes =>
      match pinnedConnect (py.lower pin) c.exchange with
      | (false, events) => events
      | (true, events) => events ++ [.sent bytes, .closed]
  else []

/-- `RedfishTransport`, and the requests that are made with it. -/
def redfish (k : Classes A) (py : Python) (url : SplitUrl) (pin : String)
    (answer : Option (List A)) (calls : List (RedfishCall A)) : List (Event A) :=
  if pin.length = 64 ∧ py.hexadecimal pin then
    match validatedEndpoint k url answer with
    | .error _ => []
    | .ok addresses => .checked addresses :: calls.flatMap (requestJson py pin)
  else []

/-! ## The pinned client -/

/-- A call of `PinnedHttpsClient.request`. -/
structure PinnedCall (A : Type) where
  method : String
  path : String
  body : Option Bytes
  headers : List (String × String)
  exchange : Exchange A

/-- The checks in front of the lookup. -/
def PinnedCall.admitted (c : PinnedCall A) : Bool :=
  ["GET", "POST"].contains c.method && c.path.toList.head? == some '/' &&
    !c.path.toList.contains '\r' && !c.path.toList.contains '\n'

/-- The headers of a call, with its default. -/
def PinnedCall.allHeaders (c : PinnedCall A) (hostname : String) : List (String × String) :=
  if (c.headers.lookup "Host").isSome then c.headers else c.headers ++ [("Host", hostname)]

/-- The loop over the checked addresses.  Only what fails on the way leads to the next. -/
def attempts (pin : String) (bytes : Option Bytes) (x : Exchange A) : List A → List (Event A)
  | [] => []
  | a :: rest =>
    if x.accepts a then
      .opened a :: match x.certificate a with
        | none => .closed :: attempts pin bytes x rest
        | some none => [.closed]
        | some (some certificate) =>
          .compared (sha256 certificate) ::
            if sha256 certificate ≠ pin then [.closed]
            else match bytes with
              | none => .closed :: attempts pin bytes x rest
              | some bytes =>
                .sent bytes :: .closed ::
                  if x.responds a then [] else attempts pin bytes x rest
    else attempts pin bytes x rest

/-- `PinnedHttpsClient.request`. -/
def pinnedRequest (k : Classes A) (py : Python) (url : SplitUrl) (pin : String) (c : PinnedCall A) :
    List (Event A) :=
  if c.admitted then
    match privateAddressesOf k c.exchange.answer with
    | .error _ => []
    | .ok addresses =>
      let target := String.ofList (url.path.toList.rdropWhile (· == '/')) ++ c.path
      let bytes := py.compose c.method target c.body (c.allHeaders url.hostname)
      .checked addresses :: attempts (py.lower pin) bytes c.exchange addresses
  else []

/-- `PinnedHttpsClient`, and the requests that are made with it. -/
def pinnedHttps (k : Classes A) (py : Python) (url : SplitUrl) (pin : String)
    (calls : List (PinnedCall A)) : List (Event A) :=
  if url.scheme = "https" ∧ url.hostname ≠ "" ∧ url.username = "" ∧ url.password = "" ∧
      url.query = "" ∧ url.fragment = "" ∧ url.port.isOk ∧ (py.lower pin).length = 64 ∧
      py.hexadecimal (py.lower pin) then
    calls.flatMap (pinnedRequest k py url pin)
  else []

/-- The HTTPS connectors, with the requests of a run.  A transport of an iLO has a lookup of its
own. -/
inductive Connector (A : Type) where
  | iloRedfish (answer : Option (List A)) (calls : List (RedfishCall A))
  | pinned (calls : List (PinnedCall A))

/-- `process_discovery_job`, from its own check of the target on. -/
def discover (k : Classes A) (py : Python) (url : SplitUrl) (pin : String)
    (answer : Option (List A)) (connector : Connector A) : List (Event A) :=
  match validatePrivateTarget k url answer with
  | .error _ => []
  | .ok addresses => .checked addresses :: match connector with
      | .iloRedfish answer calls => redfish k py url pin answer calls
      | .pinned calls => pinnedHttps k py url pin calls

/-- Connections are opened to checked addresses only, and nothing is written on one before the
digest of its peer was found equal to the pin: `verified` says that it was on the connection at
hand. -/
def confined (pin : String) : List A → Bool → List (Event A) → Bool
  | _, _, [] => true
  | known, verified, .checked addresses :: events => confined pin (known ++ addresses) verified events
  | known, _, .opened a :: events => decide (a ∈ known) && confined pin known false events
  | known, _, .compared digest :: events => confined pin known (digest == pin) events
  | known, verified, .sent _ :: events => verified && confined pin known verified events
  | known, _, .closed :: events => confined pin known false events

/-! ## What a request adds -/

/-- The library connects a call, if it connects it at all, to an address that was checked. -/
def RedfishCall.Resolved (py : Python) (known : List A) (c : RedfishCall A) : Prop :=
  c.admitted = true → (py.compose c.method c.path c.payload c.headers).isSome = true →
    ∀ a, c.exchange.answer.bind (createConnection c.exchange) = some a → a ∈ known

variable {k : Classes A} {py : Python} {url : SplitUrl} {pin : String}

/-- A request of the transport keeps a run confined exactly when it is resolved to a checked
address. -/
theorem confined_requestJson {c : RedfishCall A} {known : List A} {verified : Bool}
    {events : List (Event A)} {P : Prop}
    (hrest : ∀ verified, confined (py.lower pin) known verified events = true ↔ P) :
    confined (py.lower pin) known verified (requestJson py pin c ++ events) = true ↔
      c.Resolved py known ∧ P := by
  unfold requestJson RedfishCall.Resolved
  by_cases hadmitted : c.admitted = true
  · rw [if_pos hadmitted]
    cases hbytes : py.compose c.method c.path c.payload c.headers with
    | none => simp [hrest]
    | some bytes =>
      unfold pinnedConnect
      cases c.exchange.answer.bind (createConnection c.exchange) with
      | none => simp [hrest]
      | some a =>
        dsimp only
        rcases c.exchange.certificate a with _ | _ | certificate
        · simp [confined, hrest, hadmitted]
        · simp [confined, hrest, hadmitted]
        · by_cases hpin : sha256 certificate = py.lower pin
          · simp [confined, hrest, hadmitted, hpin]
          · simp [confined, hrest, hadmitted, hpin]
  · simp [hadmitted, hrest]

theorem confined_requests {calls : List (RedfishCall A)} {known : List A} (verified : Bool) :
    confined (py.lower pin) known verified (calls.flatMap (requestJson py pin)) = true ↔
      ∀ c ∈ calls, c.Resolved py known := by
  induction calls generalizing verified with
  | nil => simp [confined]
  | cons c calls ih => rw [List.flatMap_cons, confined_requestJson ih, List.forall_mem_cons]

theorem confined_attempts {bytes : Option Bytes} {x : Exchange A} {addresses known : List A}
    (hknown : ∀ a ∈ addresses, a ∈ known) {events : List (Event A)}
    (hrest : ∀ verified, confined pin known verified events = true) (verified : Bool) :
    confined pin known verified (attempts pin bytes x addresses ++ events) = true := by
  induction addresses generalizing verified with
  | nil => exact hrest verified
  | cons a rest ih =>
    have ha := hknown a List.mem_cons_self
    have ih := ih fun a ha => hknown a (List.mem_cons_of_mem _ ha)
    unfold attempts
    by_cases haccepts : x.accepts a = true
    · rw [if_pos haccepts]
      rcases x.certificate a with _ | _ | certificate
      · simp [confined, ha, ih]
      · simp [confined, ha, hrest]
      · by_cases hpin : sha256 certificate = pin
        · cases bytes with
          | none => simp [confined, ha, ih, hpin]
          | some bytes =>
            by_cases hresponds : x.responds a = true
            · simp [confined, ha, hrest, hpin, hresponds]
            · simp [confined, ha, ih, hpin, hresponds]
        · simp [confined, ha, hrest, hpin]
    · rw [if_neg haccepts]
      exact ih verified

theorem confined_pinnedRequests {calls : List (PinnedCall A)} {known : List A} (verified : Bool) :
    confined (py.lower pin) known verified (calls.flatMap (pinnedRequest k py url pin)) = true := by
  induction calls generalizing known verified with
  | nil => rfl
  | cons c calls ih =>
    rw [List.flatMap_cons]
    unfold pinnedRequest
    split
    · split
      · exact ih verified
      · refine confined_attempts ?_ ih verified
        exact fun a ha => List.mem_append_right known ha
    · exact ih verified

/-! ## Confinement -/

/-- The addresses that a transport of an iLO has checked, with those of the job. -/
def checkedAddresses (answer : Option (List A)) (own : Option (List A)) : List A :=
  answer.getD [] ++ own.getD []

omit [DecidableEq A] in
theorem privateAddresses_eq_ok {unresolved empty refused : String} {answer : Option (List A)}
    {addresses : List A} (h : privateAddresses k unresolved empty refused answer = .ok addresses) :
    answer = some addresses := by
  cases answer with
  | none => cases h
  | some found =>
    obtain ⟨⟨⟩, -, h⟩ := bind_eq_ok.mp h
    obtain ⟨⟨⟩, -, h⟩ := bind_eq_ok.mp h
    rw [pure_eq_ok.mp h]

/-- The transport is built, and its requests are made: the two lookups in front of them have passed
their checks. -/
def Begun (k : Classes A) (py : Python) (url : SplitUrl) (pin : String)
    (answer own : Option (List A)) : Bool :=
  (validatePrivateTarget k url answer).isOk && decide (pin.length = 64) && py.hexadecimal pin &&
    (validatedEndpoint k url own).isOk

/-- A discovery is confined exactly when no request of an iLO's transport is connected to an address
that was not checked: the library looks the host up again, and takes what it finds.  A pinned client
is always confined, and on every connection the pin comes before the request. -/
theorem confined_discover_iff (k : Classes A) (py : Python) (url : SplitUrl) (pin : String)
    (answer : Option (List A)) (connector : Connector A) :
    confined (py.lower pin) [] false (discover k py url pin answer connector) = true ↔
      match connector with
      | .iloRedfish own calls => Begun k py url pin answer own = true →
          ∀ c ∈ calls, c.Resolved py (checkedAddresses answer own)
      | .pinned _ => True := by
  unfold discover
  cases hjob : validatePrivateTarget k url answer with
  | error e =>
    cases connector with
    | iloRedfish own calls => simp [confined, Begun, hjob, Except.isOk, Except.toBool]
    | pinned calls => simp [confined]
  | ok addresses =>
    obtain ⟨⟨⟩, -, hanswer⟩ := bind_eq_ok.mp hjob
    have hanswer := privateAddresses_eq_ok hanswer
    cases connector with
    | pinned calls =>
      simp only [confined, pinnedHttps]
      split
      · simp [confined_pinnedRequests]
      · simp [confined]
    | iloRedfish own calls =>
      simp only [confined, redfish, Begun, hjob, Except.isOk, Except.toBool, Bool.true_and,
        Bool.and_eq_true, decide_eq_true_eq]
      by_cases hpin : pin.length = 64 ∧ py.hexadecimal pin = true
      · rw [if_pos hpin]
        cases hown : validatedEndpoint k url own with
        | error e => simp [confined]
        | ok found =>
          have hfound : own = some found := by
            obtain ⟨⟨⟩, -, hfound⟩ := bind_eq_ok.mp hown
            cases hport : url.port with
            | error => rw [hport] at hfound; cases hfound
            | ok port =>
              rw [hport] at hfound
              exact privateAddresses_eq_ok hfound
          simp only [confined, confined_requests, checkedAddresses, hanswer, hfound,
            List.nil_append, Option.getD_some, hpin, true_and, forall_const]
      · rw [if_neg hpin]
        simp only [confined, true_iff]
        exact fun h => absurd h.1 hpin

/-! An iLO whose name resolves to 10.0.0.5 until the request, and then to 8.8.8.8. -/

def sampleClasses : Classes Nat where
  isPrivate a := a / 2 ^ 24 == 10
  isLoopback _ := false
  isLinkLocal _ := false
  isMulticast _ := false
  isReserved _ := false
  isUnspecified _ := false

def samplePython : Python where
  lower := id
  hexadecimal _ := true
  compose method target _ _ :=
    some (encode ((method ++ " " ++ target ++ " HTTP/1.1\r\nHost: ilo.example\r\n").toList))

def reboundCall : RedfishCall Nat where
  method := "GET"
  path := "/redfish/v1/"
  payload := none
  odataVersion := true
  token := ""
  sessionPath := ""
  exchange :=
    { answer := some [0x08080808], accepts := fun _ => true, certificate := fun _ => none
      responds := fun _ => false }

theorem discover_rebound :
    confined "aaaaaaaaaaaaaaaaaaaaaaaaaaaaaaaaaaaaaaaaaaaaaaaaaaaaaaaaaaaaaaaa" [] false
      (discover sampleClasses samplePython
        ⟨"https", "ilo.example", "", "", "", "", "", .ok none⟩
        "aaaaaaaaaaaaaaaaaaaaaaaaaaaaaaaaaaaaaaaaaaaaaaaaaaaaaaaaaaaaaaaa" (some [0x0a000005])
        (.iloRedfish (some [0x0a000005]) [reboundCall])) = false := by
  decide +kernel

end Ipms.Server.Discovery
