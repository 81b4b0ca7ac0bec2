import Ipms.Agent.Console.Guard
import Ipms.ManagementJson.Parse

/-
  Ipms.Agent.Console.Lease

  The lease of a native console: the control message that renews it, which a
  scanner of its own reads, and the times between which a session may forward.
  Times are nanoseconds of a clock.
-/

namespace Ipms.Agent.Console

open Ipms.ManagementJson (Bytes utf8 space digitByte)

/-! ## The control message -/

/-- `token`: the input after some space and a byte. -/
def token (value : UInt8) (json : Bytes) : Option Bytes :=
  match json.dropWhile space with
  | [] => none
  | c :: rest => if c = value then some rest else none

/-- The characters up to a quotation mark; `char` has a sign, so that a byte from 128 on is less
than a blank. -/
def quotedText : Bytes → Option (Bytes × Bytes)
  | [] => none
  | c :: rest =>
    if c = 0x22 then some ([], rest)
    else if c < 32 ∨ 128 ≤ c ∨ c = 0x5c then none
    else (quotedText rest).map fun (text, rest) => (c :: text, rest)

/-- `string`: the text of a string, and the input after it. -/
def leaseString (json : Bytes) : Option (Bytes × Bytes) := token 0x22 json >>= quotedText

/-- The digits of `seconds`: the number, how many there are and the input after them. -/
def secondsDigits (seconds taken : Nat) : Bytes → Option (Nat × Nat × Bytes)
  | [] => some (seconds, taken, [])
  | c :: rest =>
    if digitByte c then
      if 2 ≤ taken then none
      else secondsDigits (seconds * 10 + (c.toNat - 48)) (taken + 1) rest
    else some (seconds, taken, c :: rest)

/-- What `native_lease_seconds` has read: a bit for each field, and the seconds. -/
structure Scan where
  fields : Nat := 0
  seconds : Nat := 0
  deriving DecidableEq

/-- One member of the object. -/
def leaseMember (generation : Bytes) (scan : Scan) (json : Bytes) : Option (Scan × Bytes) := do
  let (key, json) ← leaseString json
  let json ← token 0x3a json
  if key = utf8 "type" ∨ key = utf8 "stream_generation" then
    let bit := if key = utf8 "type" then 1 else 2
    if scan.fields &&& bit ≠ 0 then none
    else
      let (value, json) ← leaseString json
      if value ≠ if key = utf8 "type" then utf8 "lease" else generation then none
      else return ({ scan with fields := scan.fields ||| bit }, json)
  else if key = utf8 "seconds" then
    if scan.fields &&& 4 ≠ 0 then none
    else
      let json := json.dropWhile space
      let (seconds, taken, rest) ← secondsDigits scan.seconds 0 json
      if taken = 0 ∨ json.head? = some 48 ∨ 15 < seconds then none
      else return ({ fields := scan.fields ||| 4, seconds }, rest)
  else none

/-- The members of the object, each with the byte that has to follow it. -/
def leaseMembers (generation : Bytes) : List UInt8 → Scan → Bytes → Option (Scan × Bytes)
  | [], scan, json => some (scan, json)
  | mark :: marks, scan, json => do
    let (scan, json) ← leaseMember generation scan json
    let json ← token mark json
    leaseMembers generation marks scan json

def nativeLeaseSeconds (json generation : Bytes) : Option Nat :=
  if 256 < json.length ∨ nativeConsoleUuid generation = false then none
  else do
    let json ← token 0x7b json
    let (scan, json) ← leaseMembers generation [0x2c, 0x2c, 0x7d] {} json
    if json.dropWhile space ≠ [] ∨ scan.fields ≠ 7 ∨ scan.seconds < 1 then none
    else return scan.seconds

/-! ## The lease -/

/-- `std::chrono::seconds`. -/
def chronoSeconds (n : Nat) : Int := n * 1000000000

/-- `native_console_lease`. -/
structure Lease where
  generation : Bytes
  last : Int
  deadline : Int
  received : Bool := false
  failed : Bool := false
  deriving DecidableEq

namespace Lease

/-- The lease of a new session. -/
def new (generation : Bytes) (now : Int) : Lease where
  generation
  last := now
  deadline := now + chronoSeconds 15

/-- `native_console_lease::refresh`. -/
def refresh (l : Lease) (control : Bytes) (now : Int) : Lease × Bool :=
  match nativeLeaseSeconds control l.generation with
  | some seconds =>
    if now < l.last ∨ l.deadline ≤ now ∨ l.failed then ({ l with failed := true }, false)
    else
      ({ l with received := true, last := now, deadline := now + chronoSeconds seconds }, true)
  | none => ({ l with failed := true }, false)

/-- `native_console_lease::live`. -/
def live (l : Lease) (now : Int) : Bool :=
  !l.failed && decide (l.last ≤ now) && decide (now < l.deadline)

/-- `native_console_lease::authorized`. -/
def authorized (l : Lease) (now : Int) : Bool := l.received && l.live now

end Lease

end Ipms.Agent.Console
