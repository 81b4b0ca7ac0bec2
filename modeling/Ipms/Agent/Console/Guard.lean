import Ipms.Lib.LittleEndian
import Ipms.ManagementJson.Serialize

/-
  Ipms.Agent.Console.Guard

  The gate in front of a native console: the bytes of a WebSocket message, and the
  preconnection packet that has to come first and to name the assigned machine.
  The buffer of the gate has 256 bytes; an access outside of it is `none`.
-/

namespace Ipms.Agent.Console

open Ipms.Lib
open Ipms.ManagementJson (Bytes)

/-! ## Identifiers -/

/-- A hexadecimal digit of either case. -/
def hexByte (c : UInt8) : Bool :=
  decide (48 ≤ c) && decide (c ≤ 57) || decide (97 ≤ c) && decide (c ≤ 102) ||
    decide (65 ≤ c) && decide (c ≤ 70)

def nativeConsoleUuid (value : Bytes) : Bool :=
  value.length == 36 && value.zipIdx.all fun (c, index) =>
    if index == 8 || index == 13 || index == 18 || index == 23 then c == 45 else hexByte c

/-- The states of a message or of the gate. -/
inductive Status where
  | pending | complete | rejected
  deriving DecidableEq

/-- `native_console_message`. -/
structure Message where
  data : Bytes := []
  text : Bool := false
  started : Bool := false
  state : Status := .pending
  deriving DecidableEq

/-- `native_console_message::append`. -/
def Message.append (m : Message) (bytes : Bytes) (text final : Bool) : Message :=
  if m.state != .pending || m.started && m.text != text ||
      decide ((if text then 256 else 65536) - m.data.length < bytes.length) then
    { m with state := .rejected }
  else
    { data := m.data ++ bytes, text, started := true
      state := if final then .complete else .pending }

/-- `native_console_message::reset`. -/
def Message.reset (m : Message) : Message := { m with data := [], started := false, state := .pending }

/-! ## The preconnection gate -/

/-- `native_preconnection_guard::status`. -/
inductive Verdict where
  | pending | accepted | rejected
  deriving DecidableEq

/-- `native_preconnection_guard`. -/
structure Guard where
  vmId : Bytes
  buffer : Bytes
  size : Nat
  expected : Nat
  state : Verdict
  deriving DecidableEq

/-- `native_preconnection_guard::result`. -/
structure Taken where
  state : Verdict
  consumed : Nat
  deriving DecidableEq

/-- What may follow the identifier in the packet. -/
def enhancedModeSuffix : Bytes := Ipms.ManagementJson.utf8 ";EnhancedMode=0"

/-- The lower case of a hexadecimal capital. -/
def lowerHexByte (c : UInt8) : UInt8 := if 65 ≤ c ∧ c ≤ 70 then c + 32 else c

namespace Guard

/-- The gate for a machine. -/
def new (vmId : Bytes) : Guard where
  vmId
  buffer := List.replicate 256 0
  size := 0
  expected := 4
  state := if nativeConsoleUuid vmId then .pending else .rejected

variable (g : Guard)

/-- `buffer_[size_++] = …`. -/
def write (b : UInt8) : Option Guard :=
  if g.size < g.buffer.length then
    some { g with buffer := g.buffer.set g.size b, size := g.size + 1 }
  else none

def u32 (index : Nat) : Option Nat := do
  let b0 ← g.buffer[index]?
  let b1 ← g.buffer[index + 1]?
  let b2 ← g.buffer[index + 2]?
  let b3 ← g.buffer[index + 3]?
  return LittleEndian.value [b0, b1, b2, b3]

/-- The characters of the payload, one of two bytes after the other; `some none` where one is not
an ASCII character or is zero. -/
def pcb (g : Guard) : Nat → Nat → Option (Option Bytes)
  | 0, _ => some (some [])
  | n + 1, index => do
    let low ← g.buffer[index]?
    let high ← g.buffer[index + 1]?
    if low = 0 ∨ 127 < low ∨ high ≠ 0 then return none
    else
      let rest ← g.pcb n (index + 2)
      return rest.map (low :: ·)

/-- The payload names the machine of the gate, alone or with the fixed mode. -/
def namesVm (payload : Bytes) : Bool :=
  (payload.length == 36 || payload.length == 36 + enhancedModeSuffix.length &&
      payload.drop 36 == enhancedModeSuffix) &&
    nativeConsoleUuid (payload.take 36) &&
    (payload.take 36).map lowerHexByte == (g.vmId.take 36).map lowerHexByte

def validate : Option Bool := do
  if g.size < 20 then return false
  else
    let flags ← g.u32 4
    let version ← g.u32 8
    let id ← g.u32 12
    if flags ≠ 0 ∨ version ≠ 2 ∨ id ≠ 0 then return false
    else
      let low ← g.buffer[16]?
      let high ← g.buffer[17]?
      let count := LittleEndian.value [low, high]
      if count = 0 ∨ g.size ≠ 18 + count * 2 then return false
      else
        let first ← g.buffer[g.size - 2]?
        let last ← g.buffer[g.size - 1]?
        if first ≠ 0 ∨ last ≠ 0 then return false
        else
          -- the indices from 18 in steps of two that stay two below the size
          match ← g.pcb ((g.size - 19) / 2) 18 with
          | none => return false
          | some payload => return g.namesVm payload

/-- The loop of `append`: the gate and the number of bytes it took. -/
def fill (g : Guard) : Bytes → Nat → Option (Guard × Nat)
  | [], consumed => some (g, consumed)
  | b :: bs, consumed =>
    if g.size < g.expected then do
      let g ← g.write b
      if g.size = 4 then
        let expected ← g.u32 0
        let g := { g with expected }
        if expected < 20 ∨ 256 < expected ∨ expected % 2 ≠ 0 then
          return ({ g with state := .rejected }, consumed + 1)
        else g.fill bs (consumed + 1)
      else g.fill bs (consumed + 1)
    else some (g, consumed)

/-- `native_preconnection_guard::append`. -/
def append (input : Bytes) : Option (Guard × Taken) :=
  if g.state ≠ .pending then some ({ g with state := .rejected }, ⟨.rejected, 0⟩)
  else do
    let (g, consumed) ← g.fill input 0
    if g.state = .rejected then return (g, ⟨.rejected, consumed⟩)
    else if g.size = g.expected then
      let valid ← g.validate
      let g := { g with state := if valid then .accepted else .rejected }
      return (g, ⟨g.state, consumed⟩)
    else return (g, ⟨g.state, consumed⟩)

def packet : Bytes := if g.state = .accepted then g.buffer.take g.size else []

end Guard

end Ipms.Agent.Console
