import Ipms.Agent.Gpo.Text
import Ipms.Lib.Transducer

/-
  Ipms.Server.NativeProtocol.Framer

  `GuacStreamFramer`: the renderer's stream, cut at complete instructions.  An
  instruction is a list of elements between commas, up to a semicolon, and an
  element is a length in decimal, a dot and as many characters.  The framer keeps
  the unfinished instruction from one call to the next and counts its bytes.
-/

namespace Ipms.Server.NativeProtocol

open Ipms.Agent.Gpo (digit digitsValue)

/-- `NativeProtocolError`. -/
inductive ProtocolError where
  | native
  deriving DecidableEq

def chunkBytes : Nat := 65536

/-- `MAX_GUAC_INSTRUCTION_BYTES`. -/
def maxInstructionBytes : Nat := 8388608

/-- `len(text.encode('utf-8'))`. -/
def byteLength (text : List Char) : Nat := (text.map Char.utf8Size).sum

@[simp] theorem byteLength_nil : byteLength [] = 0 := rfl

@[simp] theorem byteLength_cons (c : Char) (text : List Char) :
    byteLength (c :: text) = c.utf8Size + byteLength text := by
  simp [byteLength]

@[simp] theorem byteLength_append (text more : List Char) :
    byteLength (text ++ more) = byteLength text + byteLength more := by
  simp [byteLength]

theorem length_le_byteLength (text : List Char) : text.length ≤ byteLength text := by
  induction text with
  | nil => exact Nat.le_refl 0
  | cons c text ih =>
    have hpos := c.utf8Size_pos
    rw [byteLength_cons, List.length_cons]
    omega

/-! ## The framer -/

/-- `isascii` and `isdigit`: a number of ASCII digits. -/
def number (digits : List Char) : Bool := !digits.isEmpty && digits.all digit

/-- `GuacStreamFramer`. -/
structure Framer where
  maximum : Nat
  /-- the text of the unfinished instruction -/
  instruction : List Char := []
  /-- the bytes of that text -/
  size : Nat := 0
  /-- the digits of an unfinished length -/
  lengthPrefix : List Char := []
  /-- the characters the current element still lacks -/
  remaining : Option Nat := none
  size_eq : size = byteLength instruction := by rfl

@[ext] theorem Framer.ext {s t : Framer} (hmaximum : s.maximum = t.maximum)
    (hinstruction : s.instruction = t.instruction) (hstart : s.lengthPrefix = t.lengthPrefix)
    (hremaining : s.remaining = t.remaining) : s = t := by
  obtain ⟨maximum, instruction, size, lengthPrefix, remaining, hsize⟩ := s
  obtain ⟨maximum', instruction', size', lengthPrefix', remaining', hsize'⟩ := t
  obtain rfl : maximum = maximum' := hmaximum
  obtain rfl : instruction = instruction' := hinstruction
  obtain rfl : lengthPrefix = lengthPrefix' := hstart
  obtain rfl : remaining = remaining' := hremaining
  obtain rfl : size = size' := hsize.trans hsize'.symm
  rfl

namespace Framer

/-- A framer at an instruction boundary. -/
def new (maximum : Nat) : Framer := { maximum }

/-- The constructor, which bounds the limit. -/
def create (maximum : Nat := maxInstructionBytes) : Option Framer :=
  if 1 ≤ maximum ∧ maximum ≤ maxInstructionBytes then some (new maximum) else none

/-- The framer with more text of its instruction. -/
def extend (s : Framer) (text : List Char) : Framer :=
  { s with
    instruction := s.instruction ++ text
    size := s.size + byteLength text
    size_eq := by rw [byteLength_append, s.size_eq] }

def append (s : Framer) (text : List Char) : Except ProtocolError Framer :=
  if s.size + byteLength text > s.maximum then .error .native else .ok (s.extend text)

/-- The framer after an instruction. -/
def reset (s : Framer) : Framer := { s with instruction := [], size := 0, size_eq := rfl }

/-! ### A call of `feed` -/

/-- What a call of `feed` has completed: the messages it returns, and the instructions that share
the next one. -/
structure Batch where
  messages : List (List Char) := []
  batch : List (List Char) := []
  batchSize : Nat := 0

/-- Add an instruction; a message that would grow beyond a chunk is closed before it. -/
def Batch.push (b : Batch) (instruction : List Char) (size : Nat) : Batch :=
  if b.batch ≠ [] ∧ b.batchSize + size > chunkBytes then
    { messages := b.messages ++ [b.batch.flatten], batch := [instruction], batchSize := size }
  else { b with batch := b.batch ++ [instruction], batchSize := b.batchSize + size }

/-- The messages of a call. -/
def Batch.close (b : Batch) : List (List Char) :=
  if b.batch = [] then b.messages else b.messages ++ [b.batch.flatten]

/-- More digits of a length. -/
def readDigits (s : Framer) (digits : List Char) : Except ProtocolError Framer :=
  let lengthPrefix := s.lengthPrefix ++ digits
  if lengthPrefix.length > 7 ∨ number lengthPrefix = false then .error .native
  else { s with lengthPrefix }.append digits

/-- The dot after a length. -/
def readDot (s : Framer) : Except ProtocolError Framer := do
  let remaining := digitsValue s.lengthPrefix
  let s ← { s with lengthPrefix := [], remaining := some remaining }.append ['.']
  if s.size + remaining + 1 > s.maximum then .error .native else .ok s

/-- Characters of an element that lacks `missing`, at most as many. -/
def readContent (s : Framer) (missing : Nat) (text : List Char) : Except ProtocolError Framer := do
  let s ← s.append text
  pure { s with remaining := some (missing - text.length) }

/-- The delimiter after an element. -/
def readDelimiter (s : Framer) (c : Char) : Except ProtocolError Framer := do
  if c ≠ ',' ∧ c ≠ ';' then .error .native
  else do
    let s ← s.append [c]
    pure { s with remaining := none }

/-- The loop of `feed`; the fuel is the length of the text. -/
def feedFrom : Nat → Framer → Batch → List Char → Except ProtocolError (Framer × Batch)
  | _, s, b, [] => .ok (s, b)
  | 0, _, _, _ :: _ => .error .native
  | fuel + 1, s, b, c :: rest =>
    match s.remaining with
    | none => do
      let s ← s.readDigits ((c :: rest).takeWhile (· ≠ '.'))
      match (c :: rest).dropWhile (· ≠ '.') with
      | [] => pure (s, b)
      | _ :: rest => do
        let s ← s.readDot
        feedFrom fuel s b rest
    | some (n + 1) => do
      let s ← s.readContent (n + 1) ((c :: rest).take (n + 1))
      feedFrom fuel s b ((c :: rest).drop (n + 1))
    | some 0 => do
      let s ← s.readDelimiter c
      if c = ';' then feedFrom fuel s.reset (b.push s.instruction s.size) rest
      else feedFrom fuel s b rest

def feed (s : Framer) (text : List Char) : Except ProtocolError (Framer × List (List Char)) := do
  let (s, b) ← feedFrom text.length s {} text
  pure (s, b.close)

/-- Calls of `feed`, one for each chunk. -/
def feeds : Framer → List (List Char) → Except ProtocolError (Framer × List (List Char)) :=
  Lib.Transducer.run feed

def finish (s : Framer) : Except ProtocolError Unit :=
  if s.size ≠ 0 then .error .native else .ok ()

/-! ### One character -/

/-- The framer on one character: the instruction it completes, if any. -/
def char (s : Framer) (c : Char) : Except ProtocolError (Framer × List (List Char)) :=
  match s.remaining with
  | none =>
    if c = '.' then do
      let s ← s.readDigits []
      let s ← s.readDot
      pure (s, [])
    else do
      let s ← s.readDigits [c]
      pure (s, [])
  | some (n + 1) => do
    let s ← s.readContent (n + 1) [c]
    pure (s, [])
  | some 0 => do
    let s ← s.readDelimiter c
    if c = ';' then pure (s.reset, [s.instruction]) else pure (s, [])

/-- The framer on a text, character by character. -/
def chars : Framer → List Char → Except ProtocolError (Framer × List (List Char)) :=
  Lib.Transducer.run char

end Framer

end Ipms.Server.NativeProtocol
