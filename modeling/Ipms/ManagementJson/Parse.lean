import Ipms.Lib.Transaction
import Ipms.ManagementJson.Serialize

/-
  Ipms.ManagementJson.Parse

  The deterministic contract parser: a position in the source and a node count.
  Every error is the one document error, which says nothing about the text, so a
  reader is a transaction that either returns or fails.
-/

namespace Ipms.ManagementJson

open Ipms.Lib

/-- The parser's position, as the source that is left, and its node count. -/
structure Reader where
  rest : Bytes
  nodes : Nat := 0
  deriving DecidableEq

/-- One step of the parser. -/
abbrev Read := Txn Reader Exn

def invalid {α : Type} : Read α := throw invalidDocument

/-- Count a node. -/
def Read.node (bounds : Limits) : Read Unit := do
  modify fun r => { r with nodes := r.nodes + 1 }
  throwIf ((← get).nodes > bounds.nodes) invalidDocument

/-- The next byte, or NUL at the end of the source. -/
def peek : Read UInt8 := do return (← get).rest.head?.getD 0

/-- Move past `count` bytes. -/
def advance (count : Nat) : Read Unit := modify fun r => { r with rest := r.rest.drop count }

/-- Move past the next byte if it is `item`. -/
def consume (item : UInt8) : Read Bool := do
  if (← get).rest.head? = some item then
    advance 1
    return true
  else
    return false

/-- A byte between tokens. -/
def space (b : UInt8) : Bool := b == 32 || b == 9 || b == 13 || b == 10

/-- Move past the space before the next token. -/
def whitespace : Read Unit := modify fun r => { r with rest := r.rest.dropWhile space }

/-- Read a fixed word. -/
def literal (text : Bytes) : Read Unit := do
  throwIf ((← get).rest.take text.length ≠ text) invalidDocument
  advance text.length

/-! ## Strings -/

/-- The width of a scalar, the bits of its first byte and the least value of that width. -/
def leadByte (first : UInt8) : Option (Nat × Nat × Nat) :=
  if 0xc2 ≤ first ∧ first ≤ 0xdf then some (2, (first &&& 0x1f).toNat, 0x80)
  else if 0xe0 ≤ first ∧ first ≤ 0xef then some (3, (first &&& 0x0f).toNat, 0x800)
  else if 0xf0 ≤ first ∧ first ≤ 0xf4 then some (4, (first &&& 0x07).toNat, 0x10000)
  else none

/-- Add the six bits of each continuation byte. -/
def continuation : Nat → Bytes → Option Nat
  | point, [] => some point
  | point, next :: rest =>
    if next &&& 0xc0 ≠ 0x80 then none
    else continuation (point * 64 + (next &&& 0x3f).toNat) rest

/-- One shortest-form UTF-8 scalar, without surrogates and values beyond U+10FFFF. -/
def utf8Scalar : Bytes → Option (Char × Bytes)
  | [] => none
  | first :: rest =>
    if first < 0x80 then some (Char.ofNat first.toNat, rest)
    else match leadByte first with
      | none => none
      | some (width, lead, minimum) =>
        if rest.length < width - 1 then none
        else match continuation lead (rest.take (width - 1)) with
          | none => none
          | some point =>
            if point < minimum ∨ 0x10ffff < point ∨ (0xd800 ≤ point ∧ point ≤ 0xdfff) then none
            else some (Char.ofNat point, rest.drop (width - 1))

/-- A hexadecimal digit of either case. -/
def hexValue (b : UInt8) : Option Nat :=
  if 48 ≤ b ∧ b ≤ 57 then some (b.toNat - 48)
  else if 97 ≤ b ∧ b ≤ 102 then some (b.toNat - 97 + 10)
  else if 65 ≤ b ∧ b ≤ 70 then some (b.toNat - 65 + 10)
  else none

/-- The four digits of a `\u` escape. -/
def hex4 : Bytes → Option (Nat × Bytes)
  | a :: b :: c :: d :: rest => do
    let a ← hexValue a
    let b ← hexValue b
    let c ← hexValue c
    let d ← hexValue d
    return (((a * 16 + b) * 16 + c) * 16 + d, rest)
  | _ => none

/-- What follows `\u`: one scalar, or a high surrogate and the escape of a low one. -/
def unicodeEscape (text : Bytes) : Option (Char × Bytes) := do
  let (point, rest) ← hex4 text
  if 0xd800 ≤ point ∧ point ≤ 0xdbff then
    match rest with
    | 92 :: 117 :: rest => do
      let (low, rest) ← hex4 rest
      if low < 0xdc00 ∨ 0xdfff < low then none
      else return (Char.ofNat (0x10000 + (point - 0xd800) * 0x400 + (low - 0xdc00)), rest)
    | _ => none
  else if 0xdc00 ≤ point ∧ point ≤ 0xdfff then none
  else return (Char.ofNat point, rest)

/-- One character of a string, written as itself or as an escape. -/
def character : Bytes → Option (Char × Bytes)
  | [] => none
  | next :: rest =>
    if next < 0x20 then none
    else if next ≠ 92 then utf8Scalar (next :: rest)
    else match rest with
      | [] => none
      | item :: rest =>
        if item = 34 then some ('"', rest)
        else if item = 92 then some ('\\', rest)
        else if item = 47 then some ('/', rest)
        else if item = 98 then some (Char.ofNat 8, rest)
        else if item = 102 then some (Char.ofNat 12, rest)
        else if item = 110 then some (Char.ofNat 10, rest)
        else if item = 114 then some (Char.ofNat 13, rest)
        else if item = 116 then some (Char.ofNat 9, rest)
        else if item = 117 then unicodeEscape rest
        else none

/-- The characters of a string up to its closing quote.  Each turn of the loop takes at least one
byte, so the length of the source bounds the turns. -/
def readChars (bounds : Limits) : Nat → List Char → Bytes → Option (String × Bytes)
  | 0, _, _ => none
  | turns + 1, output, source =>
    match source with
    | [] => none
    | next :: rest =>
      if next = 34 then some (String.ofList output, rest)
      else match character (next :: rest) with
        | none => none
        | some (c, rest) =>
          if (utf8 (String.ofList (output ++ [c]))).length > bounds.stringBytes then none
          else readChars bounds turns (output ++ [c]) rest

/-- Read a quoted string. -/
def readString (bounds : Limits) : Read String := do
  if !(← consume 34) then
    invalid
  else
    let source := (← get).rest
    match readChars bounds (source.length + 1) [] source with
    | none => invalid
    | some (text, rest) => do
      modify fun r => { r with rest := rest }
      return text

/-! ## Integers -/

/-- The values of `std::int64_t`. -/
def int64 (n : Int) : Bool := decide (-9223372036854775808 ≤ n) && decide (n ≤ 9223372036854775807)

/-- A decimal digit. -/
def digitByte (b : UInt8) : Bool := decide (48 ≤ b) && decide (b ≤ 57)

/-- `std::from_chars` over the digits of a number, without its range check. -/
def digitsValue (digits : Bytes) : Nat := digits.foldl (fun n b => n * 10 + (b.toNat - 48)) 0

/-- The digits of a number: zero alone, or digits that do not start with zero. -/
def readDigits : Read Bytes := do
  if ← consume 48 then
    throwIf (digitByte (← peek)) invalidDocument
    return [48]
  else
    let first ← peek
    throwIf (first < 49 ∨ 57 < first) invalidDocument
    let digits := (← get).rest.takeWhile digitByte
    advance digits.length
    return digits

/-- Read an integer.  Fractions and exponents are not part of the contract. -/
def integer : Read Value := do
  let negative ← consume 45
  let digits ← readDigits
  let next ← peek
  throwIf (next = 46 ∨ next = 101 ∨ next = 69) invalidDocument
  let result : Int := if negative then -(digitsValue digits : Int) else digitsValue digits
  throwIf (int64 result = false) invalidDocument
  return .int result

/-! ## Values -/

/-- `emplace` into a map whose keys stand in the order of their bytes. -/
def insertMember (key : String) (item : Value) : List (String × Value) → List (String × Value)
  | [] => [(key, item)]
  | (k, v) :: rest =>
    if utf8 key < utf8 k then (key, item) :: (k, v) :: rest
    else (k, v) :: insertMember key item rest

mutual
/-- Read a value at a nesting depth.  `fuel` bounds the nesting of calls; the node limit is
reached first (`readValue_fuel`). -/
def readValue (bounds : Limits) : Nat → Nat → Read Value
  | 0, _ => invalid
  | fuel + 1, depth => do
    Read.node bounds
    let next ← peek
    if next = 110 then
      literal [110, 117, 108, 108]
      return .null
    else if next = 116 then
      literal [116, 114, 117, 101]
      return .bool true
    else if next = 102 then
      literal [102, 97, 108, 115, 101]
      return .bool false
    else if next = 34 then
      return .str (← readString bounds)
    else if next = 91 then
      throwIf (depth ≥ bounds.depth) invalidDocument
      advance 1
      whitespace
      if ← consume 93 then return .arr []
      else readItems bounds fuel (depth + 1) []
    else if next = 123 then
      throwIf (depth ≥ bounds.depth) invalidDocument
      advance 1
      whitespace
      if ← consume 125 then return .obj []
      else readMembers bounds fuel (depth + 1) []
    else
      integer
/-- Read the items of an array that is not empty. -/
def readItems (bounds : Limits) : Nat → Nat → List Value → Read Value
  | 0, _, _ => invalid
  | fuel + 1, depth, result => do
    whitespace
    let item ← readValue bounds fuel depth
    whitespace
    if ← consume 93 then return .arr (result ++ [item])
    else if ← consume 44 then readItems bounds fuel depth (result ++ [item])
    else invalid
/-- Read the members of an object that is not empty. -/
def readMembers (bounds : Limits) : Nat → Nat → List (String × Value) → Read Value
  | 0, _, _ => invalid
  | fuel + 1, depth, result => do
    whitespace
    Read.node bounds
    let key ← readString bounds
    throwIf ((result.lookup key).isSome) invalidDocument
    whitespace
    if !(← consume 58) then
      invalid
    else
      whitespace
      let item ← readValue bounds fuel depth
      whitespace
      if ← consume 125 then return .obj (insertMember key item result)
      else if ← consume 44 then readMembers bounds fuel depth (insertMember key item result)
      else invalid
end

/-- Read a whole document. -/
def readDocument (bounds : Limits) : Read Value := do
  whitespace
  let document ← readValue bounds (2 * bounds.nodes + 1) 0
  whitespace
  throwIf ((← get).rest ≠ []) invalidDocument
  return document

/-- Parse a document within bounds. -/
def parse (source : Bytes) (bounds : Limits := {}) : Except Exn Value :=
  if !bounds.valid ∨ source.length > bounds.documentBytes then .error invalidDocument
  else (readDocument bounds).exec { rest := source } |>.map (·.1)

end Ipms.ManagementJson
