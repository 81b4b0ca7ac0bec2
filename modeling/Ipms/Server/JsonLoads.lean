import Ipms.ManagementJson.Tokens
import Ipms.Server.Text

/-
  Ipms.Server.JsonLoads

  `json.loads`, of the documents that agents send: the bytes of a text, and the
  value it stands for.  A number with a fraction or an exponent and the escape of
  a lone surrogate, which no agent writes, are not modelled.
-/

namespace Ipms.Server

open Ipms.ManagementJson

/-! ## UTF-8 -/

/-- `bytes.decode`, in at most so many turns. -/
def decodeTurns : Nat → Bytes → Option (List Char)
  | _, [] => some []
  | 0, _ :: _ => none
  | turns + 1, first :: rest => do
    let (c, rest) ← utf8Scalar (first :: rest)
    let cs ← decodeTurns turns rest
    return c :: cs

/-- `bytes.decode`: every character takes a byte at least. -/
def decode (bs : Bytes) : Option (List Char) := decodeTurns bs.length bs

theorem length_utf8EncodeChar_pos (c : Char) : 0 < (String.utf8EncodeChar c).length := by
  rw [String.length_utf8EncodeChar]
  exact Char.utf8Size_pos c

theorem decodeTurns_encode : (cs : List Char) → (turns : Nat) → (encode cs).length ≤ turns →
    decodeTurns turns (encode cs) = some cs
  | [], turns, _ => by
    rw [encode_nil]
    cases turns <;> rfl
  | c :: cs, turns, hturns => by
    rw [encode_cons, List.length_append] at hturns
    have hpos := length_utf8EncodeChar_pos c
    have hscalar := utf8Scalar_encode c (encode cs)
    obtain ⟨turns, rfl⟩ : ∃ n, turns = n + 1 := ⟨turns - 1, by omega⟩
    rw [encode_cons]
    generalize hbytes : String.utf8EncodeChar c ++ encode cs = bytes at hscalar
    cases bytes with
    | nil => cases hscalar
    | cons first rest =>
      rw [decodeTurns, hscalar]
      have ih := decodeTurns_encode cs turns (by omega)
      simp only [Option.bind_eq_bind, Option.bind_some, ih]
      rfl

theorem eq_encode_of_decodeTurns : (turns : Nat) → (bs : Bytes) → (cs : List Char) →
    decodeTurns turns bs = some cs → bs = encode cs
  | turns, [], cs, h => by
    cases turns <;> cases h <;> rfl
  | 0, _ :: _, _, h => by cases h
  | turns + 1, first :: rest, cs, h => by
    obtain ⟨⟨c, rest'⟩, hscalar, h⟩ := Option.bind_eq_some_iff.mp h
    obtain ⟨cs', hrest, h⟩ := Option.bind_eq_some_iff.mp h
    cases h
    rw [utf8Scalar_sound hscalar, encode_cons, eq_encode_of_decodeTurns turns rest' cs' hrest]

theorem decode_eq_some_iff {bs : Bytes} {cs : List Char} : decode bs = some cs ↔ bs = encode cs := by
  constructor
  · exact eq_encode_of_decodeTurns _ _ _
  · rintro rfl
    exact decodeTurns_encode cs _ le_rfl

/-- A text is read back from its bytes. -/
@[simp] theorem decode_encode (cs : List Char) : decode (encode cs) = some cs :=
  decode_eq_some_iff.mpr rfl

/-! ## Documents -/

/-- What follows the white space between tokens. -/
def skip (source : Bytes) : Bytes := source.dropWhile ManagementJson.space

/-- `scanstring`: the characters up to the closing quote.  Every turn takes a byte at least. -/
def loadsText : Nat → Bytes → Option (List Char × Bytes)
  | 0, _ => none
  | _ + 1, [] => none
  | turns + 1, next :: rest =>
    if next = 34 then some ([], rest)
    else do
      let (c, rest) ← character (next :: rest)
      let (cs, rest) ← loadsText turns rest
      return (c :: cs, rest)

/-- A string behind its opening quote. -/
def loadsString (source : Bytes) : Option (String × Bytes) := do
  let (cs, rest) ← loadsText (source.length + 1) source
  return (String.ofList cs, rest)

/-- `NUMBER_RE`, of an integer: a zero, or digits that begin with no zero. -/
def loadsDigits (source : Bytes) : Option (Nat × Bytes) :=
  match source.takeWhile digitByte with
  | [] => none
  | first :: digits =>
    let whole := if first = 48 then [48] else first :: digits
    let rest := source.drop whole.length
    if rest.head? = some 46 ∨ rest.head? = some 69 ∨ rest.head? = some 101 then none
    else some (digitsValue whole, rest)

/-- A literal or a number. -/
def loadsScalar (source : Bytes) : Option (Value × Bytes) :=
  if source.take 4 = [110, 117, 108, 108] then some (.null, source.drop 4)
  else if source.take 4 = [116, 114, 117, 101] then some (.bool true, source.drop 4)
  else if source.take 5 = [102, 97, 108, 115, 101] then some (.bool false, source.drop 5)
  else if source.head? = some 45 then
    (loadsDigits (source.drop 1)).map fun (n, rest) => (.int (-n), rest)
  else (loadsDigits source).map fun (n, rest) => (.int n, rest)

/-- `dict[key] = item`: a key keeps its place. -/
def setItem (members : List (String × Value)) (m : String × Value) : List (String × Value) :=
  if (members.map (·.1)).contains m.1 then
    members.map fun old => if old.1 == m.1 then m else old
  else members ++ [m]

/-- `dict(pairs)`. -/
def dict (pairs : List (String × Value)) : List (String × Value) := pairs.foldl setItem []

mutual
/-- The value at the start of a text.  Every call is closer to its end, so its length bounds them. -/
def loadsValue : Nat → Bytes → Option (Value × Bytes)
  | 0, _ => none
  | fuel + 1, source =>
    match skip source with
    | [] => none
    | first :: rest =>
      if first = 34 then do
        let (text, rest) ← loadsString rest
        return (.str text, rest)
      else if first = 91 then
        if (skip rest).head? = some 93 then
          some (.arr [], (skip rest).tail)
        else do
          let (items, rest) ← loadsItems fuel rest
          return (.arr items, rest)
      else if first = 123 then
        if (skip rest).head? = some 125 then
          some (.obj [], (skip rest).tail)
        else do
          let (pairs, rest) ← loadsMembers fuel rest
          return (.obj (dict pairs), rest)
      else loadsScalar (first :: rest)
/-- The items of an array that is not empty, behind its bracket. -/
def loadsItems : Nat → Bytes → Option (List Value × Bytes)
  | 0, _ => none
  | fuel + 1, source => do
    let (item, rest) ← loadsValue fuel source
    let rest := skip rest
    if rest.head? = some 44 then do
      let (items, rest) ← loadsItems fuel rest.tail
      return (item :: items, rest)
    else if rest.head? = some 93 then return ([item], rest.tail)
    else none
/-- The members of an object that is not empty, behind its brace. -/
def loadsMembers : Nat → Bytes → Option (List (String × Value) × Bytes)
  | 0, _ => none
  | fuel + 1, source => do
    let source := skip source
    if source.head? ≠ some 34 then none
    let (key, rest) ← loadsString source.tail
    let rest := skip rest
    if rest.head? ≠ some 58 then none
    let (item, rest) ← loadsValue fuel rest.tail
    let rest := skip rest
    if rest.head? = some 44 then do
      let (members, rest) ← loadsMembers fuel rest.tail
      return ((key, item) :: members, rest)
    else if rest.head? = some 125 then return ([(key, item)], rest.tail)
    else none
end

/-- `json.loads`. -/
def loads (source : Bytes) : Option Value := do
  let (value, rest) ← loadsValue (source.length + 1) source
  if skip rest ≠ [] then none
  return value

end Ipms.Server
