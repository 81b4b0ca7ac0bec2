import Ipms.Agent.Gpo.Job

/-
  Ipms.Server.Text

  The text functions of the control plane: the canonical JSON whose digest both
  sides compare, identifiers, DNS names and distinguished names.  What Python
  takes from its Unicode tables is a parameter.
-/

namespace Ipms.Server

open Ipms.ManagementJson Ipms.Crypto

/-- A point in time, in microseconds since the epoch. -/
abbrev Time := Ipms.Agent.Gpo.Time

/-- What the Unicode tables of Python say. -/
structure Unicode where
  /-- `str.lower` -/
  lower : String → String
  /-- `str.casefold` -/
  casefold : String → String
  /-- `unicodedata.normalize('NFC', …)` -/
  nfc : String → String
  /-- the value of a character of class `\d` -/
  decimal : Char → Option Nat

/-- ASCII text in lower case. -/
def asciiLower (s : String) : String := String.ofList (s.toList.map Char.toLower)

/-- Unicode tables for ASCII text. -/
def asciiUnicode : Unicode where
  lower := asciiLower
  casefold := asciiLower
  nfc := id
  decimal c := if Agent.Gpo.digit c then some (c.toNat - 48) else none

/-! ## Canonical JSON -/

/-- A character inside a string of `json.dumps` with `ensure_ascii=False`. -/
def escapeText (c : Char) : List Char :=
  if c = '\\' then ['\\', '\\']
  else if c = '"' then ['\\', '"']
  else if c.val = 8 then ['\\', 'b']
  else if c.val = 12 then ['\\', 'f']
  else if c.val = 10 then ['\\', 'n']
  else if c.val = 13 then ['\\', 'r']
  else if c.val = 9 then ['\\', 't']
  else if c.val < 0x20 then
    ['\\', 'u', '0', '0', Nat.digitChar (c.toNat / 16), Nat.digitChar (c.toNat % 16)]
  else [c]

/-- A string of `json.dumps`. -/
def dumpsString (s : String) : List Char := '"' :: s.toList.flatMap escapeText ++ ['"']

/-- `str` of an integer. -/
def dumpsInt (n : Int) : List Char :=
  if n < 0 then '-' :: Nat.toDigits 10 n.natAbs else Nat.toDigits 10 n.natAbs

mutual
/-- `json.dumps` with sorted keys and the shortest separators. -/
def dumps : Value → List Char
  | .null => ['n', 'u', 'l', 'l']
  | .bool true => ['t', 'r', 'u', 'e']
  | .bool false => ['f', 'a', 'l', 's', 'e']
  | .int n => dumpsInt n
  | .str s => dumpsString s
  | .arr items => '[' :: dumpsItems items true ++ [']']
  | .obj members => '{' :: dumpsMembers members true ++ ['}']
/-- The items of a list. -/
def dumpsItems : List Value → Bool → List Char
  | [], _ => []
  | item :: rest, first => (if first then [] else [',']) ++ dumps item ++ dumpsItems rest false
/-- The members of a dictionary, which stand in key order. -/
def dumpsMembers : List (String × Value) → Bool → List Char
  | [], _ => []
  | (key, item) :: rest, first =>
    (if first then [] else [',']) ++ dumpsString key ++ [':'] ++ dumps item ++
      dumpsMembers rest false
end

/-- The UTF-8 bytes of characters. -/
def encode (cs : List Char) : Bytes := cs.flatMap String.utf8EncodeChar

def canonical (v : Value) : Bytes := encode (dumps v)

def digest (v : Value) : String := sha256 (canonical v)

/-! ### The canonical text is the agent's contract text -/

@[simp] theorem encode_append (cs ds : List Char) : encode (cs ++ ds) = encode cs ++ encode ds :=
  List.flatMap_append

@[simp] theorem encode_cons (c : Char) (cs : List Char) :
    encode (c :: cs) = String.utf8EncodeChar c ++ encode cs := List.flatMap_cons

@[simp] theorem encode_nil : encode [] = [] := rfl

theorem encode_escapeText (c : Char) : encode (escapeText c) = escape c := by
  have hascii : ∀ n < 32, encode ['\\', 'u', '0', '0', Nat.digitChar (n / 16),
      Nat.digitChar (n % 16)] = [92, 117, 48, 48, hexDigit (n / 16), hexDigit (n % 16)] := by
    decide
  unfold escapeText escape
  by_cases h₁ : c = '\\'
  · subst h₁; decide
  by_cases h₂ : c = '"'
  · subst h₂; decide
  rw [if_neg h₁, if_neg h₂, if_neg h₂, if_neg h₁]
  by_cases h₃ : c.val = 8
  · rw [if_pos h₃, if_pos h₃]; decide
  rw [if_neg h₃, if_neg h₃]
  by_cases h₄ : c.val = 12
  · rw [if_pos h₄, if_pos h₄]; decide
  rw [if_neg h₄, if_neg h₄]
  by_cases h₅ : c.val = 10
  · rw [if_pos h₅, if_pos h₅]; decide
  rw [if_neg h₅, if_neg h₅]
  by_cases h₆ : c.val = 13
  · rw [if_pos h₆, if_pos h₆]; decide
  rw [if_neg h₆, if_neg h₆]
  by_cases h₇ : c.val = 9
  · rw [if_pos h₇, if_pos h₇]; decide
  rw [if_neg h₇, if_neg h₇]
  by_cases h₈ : c.val < 0x20
  · rw [if_pos h₈, if_pos h₈]
    have hlt : c.toNat < (0x20 : UInt32).toNat := UInt32.lt_iff_toNat_lt.mp h₈
    exact hascii c.toNat hlt
  · rw [if_neg h₈, if_neg h₈]
    simp

theorem encode_dumpsString (s : String) : encode (dumpsString s) = renderString s := by
  have hbody : encode (s.toList.flatMap escapeText) = s.toList.flatMap escape := by
    unfold encode
    rw [List.flatMap_assoc]
    exact congrArg (List.flatMap · s.toList) (funext encode_escapeText)
  unfold dumpsString renderString
  rw [List.cons_append, encode_cons, encode_append, hbody]
  rfl

theorem encode_dumpsInt (n : Int) : encode (dumpsInt n) = toChars n := by
  unfold dumpsInt toChars natDigits
  by_cases hn : n < 0
  · rw [if_pos hn, if_pos hn]
    rfl
  · rw [if_neg hn, if_neg hn]
    rfl

mutual
theorem encode_dumps : (v : Value) → encode (dumps v) = render v
  | .null | .bool true | .bool false => by decide
  | .int n => encode_dumpsInt n
  | .str s => encode_dumpsString s
  | .arr items => by
    simp only [dumps, render, List.cons_append, encode_cons, encode_append,
      encode_dumpsItems items true]
    rfl
  | .obj members => by
    simp only [dumps, render, List.cons_append, encode_cons, encode_append,
      encode_dumpsMembers members true]
    rfl
theorem encode_dumpsItems : (items : List Value) → (first : Bool) →
    encode (dumpsItems items first) = renderItems items first
  | [], _ => rfl
  | item :: rest, first => by
    simp only [dumpsItems, renderItems, encode_append, encode_dumps item,
      encode_dumpsItems rest false]
    cases first <;> rfl
theorem encode_dumpsMembers : (members : List (String × Value)) → (first : Bool) →
    encode (dumpsMembers members first) = renderMembers members first
  | [], _ => rfl
  | (key, item) :: rest, first => by
    simp only [dumpsMembers, renderMembers, encode_append, encode_dumpsString,
      encode_dumps item, encode_dumpsMembers rest false]
    cases first <;> rfl
end

theorem canonical_eq_render (v : Value) : canonical v = render v := encode_dumps v

/-! ## Identifiers -/

/-- A character of a lowercase hexadecimal number. -/
def hexDigits (cs : List Char) : Bool := cs.all Agent.Gpo.lowerHex

/-- `uuid_text`: the canonical form of a UUID. -/
def uuidText (s : String) : Bool :=
  s.toList.length == 36 &&
    s.toList.zipIdx.all fun (c, i) =>
      if Agent.Gpo.uuidSeparator i then c == '-' else Agent.Gpo.lowerHex c

/-- `uuid_text` of a document's member. -/
def uuidValue : Value → Option String
  | .str s => if uuidText s then some s else none
  | _ => none

def defaultGpoIds : List String :=
  ["31b2f340-016d-11d2-945f-00c04fb984f9", "6ac1786c-016f-11d2-945f-00c04fb984f9"]

def sha (s : String) : Bool := s.toList.length == 64 && hexDigits s.toList

/-- One number of a SID: zero, or up to `maximum` digits without a leading zero. -/
def sidNumber (maximum : Nat) (part : List Char) : Bool :=
  part == ['0'] ||
    !part.isEmpty && part.head? != some '0' && part.all Agent.Gpo.digit &&
      decide (part.length ≤ maximum)

/-- `SID`: an authority and two to fifteen sub-authorities. -/
def sid (s : String) : Bool :=
  "S-1-".toList.isPrefixOf s.toList &&
    match (s.toList.drop 4).splitOn '-' with
    | [] => false
    | authority :: rest =>
      sidNumber 15 authority && decide (2 ≤ rest.length) && decide (rest.length ≤ 15) &&
        rest.all (sidNumber 10)

/-- The USN of a container. -/
def usn (s : String) : Bool := sidNumber 20 s.toList

/-- `_bounded`: text of bounded length without control characters.  A text of the model has no
surrogates. -/
def bounded (s : String) (maximum : Nat) (empty : Bool := false) : Bool :=
  (empty || s != "") && decide (s.toList.length ≤ maximum) &&
    s.toList.all fun c => !(decide (c.toNat < 32) || c.toNat == 127)

/-- A text joined from parts. -/
def joinWith (separator : List Char) (parts : List (List Char)) : List Char :=
  List.intercalate separator parts

/-- A label of `domain_name`. -/
def domainLabel (label : List Char) : Bool :=
  !label.isEmpty && decide (label.length ≤ 63) && label.head? != some '-' &&
    label.getLast? != some '-' &&
    label.all fun c => decide ('a' ≤ c) && decide (c ≤ 'z') || Agent.Gpo.digit c || c == '-'

/-- `domain_name`.  Surrounding whitespace fails the labels. -/
def domainName (unicode : Unicode) (value : String) : Option String :=
  let name := unicode.lower value
  let labels := name.toList.splitOn '.'
  if 3 ≤ value.toList.length ∧ value.toList.length ≤ 253 ∧ 2 ≤ labels.length ∧
      !(labels.all fun l => l.all Agent.Gpo.digit) ∧ labels.all domainLabel then some name
  else none

def domainRoot (domain : String) : String :=
  String.ofList (joinWith [','] ((domain.toList.splitOn '.').map fun label => 'D' :: 'C' :: '=' :: label))

/-! ## Distinguished names -/

/-- `str.isspace`. -/
def space (c : Char) : Bool :=
  let n := c.toNat
  decide (9 ≤ n) && decide (n ≤ 13) || decide (28 ≤ n) && decide (n ≤ 32) || n == 0x85 ||
    n == 0xa0 || n == 0x1680 || decide (0x2000 ≤ n) && decide (n ≤ 0x200a) || n == 0x2028 ||
    n == 0x2029 || n == 0x202f || n == 0x205f || n == 0x3000

/-- `str.strip`. -/
def strip (cs : List Char) : List Char := ((cs.dropWhile space).reverse.dropWhile space).reverse

/-- The components of a distinguished name, split at the commas that are not escaped. -/
def splitRdns : List Char → List Char → Option (List (List Char))
  | [], raw => some [raw]
  | ['\\'], _ => none
  | '\\' :: c :: rest, raw => splitRdns rest (raw ++ ['\\', c])
  | ',' :: rest, raw => (splitRdns rest []).map (raw :: ·)
  | c :: rest, raw => splitRdns rest (raw ++ [c])

/-- A hexadecimal digit of either case. -/
def hexDigit? (c : Char) : Option Nat :=
  if Agent.Gpo.digit c then some (c.toNat - 48)
  else if 'a' ≤ c ∧ c ≤ 'f' then some (c.toNat - 87)
  else if 'A' ≤ c ∧ c ≤ 'F' then some (c.toNat - 55)
  else none

/-- The byte two hexadecimal digits stand for. -/
def hexByte? (a b : Char) : Option UInt8 := do
  let high ← hexDigit? a
  let low ← hexDigit? b
  pure (UInt8.ofNat (16 * high + low))

/-- The characters an escape may stand before. -/
def escapable : List Char := [',', '+', '"', '\\', '<', '>', ';', '=', '#', ' ']

/-- The bytes of an attribute value; `start` tells its first character. -/
def decodeRdn : List Char → Bool → Option Bytes
  | [], _ => some []
  | ['\\'], _ => none
  | ['\\', c], _ => if c ∈ escapable then some (String.utf8EncodeChar c) else none
  | '\\' :: a :: b :: rest, _ =>
    match hexByte? a b with
    | some byte => (decodeRdn rest false).map (byte :: ·)
    | none =>
      if a ∈ escapable then (decodeRdn (b :: rest) false).map (String.utf8EncodeChar a ++ ·)
      else none
  | c :: rest, start =>
    if c ∈ ['+', '"', '<', '>', ';', '='] ∨ start = true ∧ c ∈ [' ', '#'] ∨
        rest = [] ∧ c = ' ' then none
    else (decodeRdn rest false).map (String.utf8EncodeChar c ++ ·)
  termination_by cs => cs.length

/-- An attribute of a distinguished name. -/
inductive Attribute where
  | ou | dc
  deriving DecidableEq

/-- The attribute type before the equals sign, without regard to case. -/
def attribute? (cs : List Char) : Option Attribute :=
  let upper := cs.map Char.toUpper
  if upper == ['O', 'U'] then some .ou else if upper == ['D', 'C'] then some .dc else none

/-- One component: its attribute and its decoded, normalized value. -/
def decodeComponent (unicode : Unicode) (raw : List Char) : Option (Attribute × String) := do
  let raw := raw.dropWhile space
  let kind ← attribute? (raw.takeWhile (· ≠ '='))
  let text := (raw.dropWhile (· ≠ '=')).drop 1
  if text = [] then none
  else do
    let bytes ← decodeRdn text true
    let value ← String.fromUTF8? ⟨bytes.toArray⟩
    let normalized := unicode.casefold (unicode.nfc value)
    if normalized = "" ∨ normalized.toList.any (fun c => decide (c.toNat < 32) || c.toNat == 127) then
      none
    else some (kind, normalized)

/-- The components of a domain. -/
def domainSuffix (domain : String) : List (Attribute × String) :=
  (domain.toList.splitOn '.').map fun label => (.dc, String.ofList label)

/-- `ou_identity`: the components of an organizational unit of a domain, or of the domain itself
where the root is allowed. -/
def ouIdentity (unicode : Unicode) (value domain : String) (allowDomainRoot : Bool := false) :
    Option (List (Attribute × String)) :=
  if value = "" ∨ 2048 < value.toList.length ∨
      value.toList.any (fun c => decide (c.toNat < 32) || c.toNat == 127) then none
  else do
    let rdns ← splitRdns (strip value.toList) []
    let decoded ← rdns.mapM (decodeComponent unicode)
    let suffix := domainSuffix domain
    if decoded = suffix ∧ allowDomainRoot = true then some decoded
    else if decoded.length ≤ suffix.length ∨ !suffix.isSuffixOf decoded ∨
        (decoded.take (decoded.length - suffix.length)).any (fun c => c.1 ≠ .ou) then none
    else some decoded

/-! ## Time stamps -/

/-- Days of a proleptic Gregorian year before a date, from the number of days since 1970. -/
def yearOfDays : Nat → Nat → Nat → Nat × Nat
  | 0, year, days => (year, days)
  | fuel + 1, year, days =>
    let length := if Agent.Gpo.leapYear year then 366 else 365
    if days < length then (year, days) else yearOfDays fuel (year + 1) (days - length)

def monthOfDays (year : Nat) : Nat → Nat → Nat → Nat × Nat
  | 0, month, days => (month, days)
  | fuel + 1, month, days =>
    let length := Agent.Gpo.daysInMonth year month
    if days < length then (month, days) else monthOfDays year fuel (month + 1) (days - length)

/-- A number with leading zeros up to a width. -/
def padded (width n : Nat) : List Char :=
  let digits := Nat.toDigits 10 n
  List.replicate (width - digits.length) '0' ++ digits

/-- Date and time of day of a time from 1970 on, to the second. -/
def dateTime (t : Time) : List Char :=
  let secs := (t / 1000000).toNat
  let (year, dayOfYear) := yearOfDays (secs / 86400 / 365 + 1) 1970 (secs / 86400)
  let (month, day) := monthOfDays year 12 1 dayOfYear
  padded 4 year ++ ['-'] ++ padded 2 month ++ ['-'] ++ padded 2 (day + 1) ++ ['T'] ++
    padded 2 (secs / 3600 % 24) ++ [':'] ++ padded 2 (secs / 60 % 60) ++ [':'] ++
    padded 2 (secs % 60)

/-- `strftime('%Y-%m-%dT%H:%M:%SZ')`. -/
def stamp (t : Time) : String := String.ofList (dateTime t ++ ['Z'])

/-- `isoformat` of a time in UTC, with microseconds unless there are none. -/
def isoFormat (t : Time) : String :=
  let micros := (t % 1000000).toNat
  String.ofList (dateTime t ++ (if micros = 0 then [] else '.' :: padded 6 micros) ++
    "+00:00".toList)

/-- `replace(microsecond=0)`. -/
def wholeSeconds (t : Time) : Time := t / 1000000 * 1000000

example : stamp 1789036245000000 = "2026-09-10T10:30:45Z" := by decide +kernel

/-- The number of a run of `\d` characters, one to five of them. -/
def versionPart (unicode : Unicode) (part : List Char) : Option Nat := do
  let digits ← part.mapM unicode.decimal
  if part = [] ∨ 5 < part.length then none else some (digits.foldl (fun n d => 10 * n + d) 0)

/-- The numbers of an agent version. -/
def versionTuple (unicode : Unicode) (version : String) : Option (Nat × Nat × Nat) :=
  match (version.toList.splitOn '.').mapM (versionPart unicode) with
  | some [a, b, c] => some (a, b, c)
  | _ => none

/-- The order of version tuples. -/
def versionAtLeast (v minimum : Nat × Nat × Nat) : Bool :=
  decide (minimum.1 < v.1) || v.1 == minimum.1 && (decide (minimum.2.1 < v.2.1) ||
    v.2.1 == minimum.2.1 && decide (minimum.2.2 ≤ v.2.2))

def versionSupported (unicode : Unicode) (version : String) (portal : Bool := false) : Bool :=
  (versionTuple unicode version).any fun v =>
    versionAtLeast v (if portal then (0, 2, 34) else (0, 2, 32))

end Ipms.Server
