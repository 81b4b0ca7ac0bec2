import Ipms.ManagementJson.KeyOrder

/-
  Ipms.ManagementJson.Grammar

  The grammar of the contract's documents, after RFC 8259: every relation reads
  an input, says what it denotes and names the input that is left.  Numbers are
  integers of the signed 64-bit range, keys are unique, text is UTF-8, and an
  object denotes the map of its members.
-/

namespace Ipms.ManagementJson

/-! ## Space -/

/-- `ws`: any number of blanks, tabs, line feeds and carriage returns. -/
inductive Ws : Bytes → Bytes → Prop
  | done {rest : Bytes} : Ws rest rest
  | more {b : UInt8} {s rest : Bytes} : b = 0x20 ∨ b = 0x09 ∨ b = 0x0a ∨ b = 0x0d → Ws s rest →
      Ws (b :: s) rest

/-! ## Strings -/

/-- A hexadecimal digit of either case. -/
inductive HexDigit : UInt8 → Nat → Prop
  | decimal {k : Nat} : k < 10 → HexDigit (UInt8.ofNat (48 + k)) k
  | lower {k : Nat} : k < 6 → HexDigit (UInt8.ofNat (97 + k)) (10 + k)
  | upper {k : Nat} : k < 6 → HexDigit (UInt8.ofNat (65 + k)) (10 + k)

/-- Four hexadecimal digits: one UTF-16 code unit. -/
inductive CodeUnit : Bytes → Nat → Bytes → Prop
  | digits {a b c d : UInt8} {i j k l : Nat} {rest : Bytes} : HexDigit a i → HexDigit b j →
      HexDigit c k → HexDigit d l →
      CodeUnit (a :: b :: c :: d :: rest) (((i * 16 + j) * 16 + k) * 16 + l) rest

/-- The escapes of one letter, and what they stand for. -/
def shortEscapes : List (UInt8 × Char) :=
  [(0x22, '"'), (0x5c, '\\'), (0x2f, '/'), (0x62, Char.ofNat 8), (0x66, Char.ofNat 12),
    (0x6e, Char.ofNat 10), (0x72, Char.ofNat 13), (0x74, Char.ofNat 9)]

/-- A UTF-16 code unit that is half of a pair. -/
def Surrogate (unit : Nat) : Prop := 0xd800 ≤ unit ∧ unit ≤ 0xdfff

/-- `char`: a scalar value in UTF-8 that is no control character, quotation mark or backslash, or
    an escape. -/
inductive CharAt : Bytes → Char → Bytes → Prop
  | unescaped {c : Char} {rest : Bytes} : 0x20 ≤ c.toNat → c ≠ '"' → c ≠ '\\' →
      CharAt (String.utf8EncodeChar c ++ rest) c rest
  | short {b : UInt8} {c : Char} {rest : Bytes} : (b, c) ∈ shortEscapes →
      CharAt (0x5c :: b :: rest) c rest
  | unit {s rest : Bytes} {n : Nat} : CodeUnit s n rest → ¬ Surrogate n →
      CharAt (0x5c :: 0x75 :: s) (Char.ofNat n) rest
  | pair {s t rest : Bytes} {high low : Nat} : CodeUnit s high (0x5c :: 0x75 :: t) →
      0xd800 ≤ high → high ≤ 0xdbff → CodeUnit t low rest → 0xdc00 ≤ low → low ≤ 0xdfff →
      CharAt (0x5c :: 0x75 :: s) (Char.ofNat (0x10000 + (high - 0xd800) * 0x400 + (low - 0xdc00)))
        rest

/-- The characters of a string and its closing quotation mark. -/
inductive CharsAt : Bytes → List Char → Bytes → Prop
  | close {rest : Bytes} : CharsAt (0x22 :: rest) [] rest
  | char {s t rest : Bytes} {c : Char} {cs : List Char} : CharAt s c t → CharsAt t cs rest →
      CharsAt s (c :: cs) rest

/-- `string`. -/
inductive StringAt : Bytes → String → Bytes → Prop
  | quoted {s rest : Bytes} {text : String} : CharsAt s text.toList rest →
      StringAt (0x22 :: s) text rest

/-- A decimal digit. -/
def Digit (b : UInt8) : Prop := 48 ≤ b ∧ b ≤ 57

/-- `int`: zero alone, or digits of which the first is not zero. -/
inductive NatAt : Bytes → Nat → Bytes → Prop
  | zero {rest : Bytes} : NatAt (48 :: rest) 0 rest
  | digits {d : UInt8} {ds rest : Bytes} : 49 ≤ d → d ≤ 57 → (∀ b ∈ ds, Digit b) →
      NatAt (d :: ds ++ rest) (digitsValue (d :: ds)) rest

/-- `number` without a fraction or an exponent. -/
inductive IntAt : Bytes → Int → Bytes → Prop
  | plain {s rest : Bytes} {n : Nat} : NatAt s n rest → IntAt s n rest
  | minus {s rest : Bytes} {n : Nat} : NatAt s n rest → IntAt (0x2d :: s) (-n) rest

mutual
/-- `value`. -/
inductive ValueAt : Bytes → Value → Bytes → Prop
  | nullWord {rest : Bytes} : ValueAt (0x6e :: 0x75 :: 0x6c :: 0x6c :: rest) .null rest
  | trueWord {rest : Bytes} : ValueAt (0x74 :: 0x72 :: 0x75 :: 0x65 :: rest) (.bool true) rest
  | falseWord {rest : Bytes} :
      ValueAt (0x66 :: 0x61 :: 0x6c :: 0x73 :: 0x65 :: rest) (.bool false) rest
  | number {s rest : Bytes} {n : Int} : IntAt s n rest → -9223372036854775808 ≤ n →
      n ≤ 9223372036854775807 → ValueAt s (.int n) rest
  | string {s rest : Bytes} {text : String} : StringAt s text rest → ValueAt s (.str text) rest
  | emptyArray {s rest : Bytes} : Ws s (0x5d :: rest) → ValueAt (0x5b :: s) (.arr []) rest
  | array {s rest : Bytes} {items : List Value} : ItemsAt s items rest →
      ValueAt (0x5b :: s) (.arr items) rest
  | emptyObject {s rest : Bytes} : Ws s (0x7d :: rest) → ValueAt (0x7b :: s) (.obj []) rest
  | object {s rest : Bytes} {members map : List (String × Value)} : MembersAt s members rest →
      map.Perm members → map.Pairwise KeyLt → ValueAt (0x7b :: s) (.obj map) rest
/-- The items of an array, apart by commas, and its closing bracket. -/
inductive ItemsAt : Bytes → List Value → Bytes → Prop
  | last {s t u rest : Bytes} {item : Value} : Ws s t → ValueAt t item u → Ws u (0x5d :: rest) →
      ItemsAt s [item] rest
  | more {s t u v rest : Bytes} {item : Value} {items : List Value} : Ws s t → ValueAt t item u →
      Ws u (0x2c :: v) → ItemsAt v items rest → ItemsAt s (item :: items) rest
/-- The members of an object, apart by commas, and its closing brace. -/
inductive MembersAt : Bytes → List (String × Value) → Bytes → Prop
  | last {s t u v w x rest : Bytes} {key : String} {item : Value} : Ws s t → StringAt t key u →
      Ws u (0x3a :: v) → Ws v w → ValueAt w item x → Ws x (0x7d :: rest) →
      MembersAt s [(key, item)] rest
  | more {s t u v w x y rest : Bytes} {key : String} {item : Value}
      {members : List (String × Value)} : Ws s t → StringAt t key u → Ws u (0x3a :: v) → Ws v w →
      ValueAt w item x → Ws x (0x2c :: y) → MembersAt y members rest →
      MembersAt s ((key, item) :: members) rest
end

/-- `JSON-text`: one value and the space around it. -/
def Document (source : Bytes) (v : Value) : Prop :=
  ∃ s t, Ws source s ∧ ValueAt s v t ∧ Ws t []

end Ipms.ManagementJson
