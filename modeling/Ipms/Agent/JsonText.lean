import Ipms.Server.JsonLoads

/-
  Ipms.Agent.JsonText

  The documents the agents write to a stream piece by piece: texts between quotes
  with the bytes that JSON does not take escaped, numbers, and names that are
  literals of the program.  What the control plane reads from such a document.
  The texts of Windows are sequences of UTF-16 units, which need not be well
  formed, and are converted to UTF-8.
-/

namespace Ipms.Agent

open Ipms.ManagementJson
open Ipms.Server (decode encode loads loadsValue loadsItems loadsMembers loadsText loadsString skip)
open List (append_assoc append_nil cons_append cons_ne_nil flatMap_cons head?_cons length_append length_cons map_cons mem_cons mem_cons_self not_mem_nil)

/-! ## Strings -/

/-- What a writer puts for a control character without a short escape. -/
inductive Control where
  | question | escaped
  deriving DecidableEq

/-- The bytes a byte of a text stands for. -/
def escapeByte (control : Control) (b : UInt8) : Bytes :=
  if b = 34 then [92, 34]
  else if b = 92 then [92, 92]
  else if b = 8 then [92, 98]
  else if b = 12 then [92, 102]
  else if b = 10 then [92, 110]
  else if b = 13 then [92, 114]
  else if b = 9 then [92, 116]
  else if b < 0x20 then
    match control with
    | .question => [63]
    | .escaped => [92, 117, 48, 48, hexDigit (b.toNat / 16), hexDigit (b.toNat % 16)]
  else [b]

def jsonEscape (control : Control) (text : Bytes) : Bytes := text.flatMap (escapeByte control)

/-- The character a reader gets for a character of the text. -/
def Control.shown (control : Control) (c : Char) : Char :=
  match control with
  | .escaped => c
  | .question =>
    if c.toNat < 0x20 ∧ ¬(c.toNat = 8 ∨ c.toNat = 12 ∨ c.toNat = 10 ∨ c.toNat = 13 ∨ c.toNat = 9) then
      '?'
    else c

/-! ## Documents -/

/-- A document as the agents write one. -/
inductive Doc where
  | null
  | bool (b : Bool)
  | nat (n : Nat)
  | text (bytes : Bytes)
  | arr (items : List Doc)
  | obj (members : List (String × Doc))

mutual
/-- The bytes of a document. -/
def Doc.write (control : Control) : Doc → Bytes
  | .null => [110, 117, 108, 108]
  | .bool true => [116, 114, 117, 101]
  | .bool false => [102, 97, 108, 115, 101]
  | .nat n => natDigits n
  | .text bytes => 34 :: (jsonEscape control bytes ++ [34])
  | .arr items => 91 :: (writeItems control items ++ [93])
  | .obj members => 123 :: (writeMembers control members ++ [125])
/-- The items of an array, with commas between them. -/
def writeItems (control : Control) : List Doc → Bytes
  | [] => []
  | [item] => item.write control
  | item :: items => item.write control ++ 44 :: writeItems control items
/-- The members of an object, with commas between them. -/
def writeMembers (control : Control) : List (String × Doc) → Bytes
  | [] => []
  | [(key, item)] => 34 :: (utf8 key ++ 34 :: 58 :: item.write control)
  | (key, item) :: members =>
    34 :: (utf8 key ++ 34 :: 58 :: (item.write control ++ 44 :: writeMembers control members))
end

/-- A text, as a reader gets it: none when it is not UTF-8. -/
def readText (control : Control) (bytes : Bytes) : Option String :=
  (decode bytes).map fun cs => String.ofList (cs.map control.shown)

mutual
/-- The value a document stands for: none when a text in it is not UTF-8. -/
def Doc.read (control : Control) : Doc → Option Value
  | .null => some .null
  | .bool b => some (.bool b)
  | .nat n => some (.int n)
  | .text bytes => (readText control bytes).map .str
  | .arr items => (readItems control items).map .arr
  | .obj members => (readMembers control members).map .obj
/-- The values of the items. -/
def readItems (control : Control) : List Doc → Option (List Value)
  | [] => some []
  | item :: items => do
    let value ← item.read control
    let values ← readItems control items
    return value :: values
/-- The values of the members. -/
def readMembers (control : Control) : List (String × Doc) → Option (List (String × Value))
  | [] => some []
  | (key, item) :: members => do
    let value ← item.read control
    let values ← readMembers control members
    return (key, value) :: values
end

/-- A name that is written as it is. -/
def plainKey (key : String) : Bool := key.toList.all fun c => decide (c.val ≥ 0x20) && c != '"' && c != '\\'

mutual
/-- The names of every object are plain, and no two are the same. -/
def Doc.plain : Doc → Bool
  | .arr items => plainItems items
  | .obj members => plainMembers members && decide (members.map (·.1)).Nodup
  | _ => true
def plainItems : List Doc → Bool
  | [] => true
  | item :: items => item.plain && plainItems items
def plainMembers : List (String × Doc) → Bool
  | [] => true
  | (key, item) :: members => plainKey key && item.plain && plainMembers members
end

/-! ## Reading a string -/

theorem escapeByte_ascii (control : Control) : ∀ n < 128,
    escapeByte control (UInt8.ofNat n) = escape (control.shown (Char.ofNat n)) := by
  cases control <;> decide

/-- The bytes of a character beyond ASCII are no ASCII bytes. -/
theorem encode_high {c : Char} (h : 128 ≤ c.toNat) : ∀ b ∈ String.utf8EncodeChar c, 128 ≤ b.toNat := by
  have hval : ¬ c.val.toNat ≤ 0x7f := by
    have hnat : c.val.toNat = c.toNat := rfl
    omega
  have hvalid := c.valid
  have hbyte : ∀ k < 256, 128 ≤ k → 128 ≤ (UInt8.ofNat k).toNat := by
    intro k hk hle
    rw [UInt8.toNat_ofNat', Nat.mod_eq_of_lt hk]
    exact hle
  simp only [String.utf8EncodeChar, if_neg hval]
  intro b hb
  split at hb
  · simp only [mem_cons, not_mem_nil, or_false] at hb
    rcases hb with rfl | rfl
    · exact hbyte _ (by omega) (by omega)
    · exact hbyte _ (by omega) (by omega)
  · split at hb
    · simp only [mem_cons, not_mem_nil, or_false] at hb
      rcases hb with rfl | rfl | rfl
      · exact hbyte _ (by omega) (by omega)
      · exact hbyte _ (by omega) (by omega)
      · exact hbyte _ (by omega) (by omega)
    · simp only [mem_cons, not_mem_nil, or_false] at hb
      rcases hb with rfl | rfl | rfl | rfl
      · exact hbyte _ (by omega) (by omega)
      · exact hbyte _ (by omega) (by omega)
      · exact hbyte _ (by omega) (by omega)
      · exact hbyte _ (by omega) (by omega)

theorem escapeByte_high (control : Control) {b : UInt8} (h : 128 ≤ b.toNat) :
    escapeByte control b = [b] := by
  have hne : ∀ k : UInt8, k.toNat < 128 → b ≠ k := by
    rintro k hk rfl
    omega
  have hlow : ¬ b < 0x20 := by
    rw [UInt8.lt_iff_toNat_lt]
    have h32 : (0x20 : UInt8).toNat = 32 := rfl
    omega
  unfold escapeByte
  rw [if_neg (hne 34 (by decide)), if_neg (hne 92 (by decide)), if_neg (hne 8 (by decide)),
    if_neg (hne 12 (by decide)), if_neg (hne 10 (by decide)), if_neg (hne 13 (by decide)),
    if_neg (hne 9 (by decide)), if_neg hlow]

/-- The bytes of a character are escaped like the character that is shown. -/
theorem jsonEscape_char (control : Control) (c : Char) :
    jsonEscape control (String.utf8EncodeChar c) = escape (control.shown c) := by
  by_cases h : c.toNat < 128
  · rw [encode_ascii h, jsonEscape, List.flatMap_singleton, escapeByte_ascii control c.toNat h,
      Char.ofNat_toNat]
  · have hhigh : 128 ≤ c.toNat := Nat.le_of_not_lt h
    have hbytes := encode_high hhigh
    have hself : ∀ bs : Bytes, (∀ b ∈ bs, 128 ≤ b.toNat) → jsonEscape control bs = bs := by
      intro bs hbs
      induction bs with
      | nil => rfl
      | cons b bs ih =>
        have htail := ih fun b' hb' => hbs b' (List.mem_cons_of_mem b hb')
        rw [jsonEscape, flatMap_cons, escapeByte_high control (hbs b mem_cons_self)]
        exact congrArg (b :: ·) htail
    have hshown : control.shown c = c := by
      cases control with
      | escaped => rfl
      | question =>
        refine if_neg ?_
        omega
    have hne : ∀ n : Nat, n < 128 → c.val.toNat ≠ n := by
      intro n hn heq
      have hnat : c.val.toNat = c.toNat := rfl
      omega
    have hval : ∀ n : UInt32, n.toNat < 128 → c.val ≠ n := by
      rintro n hn heq
      exact hne _ hn (by rw [heq])
    have hchar : ∀ d : Char, d.toNat < 128 → c ≠ d := by
      rintro d hd rfl
      omega
    have hlow : ¬ c.val < 0x20 := by
      rw [UInt32.lt_iff_toNat_lt]
      have h32 : (0x20 : UInt32).toNat = 32 := rfl
      have hnat : c.val.toNat = c.toNat := rfl
      omega
    rw [hself _ hbytes, hshown, escape, if_neg (hchar '"' (by decide)), if_neg (hchar '\\' (by decide)),
      if_neg (hval 8 (by decide)), if_neg (hval 12 (by decide)), if_neg (hval 10 (by decide)),
      if_neg (hval 13 (by decide)), if_neg (hval 9 (by decide)), if_neg hlow]

theorem jsonEscape_encode (control : Control) (cs : List Char) :
    jsonEscape control (encode cs) = (cs.map control.shown).flatMap escape := by
  induction cs with
  | nil => rfl
  | cons c cs ih =>
    rw [Server.encode_cons, map_cons, flatMap_cons, ← ih, ← jsonEscape_char]
    exact List.flatMap_append

theorem loadsText_turn {turns : Nat} {source rest : Bytes} {c : Char}
    (hquote : source.head? ≠ some 34) (h : character source = some (c, rest)) :
    loadsText (turns + 1) source = (loadsText turns rest).map fun p => (c :: p.1, p.2) := by
  cases source with
  | nil => cases h
  | cons next tail =>
    have hne : next ≠ 34 := fun heq => hquote (by rw [heq]; rfl)
    rw [loadsText, if_neg hne, h]
    show ((loadsText turns rest).bind fun p => some (c :: p.1, p.2)) = _
    cases loadsText turns rest with
    | none => rfl
    | some p => rfl

theorem loadsText_escape : (cs : List Char) → (turns : Nat) → (rest : Bytes) → cs.length < turns →
    loadsText turns (cs.flatMap escape ++ 34 :: rest) = some (cs, rest)
  | [], turns, rest, h => by
    obtain ⟨turns, rfl⟩ : ∃ n, turns = n + 1 := ⟨turns - 1, by omega⟩
    rfl
  | c :: cs, turns, rest, h => by
    rw [length_cons] at h
    obtain ⟨turns, rfl⟩ : ∃ n, turns = n + 1 := ⟨turns - 1, by omega⟩
    rw [flatMap_cons, append_assoc]
    have hquote : (escape c ++ (cs.flatMap escape ++ 34 :: rest)).head? ≠ some 34 := by
      obtain ⟨first, tail, hfirst, hne⟩ := escape_head c
      rw [hfirst, cons_append, head?_cons]
      exact fun heq => hne (Option.some.inj heq)
    rw [loadsText_turn hquote (character_escape c _), loadsText_escape cs turns rest (by omega)]
    rfl

theorem length_le_flatMap_escape (cs : List Char) : cs.length ≤ (cs.flatMap escape).length := by
  induction cs with
  | nil => exact le_rfl
  | cons c cs ih =>
    have hpos := escape_length_pos c
    rw [flatMap_cons, length_append, length_cons]
    omega

/-- Bytes that are not ASCII, at the start of an escaped text, are bytes of the text. -/
theorem high_prefix (control : Control) {rest : Bytes} : (high text after : Bytes) →
    (∀ b ∈ high, 128 ≤ b.toNat) → jsonEscape control text ++ 34 :: rest = high ++ after →
    ∃ text', text = high ++ text' ∧ after = jsonEscape control text' ++ 34 :: rest
  | [], text, after, _, h => ⟨text, rfl, h.symm⟩
  | b :: high, text, after, hhigh, h => by
    have hb := hhigh b mem_cons_self
    have hne : ∀ k : UInt8, k.toNat < 128 → b ≠ k := by
      rintro k hk rfl
      omega
    cases text with
    | nil =>
      rw [cons_append] at h
      exact absurd (List.cons.inj h).1.symm (hne 34 (by decide))
    | cons first text =>
      rw [jsonEscape, flatMap_cons, append_assoc] at h
      have hfirst : escapeByte control first = [b] ∧ first = b := by
        by_cases hascii : first.toNat < 128
        · -- What an ASCII byte stands for begins with an ASCII byte.
          exfalso
          have hstart : ∀ n < 128, ∃ k tail, escapeByte control (UInt8.ofNat n) = k :: tail ∧
              k.toNat < 128 := by
            intro n hn
            have hall : ∀ n < 128, ((escapeByte control (UInt8.ofNat n)).head?.any
                fun k => decide (k.toNat < 128)) = true := by
              cases control <;> decide
            obtain ⟨k, hk, hlt⟩ := (Option.any_eq_true _ _).mp (hall n hn)
            obtain ⟨tail, htail⟩ := List.head?_eq_some_iff.mp hk
            exact ⟨k, tail, htail, of_decide_eq_true hlt⟩
          obtain ⟨k, tail, hk, hlt⟩ := hstart first.toNat hascii
          rw [UInt8.ofNat_toNat] at hk
          rw [hk] at h
          exact hne k hlt (List.cons.inj h).1.symm
        · have hself := escapeByte_high control (Nat.le_of_not_lt hascii)
          rw [hself] at h
          have heq := (List.cons.inj h).1
          exact ⟨by rw [hself, heq], heq⟩
      obtain ⟨hescape, rfl⟩ := hfirst
      rw [hescape] at h
      obtain ⟨text', rfl, hafter⟩ := high_prefix control high text after
        (fun b' hb' => hhigh b' (List.mem_cons_of_mem _ hb')) (List.cons.inj h).2
      exact ⟨text', rfl, hafter⟩

/-- A text that is read back was the encoding of one. -/
theorem encode_of_loadsText (control : Control) {rest : Bytes} : (turns : Nat) → (text : Bytes) →
    (loadsText turns (jsonEscape control text ++ 34 :: rest)).isSome = true → ∃ cs, text = encode cs
  | 0, _, h => by cases h
  | _ + 1, [], _ => ⟨[], rfl⟩
  | turns + 1, b :: text, h => by
    by_cases hascii : b.toNat < 128
    · -- An ASCII byte is a character by itself.
      have hbyte : [b] = String.utf8EncodeChar (Char.ofNat b.toNat) := by
        have hnat : (Char.ofNat b.toNat).toNat = b.toNat := by
          show (Char.ofNat b.toNat).val.toNat = b.toNat
          rw [Char.ofNat, dif_pos (Or.inl (by omega))]
          rfl
        rw [encode_ascii (by rw [hnat]; exact hascii), hnat, UInt8.ofNat_toNat]
      have hsplit : jsonEscape control (b :: text) ++ 34 :: rest =
          escape (control.shown (Char.ofNat b.toNat)) ++ (jsonEscape control text ++ 34 :: rest) := by
        rw [← jsonEscape_char, ← hbyte, ← append_assoc]
        show ([b] ++ text).flatMap (escapeByte control) ++ 34 :: rest = _
        rw [List.flatMap_append]
        rfl
      have hquote : (escape (control.shown (Char.ofNat b.toNat)) ++
          (jsonEscape control text ++ 34 :: rest)).head? ≠ some 34 := by
        obtain ⟨first, tail, hfirst, hne⟩ := escape_head (control.shown (Char.ofNat b.toNat))
        rw [hfirst, cons_append, head?_cons]
        exact fun heq => hne (Option.some.inj heq)
      rw [hsplit, loadsText_turn hquote (character_escape _ _), Option.isSome_map] at h
      obtain ⟨cs, rfl⟩ := encode_of_loadsText control turns text h
      exact ⟨Char.ofNat b.toNat :: cs, by rw [Server.encode_cons, ← hbyte]; rfl⟩
    · have hhigh : 128 ≤ b.toNat := Nat.le_of_not_lt hascii
      have hne : ∀ k : UInt8, k.toNat < 128 → b ≠ k := by
        rintro k hk rfl
        omega
      have hself : jsonEscape control (b :: text) ++ 34 :: rest =
          b :: (jsonEscape control text ++ 34 :: rest) := by
        rw [jsonEscape, flatMap_cons, escapeByte_high control hhigh]
        rfl
      cases hchar : character (jsonEscape control (b :: text) ++ 34 :: rest) with
      | none =>
        rw [hself] at h hchar
        rw [loadsText, if_neg (hne 34 (by decide)), hchar] at h
        cases h
      | some p =>
        obtain ⟨c, after⟩ := p
        have hquote : (jsonEscape control (b :: text) ++ 34 :: rest).head? ≠ some 34 := by
          rw [hself, head?_cons]
          exact fun heq => hne 34 (by decide) (Option.some.inj heq)
        rw [loadsText_turn hquote hchar, Option.isSome_map] at h
        have hscalar := hchar
        rw [hself, character_plain (hne 92 (by decide))] at hscalar
        split at hscalar
        · cases hscalar
        · have hsource := utf8Scalar_sound hscalar
          have hwide : 128 ≤ c.toNat := by
            by_contra hlow
            rw [encode_ascii (by omega), cons_append] at hsource
            have hfirst := (List.cons.inj hsource).1
            rw [hfirst, UInt8.toNat_ofNat', Nat.mod_eq_of_lt (by omega)] at hhigh
            omega
          rw [← hself] at hsource
          obtain ⟨text', htext, hafter⟩ :=
            high_prefix control _ _ _ (encode_high hwide) hsource
          rw [hafter] at h
          obtain ⟨cs, rfl⟩ := encode_of_loadsText control turns text' h
          exact ⟨c :: cs, by rw [htext, Server.encode_cons]⟩

theorem loadsString_jsonEscape (control : Control) (text rest : Bytes) :
    loadsString (jsonEscape control text ++ 34 :: rest) =
      (readText control text).map fun s => (s, rest) := by
  unfold loadsString readText
  cases hdecode : decode text with
  | none =>
    cases hload : loadsText ((jsonEscape control text ++ 34 :: rest).length + 1)
        (jsonEscape control text ++ 34 :: rest) with
    | none => rfl
    | some p =>
      obtain ⟨cs, hcs⟩ := encode_of_loadsText control _ text (by rw [hload]; rfl)
      rw [Server.decode_eq_some_iff.mpr hcs] at hdecode
      cases hdecode
  | some cs =>
    obtain rfl := Server.decode_eq_some_iff.mp hdecode
    rw [jsonEscape_encode, loadsText_escape]
    · rfl
    · have hle := length_le_flatMap_escape (cs.map control.shown)
      rw [length_append]
      omega

theorem loadsString_key {key : String} (h : plainKey key = true) (rest : Bytes) :
    loadsString (utf8 key ++ 34 :: rest) = some (key, rest) := by
  have hescape : key.toList.flatMap escape = utf8 key := by
    unfold utf8
    refine List.flatMap_congr fun c hc => ?_
    have hplain := List.all_eq_true.mp h c hc
    simp only [Bool.and_eq_true, decide_eq_true_eq, bne_iff_ne] at hplain
    obtain ⟨⟨hlow, hquote⟩, hslash⟩ := hplain
    have hlow' : ¬ c.val < 0x20 := UInt32.not_lt.mpr hlow
    have hne : ∀ n : UInt32, n < 0x20 → c.val ≠ n := by
      rintro n hn heq
      exact hlow' (heq ▸ hn)
    rw [escape, if_neg hquote, if_neg hslash, if_neg (hne 8 (by decide)), if_neg (hne 12 (by decide)),
      if_neg (hne 10 (by decide)), if_neg (hne 13 (by decide)), if_neg (hne 9 (by decide)),
      if_neg hlow']
  unfold loadsString
  rw [← hescape, loadsText_escape]
  · simp only [Option.bind_eq_bind, Option.bind_some, String.ofList_toList]
    rfl
  · have hle := length_le_flatMap_escape key.toList
    rw [length_append]
    omega

/-! ## Reading a document -/

theorem skip_cons {b : UInt8} (h : ManagementJson.space b = false) (rest : Bytes) :
    skip (b :: rest) = b :: rest := by
  rw [skip, List.dropWhile_cons, h]
  rfl

theorem loadsDigits_natDigits (n : Nat) {rest : Bytes} (hrest : Stops rest) :
    Server.loadsDigits (natDigits n ++ rest) = some (n, rest) := by
  obtain ⟨htake, -, hstop⟩ := hrest.digits
  have hspan : (natDigits n ++ rest).takeWhile digitByte = natDigits n := by
    rw [List.takeWhile_append_of_pos (natDigits_digits n), htake, append_nil]
  have hwhole : ∃ first tail, natDigits n = first :: tail ∧
      (if first = 48 then [48] else first :: tail) = natDigits n := by
    by_cases hn : n = 0
    · subst hn
      exact ⟨48, [], natDigits_lt 0 (by decide), (natDigits_lt 0 (by decide)).symm⟩
    · obtain ⟨first, tail, htext, hfirst⟩ := natDigits_head n (Nat.pos_of_ne_zero hn)
      have hne : first ≠ 48 := by
        rintro rfl
        exact hfirst (Or.inl (by decide))
      exact ⟨first, tail, htext, by rw [if_neg hne, htext]⟩
  obtain ⟨first, tail, htext, hwhole⟩ := hwhole
  rw [← htext] at hwhole
  have hhead : ¬(rest.head? = some 46 ∨ rest.head? = some 69 ∨ rest.head? = some 101) := by
    rintro (h | h | h)
    · exact hstop (Or.inl (by rw [h]; rfl))
    · exact hstop (Or.inr (Or.inr (by rw [h]; rfl)))
    · exact hstop (Or.inr (Or.inl (by rw [h]; rfl)))
  unfold Server.loadsDigits
  rw [hspan, htext]
  simp only [hwhole, ← htext, List.drop_left, if_neg hhead, digitsValue_natDigits]

theorem loadsScalar_natDigits (n : Nat) {rest : Bytes} (hrest : Stops rest) :
    Server.loadsScalar (natDigits n ++ rest) = some (.int n, rest) := by
  obtain ⟨first, tail, htext, hfirst⟩ := natDigits_cons n
  have hdigits := loadsDigits_natDigits n hrest
  rw [htext, cons_append] at hdigits ⊢
  have hne : ∀ k : UInt8, digitByte k = false → first ≠ k := by
    rintro k hk rfl
    rw [hk] at hfirst
    cases hfirst
  have htake (m : Nat) (k : UInt8) (word : Bytes) (hk : digitByte k = false) :
      (first :: (tail ++ rest)).take (m + 1) ≠ k :: word := by
    intro h
    exact hne k hk (List.cons.inj h).1
  unfold Server.loadsScalar
  rw [if_neg (htake 3 110 _ (by decide)), if_neg (htake 3 116 _ (by decide)),
    if_neg (htake 4 102 _ (by decide)),
    if_neg (show (first :: (tail ++ rest)).head? ≠ some 45 from
      fun h => hne 45 (by decide) (Option.some.inj h)), hdigits]
  rfl

set_option maxRecDepth 40000 in
theorem digitByte_apart : ∀ m < 256, digitByte (UInt8.ofNat m) = true →
    ManagementJson.space (UInt8.ofNat m) = false ∧ UInt8.ofNat m ≠ 34 ∧ UInt8.ofNat m ≠ 91 ∧
      UInt8.ofNat m ≠ 93 ∧ UInt8.ofNat m ≠ 123 ∧ UInt8.ofNat m ≠ 125 := by
  decide

theorem write_head (control : Control) (d : Doc) : ∃ first tail, d.write control = first :: tail ∧
    ManagementJson.space first = false ∧ first ≠ 93 ∧ first ≠ 125 := by
  cases d with
  | null | text bytes | arr items | obj members =>
    exact ⟨_, _, rfl, by decide, by decide, by decide⟩
  | bool b => cases b <;> exact ⟨_, _, rfl, by decide, by decide, by decide⟩
  | nat n =>
    obtain ⟨first, tail, htext, hfirst⟩ := natDigits_cons n
    have hdigit : ∀ k : UInt8, digitByte k = true →
        ManagementJson.space k = false ∧ k ≠ 93 ∧ k ≠ 125 := by
      intro k hk
      have hbyte := digitByte_apart k.toNat k.toNat_lt
      rw [UInt8.ofNat_toNat] at hbyte
      obtain ⟨hspace, -, -, hbracket, -, hbrace⟩ := hbyte hk
      exact ⟨hspace, hbracket, hbrace⟩
    exact ⟨first, tail, htext, hdigit first hfirst⟩

theorem length_write_pos (control : Control) (d : Doc) : 0 < (d.write control).length := by
  obtain ⟨first, tail, h, -⟩ := write_head control d
  rw [h]
  exact Nat.succ_pos _

/-- The items behind the first. -/
def writeMore (control : Control) : List Doc → Bytes
  | [] => []
  | item :: items => 44 :: writeItems control (item :: items)

theorem writeItems_cons (control : Control) (item : Doc) (items : List Doc) :
    writeItems control (item :: items) = item.write control ++ writeMore control items := by
  cases items with
  | nil => rw [writeItems, writeMore, append_nil]
  | cons next items => rfl

/-- The members behind the first. -/
def writeMoreMembers (control : Control) : List (String × Doc) → Bytes
  | [] => []
  | member :: members => 44 :: writeMembers control (member :: members)

theorem writeMembers_cons (control : Control) (key : String) (item : Doc)
    (members : List (String × Doc)) : writeMembers control ((key, item) :: members) =
      34 :: (utf8 key ++ 34 :: 58 :: (item.write control ++ writeMoreMembers control members)) := by
  cases members with
  | nil => rw [writeMembers, writeMoreMembers, append_nil]
  | cons next members => rfl

theorem dict_eq {pairs : List (String × Value)} (h : (pairs.map (·.1)).Nodup) :
    Server.dict pairs = pairs := by
  have hfold : ∀ (new old : List (String × Value)), ((old ++ new).map (·.1)).Nodup →
      new.foldl Server.setItem old = old ++ new := by
    intro new
    induction new with
    | nil =>
      intro old _
      rw [List.foldl_nil, append_nil]
    | cons m new ih =>
      intro old hnodup
      have hm : (old.map (·.1)).contains m.1 = false := by
        rw [List.map_append, map_cons, List.nodup_append] at hnodup
        rw [List.contains_eq_mem, decide_eq_false_iff_not]
        intro hmem
        exact hnodup.2.2 _ hmem _ mem_cons_self rfl
      have hstep : Server.setItem old m = old ++ [m] := by
        rw [Server.setItem, hm]
        rfl
      rw [List.foldl_cons, hstep, ih (old ++ [m]) (by rwa [append_assoc]),
        append_assoc]
      rfl
  exact hfold pairs [] h

theorem keys_readMembers (control : Control) : (members : List (String × Doc)) →
    (values : List (String × Value)) → readMembers control members = some values →
    values.map (·.1) = members.map (·.1)
  | [], values, h => by
    rw [readMembers] at h
    cases h
    rfl
  | (key, item) :: members, values, h => by
    rw [readMembers] at h
    obtain ⟨value, -, h⟩ := Option.bind_eq_some_iff.mp h
    obtain ⟨rest, hrest, h⟩ := Option.bind_eq_some_iff.mp h
    cases h
    rw [map_cons, map_cons, keys_readMembers control members rest hrest]

theorem stops_cons {b : UInt8} (h : b = 44 ∨ b = 93 ∨ b = 125) (rest : Bytes) : Stops (b :: rest) :=
  Or.inr ⟨b, rest, rfl, h⟩

theorem exists_fuel {control : Control} {d : Doc} {fuel : Nat} (h : (d.write control).length ≤ fuel) :
    ∃ n, fuel = n + 1 := by
  have hpos := length_write_pos control d
  exact ⟨fuel - 1, by omega⟩

mutual
/-- What a reader gets for a document is what the document stands for. -/
theorem loadsValue_write (control : Control) : (d : Doc) → d.plain = true → (fuel : Nat) →
    (d.write control).length ≤ fuel → (rest : Bytes) → Stops rest →
    loadsValue fuel (d.write control ++ rest) = (d.read control).map fun v => (v, rest)
  | .null, _, fuel, hfuel, rest, _ => by
    obtain ⟨fuel, rfl⟩ := exists_fuel hfuel
    rfl
  | .bool b, _, fuel, hfuel, rest, _ => by
    obtain ⟨fuel, rfl⟩ := exists_fuel hfuel
    cases b <;> rfl
  | .nat n, _, fuel, hfuel, rest, hrest => by
    obtain ⟨fuel, rfl⟩ := exists_fuel hfuel
    have hscalar := loadsScalar_natDigits n hrest
    obtain ⟨first, tail, htext, hfirst⟩ := natDigits_cons n
    obtain ⟨hspace, hquote, hbracket, -, hbrace, -⟩ := by
      have hself := digitByte_apart first.toNat first.toNat_lt
      rw [UInt8.ofNat_toNat] at hself
      exact hself hfirst
    rw [htext, cons_append] at hscalar
    rw [Doc.write, htext, cons_append, loadsValue, skip_cons hspace]
    simp only [if_neg hquote, if_neg hbracket, if_neg hbrace, hscalar]
    rfl
  | .text bytes, _, fuel, hfuel, rest, _ => by
    obtain ⟨fuel, rfl⟩ := exists_fuel hfuel
    rw [Doc.write, cons_append, append_assoc, loadsValue, skip_cons (by decide)]
    show (loadsString (jsonEscape control bytes ++ 34 :: rest)).bind
      (fun p => some (Value.str p.1, p.2)) = _
    rw [loadsString_jsonEscape, Doc.read]
    cases readText control bytes <;> rfl
  | .arr [], _, fuel, hfuel, rest, _ => by
    obtain ⟨fuel, rfl⟩ := exists_fuel hfuel
    rfl
  | .arr (item :: items), hplain, fuel, hfuel, rest, _ => by
    obtain ⟨fuel, rfl⟩ := exists_fuel hfuel
    rw [Doc.write, length_cons, length_append, List.length_singleton] at hfuel
    have hitems := loadsItems_write control (item :: items) (cons_ne_nil _ _) hplain fuel
      (by omega) rest
    obtain ⟨first, tail, hfirst, hspace, hne, -⟩ := write_head control item
    have hskip : (skip (writeItems control (item :: items) ++ 93 :: rest)).head? ≠ some 93 := by
      rw [writeItems_cons, hfirst, cons_append, cons_append, skip_cons hspace,
        head?_cons]
      exact fun h => hne (Option.some.inj h)
    rw [Doc.write, cons_append, append_assoc, loadsValue, skip_cons (by decide)]
    show (if (skip (writeItems control (item :: items) ++ 93 :: rest)).head? = some 93 then _ else
      (loadsItems fuel (writeItems control (item :: items) ++ 93 :: rest)).bind
        (fun p => some (Value.arr p.1, p.2))) = _
    rw [if_neg hskip, hitems, Doc.read]
    cases readItems control (item :: items) <;> rfl
  | .obj [], _, fuel, hfuel, rest, _ => by
    obtain ⟨fuel, rfl⟩ := exists_fuel hfuel
    rfl
  | .obj (member :: members), hplain, fuel, hfuel, rest, _ => by
    obtain ⟨fuel, rfl⟩ := exists_fuel hfuel
    rw [Doc.write, length_cons, length_append, List.length_singleton] at hfuel
    rw [Doc.plain, Bool.and_eq_true, decide_eq_true_eq] at hplain
    have hmembers := loadsMembers_write control (member :: members) (cons_ne_nil _ _) hplain.1
      fuel (by omega) rest
    have hskip : (skip (writeMembers control (member :: members) ++ 125 :: rest)).head? ≠
        some 125 := by
      rw [writeMembers_cons, cons_append, skip_cons (by decide), head?_cons]
      decide
    rw [Doc.write, cons_append, append_assoc, loadsValue, skip_cons (by decide)]
    show (if (skip (writeMembers control (member :: members) ++ 125 :: rest)).head? = some 125 then _
      else (loadsMembers fuel (writeMembers control (member :: members) ++ 125 :: rest)).bind
        (fun p => some (Value.obj (Server.dict p.1), p.2))) = _
    rw [if_neg hskip, hmembers, Doc.read]
    cases hread : readMembers control (member :: members) with
    | none => rfl
    | some values =>
      have hnodup : (values.map (·.1)).Nodup := by
        rw [keys_readMembers control _ values hread]
        exact hplain.2
      show some (Value.obj (Server.dict values), rest) = _
      rw [dict_eq hnodup]
      rfl
theorem loadsItems_write (control : Control) : (items : List Doc) → items ≠ [] →
    plainItems items = true → (fuel : Nat) → (writeItems control items).length < fuel →
    (rest : Bytes) → loadsItems fuel (writeItems control items ++ 93 :: rest) =
      (readItems control items).map fun vs => (vs, rest)
  | [], h, _, _, _, _ => absurd rfl h
  | [item], _, hplain, fuel, hfuel, rest => by
    rw [plainItems, Bool.and_eq_true] at hplain
    obtain ⟨fuel, rfl⟩ : ∃ n, fuel = n + 1 := ⟨fuel - 1, by omega⟩
    rw [writeItems] at hfuel ⊢
    have hvalue := loadsValue_write control item hplain.1 fuel (by omega) (93 :: rest)
      (stops_cons (by decide) _)
    rw [loadsItems, hvalue, readItems]
    cases item.read control with
    | none => rfl
    | some v => rfl
  | item :: next :: items, _, hplain, fuel, hfuel, rest => by
    rw [plainItems, Bool.and_eq_true] at hplain
    obtain ⟨fuel, rfl⟩ : ∃ n, fuel = n + 1 := ⟨fuel - 1, by omega⟩
    have hpos := length_write_pos control item
    rw [writeItems_cons, length_append, writeMore, length_cons] at hfuel
    have hvalue := loadsValue_write control item hplain.1 fuel (by omega)
      (44 :: (writeItems control (next :: items) ++ 93 :: rest)) (stops_cons (by decide) _)
    have hitems := loadsItems_write control (next :: items) (cons_ne_nil _ _) hplain.2 fuel
      (by omega) rest
    rw [writeItems_cons, append_assoc, writeMore, cons_append, loadsItems, hvalue, readItems]
    cases item.read control with
    | none => rfl
    | some v =>
      show ((loadsItems fuel (writeItems control (next :: items) ++ 93 :: rest)).bind
        fun p => some (v :: p.1, p.2)) = _
      rw [hitems]
      cases readItems control (next :: items) <;> rfl
theorem loadsMembers_write (control : Control) : (members : List (String × Doc)) → members ≠ [] →
    plainMembers members = true → (fuel : Nat) → (writeMembers control members).length < fuel →
    (rest : Bytes) → loadsMembers fuel (writeMembers control members ++ 125 :: rest) =
      (readMembers control members).map fun vs => (vs, rest)
  | [], h, _, _, _, _ => absurd rfl h
  | [(key, item)], _, hplain, fuel, hfuel, rest => by
    rw [plainMembers, Bool.and_eq_true, Bool.and_eq_true] at hplain
    obtain ⟨fuel, rfl⟩ : ∃ n, fuel = n + 1 := ⟨fuel - 1, by omega⟩
    rw [writeMembers, length_cons, length_append, length_cons, length_cons]
      at hfuel
    have hkey := loadsString_key hplain.1.1 (58 :: (item.write control ++ 125 :: rest))
    have hvalue := loadsValue_write control item hplain.1.2 fuel (by omega) (125 :: rest)
      (stops_cons (by decide) _)
    rw [writeMembers, cons_append, append_assoc, cons_append, cons_append,
      loadsMembers, skip_cons (by decide)]
    show ((loadsString (utf8 key ++ 34 :: 58 :: (item.write control ++ 125 :: rest))).bind _) = _
    rw [hkey]
    show ((loadsValue fuel (item.write control ++ 125 :: rest)).bind _) = _
    rw [hvalue, readMembers]
    cases item.read control with
    | none => rfl
    | some v => rfl
  | (key, item) :: next :: members, _, hplain, fuel, hfuel, rest => by
    rw [plainMembers, Bool.and_eq_true, Bool.and_eq_true] at hplain
    obtain ⟨fuel, rfl⟩ : ∃ n, fuel = n + 1 := ⟨fuel - 1, by omega⟩
    rw [writeMembers_cons, length_cons, length_append, length_cons, length_cons,
      length_append, writeMoreMembers, length_cons] at hfuel
    have hkey := loadsString_key hplain.1.1 (58 :: (item.write control ++
      44 :: (writeMembers control (next :: members) ++ 125 :: rest)))
    have hvalue := loadsValue_write control item hplain.1.2 fuel (by omega)
      (44 :: (writeMembers control (next :: members) ++ 125 :: rest)) (stops_cons (by decide) _)
    have hmembers := loadsMembers_write control (next :: members) (cons_ne_nil _ _) hplain.2
      fuel (by omega) rest
    rw [writeMembers_cons, cons_append, append_assoc, cons_append, cons_append,
      append_assoc, writeMoreMembers, cons_append, loadsMembers, skip_cons (by decide)]
    show ((loadsString (utf8 key ++ 34 :: 58 :: (item.write control ++
      44 :: (writeMembers control (next :: members) ++ 125 :: rest)))).bind _) = _
    rw [hkey]
    show ((loadsValue fuel (item.write control ++
      44 :: (writeMembers control (next :: members) ++ 125 :: rest))).bind _) = _
    rw [hvalue, readMembers]
    cases item.read control with
    | none => rfl
    | some v =>
      show ((loadsMembers fuel (writeMembers control (next :: members) ++ 125 :: rest)).bind
        fun p => some ((key, v) :: p.1, p.2)) = _
      rw [hmembers]
      cases readMembers control (next :: members) <;> rfl
end

/-- A document of an agent is read as what it stands for, and not at all when a text in it is not
UTF-8. -/
theorem loads_write (control : Control) {d : Doc} (h : d.plain = true) :
    loads (d.write control) = d.read control := by
  have hvalue := loadsValue_write control d h ((d.write control).length + 1) (Nat.le_succ _) []
    (Or.inl rfl)
  rw [append_nil] at hvalue
  unfold loads
  rw [hvalue]
  cases d.read control <;> rfl

theorem plainItems_iff {items : List Doc} :
    plainItems items = true ↔ ∀ item ∈ items, item.plain = true := by
  induction items with
  | nil => simp [plainItems]
  | cons item items ih => simp [plainItems, ih]

theorem readItems_eq_mapM (control : Control) (items : List Doc) :
    readItems control items = items.mapM (Doc.read control) := by
  induction items with
  | nil => rfl
  | cons item items ih =>
    rw [readItems, List.mapM_cons, ih]

/-! ## Wide texts -/

/-- A `std::wstring`, or a `wchar_t` text up to its end. -/
abbrev Wide := List UInt16

/-- A unit that begins a pair. -/
def highSurrogate (u : UInt16) : Bool := decide (0xd800 ≤ u.toNat) && decide (u.toNat ≤ 0xdbff)

/-- A unit that ends a pair. -/
def lowSurrogate (u : UInt16) : Bool := decide (0xdc00 ≤ u.toNat) && decide (u.toNat ≤ 0xdfff)

/-- The characters of a text: none when a surrogate stands alone. -/
def wideChars : Wide → Option (List Char)
  | [] => some []
  | u :: rest =>
    if highSurrogate u then
      match rest with
      | low :: rest =>
        if lowSurrogate low then
          (wideChars rest).map
            (Char.ofNat (0x10000 + (u.toNat - 0xd800) * 0x400 + (low.toNat - 0xdc00)) :: ·)
        else none
      | [] => none
    else if lowSurrogate u then none
    else (wideChars rest).map (Char.ofNat u.toNat :: ·)

/-- `utf8`, by `WideCharToMultiByte` with `WC_ERR_INVALID_CHARS`: a text that is not well formed
gives the empty one. -/
def toUtf8 (text : Wide) : Bytes := encode ((wideChars text).getD [])

end Ipms.Agent
