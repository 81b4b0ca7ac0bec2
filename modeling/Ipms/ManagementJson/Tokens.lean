import Mathlib.Data.List.TakeWhile
import Ipms.ManagementJson.Grammar

/-
  Ipms.ManagementJson.Tokens

  The parser's readers of space, strings and numbers take exactly what the
  grammar derives.
-/

namespace Ipms.ManagementJson

open Ipms.Lib Txn
open Option (bind_eq_bind bind_eq_some_iff bind_some getD_some some)
open List (append_nil cons_append drop_succ_cons drop_zero head?_cons length_cons nil_append)
open String (ofList utf8EncodeChar)
open Prod (mk)

/-! ## Space -/

variable {b : UInt8}

theorem space_iff : space b = true ↔ b = 0x20 ∨ b = 0x09 ∨ b = 0x0a ∨ b = 0x0d := by
  simp only [space, Bool.or_eq_true, beq_iff_eq]
  constructor
  · rintro (((h | h) | h) | h)
    · exact Or.inl h
    · exact Or.inr (Or.inl h)
    · exact Or.inr (Or.inr (Or.inr h))
    · exact Or.inr (Or.inr (Or.inl h))
  · rintro (h | h | h | h)
    · exact Or.inl (Or.inl (Or.inl h))
    · exact Or.inl (Or.inl (Or.inr h))
    · exact Or.inr h
    · exact Or.inl (Or.inr h)

theorem ws_dropWhile (s : Bytes) : Ws s (s.dropWhile space) := by
  induction s with
  | nil => exact .done
  | cons b s ih =>
    rw [List.dropWhile_cons]
    split
    · rename_i hspace
      exact .more (space_iff.mp hspace) ih
    · exact .done

variable {s : Bytes}

theorem Ws.dropWhile_eq {t : Bytes} (h : Ws s t) : s.dropWhile space = t.dropWhile space := by
  induction h with
  | done => rfl
  | more hb _ ih => rw [List.dropWhile_cons, space_iff.mpr hb, if_pos rfl, ih]

theorem Ws.trans {t u : Bytes} (hst : Ws s t) (htu : Ws t u) : Ws s u := by
  induction hst with
  | done => exact htu
  | more hb _ ih => exact .more hb (ih htu)

/-! ## Escapes -/

variable {n : Nat}

theorem UInt8.eq_ofNat (h : b.toNat = n) : b = UInt8.ofNat n := by
  rw [← h, UInt8.ofNat_toNat]

theorem hexValue_iff {k : Nat} : hexValue b = some k ↔ HexDigit b k := by
  constructor
  · intro h
    unfold hexValue at h
    have hle : ∀ {m : UInt8}, m ≤ b ↔ m.toNat ≤ b.toNat := UInt8.le_iff_toNat_le
    have hge : ∀ {m : UInt8}, b ≤ m ↔ b.toNat ≤ m.toNat := UInt8.le_iff_toNat_le
    split_ifs at h with hdecimal hlower hupper
    · obtain ⟨hlow, hhigh⟩ := hdecimal
      rw [hle] at hlow
      rw [hge] at hhigh
      have hlow' : 48 ≤ b.toNat := hlow
      have hhigh' : b.toNat ≤ 57 := hhigh
      injection h with h
      rw [UInt8.eq_ofNat (show b.toNat = 48 + k by omega)]
      exact .decimal (by omega)
    · obtain ⟨hlow, hhigh⟩ := hlower
      rw [hle] at hlow
      rw [hge] at hhigh
      have hlow' : 97 ≤ b.toNat := hlow
      have hhigh' : b.toNat ≤ 102 := hhigh
      injection h with h
      rw [UInt8.eq_ofNat (show b.toNat = 97 + (b.toNat - 97) by omega),
        show k = 10 + (b.toNat - 97) by omega]
      exact .lower (by omega)
    · obtain ⟨hlow, hhigh⟩ := hupper
      rw [hle] at hlow
      rw [hge] at hhigh
      have hlow' : 65 ≤ b.toNat := hlow
      have hhigh' : b.toNat ≤ 70 := hhigh
      injection h with h
      rw [UInt8.eq_ofNat (show b.toNat = 65 + (b.toNat - 65) by omega),
        show k = 10 + (b.toNat - 65) by omega]
      exact .upper (by omega)
  · intro h
    cases h with
    | decimal hk => exact (by decide : ∀ k < 10, hexValue (UInt8.ofNat (48 + k)) = some k) _ hk
    | lower hk => exact (by decide : ∀ k < 6, hexValue (UInt8.ofNat (97 + k)) = some (10 + k)) _ hk
    | upper hk => exact (by decide : ∀ k < 6, hexValue (UInt8.ofNat (65 + k)) = some (10 + k)) _ hk

variable {rest : Bytes}

theorem hex4_iff : hex4 s = some (n, rest) ↔ CodeUnit s n rest := by
  constructor
  · intro h
    unfold hex4 at h
    split at h
    · simp only [bind, bind_eq_some_iff, pure, some.injEq, mk.injEq] at h
      obtain ⟨i, hi, j, hj, k, hk, l, hl, rfl, rfl⟩ := h
      exact .digits (hexValue_iff.mp hi) (hexValue_iff.mp hj) (hexValue_iff.mp hk)
        (hexValue_iff.mp hl)
    · cases h
  · rintro ⟨hi, hj, hk, hl⟩
    simp only [hex4, hexValue_iff.mpr hi, hexValue_iff.mpr hj, hexValue_iff.mpr hk,
      hexValue_iff.mpr hl, bind_eq_bind, bind_some, pure]

theorem CodeUnit.length_eq (h : CodeUnit s n rest) : s.length = rest.length + 4 := by
  cases h
  rfl

variable {c : Char}

/-- What follows `\u` is read as the grammar says. -/
theorem unicodeEscape_sound (h : unicodeEscape s = some (c, rest)) :
    CharAt (0x5c :: 0x75 :: s) c rest := by
  simp only [unicodeEscape, bind, bind_eq_some_iff] at h
  obtain ⟨⟨point, after⟩, hpoint, h⟩ := h
  have hunit := hex4_iff.mp hpoint
  dsimp only at h
  split_ifs at h with hhigh hlow
  · split at h
    · simp only [bind_eq_some_iff] at h
      obtain ⟨⟨low, last⟩, hlast, h⟩ := h
      dsimp only at h
      split_ifs at h with hrange
      simp only [pure, some.injEq, mk.injEq] at h
      obtain ⟨rfl, rfl⟩ := h
      exact .pair hunit hhigh.1 hhigh.2 (hex4_iff.mp hlast) (by omega) (by omega)
    · cases h
  · simp only [pure, some.injEq, mk.injEq] at h
    obtain ⟨rfl, rfl⟩ := h
    refine .unit hunit fun hs => ?_
    unfold Surrogate at hs
    omega

theorem unicodeEscape_unit (h : CodeUnit s n rest) (hn : ¬ Surrogate n) :
    unicodeEscape s = some (Char.ofNat n, rest) := by
  have hhigh : ¬ (0xd800 ≤ n ∧ n ≤ 0xdbff) := fun ⟨hl, hu⟩ => hn ⟨hl, by omega⟩
  have hlow : ¬ (0xdc00 ≤ n ∧ n ≤ 0xdfff) := fun ⟨hl, hu⟩ => hn ⟨by omega, hu⟩
  simp only [unicodeEscape, hex4_iff.mpr h, bind_eq_bind, bind_some, if_neg hhigh,
    if_neg hlow, pure]

theorem unicodeEscape_pair {s t rest : Bytes} {high low : Nat}
    (hhigh : CodeUnit s high (0x5c :: 0x75 :: t)) (hlow : CodeUnit t low rest)
    (h : (0xd800 ≤ high ∧ high ≤ 0xdbff) ∧ 0xdc00 ≤ low ∧ low ≤ 0xdfff) :
    unicodeEscape s =
      some (Char.ofNat (0x10000 + (high - 0xd800) * 0x400 + (low - 0xdc00)), rest) := by
  have hrange : ¬ (low < 0xdc00 ∨ 0xdfff < low) := by omega
  simp only [unicodeEscape, hex4_iff.mpr hhigh, bind_eq_bind, bind_some, if_pos h.1]
  simp only [hex4_iff.mpr hlow, bind_some, if_neg hrange, pure]

set_option maxRecDepth 40000 in
theorem leadByte_eq {first : UInt8} {width lead minimum : Nat}
    (h : leadByte first = some (width, lead, minimum)) :
    (width = 2 ∧ minimum = 0x80 ∧ lead < 32 ∧ first = UInt8.ofNat (lead + 192)) ∨
    (width = 3 ∧ minimum = 0x800 ∧ lead < 16 ∧ first = UInt8.ofNat (lead + 224)) ∨
    (width = 4 ∧ minimum = 0x10000 ∧ lead < 8 ∧ first = UInt8.ofNat (lead + 240)) := by
  have hall : ∀ n < 256, (0xc2 ≤ UInt8.ofNat n ∧ UInt8.ofNat n ≤ 0xdf →
        (UInt8.ofNat n &&& 0x1f).toNat < 32 ∧
          UInt8.ofNat n = UInt8.ofNat ((UInt8.ofNat n &&& 0x1f).toNat + 192)) ∧
      (0xe0 ≤ UInt8.ofNat n ∧ UInt8.ofNat n ≤ 0xef →
        (UInt8.ofNat n &&& 0x0f).toNat < 16 ∧
          UInt8.ofNat n = UInt8.ofNat ((UInt8.ofNat n &&& 0x0f).toNat + 224)) ∧
      (0xf0 ≤ UInt8.ofNat n ∧ UInt8.ofNat n ≤ 0xf4 →
        (UInt8.ofNat n &&& 0x07).toNat < 8 ∧
          UInt8.ofNat n = UInt8.ofNat ((UInt8.ofNat n &&& 0x07).toNat + 240)) := by
    decide
  have hfirst := hall first.toNat first.toNat_lt
  rw [UInt8.ofNat_toNat] at hfirst
  obtain ⟨htwo, hthree, hfour⟩ := hfirst
  unfold leadByte at h
  split_ifs at h with h2 h3 h4 <;>
    simp only [some.injEq, mk.injEq] at h <;> obtain ⟨rfl, rfl, rfl⟩ := h
  · exact Or.inl ⟨rfl, rfl, htwo h2⟩
  · exact Or.inr (Or.inl ⟨rfl, rfl, hthree h3⟩)
  · exact Or.inr (Or.inr ⟨rfl, rfl, hfour h4⟩)

set_option maxRecDepth 40000 in
theorem continuation_cons_eq {point result : Nat} {b : UInt8} {rest : Bytes}
    (h : continuation point (b :: rest) = some result) :
    ∃ k < 64, b = UInt8.ofNat (k + 128) ∧ continuation (point * 64 + k) rest = some result := by
  have hall : ∀ n < 256, UInt8.ofNat n &&& 0xc0 = 0x80 →
      (UInt8.ofNat n &&& 0x3f).toNat < 64 ∧
        UInt8.ofNat n = UInt8.ofNat ((UInt8.ofNat n &&& 0x3f).toNat + 128) := by
    decide
  have hb := hall b.toNat b.toNat_lt
  rw [UInt8.ofNat_toNat] at hb
  rw [continuation] at h
  split_ifs at h with htop
  obtain ⟨hless, heq⟩ := hb (not_not.mp htop)
  exact ⟨_, hless, heq, h⟩

/-- The lead byte and the continuation bytes are the encoding of the scalar they add up to. -/
theorem encode_of_continuation {first : UInt8} {tail : Bytes} {width lead minimum point : Nat}
    (hlead : leadByte first = some (width, lead, minimum)) (hlength : tail.length = width - 1)
    (hpoint : continuation lead tail = some point) (hc : c.val.toNat = point)
    (hminimum : minimum ≤ point) : utf8EncodeChar c = first :: tail := by
  rcases leadByte_eq hlead with ⟨rfl, rfl, hless, rfl⟩ | ⟨rfl, rfl, hless, rfl⟩ | ⟨rfl, rfl, hless, rfl⟩
  · obtain ⟨b₁, rfl⟩ := List.length_eq_one_iff.mp hlength
    obtain ⟨k₁, hk₁, rfl, hlast⟩ := continuation_cons_eq hpoint
    have hsum := some.inj hlast
    simp only [utf8EncodeChar, hc, if_neg (show ¬ point ≤ 0x7f by omega),
      if_pos (show point ≤ 0x7ff by omega), show point / 64 % 32 = lead by omega,
      show point % 64 = k₁ by omega]
  · obtain ⟨b₁, b₂, rfl⟩ := List.length_eq_two.mp hlength
    obtain ⟨k₁, hk₁, rfl, hnext⟩ := continuation_cons_eq hpoint
    obtain ⟨k₂, hk₂, rfl, hlast⟩ := continuation_cons_eq hnext
    have hsum := some.inj hlast
    simp only [utf8EncodeChar, hc, if_neg (show ¬ point ≤ 0x7f by omega),
      if_neg (show ¬ point ≤ 0x7ff by omega), if_pos (show point ≤ 0xffff by omega),
      show point / 4096 % 16 = lead by omega, show point / 64 % 64 = k₁ by omega,
      show point % 64 = k₂ by omega]
  · obtain ⟨b₁, b₂, b₃, rfl⟩ := List.length_eq_three.mp hlength
    obtain ⟨k₁, hk₁, rfl, hnext⟩ := continuation_cons_eq hpoint
    obtain ⟨k₂, hk₂, rfl, hthird⟩ := continuation_cons_eq hnext
    obtain ⟨k₃, hk₃, rfl, hlast⟩ := continuation_cons_eq hthird
    have hsum := some.inj hlast
    simp only [utf8EncodeChar, hc, if_neg (show ¬ point ≤ 0x7f by omega),
      if_neg (show ¬ point ≤ 0x7ff by omega), if_neg (show ¬ point ≤ 0xffff by omega),
      show point / 262144 % 8 = lead by omega, show point / 4096 % 64 = k₁ by omega,
      show point / 64 % 64 = k₂ by omega, show point % 64 = k₃ by omega]

/-- The scalar that is read was encoded there. -/
theorem utf8Scalar_sound (h : utf8Scalar s = some (c, rest)) :
    s = utf8EncodeChar c ++ rest := by
  cases s with
  | nil => cases h
  | cons first tail =>
    rw [utf8Scalar] at h
    split_ifs at h with hascii
    · simp only [some.injEq, mk.injEq] at h
      obtain ⟨rfl, rfl⟩ := h
      have hless : first.toNat < 0x80 := UInt8.lt_iff_toNat_lt.mp hascii
      have hval : (Char.ofNat first.toNat).val.toNat = first.toNat := by
        rw [Char.ofNat, dif_pos (Or.inl (by omega))]
        rfl
      simp only [utf8EncodeChar, hval, if_pos (show first.toNat ≤ 0x7f by omega),
        UInt8.ofNat_toNat, cons_append, nil_append]
    · split at h
      · cases h
      · rename_i width lead minimum hlead
        split_ifs at h with hshort
        split at h
        · cases h
        · rename_i point hpoint
          split_ifs at h with hbad
          simp only [some.injEq, mk.injEq] at h
          obtain ⟨rfl, rfl⟩ := h
          have hval : (Char.ofNat point).val.toNat = point := by
            have hvalid : point.isValidChar := by
              unfold Nat.isValidChar
              omega
            rw [Char.ofNat, dif_pos hvalid]
            rfl
          have hlength : (tail.take (width - 1)).length = width - 1 := by
            rw [List.length_take]
            omega
          rw [encode_of_continuation hlead hlength hpoint hval (by omega), cons_append,
            List.take_append_drop]

/-! ## Characters -/

/-- What follows a backslash is one of the letters, or the digits of a code unit. -/
theorem character_backslash (item : UInt8) (rest : Bytes) :
    character (0x5c :: item :: rest) =
      match shortEscapes.lookup item with
      | some c => some (c, rest)
      | none => if item = 0x75 then unicodeEscape rest else none := by
  simp only [character, show ¬ (0x5c : UInt8) < 0x20 by decide, ne_eq, not_true_eq_false, if_false]
  unfold shortEscapes
  have hmiss : ∀ (b : UInt8) (c : Char) (more : List (UInt8 × Char)), item ≠ b →
      ((b, c) :: more).lookup item = more.lookup item := by
    intro b c more hne
    rw [List.lookup_cons, beq_false_of_ne hne]
  by_cases h₁ : item = 0x22
  · subst h₁; rfl
  rw [if_neg h₁, hmiss _ _ _ h₁]
  by_cases h₂ : item = 0x5c
  · subst h₂; rfl
  rw [if_neg h₂, hmiss _ _ _ h₂]
  by_cases h₃ : item = 0x2f
  · subst h₃; rfl
  rw [if_neg h₃, hmiss _ _ _ h₃]
  by_cases h₄ : item = 0x62
  · subst h₄; rfl
  rw [if_neg h₄, hmiss _ _ _ h₄]
  by_cases h₅ : item = 0x66
  · subst h₅; rfl
  rw [if_neg h₅, hmiss _ _ _ h₅]
  by_cases h₆ : item = 0x6e
  · subst h₆; rfl
  rw [if_neg h₆, hmiss _ _ _ h₆]
  by_cases h₇ : item = 0x72
  · subst h₇; rfl
  rw [if_neg h₇, hmiss _ _ _ h₇]
  by_cases h₈ : item = 0x74
  · subst h₈; rfl
  rw [if_neg h₈, hmiss _ _ _ h₈]
  rfl

theorem character_plain {next : UInt8} (h : next ≠ 0x5c) (tail : Bytes) :
    character (next :: tail) = if next < 0x20 then none else utf8Scalar (next :: tail) := by
  simp only [character, if_pos h]

theorem encode_ascii (h : c.toNat < 0x80) : utf8EncodeChar c = [UInt8.ofNat c.toNat] := by
  have hval : c.val.toNat ≤ 0x7f := Nat.le_of_lt_succ h
  simp only [utf8EncodeChar, if_pos hval]
  rfl

/-- A character that is read is one the grammar derives. -/
theorem character_sound (h : character s = some (c, rest)) (hquote : s.head? ≠ some 0x22) :
    CharAt s c rest := by
  cases s with
  | nil => cases h
  | cons next tail =>
    by_cases hslash : next = 0x5c
    · subst hslash
      cases tail with
      | nil => cases h
      | cons item tail =>
        rw [character_backslash] at h
        split at h
        · rename_i letter hlookup
          simp only [some.injEq, mk.injEq] at h
          obtain ⟨rfl, rfl⟩ := h
          obtain ⟨before, after, heq, _⟩ := List.lookup_eq_some_iff.mp hlookup
          refine .short ?_
          rw [heq]
          exact List.mem_append_right _ List.mem_cons_self
        · split_ifs at h with hu
          rw [hu]
          exact unicodeEscape_sound h
    · rw [character_plain hslash] at h
      split_ifs at h with hcontrol
      have hencoded := utf8Scalar_sound h
      -- a character of one byte is that byte, which none of the branches above took
      have hbyte : c.toNat < 0x80 → next = UInt8.ofNat c.toNat := by
        intro hc
        rw [encode_ascii hc] at hencoded
        exact (List.cons.inj hencoded).1
      rw [hencoded]
      refine .unescaped ?_ ?_ ?_
      · by_contra hlow
        have hless : c.toNat < 0x20 := by omega
        have heq := hbyte (by omega)
        apply hcontrol
        rw [heq, UInt8.lt_iff_toNat_lt, UInt8.toNat_ofNat', Nat.mod_eq_of_lt (by omega)]
        exact hless
      · rintro rfl
        exact hquote (congrArg some (hbyte (by decide)))
      · rintro rfl
        exact hslash (hbyte (by decide))

/-- A character the grammar derives is read. -/
theorem character_complete {s rest : Bytes} {c : Char} (h : CharAt s c rest) :
    character s = some (c, rest) ∧ s.head? ≠ some 0x22 ∧ rest.length < s.length := by
  cases h with
  | unescaped hlow hquote hslash =>
    have hcontrol : ¬ c.val < 0x20 := by
      rw [UInt32.lt_iff_toNat_lt]
      exact Nat.not_lt.mpr hlow
    obtain ⟨first, tail, henc, hspace, hesc, hne⟩ := encode_head c hquote hslash hcontrol
    have hread := utf8Scalar_encode c rest
    rw [henc, cons_append] at hread ⊢
    refine ⟨?_, ?_, ?_⟩
    · simp only [character, if_neg hspace, if_pos hesc, hread]
    · rw [head?_cons]
      exact fun h => hne (some.inj h)
    · simp only [length_cons, List.length_append]
      omega
  | short hmem =>
    refine ⟨?_, by simp, by simp only [length_cons]; omega⟩
    have hall : ∀ p ∈ shortEscapes, shortEscapes.lookup p.1 = some p.2 := by decide
    rw [character_backslash, hall _ hmem]
  | unit hunit hn =>
    have hlength := CodeUnit.length_eq hunit
    refine ⟨?_, by simp, by simp only [length_cons]; omega⟩
    rw [character_backslash]
    exact unicodeEscape_unit hunit hn
  | pair hhigh h₁ h₂ hlow h₃ h₄ =>
    have hfirst := CodeUnit.length_eq hhigh
    have hsecond := CodeUnit.length_eq hlow
    refine ⟨?_, by simp, by simp only [length_cons] at hfirst ⊢; omega⟩
    rw [character_backslash]
    exact unicodeEscape_pair hhigh hlow ⟨⟨h₁, h₂⟩, h₃, h₄⟩

theorem length_utf8_append (cs ds : List Char) :
    (utf8 (ofList (cs ++ ds))).length =
      (utf8 (ofList cs)).length + (utf8 (ofList ds)).length := by
  simp only [utf8_ofList, List.flatMap_append, List.length_append]

variable {bounds : Limits}

theorem readChars_sound {turns : Nat} {output : List Char} {text : String}
    (h : readChars bounds turns output s = some (text, rest))
    (hfit : (utf8 (ofList output)).length ≤ bounds.stringBytes) :
    ∃ cs, CharsAt s cs rest ∧ text = ofList (output ++ cs) ∧
      (utf8 text).length ≤ bounds.stringBytes := by
  induction turns generalizing output s with
  | zero => cases h
  | succ turns ih =>
    cases s with
    | nil => cases h
    | cons next tail =>
      rw [readChars] at h
      split_ifs at h with hquote
      · simp only [some.injEq, mk.injEq] at h
        obtain ⟨rfl, rfl⟩ := h
        rw [hquote]
        exact ⟨[], .close, by rw [append_nil], hfit⟩
      · split at h
        · cases h
        · rename_i c after hc
          split_ifs at h with hlong
          obtain ⟨cs, hcs, htext, hbound⟩ := ih h (Nat.not_lt.mp hlong)
          have hhead : (next :: tail).head? ≠ some 0x22 := by
            rw [head?_cons]
            exact fun heq => hquote (some.inj heq)
          refine ⟨c :: cs, .char (character_sound hc hhead) hcs, ?_, hbound⟩
          rw [htext, List.append_assoc, List.singleton_append]

/-- Characters the grammar derives within the bound are read, whatever has been read before. -/
theorem readChars_complete {cs : List Char} (h : CharsAt s cs rest) (output : List Char)
    {turns : Nat} (hturns : s.length < turns)
    (hfit : (utf8 (ofList (output ++ cs))).length ≤ bounds.stringBytes) :
    readChars bounds turns output s = some (ofList (output ++ cs), rest) := by
  induction h generalizing output turns with
  | close =>
    cases turns with
    | zero => exact absurd hturns (Nat.not_lt_zero _)
    | succ turns => rw [readChars, if_pos rfl, append_nil]
  | @char s t rest c cs hc _ ih =>
    obtain ⟨hread, hhead, hless⟩ := character_complete hc
    cases turns with
    | zero => exact absurd hturns (Nat.not_lt_zero _)
    | succ turns =>
      cases s with
      | nil => exact absurd hless (Nat.not_lt_zero _)
      | cons next tail =>
        have hquote : next ≠ 34 := fun heq => hhead (congrArg some heq)
        have hsplit : output ++ c :: cs = output ++ [c] ++ cs := by
          rw [List.append_assoc, List.singleton_append]
        rw [hsplit] at hfit ⊢
        have hshort : ¬ (utf8 (ofList (output ++ [c]))).length > bounds.stringBytes := by
          rw [length_utf8_append] at hfit
          omega
        rw [readChars, if_neg hquote, hread]
        dsimp only
        rw [if_neg hshort]
        exact ih (output ++ [c]) (by omega) hfit

variable {r' r : Reader}

/-- The reader of strings takes what the grammar derives, within the bound. -/
theorem exec_readString_iff {text : String} : (readString bounds).exec r = .ok (text, r') ↔
      StringAt r.rest text r'.rest ∧ (utf8 text).length ≤ bounds.stringBytes ∧
        r'.nodes = r.nodes := by
  obtain ⟨source, nodes⟩ := r
  obtain ⟨source', nodes'⟩ := r'
  constructor
  · intro h
    cases source with
    | nil =>
      simp only [readString, exec_bind, exec_consume, List.head?_nil, reduceCtorEq, if_false,
        Bool.not_false, if_true] at h
      cases h
    | cons b tail =>
      by_cases hb : b = 34
      · subst hb
        simp only [readString, exec_bind, exec_consume, head?_cons, if_true,
          Bool.not_true, Bool.false_eq_true, if_false, exec_get, drop_succ_cons,
          drop_zero] at h
        cases hread : readChars bounds (tail.length + 1) [] tail with
        | none =>
          rw [hread] at h
          cases h
        | some read =>
          obtain ⟨t, after⟩ := read
          simp only [hread, exec_bind, exec_modify, exec_pure, Except.ok.injEq,
            mk.injEq, Reader.mk.injEq] at h
          obtain ⟨rfl, rfl, rfl⟩ := h
          obtain ⟨cs, hcs, rfl, hbound⟩ := readChars_sound hread (Nat.zero_le _)
          refine ⟨.quoted ?_, hbound, rfl⟩
          rw [nil_append, String.toList_ofList]
          exact hcs
      · simp only [readString, exec_bind, exec_consume, head?_cons, some.injEq,
          if_neg hb, Bool.not_false, if_true] at h
        cases h
  · rintro ⟨hstring, hbound, hnodes⟩
    dsimp only at hstring hnodes
    cases hstring with
    | @quoted s _ _ hcs =>
      have hread := readChars_complete hcs [] (Nat.lt_succ_self s.length)
        (by rw [nil_append, String.ofList_toList]; exact hbound)
      rw [nil_append, String.ofList_toList] at hread
      simp only [readString, exec_bind, exec_consume, head?_cons, if_true, Bool.not_true,
        Bool.false_eq_true, if_false, exec_get, drop_succ_cons, drop_zero, hread,
        exec_modify, exec_pure, hnodes]

/-! ## Numbers -/

theorem digitByte_iff : digitByte b = true ↔ Digit b := by
  simp only [digitByte, Bool.and_eq_true, decide_eq_true_eq]
  rfl

/-- What can follow a number in a document: space, a comma, a closing bracket or nothing. -/
def Follows (rest : Bytes) : Prop :=
  ∀ b tail, rest = b :: tail → space b = true ∨ b = 0x2c ∨ b = 0x5d ∨ b = 0x7d

theorem Follows.head (h : Follows rest) :
    rest.takeWhile digitByte = [] ∧ digitByte (rest.head?.getD 0) = false ∧
      ¬ (rest.head?.getD 0 = 46 ∨ rest.head?.getD 0 = 101 ∨ rest.head?.getD 0 = 69) := by
  cases rest with
  | nil => exact ⟨rfl, by decide, by decide⟩
  | cons b tail =>
    have hbyte : digitByte b = false ∧ ¬ (b = 46 ∨ b = 101 ∨ b = 69) := by
      rcases h b tail rfl with hspace | rfl | rfl | rfl
      · rcases space_iff.mp hspace with rfl | rfl | rfl | rfl <;> decide
      · decide
      · decide
      · decide
    refine ⟨?_, hbyte⟩
    rw [List.takeWhile_cons, hbyte.1]
    rfl

/-- The digits that are read are a number of the grammar. -/
theorem exec_readDigits_sound {digits : Bytes} (h : readDigits.exec r = .ok (digits, r')) :
    NatAt r.rest (digitsValue digits) r'.rest ∧ r'.nodes = r.nodes := by
  obtain ⟨source, nodes⟩ := r
  by_cases hzero : source.head? = some 48
  · obtain ⟨tail, rfl⟩ : ∃ tail, source = 48 :: tail := by
      cases source with
      | nil => cases hzero
      | cons b tail => exact ⟨tail, by rw [some.inj hzero]⟩
    simp only [readDigits, exec_bind, exec_consume, head?_cons, if_true, drop_succ_cons,
      drop_zero, exec_peek, exec_throwIf] at h
    split_ifs at h
    simp only [exec_pure, Except.ok.injEq, mk.injEq] at h
    obtain ⟨rfl, rfl⟩ := h
    exact ⟨.zero, rfl⟩
  · simp only [readDigits, exec_bind, exec_consume, if_neg hzero, exec_peek, exec_throwIf,
      Bool.false_eq_true, if_false] at h
    split_ifs at h with hfirst
    simp only [exec_get, exec_advance, exec_pure, Except.ok.injEq, mk.injEq] at h
    obtain ⟨rfl, rfl⟩ := h
    refine ⟨?_, rfl⟩
    cases source with
    | nil => exact absurd (Or.inl (by decide)) hfirst
    | cons b tail =>
      simp only [head?_cons, getD_some, not_or, UInt8.not_lt] at hfirst
      have hb : digitByte b = true := digitByte_iff.mpr
        ⟨UInt8.le_trans (by decide) hfirst.1, hfirst.2⟩
      have hdigits : ∀ d ∈ tail.takeWhile digitByte, Digit d := fun d hd =>
        digitByte_iff.mp (List.mem_takeWhile_imp hd)
      have hread : NatAt (b :: tail.takeWhile digitByte ++ tail.dropWhile digitByte)
          (digitsValue (b :: tail.takeWhile digitByte)) (tail.dropWhile digitByte) :=
        .digits hfirst.1 hfirst.2 hdigits
      rw [cons_append, List.takeWhile_append_dropWhile] at hread
      have hdrop := congrArg (List.drop (tail.takeWhile digitByte).length)
        (List.takeWhile_append_dropWhile (p := digitByte) (l := tail))
      rw [List.drop_left] at hdrop
      rw [List.takeWhile_cons, if_pos hb, length_cons, drop_succ_cons, ← hdrop]
      exact hread

/-- A number of the grammar is read whole when what follows it can follow a number. -/
theorem exec_readDigits_complete (h : NatAt s n rest) (hrest : Follows rest) (nodes : Nat) :
    ∃ digits, readDigits.exec ⟨s, nodes⟩ = .ok (digits, ⟨rest, nodes⟩) ∧ digitsValue digits = n := by
  obtain ⟨htake, hdigit, _⟩ := hrest.head
  cases h with
  | zero =>
    refine ⟨[48], ?_, by decide⟩
    simp only [readDigits, exec_bind, exec_consume, head?_cons, if_true,
      drop_succ_cons, drop_zero, exec_peek, exec_throwIf, hdigit, Bool.false_eq_true,
      if_false, exec_pure]
  | @digits d ds _ hlow hhigh hds =>
    have hne : d ≠ 48 := by
      rintro rfl
      exact absurd hlow (by decide)
    have hfirst : ¬ (d < 49 ∨ 57 < d) := by
      rw [not_or, UInt8.not_lt, UInt8.not_lt]
      exact ⟨hlow, hhigh⟩
    have hall : ∀ b ∈ d :: ds, digitByte b = true := by
      intro b hb
      rcases List.mem_cons.mp hb with rfl | hb
      · exact digitByte_iff.mpr ⟨UInt8.le_trans (by decide) hlow, hhigh⟩
      · exact digitByte_iff.mpr (hds b hb)
    have hspan : (d :: ds ++ rest).takeWhile digitByte = d :: ds := by
      rw [List.takeWhile_append_of_pos hall, htake, append_nil]
    refine ⟨d :: ds, ?_, rfl⟩
    simp only [readDigits, exec_bind, exec_consume, cons_append, head?_cons,
      some.injEq, if_neg hne, exec_peek, getD_some, exec_throwIf, if_neg hfirst,
      exec_get, Bool.false_eq_true, if_false, exec_advance, exec_pure]
    rw [← cons_append, hspan, List.drop_left]

theorem int64_iff {n : Int} :
    int64 n = true ↔ -9223372036854775808 ≤ n ∧ n ≤ 9223372036854775807 := by
  simp only [int64, Bool.and_eq_true, decide_eq_true_eq]

/-- The reader of integers takes what the grammar derives. -/
theorem exec_integer_sound {v : Value} (h : integer.exec r = .ok (v, r')) :
    ValueAt r.rest v r'.rest ∧ nodeCount v = 1 ∧ (∀ bounds depth, within bounds v depth = true) ∧
      r'.nodes = r.nodes := by
  unfold integer at h
  obtain ⟨negative, start, hnegative, h⟩ := exec_bind_ok.mp h
  obtain ⟨digits, after, hdigits, _⟩ := exec_bind_ok.mp h
  obtain ⟨hnat, hnodes⟩ := exec_readDigits_sound hdigits
  rw [exec_consume] at hnegative
  split_ifs at hnegative with hminus
  · simp only [Except.ok.injEq, mk.injEq] at hnegative
    obtain ⟨rfl, rfl⟩ := hnegative
    simp only [exec_bind, hdigits, exec_peek, exec_throwIf, if_true] at h
    split_ifs at h with hfraction hrange
    simp only [exec_pure, Except.ok.injEq, mk.injEq] at h
    obtain ⟨rfl, rfl⟩ := h
    obtain ⟨hlow, hhigh⟩ := int64_iff.mp (Bool.of_not_eq_false hrange)
    refine ⟨.number ?_ hlow hhigh, rfl, fun _ _ => rfl, hnodes⟩
    obtain ⟨source, nodes⟩ := r
    cases source with
    | nil => cases hminus
    | cons b tail =>
      rw [some.inj hminus]
      exact .minus hnat
  · simp only [Except.ok.injEq, mk.injEq] at hnegative
    obtain ⟨rfl, rfl⟩ := hnegative
    simp only [exec_bind, hdigits, exec_peek, exec_throwIf, Bool.false_eq_true, if_false] at h
    split_ifs at h with hfraction hrange
    simp only [exec_pure, Except.ok.injEq, mk.injEq] at h
    obtain ⟨rfl, rfl⟩ := h
    obtain ⟨hlow, hhigh⟩ := int64_iff.mp (Bool.of_not_eq_false hrange)
    exact ⟨.number (.plain hnat) hlow hhigh, rfl, fun _ _ => rfl, hnodes⟩

theorem NatAt.head (h : NatAt s n rest) : ∃ b tail, s = b :: tail ∧ Digit b := by
  cases h with
  | zero => exact ⟨48, _, rfl, by decide, by decide⟩
  | digits hlow hhigh _ => exact ⟨_, _, rfl, UInt8.le_trans (by decide) hlow, hhigh⟩

theorem exec_integer_complete {n : Int} (h : IntAt s n rest) (hn : int64 n = true)
    (hrest : Follows rest) (nodes : Nat) :
    integer.exec ⟨s, nodes⟩ = .ok (.int n, ⟨rest, nodes⟩) := by
  obtain ⟨_, _, hstop⟩ := hrest.head
  cases h with
  | plain hnat =>
    obtain ⟨digits, hdigits, rfl⟩ := exec_readDigits_complete hnat hrest nodes
    obtain ⟨b, tail, rfl, hb⟩ := hnat.head
    have hminus : b ≠ 45 := by
      rintro rfl
      exact absurd hb.1 (by decide)
    simp only [integer, exec_bind, exec_consume, head?_cons, some.injEq,
      if_neg hminus, hdigits, exec_peek, exec_throwIf, if_neg hstop, Bool.false_eq_true, if_false,
      hn, Bool.true_eq_false, exec_pure]
  | minus hnat =>
    obtain ⟨digits, hdigits, rfl⟩ := exec_readDigits_complete hnat hrest nodes
    simp only [integer, exec_bind, exec_consume, head?_cons, if_true, drop_succ_cons,
      drop_zero, hdigits, exec_peek, exec_throwIf, if_neg hstop, hn, Bool.true_eq_false,
      if_false, exec_pure]

end Ipms.ManagementJson
