import Ipms.ManagementJson.Parse

/-
  Ipms.ManagementJson.ParseText

  The characters, strings and numbers of the contract text: what the serializer
  writes for each of them, the parser reads back, whatever follows.
-/

namespace Ipms.ManagementJson

open Ipms.Lib
open UInt8 (ofNat toNat)

/-! ## Scalars -/

theorem leadByte_two : ∀ k < 32, 2 ≤ k →
    ¬ (ofNat (k + 192) < 0x80) ∧ leadByte (ofNat (k + 192)) = some (2, k, 0x80) := by
  decide

theorem leadByte_three : ∀ k < 16,
    ¬ (ofNat (k + 224) < 0x80) ∧ leadByte (ofNat (k + 224)) = some (3, k, 0x800) := by
  decide

theorem leadByte_four : ∀ k < 5,
    ¬ (ofNat (k + 240) < 0x80) ∧ leadByte (ofNat (k + 240)) = some (4, k, 0x10000) := by
  decide

theorem continuation_byte : ∀ k < 64,
    ofNat (k + 128) &&& 0xc0 = 0x80 ∧ (ofNat (k + 128) &&& 0x3f).toNat = k := by
  decide

theorem continuation_nil (point : Nat) : continuation point [] = some point := rfl

theorem continuation_cons {k : Nat} (hk : k < 64) (point : Nat) (rest : Bytes) :
    continuation point (ofNat (k + 128) :: rest) = continuation (point * 64 + k) rest := by
  obtain ⟨htop, hbits⟩ := continuation_byte k hk
  simp only [continuation, htop, hbits, ne_eq, not_true_eq_false, if_false]

theorem utf8Scalar_wide {first : UInt8} {tail : Bytes} {width lead minimum point : Nat}
    (hfirst : ¬ first < 0x80) (hlead : leadByte first = some (width, lead, minimum))
    (htail : tail.length = width - 1) (hpoint : continuation lead tail = some point)
    (hscalar : ¬ (point < minimum ∨ 0x10ffff < point ∨ (0xd800 ≤ point ∧ point ≤ 0xdfff)))
    (rest : Bytes) : utf8Scalar (first :: tail ++ rest) = some (Char.ofNat point, rest) := by
  have hlen : ¬ (tail ++ rest).length < width - 1 := by
    rw [List.length_append]
    omega
  have htake : (tail ++ rest).take (width - 1) = tail := by
    rw [← htail, List.take_left]
  have hdrop : (tail ++ rest).drop (width - 1) = rest := by
    rw [← htail, List.drop_left]
  simp only [List.cons_append, utf8Scalar, if_neg hfirst, hlead, if_neg hlen, htake, hpoint,
    if_neg hscalar, hdrop]

/-- The reader gets back the scalar that was encoded. -/
theorem utf8Scalar_encode (c : Char) (rest : Bytes) :
    utf8Scalar (String.utf8EncodeChar c ++ rest) = some (c, rest) := by
  have hvalid : c.val.toNat < 0xd800 ∨ (0xdfff < c.val.toNat ∧ c.val.toNat < 0x110000) := c.valid
  have hself : Char.ofNat c.val.toNat = c := Char.ofNat_toNat c
  have hsix : ∀ n, n % 64 < 64 := fun n => Nat.mod_lt n (by decide)
  simp only [String.utf8EncodeChar]
  generalize c.val.toNat = v at hvalid hself
  by_cases h₁ : v ≤ 0x7f
  · have hbyte : ∀ k < 128, ofNat k < 0x80 ∧ (ofNat k).toNat = k := by decide
    obtain ⟨hlt, hnat⟩ := hbyte v (by omega)
    simp only [if_pos h₁, List.cons_append, List.nil_append, utf8Scalar, if_pos hlt, hnat, hself]
  rw [if_neg h₁]
  by_cases h₂ : v ≤ 0x7ff
  · obtain ⟨hfirst, hlead⟩ := leadByte_two (v / 64 % 32) (by omega) (by omega)
    have hpoint : v / 64 % 32 * 64 + v % 64 = v := by omega
    rw [if_pos h₂, ← hself]
    refine utf8Scalar_wide hfirst hlead rfl ?_ (by omega) rest
    rw [continuation_cons (hsix _), continuation_nil, hpoint]
  rw [if_neg h₂]
  by_cases h₃ : v ≤ 0xffff
  · obtain ⟨hfirst, hlead⟩ := leadByte_three (v / 4096 % 16) (by omega)
    have hpoint : (v / 4096 % 16 * 64 + v / 64 % 64) * 64 + v % 64 = v := by omega
    rw [if_pos h₃, ← hself]
    refine utf8Scalar_wide hfirst hlead rfl ?_ (by omega) rest
    rw [continuation_cons (hsix _), continuation_cons (hsix _), continuation_nil, hpoint]
  · obtain ⟨hfirst, hlead⟩ := leadByte_four (v / 262144 % 8) (by omega)
    have hpoint : ((v / 262144 % 8 * 64 + v / 4096 % 64) * 64 + v / 64 % 64) * 64 + v % 64 = v := by
      omega
    rw [if_neg h₃, ← hself]
    refine utf8Scalar_wide hfirst hlead rfl ?_ (by omega) rest
    rw [continuation_cons (hsix _), continuation_cons (hsix _), continuation_cons (hsix _),
      continuation_nil, hpoint]

/-! ## Characters -/

theorem hexValue_hexDigit : ∀ k < 16, hexValue (hexDigit k) = some k := by decide

theorem unicodeEscape_low (c : Char) (hc : c.toNat < 0x20) (rest : Bytes) :
    unicodeEscape (48 :: 48 :: hexDigit (c.toNat / 16) :: hexDigit (c.toNat % 16) :: rest) =
      some (c, rest) := by
  have hzero : hexValue 48 = some 0 := by decide
  have hhex : hex4 (48 :: 48 :: hexDigit (c.toNat / 16) :: hexDigit (c.toNat % 16) :: rest) =
      some (c.toNat, rest) := by
    have hpoint : c.toNat / 16 * 16 + c.toNat % 16 = c.toNat := by omega
    simp [hex4, hzero, hexValue_hexDigit _ (by omega : c.toNat / 16 < 16),
      hexValue_hexDigit _ (by omega : c.toNat % 16 < 16), hpoint]
  have hlow : ¬ (0xd800 ≤ c.toNat ∧ c.toNat ≤ 0xdbff) := by omega
  have hlow' : ¬ (0xdc00 ≤ c.toNat ∧ c.toNat ≤ 0xdfff) := by omega
  simp [unicodeEscape, hhex, hlow, hlow', Char.ofNat_toNat]

/-- A character written as itself starts with a byte that opens no escape and ends no string. -/
theorem encode_head (c : Char) (hquote : c ≠ '"') (hslash : c ≠ '\\') (hc : ¬ c.val < 0x20) :
    ∃ first tail, String.utf8EncodeChar c = first :: tail ∧
      ¬ first < 0x20 ∧ first ≠ 92 ∧ first ≠ 34 := by
  have hbyte : ∀ k < 256, 0x20 ≤ k ∧ k ≠ 92 ∧ k ≠ 34 →
      ¬ ofNat k < 0x20 ∧ ofNat k ≠ 92 ∧ ofNat k ≠ 34 := by
    intro k hk ⟨hlow, hslash, hquote⟩
    have hnat : (ofNat k).toNat = k := by
      rw [UInt8.toNat_ofNat', Nat.mod_eq_of_lt hk]
    refine ⟨?_, ?_, ?_⟩
    · rw [UInt8.lt_iff_toNat_lt, hnat]
      exact Nat.not_lt.mpr hlow
    · exact fun h => hslash (hnat.symm.trans (congrArg toNat h))
    · exact fun h => hquote (hnat.symm.trans (congrArg toNat h))
  have hlow : 0x20 ≤ c.val.toNat := by
    rw [UInt32.lt_iff_toNat_lt] at hc
    exact Nat.le_of_not_lt hc
  have hq : c.val.toNat ≠ 34 := fun h => hquote (Char.ext (UInt32.toNat_inj.mp h))
  have hs : c.val.toNat ≠ 92 := fun h => hslash (Char.ext (UInt32.toNat_inj.mp h))
  simp only [String.utf8EncodeChar]
  by_cases h₁ : c.val.toNat ≤ 0x7f
  · rw [if_pos h₁]
    exact ⟨_, _, rfl, hbyte _ (by omega) ⟨hlow, hs, hq⟩⟩
  rw [if_neg h₁]
  by_cases h₂ : c.val.toNat ≤ 0x7ff
  · rw [if_pos h₂]
    exact ⟨_, _, rfl, hbyte _ (by omega) (by omega)⟩
  rw [if_neg h₂]
  by_cases h₃ : c.val.toNat ≤ 0xffff
  · rw [if_pos h₃]
    exact ⟨_, _, rfl, hbyte _ (by omega) (by omega)⟩
  · rw [if_neg h₃]
    exact ⟨_, _, rfl, hbyte _ (by omega) (by omega)⟩

/-- The reader gets back the character that was escaped. -/
theorem character_escape (c : Char) (rest : Bytes) : character (escape c ++ rest) = some (c, rest) := by
  have hval : ∀ n : UInt32, c.val = n → c.val.toNat = n.toNat := fun n h => by rw [h]
  have hself : ∀ n : UInt32, c.val = n → Char.ofNat n.toNat = c := fun n h => by
    rw [← h]
    exact Char.ofNat_toNat c
  unfold escape
  by_cases hquote : c = '"'
  · subst hquote
    rfl
  by_cases hslash : c = '\\'
  · subst hslash
    rfl
  rw [if_neg hquote, if_neg hslash]
  by_cases h₁ : c.val = 8
  · rw [if_pos h₁, ← hself 8 h₁]
    rfl
  rw [if_neg h₁]
  by_cases h₂ : c.val = 12
  · rw [if_pos h₂, ← hself 12 h₂]
    rfl
  rw [if_neg h₂]
  by_cases h₃ : c.val = 10
  · rw [if_pos h₃, ← hself 10 h₃]
    rfl
  rw [if_neg h₃]
  by_cases h₄ : c.val = 13
  · rw [if_pos h₄, ← hself 13 h₄]
    rfl
  rw [if_neg h₄]
  by_cases h₅ : c.val = 9
  · rw [if_pos h₅, ← hself 9 h₅]
    rfl
  rw [if_neg h₅]
  by_cases h₆ : c.val < 0x20
  · rw [if_pos h₆]
    have hlow : c.toNat < (0x20 : UInt32).toNat := UInt32.lt_iff_toNat_lt.mp h₆
    exact unicodeEscape_low c hlow rest
  · rw [if_neg h₆]
    obtain ⟨first, tail, henc, hspace, hesc, _⟩ := encode_head c hquote hslash h₆
    have hread := utf8Scalar_encode c rest
    rw [henc, List.cons_append] at hread ⊢
    simp only [character, if_neg hspace, if_pos hesc, hread]

theorem escape_head (c : Char) : ∃ first tail, escape c = first :: tail ∧ first ≠ 34 := by
  unfold escape
  by_cases hquote : c = '"'
  · exact ⟨92, [34], by rw [if_pos hquote], by decide⟩
  by_cases hslash : c = '\\'
  · exact ⟨92, [92], by rw [if_neg hquote, if_pos hslash], by decide⟩
  rw [if_neg hquote, if_neg hslash]
  by_cases hlow : c.val < 0x20
  · split_ifs <;> exact ⟨92, _, rfl, by decide⟩
  · have hne : ∀ n : UInt32, n < 0x20 → c.val ≠ n := by
      rintro n hn rfl
      exact hlow hn
    rw [if_neg (hne 8 (by decide)), if_neg (hne 12 (by decide)), if_neg (hne 10 (by decide)),
      if_neg (hne 13 (by decide)), if_neg (hne 9 (by decide)), if_neg hlow]
    obtain ⟨first, tail, henc, _, _, hne⟩ := encode_head c hquote hslash hlow
    exact ⟨first, tail, henc, hne⟩

theorem utf8_ofList (cs : List Char) : utf8 (String.ofList cs) = cs.flatMap String.utf8EncodeChar := by
  simp [utf8]

theorem escape_length_pos (c : Char) : 0 < (escape c).length := by
  obtain ⟨first, tail, h, _⟩ := escape_head c
  simp [h]

/-! ## Integers -/

theorem natDigits_lt : ∀ n < 10, natDigits n = [ofNat (48 + n)] := by decide

theorem natDigits_step {n : Nat} (hn : 10 ≤ n) :
    natDigits n = natDigits (n / 10) ++ [ofNat (48 + n % 10)] := by
  have hlast : ∀ d < 10, String.utf8EncodeChar (Nat.digitChar d) = [ofNat (48 + d)] := by
    decide
  unfold natDigits
  rw [Nat.toDigits_of_base_le (by decide) hn, List.flatMap_append, List.flatMap_singleton,
    hlast _ (Nat.mod_lt n (by decide))]

theorem digitByte_ofNat : ∀ d < 10, digitByte (ofNat (48 + d)) = true ∧
    (ofNat (48 + d)).toNat - 48 = d ∧
    (0 < d → ¬ (ofNat (48 + d) < 49 ∨ 57 < ofNat (48 + d))) := by decide

theorem natDigits_digits (n : Nat) : ∀ b ∈ natDigits n, digitByte b = true := by
  induction n using Nat.strongRecOn with
  | ind n ih =>
    by_cases hn : n < 10
    · intro b hb
      rw [natDigits_lt n hn, List.mem_singleton] at hb
      rw [hb]
      exact (digitByte_ofNat n hn).1
    · intro b hb
      rw [natDigits_step (Nat.le_of_not_lt hn), List.mem_append, List.mem_singleton] at hb
      rcases hb with hb | rfl
      · exact ih (n / 10) (by omega) b hb
      · exact (digitByte_ofNat _ (Nat.mod_lt n (by decide))).1

theorem digitsValue_natDigits (n : Nat) : digitsValue (natDigits n) = n := by
  induction n using Nat.strongRecOn with
  | ind n ih =>
    by_cases hn : n < 10
    · rw [natDigits_lt n hn]
      simpa [digitsValue] using (digitByte_ofNat n hn).2.1
    · have hinit := ih (n / 10) (by omega)
      have hlast := (digitByte_ofNat _ (Nat.mod_lt n (by decide : 0 < 10))).2.1
      unfold digitsValue at hinit ⊢
      rw [natDigits_step (Nat.le_of_not_lt hn), List.foldl_append, hinit]
      simp only [List.foldl_cons, List.foldl_nil, hlast]
      omega

theorem natDigits_head (n : Nat) (hn : 0 < n) :
    ∃ first tail, natDigits n = first :: tail ∧ ¬ (first < 49 ∨ 57 < first) := by
  induction n using Nat.strongRecOn with
  | ind n ih =>
    by_cases hlt : n < 10
    · exact ⟨_, [], natDigits_lt n hlt, (digitByte_ofNat n hlt).2.2 hn⟩
    · obtain ⟨first, tail, hinit, hfirst⟩ := ih (n / 10) (by omega) (by omega)
      refine ⟨first, tail ++ [ofNat (48 + n % 10)], ?_, hfirst⟩
      rw [natDigits_step (Nat.le_of_not_lt hlt), hinit, List.cons_append]

theorem natDigits_cons (n : Nat) :
    ∃ first tail, natDigits n = first :: tail ∧ digitByte first = true := by
  have hall := natDigits_digits n
  by_cases hn : n = 0
  · subst hn
    exact ⟨48, [], natDigits_lt 0 (by decide), by decide⟩
  · obtain ⟨first, tail, htext, _⟩ := natDigits_head n (Nat.pos_of_ne_zero hn)
    exact ⟨first, tail, htext, hall first (by rw [htext]; exact List.mem_cons_self)⟩

/-! ## What the readers do with rendered text -/

/-- What can follow a value: the end of the source, a comma or a closing bracket. -/
def Stops (rest : Bytes) : Prop :=
  rest = [] ∨ ∃ b tail, rest = b :: tail ∧ (b = 44 ∨ b = 93 ∨ b = 125)

@[simp] theorem exec_peek (r : Reader) : peek.exec r = .ok (r.rest.head?.getD 0, r) := rfl

@[simp] theorem exec_advance (count : Nat) (r : Reader) :
    (advance count).exec r = .ok ((), { r with rest := r.rest.drop count }) := rfl

@[simp] theorem exec_whitespace (r : Reader) :
    whitespace.exec r = .ok ((), { r with rest := r.rest.dropWhile space }) := rfl

theorem exec_consume (item : UInt8) (r : Reader) :
    (consume item).exec r =
      if r.rest.head? = some item then .ok (true, { r with rest := r.rest.drop 1 })
      else .ok (false, r) := by
  unfold consume
  rw [Txn.exec_bind]
  simp only [Txn.exec_get]
  by_cases h : r.rest.head? = some item
  · rw [if_pos h, if_pos h]
    rfl
  · rw [if_neg h, if_neg h]
    rfl

theorem exec_consume_cons (item b : UInt8) (tail : Bytes) (nodes : Nat) :
    (consume item).exec ⟨b :: tail, nodes⟩ =
      if b = item then .ok (true, ⟨tail, nodes⟩) else .ok (false, ⟨b :: tail, nodes⟩) := by
  rw [exec_consume]
  simp only [List.head?_cons, Option.some.injEq, List.drop_succ_cons, List.drop_zero]

theorem exec_throwIf {c : Prop} [Decidable c] (r : Reader) :
    (throwIf c invalidDocument : Read Unit).exec r =
      if c then .error invalidDocument else .ok ((), r) := by
  unfold throwIf
  by_cases hc : c
  · rw [if_pos hc, if_pos hc]
    rfl
  · rw [if_neg hc, if_neg hc]
    rfl

theorem exec_node (bounds : Limits) (r : Reader) :
    (Read.node bounds).exec r =
      if r.nodes + 1 > bounds.nodes then .error invalidDocument
      else .ok ((), { r with nodes := r.nodes + 1 }) := by
  simp only [Read.node, Txn.exec_bind, Txn.exec_modify, Txn.exec_get, exec_throwIf]

theorem exec_literal (text : Bytes) (rest : Bytes) (nodes : Nat) :
    (literal text).exec ⟨text ++ rest, nodes⟩ = .ok ((), ⟨rest, nodes⟩) := by
  simp [literal, Txn.exec_bind, exec_throwIf]

theorem Stops.digits {rest : Bytes} (h : Stops rest) :
    rest.takeWhile digitByte = [] ∧ digitByte (rest.head?.getD 0) = false ∧
      ¬ (rest.head?.getD 0 = 46 ∨ rest.head?.getD 0 = 101 ∨ rest.head?.getD 0 = 69) := by
  have hbyte : ∀ b : UInt8, b = 44 ∨ b = 93 ∨ b = 125 →
      digitByte b = false ∧ ¬ (b = 46 ∨ b = 101 ∨ b = 69) := by
    rintro b (rfl | rfl | rfl) <;> decide
  rcases h with rfl | ⟨b, tail, rfl, hb⟩
  · exact ⟨rfl, by decide, by decide⟩
  · obtain ⟨hdigit, hstop⟩ := hbyte b hb
    refine ⟨?_, hdigit, hstop⟩
    rw [List.takeWhile_cons, hdigit]
    rfl

/-! ## Values -/

mutual
/-- A value the agent can hold: 64-bit integers, and maps with their keys in byte order. -/
def wellFormed : Value → Bool
  | .int n => int64 n
  | .arr items => wellFormedItems items
  | .obj members =>
    decide ((members.map fun m => utf8 m.1).Pairwise (· < ·)) && wellFormedMembers members
  | _ => true
/-- `wellFormed` for each item of an array. -/
def wellFormedItems : List Value → Bool
  | [] => true
  | item :: rest => wellFormed item && wellFormedItems rest
/-- `wellFormed` for each member of an object. -/
def wellFormedMembers : List (String × Value) → Bool
  | [] => true
  | (_, item) :: rest => wellFormed item && wellFormedMembers rest
end

theorem nodeCount_pos (v : Value) : 0 < nodeCount v := by
  cases v <;> simp only [nodeCount] <;> omega

theorem render_cons (v : Value) :
    ∃ first tail, render v = first :: tail ∧ space first = false ∧ first ≠ 93 := by
  cases v with
  | null => exact ⟨110, _, rfl, by decide, by decide⟩
  | bool b => cases b <;> exact ⟨_, _, rfl, by decide, by decide⟩
  | str s => exact ⟨34, _, rfl, by decide, by decide⟩
  | arr items => exact ⟨91, _, rfl, by decide, by decide⟩
  | obj members => exact ⟨123, _, rfl, by decide, by decide⟩
  | int n =>
    by_cases hneg : n < 0
    · exact ⟨45, natDigits n.natAbs, by simp [render, toChars, hneg], by decide, by decide⟩
    · obtain ⟨first, tail, htext, hfirst⟩ := natDigits_cons n.natAbs
      have hdigit : ∀ b : UInt8, digitByte b = true → space b = false ∧ b ≠ 93 := by
        intro b hb
        refine ⟨?_, ?_⟩
        · by_contra hspace
          simp only [space, Bool.not_eq_false, Bool.or_eq_true, beq_iff_eq] at hspace
          rcases hspace with ((rfl | rfl) | rfl) | rfl <;> exact absurd hb (by decide)
        · rintro rfl
          exact absurd hb (by decide)
      exact ⟨first, tail, by simpa [render, toChars, hneg] using htext, hdigit first hfirst⟩

theorem toChars_cons (n : Int) :
    ∃ first tail, toChars n = first :: tail ∧ first ≠ 110 ∧ first ≠ 116 ∧ first ≠ 102 ∧
      first ≠ 34 ∧ first ≠ 91 ∧ first ≠ 123 := by
  by_cases hneg : n < 0
  · exact ⟨45, natDigits n.natAbs, if_pos hneg, by decide⟩
  · obtain ⟨first, tail, htext, hfirst⟩ := natDigits_cons n.natAbs
    have hne : ∀ b : UInt8, digitByte b = false → first ≠ b := by
      rintro b hb rfl
      rw [hb] at hfirst
      exact Bool.noConfusion hfirst
    refine ⟨first, tail, by rw [toChars, if_neg hneg, htext], ?_⟩
    exact ⟨hne _ (by decide), hne _ (by decide), hne _ (by decide), hne _ (by decide),
      hne _ (by decide), hne _ (by decide)⟩

end Ipms.ManagementJson
