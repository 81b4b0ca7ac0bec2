import Ipms.Agent.Gpo.Validate
import Ipms.ManagementJson.KeyOrder

/-
  Ipms.Agent.Gpo.OverrideText

  The loops of the override checks over the bytes of a text: the bounded text
  of a value, and the scan of a security identifier with its 64-bit numbers.
  Each is the check on characters that `validValue` makes.
-/

namespace Ipms.Agent.Gpo

open Ipms.Lib Ipms.ManagementJson

/-! ## Bounded text -/

/-- A byte that does not start a character. -/
def trailByte (b : UInt8) : Bool := b &&& 0xc0 == 0x80

/-- A control character of one byte. -/
def controlByte (b : UInt8) : Bool := decide (b < 32) || b == 127

/-- `safe_text` on the bytes of a text: no more characters than the maximum, none of control. -/
def safeTextBytes (text : Bytes) (maximum : Nat) : Bool :=
  decide (text.countP (fun b => !trailByte b) ≤ maximum) && text.all fun b => !controlByte b

set_option maxRecDepth 40000 in
theorem byte_kind : ∀ n < 256, trailByte (UInt8.ofNat n) = decide (n / 64 = 2) ∧
    controlByte (UInt8.ofNat n) = (decide (n < 32) || n == 127) := by
  decide

theorem leadByte_kind {n : Nat} (hn : n < 256) (hlead : 192 ≤ n) :
    trailByte (UInt8.ofNat n) = false ∧ controlByte (UInt8.ofNat n) = false := by
  obtain ⟨htrail, hcontrol⟩ := byte_kind n hn
  rw [htrail, hcontrol]
  have hthree : n / 64 ≠ 2 := by omega
  have hlow : ¬n < 32 := by omega
  have hdel : n ≠ 127 := by omega
  simp [hthree, hlow, hdel]

theorem trailByte_kind {n : Nat} (hn : n < 64) :
    trailByte (UInt8.ofNat (n + 128)) = true ∧ controlByte (UInt8.ofNat (n + 128)) = false := by
  obtain ⟨htrail, hcontrol⟩ := byte_kind (n + 128) (by omega)
  rw [htrail, hcontrol]
  have htwo : (n + 128) / 64 = 2 := by omega
  simp [htwo]

/-- A character is one byte that starts it and others that do not; only the first may be one of
control, when the character is. -/
theorem utf8EncodeChar_kind (c : Char) :
    (String.utf8EncodeChar c).countP (fun b => !trailByte b) = 1 ∧
      (String.utf8EncodeChar c).all (fun b => !controlByte b) =
        !(decide (c.toNat < 32) || c.toNat == 127) := by
  have hvalid : c.toNat < 0x110000 := by
    rcases c.valid with h | ⟨-, h⟩
    · exact Nat.lt_trans h (by decide)
    · exact h
  have hsix : ∀ n, n % 64 < 64 := fun n => Nat.mod_lt n (by decide)
  simp only [String.utf8EncodeChar]
  rw [show c.val.toNat = c.toNat from rfl]
  generalize c.toNat = v at hvalid
  by_cases h₁ : v ≤ 0x7f
  · obtain ⟨htrail, hcontrol⟩ := byte_kind v (by omega)
    have hone : v / 64 ≠ 2 := by omega
    rw [if_pos h₁]
    simp [htrail, hcontrol, hone]
  have hlow : ¬v < 32 := by omega
  have hdel : v ≠ 127 := by omega
  rw [if_neg h₁]
  by_cases h₂ : v ≤ 0x7ff
  · obtain ⟨hlead, hplain⟩ := leadByte_kind (n := v / 64 % 32 + 192) (by omega) (by omega)
    obtain ⟨htrail, hplain'⟩ := trailByte_kind (hsix v)
    rw [if_pos h₂]
    simp only [List.countP_cons, List.countP_nil, List.all_cons, List.all_nil, hlead, hplain,
      htrail, hplain']
    simp [hlow, hdel]
  rw [if_neg h₂]
  by_cases h₃ : v ≤ 0xffff
  · obtain ⟨hlead, hplain⟩ := leadByte_kind (n := v / 4096 % 16 + 224) (by omega) (by omega)
    obtain ⟨htrail, hplain'⟩ := trailByte_kind (hsix (v / 64))
    obtain ⟨hlast, hplain''⟩ := trailByte_kind (hsix v)
    rw [if_pos h₃]
    simp only [List.countP_cons, List.countP_nil, List.all_cons, List.all_nil, hlead, hplain,
      htrail, hplain', hlast, hplain'']
    simp [hlow, hdel]
  · obtain ⟨hlead, hplain⟩ := leadByte_kind (n := v / 262144 % 8 + 240) (by omega) (by omega)
    obtain ⟨htrail, hplain'⟩ := trailByte_kind (hsix (v / 4096))
    obtain ⟨hnext, hplain''⟩ := trailByte_kind (hsix (v / 64))
    obtain ⟨hlast, hplain'''⟩ := trailByte_kind (hsix v)
    rw [if_neg h₃]
    simp only [List.countP_cons, List.countP_nil, List.all_cons, List.all_nil, hlead, hplain,
      htrail, hplain', hnext, hplain'', hlast, hplain''']
    simp [hlow, hdel]

/-- The check of the bytes is the check of the characters. -/
theorem safeTextBytes_utf8 (text : String) (maximum : Nat) :
    safeTextBytes (utf8 text) maximum = safeText text maximum := by
  have hcount : ∀ cs : List Char,
      (cs.flatMap String.utf8EncodeChar).countP (fun b => !trailByte b) = cs.length ∧
        (cs.flatMap String.utf8EncodeChar).all (fun b => !controlByte b) =
          cs.all fun c => !(decide (c.toNat < 32) || c.toNat == 127) := by
    intro cs
    induction cs with
    | nil => exact ⟨rfl, rfl⟩
    | cons c cs ih =>
      obtain ⟨hone, hcontrol⟩ := utf8EncodeChar_kind c
      rw [List.flatMap_cons, List.countP_append, List.all_append, hone, hcontrol, ih.1, ih.2,
        List.length_cons, List.all_cons]
      exact ⟨Nat.add_comm _ _, rfl⟩
  obtain ⟨hlength, hall⟩ := hcount text.toList
  unfold safeTextBytes safeText utf8
  rw [hlength, hall]

/-! ## Security identifiers -/

/-- The loop over the digits of a number, which never passes its maximum. -/
def sidDigits (maximum : Nat) : Nat → List Char → Bool
  | _, [] => true
  | number, c :: rest =>
    if c < '0' ∨ '9' < c ∨ number > (maximum - (c.toNat - 48)) / 10 then false
    else sidDigits maximum (number * 10 + (c.toNat - 48)) rest

/-- The loop over the numbers of an identifier: how many there are, if each is one. -/
def sidLoop : Nat → List (List Char) → Option Nat
  | parts, [] => some parts
  | parts, token :: rest =>
    if token = [] ∨ (1 < token.length ∧ token.head? = some '0') then none
    else if !sidDigits (if parts = 0 then 281474976710655 else 4294967295) 0 token then none
    else if 16 < parts + 1 then none
    else sidLoop (parts + 1) rest

/-- `sid` of an override value. -/
def sidScan (value : String) : Bool :=
  "S-1-".toList.isPrefixOf value.toList && decide (size value ≤ 184) &&
    value.toList.getLast? != some '-' &&
    (sidLoop 0 ((value.toList.drop 4).splitOn '-')).any fun parts => decide (2 ≤ parts)

theorem digit_eq_true {c : Char} : digit c = true ↔ '0' ≤ c ∧ c ≤ '9' := by
  simp [digit]

theorem le_foldl_digits (number : Nat) (cs : List Char) :
    number ≤ cs.foldl (fun n c => 10 * n + (c.toNat - 48)) number := by
  induction cs generalizing number with
  | nil => exact Nat.le_refl _
  | cons c cs ih =>
    have hstep : number ≤ 10 * number + (c.toNat - 48) := by omega
    exact Nat.le_trans hstep (ih _)

/-- The loop accepts the digits of a number up to its maximum. -/
theorem sidDigits_eq {maximum : Nat} (hmaximum : 9 ≤ maximum) (number : Nat) (cs : List Char) :
    sidDigits maximum number cs = true ↔ cs.all digit = true ∧
      (cs = [] ∨ cs.foldl (fun n c => 10 * n + (c.toNat - 48)) number ≤ maximum) := by
  induction cs generalizing number with
  | nil => simp [sidDigits]
  | cons c cs ih =>
    rw [sidDigits, List.all_cons, Bool.and_eq_true, digit_eq_true, List.foldl_cons]
    by_cases hlow : c < '0'
    · have hno : ¬ '0' ≤ c := Std.not_le.mpr hlow
      simp [hlow, hno]
    by_cases hhigh : '9' < c
    · have hno : ¬c ≤ '9' := Std.not_le.mpr hhigh
      simp [hhigh, hno]
    have hnine : c.toNat - 48 ≤ 9 := by
      have hle : c.toNat ≤ '9'.toNat := Std.not_lt.mp hhigh
      have : '9'.toNat = 57 := by decide
      omega
    have hstep : number > (maximum - (c.toNat - 48)) / 10 ↔
        maximum < 10 * number + (c.toNat - 48) := by omega
    by_cases hover : number > (maximum - (c.toNat - 48)) / 10
    · have hgrows := le_foldl_digits (10 * number + (c.toNat - 48)) cs
      rw [if_pos (.inr (.inr hover))]
      have hpassed := hstep.mp hover
      simp only [Bool.false_eq_true, reduceCtorEq, false_or, false_iff]
      rintro ⟨-, hle⟩
      omega
    · rw [if_neg (by simp only [hlow, hhigh, hover, or_self, not_false_eq_true]), ih,
        Nat.mul_comm number 10]
      have hfits : 10 * number + (c.toNat - 48) ≤ maximum := by
        have := mt hstep.mpr hover
        omega
      simp only [Std.not_lt.mp hlow, Std.not_lt.mp hhigh, true_and, and_self, reduceCtorEq,
        false_or]
      constructor
      · rintro ⟨hall, rfl | hle⟩
        · exact ⟨hall, hfits⟩
        · exact ⟨hall, hle⟩
      · rintro ⟨hall, hle⟩
        exact ⟨hall, .inr hle⟩

/-- One turn of the loop is one number. -/
theorem sidLoop_cons (parts : Nat) (token : List Char) (rest : List (List Char)) :
    sidLoop parts (token :: rest) =
      if sidPart token (if parts = 0 then 281474976710655 else 4294967295) = true ∧ parts < 16
      then sidLoop (parts + 1) rest else none := by
  generalize hmaximum : (if parts = 0 then 281474976710655 else 4294967295) = maximum
  have hnine : 9 ≤ maximum := by
    subst hmaximum
    split <;> decide
  have hdigits := sidDigits_eq hnine 0 token
  rw [sidLoop, hmaximum]
  by_cases hempty : token = []
  · subst hempty
    simp [sidPart]
  by_cases hzero : 1 < token.length ∧ token.head? = some '0'
  · rw [if_pos (.inr hzero)]
    simp [sidPart, hzero.1, hzero.2]
  rw [if_neg (by rintro (h | h) <;> contradiction)]
  have hlead : (decide (token.length > 1) && token.head? == some '0') = false := by
    rw [Bool.eq_false_iff]
    intro h
    simp only [Bool.and_eq_true, decide_eq_true_eq, beq_iff_eq] at h
    exact hzero h
  have hpart : sidPart token maximum = sidDigits maximum 0 token := by
    rw [Bool.eq_iff_iff, hdigits, sidPart, hlead]
    simp only [digitsValue, hempty, Bool.not_false, Bool.and_true, Bool.and_eq_true, false_or,
      Bool.not_eq_true', List.isEmpty_eq_false_iff, ne_eq, not_false_eq_true, true_and]
    exact and_congr_right' decide_eq_true_iff
  rw [hpart]
  cases hloop : sidDigits maximum 0 token with
  | false => simp
  | true =>
    by_cases hparts : parts < 16
    · simp [hparts, Nat.not_lt.mpr (Nat.succ_le_of_lt hparts)]
    · simp [hparts, Nat.lt_succ_of_le (Nat.not_lt.mp hparts)]

theorem sidLoop_succ (parts : Nat) (rest : List (List Char)) :
    sidLoop (parts + 1) rest =
      if rest.all (sidPart · 4294967295) = true ∧ parts + 1 + rest.length ≤ 16 ∨ rest = [] then
        some (parts + 1 + rest.length) else none := by
  induction rest generalizing parts with
  | nil => simp [sidLoop]
  | cons token rest ih =>
    rw [sidLoop_cons, if_neg (Nat.succ_ne_zero parts), ih]
    by_cases htoken : sidPart token 4294967295 = true
    · by_cases hparts : parts + 1 < 16
      · have hshift : parts + 1 + 1 + rest.length = parts + 1 + (rest.length + 1) := by omega
        rw [if_pos ⟨htoken, hparts⟩, hshift]
        cases rest with
        | nil => simp [htoken, Nat.succ_le_of_lt hparts]
        | cons _ _ => simp [htoken]
      · have hlong : ¬parts + 1 + (rest.length + 1) ≤ 16 := by omega
        rw [if_neg (fun h => hparts h.2)]
        simp [hlong]
    · simp [htoken]

/-- The scan of an identifier is the check that `validValue` makes. -/
theorem sidScan_eq (value : String) : sidScan value = sid value := by
  unfold sidScan sid
  congr 1
  cases (value.toList.drop 4).splitOn '-' with
  | nil => rfl
  | cons authority rest =>
    rw [sidLoop_cons, if_pos rfl, sidLoop_succ, sidParts]
    by_cases hauthority : sidPart authority 281474976710655 = true
    · by_cases hrest : rest.all (sidPart · 4294967295) = true
      · by_cases hlong : 0 + 1 + rest.length ≤ 16
        · have hlong' : rest.length + 1 ≤ 16 := by omega
          simp [hauthority, hrest, hlong', Nat.add_comm]
        · have hlong' : ¬rest.length + 1 ≤ 16 := by omega
          have hne : rest ≠ [] := by
            rintro rfl
            exact hlong (by decide)
          simp [hauthority, hrest, hlong, hlong', hne]
      · have hne : rest ≠ [] := by
          rintro rfl
          exact hrest rfl
        simp [hauthority, hrest, hne]
    · simp [hauthority]

end Ipms.Agent.Gpo
