import Mathlib

/-
  Ipms.Lib.Decimal

  Decimal numbers as lists of characters.  The digits of a number are the only
  ones without leading zeros, so any other spelling is zeros before them.
-/

namespace Ipms.Lib.Decimal

/-- A decimal digit. -/
def IsDigit (c : Char) : Prop := '0' ≤ c ∧ c ≤ '9'

theorem IsDigit.bounds {c : Char} (h : IsDigit c) : 48 ≤ c.toNat ∧ c.toNat ≤ 57 := by
  obtain ⟨hlow, hhigh⟩ := h
  exact ⟨hlow, hhigh⟩

theorem digitChar_sub {c : Char} (h : IsDigit c) : Nat.digitChar (c.toNat - 48) = c := by
  obtain ⟨hlow, hhigh⟩ := h.bounds
  have hall : ∀ n < 10, (Nat.digitChar n).toNat = n + 48 := by decide
  apply Char.toNat_inj.mp
  rw [hall _ (by omega)]
  omega

theorem isDigit_of_mem_toDigits {n : Nat} {c : Char} (h : c ∈ Nat.toDigits 10 n) : IsDigit c := by
  have hdigit := Nat.isDigit_of_mem_toDigits (by decide) (by decide) h
  simp only [Char.isDigit, Bool.and_eq_true, decide_eq_true_eq] at hdigit
  exact ⟨hdigit.1, hdigit.2⟩

/-- Digits after a first one that is not zero stand for a positive number. -/
theorem ofDigitChars_pos {c : Char} {cs : List Char} (hc : IsDigit c) (hzero : c ≠ '0') :
    0 < Nat.ofDigitChars 10 (c :: cs) 0 := by
  obtain ⟨hlow, -⟩ := hc.bounds
  have hne : c.toNat ≠ 48 := fun heq => hzero (Char.toNat_inj.mp heq)
  rw [Nat.ofDigitChars_cons, Nat.ofDigitChars_eq_ofDigitChars_zero]
  have hpos : 0 < 10 * 0 + (c.toNat - '0'.toNat) := by
    show 0 < 10 * 0 + (c.toNat - 48)
    omega
  have hpow := Nat.mul_pos (Nat.pow_pos (show 0 < 10 by decide) (n := cs.length)) hpos
  omega

/-- Digits without a leading zero are those of their number. -/
theorem toDigits_ofDigitChars {c : Char} {cs : List Char} (hdigits : ∀ d ∈ c :: cs, IsDigit d)
    (hzero : c ≠ '0') : Nat.toDigits 10 (Nat.ofDigitChars 10 (c :: cs) 0) = c :: cs := by
  induction cs using List.reverseRecOn with
  | nil =>
    have hc := hdigits c List.mem_cons_self
    obtain ⟨-, hhigh⟩ := hc.bounds
    have hvalue : Nat.ofDigitChars 10 [c] 0 = c.toNat - 48 := by
      rw [Nat.ofDigitChars_cons, Nat.ofDigitChars_nil, Nat.mul_zero, Nat.zero_add]
      rfl
    rw [hvalue, Nat.toDigits_of_lt_base (by omega), digitChar_sub hc]
  | append_singleton init d ih =>
    have hd := hdigits d (by simp)
    obtain ⟨-, hhigh⟩ := hd.bounds
    have hinit : ∀ e ∈ c :: init, IsDigit e := by
      intro e he
      refine hdigits e ?_
      rw [← List.cons_append]
      exact List.mem_append_left _ he
    have hvalue : Nat.ofDigitChars 10 (c :: (init ++ [d])) 0 =
        10 * Nat.ofDigitChars 10 (c :: init) 0 + (d.toNat - 48) := by
      rw [← List.cons_append, Nat.ofDigitChars_append, Nat.ofDigitChars_cons, Nat.ofDigitChars_nil]
      rfl
    rw [hvalue, ← Nat.toDigits_append_toDigits (by decide)
      (ofDigitChars_pos (hdigits c List.mem_cons_self) hzero) (by omega), ih hinit,
      Nat.toDigits_of_lt_base (by omega), digitChar_sub hd, List.cons_append]

/-- Any digits are zeros before the digits of their number. -/
theorem exists_zeros {digits : List Char} (hne : digits ≠ []) (hdigits : ∀ d ∈ digits, IsDigit d) :
    ∃ k, digits = List.replicate k '0' ++ Nat.toDigits 10 (Nat.ofDigitChars 10 digits 0) := by
  induction digits with
  | nil => exact absurd rfl hne
  | cons c cs ih =>
    by_cases hzero : c = '0'
    · subst hzero
      by_cases hnil : cs = []
      · subst hnil
        exact ⟨0, rfl⟩
      · obtain ⟨k, hk⟩ := ih hnil fun d hd => hdigits d (List.mem_cons_of_mem _ hd)
        refine ⟨k + 1, ?_⟩
        have hvalue : Nat.ofDigitChars 10 ('0' :: cs) 0 = Nat.ofDigitChars 10 cs 0 := by
          rw [Nat.ofDigitChars_cons]
          rfl
        rw [hvalue, List.replicate_succ, List.cons_append, ← hk]
    · exact ⟨0, (toDigits_ofDigitChars hdigits hzero).symm⟩

end Ipms.Lib.Decimal
