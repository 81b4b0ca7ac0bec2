import Mathlib.Algebra.Group.Action.Defs
import Mathlib.Algebra.Order.BigOperators.Group.List
import Mathlib.Algebra.Order.Group.Nat
import Mathlib.Tactic.SplitIfs
import Ipms.Lib.Decimal
import Ipms.ManagementJson.ParseText

/-
  Ipms.ManagementJson.Size

  How long the contract text of a value is: the sum of the texts of its parts,
  so a part is never longer than the whole, and a list of values that are each
  at least so long is at least that many times as long.
-/

namespace Ipms.ManagementJson

open Ipms.Lib.Decimal (IsDigit isDigit_of_mem_toDigits)
open List (cons_append flatMap_cons length_append length_cons length_singleton map_cons sum_cons)

/-! ## Strings -/

theorem length_le_flatMap_escape (cs : List Char) : cs.length ≤ (cs.flatMap escape).length := by
  induction cs with
  | nil => exact Nat.le_refl 0
  | cons c cs ih =>
    rw [flatMap_cons, length_append, length_cons]
    have hc := escape_length_pos c
    omega

theorem length_renderString (s : String) : s.toList.length + 2 ≤ (renderString s).length := by
  have h := length_le_flatMap_escape s.toList
  unfold renderString
  rw [cons_append, length_cons, length_append, length_singleton]
  omega

theorem length_toChars_pos (n : Int) : 0 < (toChars n).length := by
  obtain ⟨first, rest, h, -⟩ := toChars_cons n
  rw [h]
  exact Nat.succ_pos _

theorem length_escape (c : Char) :
    (String.utf8EncodeChar c).length ≤ (escape c).length ∧
      (escape c).length ≤ 6 * (String.utf8EncodeChar c).length := by
  have hpos : 0 < (String.utf8EncodeChar c).length := by
    rw [String.length_utf8EncodeChar]
    exact Char.utf8Size_pos c
  have hone : ∀ {n : Nat}, c.val.toNat = n → n < 128 → (String.utf8EncodeChar c).length = 1 := by
    intro n hn hlow
    simp only [String.utf8EncodeChar]
    rw [if_pos (by omega)]
    rfl
  unfold escape
  split_ifs with hquote hslash hback hfeed hline hreturn htab hlow
  · subst hquote; decide
  · subst hslash; decide
  · rw [hone (congrArg UInt32.toNat hback) (by decide)]; decide
  · rw [hone (congrArg UInt32.toNat hfeed) (by decide)]; decide
  · rw [hone (congrArg UInt32.toNat hline) (by decide)]; decide
  · rw [hone (congrArg UInt32.toNat hreturn) (by decide)]; decide
  · rw [hone (congrArg UInt32.toNat htab) (by decide)]; decide
  · rw [hone rfl (Nat.lt_trans (UInt32.lt_iff_toNat_lt.mp hlow) (by decide))]
    simp
  · omega

theorem length_renderString_bounds (s : String) :
    (utf8 s).length + 2 ≤ (renderString s).length ∧
      (renderString s).length ≤ 6 * (utf8 s).length + 2 := by
  have hchars : ∀ cs : List Char,
      (cs.flatMap String.utf8EncodeChar).length ≤ (cs.flatMap escape).length ∧
        (cs.flatMap escape).length ≤ 6 * (cs.flatMap String.utf8EncodeChar).length := by
    intro cs
    induction cs with
    | nil => exact ⟨Nat.le_refl 0, Nat.le_refl 0⟩
    | cons c cs ih =>
      have hc := length_escape c
      simp only [flatMap_cons, length_append]
      omega
  have h := hchars s.toList
  unfold renderString utf8
  rw [cons_append, length_cons, length_append, length_singleton]
  omega

theorem length_toChars_le {n : Int} {digits : Nat} (hdigits : 0 < digits) (hnonneg : 0 ≤ n)
    (h : n < 10 ^ digits) : (toChars n).length ≤ digits := by
  have hflat : ∀ cs : List Char, (∀ c ∈ cs, IsDigit c) →
      (cs.flatMap String.utf8EncodeChar).length = cs.length := by
    intro cs
    induction cs with
    | nil => exact fun _ => rfl
    | cons c cs ih =>
      intro hall
      have hc := (hall c List.mem_cons_self).bounds
      have hone : (String.utf8EncodeChar c).length = 1 := by
        simp only [String.utf8EncodeChar]
        rw [if_pos (show c.val.toNat ≤ 0x7f from Nat.le_trans hc.2 (by decide))]
        rfl
      rw [flatMap_cons, length_append, hone, length_cons,
        ih fun d hd => hall d (List.mem_cons_of_mem c hd), Nat.add_comm]
  unfold toChars natDigits
  rw [if_neg (Int.not_lt.mpr hnonneg), hflat _ fun c hc => isDigit_of_mem_toDigits hc,
    Nat.length_toDigits_le_iff (by decide) hdigits]
  have hcast : ((10 ^ digits : Nat) : Int) = 10 ^ digits := by simp
  omega

/-! ## Arrays and objects -/

theorem length_renderItems_false (items : List Value) :
    (renderItems items false).length = (items.map fun v => (render v).length + 1).sum := by
  induction items with
  | nil => rfl
  | cons v items ih =>
    simp only [renderItems, Bool.false_eq_true, if_false, length_append,
      length_singleton, ih, map_cons, sum_cons]
    omega

theorem length_render_arr (items : List Value) :
    (items.map fun v => (render v).length + 1).sum + 1 ≤ (render (.arr items)).length := by
  show _ ≤ (91 :: renderItems items true ++ [93]).length
  rw [cons_append, length_cons, length_append, length_singleton]
  cases items with
  | nil => simp [renderItems]
  | cons v items =>
    simp only [renderItems, if_true, List.nil_append, length_append,
      length_renderItems_false, map_cons, sum_cons]
    omega

theorem length_render_arr_ge {items : List Value} {m : Nat}
    (h : ∀ v ∈ items, m ≤ (render v).length) :
    items.length * (m + 1) + 1 ≤ (render (.arr items)).length := by
  have hsum : items.length * (m + 1) ≤ (items.map fun v => (render v).length + 1).sum := by
    rw [← List.length_map (fun v => (render v).length + 1), ← smul_eq_mul]
    refine List.card_nsmul_le_sum _ _ fun n hn => ?_
    obtain ⟨v, hv, rfl⟩ := List.mem_map.mp hn
    exact Nat.add_le_add_right (h v hv) 1
  exact Nat.le_trans (Nat.add_le_add_right hsum 1) (length_render_arr items)

theorem length_render_item {items : List Value} {v : Value} (h : v ∈ items) :
    (render v).length ≤ (render (.arr items)).length := by
  have hsum : (render v).length + 1 ≤ (items.map fun v => (render v).length + 1).sum :=
    List.le_sum_of_mem (List.mem_map_of_mem h)
  have harr := length_render_arr items
  omega

theorem length_render_member {members : List (String × Value)} {k : String} {v : Value}
    (h : (k, v) ∈ members) : (render v).length ≤ (render (.obj members)).length := by
  have hmembers : ∀ (ms : List (String × Value)) (first : Bool), (k, v) ∈ ms →
      (render v).length ≤ (renderMembers ms first).length := by
    intro ms
    induction ms with
    | nil => intro _ hmem; cases hmem
    | cons m ms ih =>
      obtain ⟨name, w⟩ := m
      intro first hmem
      simp only [renderMembers, length_append]
      rcases List.mem_cons.mp hmem with heq | hmem
      · obtain ⟨-, rfl⟩ := Prod.mk.inj heq
        omega
      · have hrest := ih false hmem
        omega
  show _ ≤ (123 :: renderMembers members true ++ [125]).length
  have hm := hmembers members true h
  rw [cons_append, length_cons, length_append, length_singleton]
  omega

end Ipms.ManagementJson
