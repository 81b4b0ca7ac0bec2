import Ipms.ManagementJson.ParseText

/-
  Ipms.ManagementJson.Unambiguous

  The contract text tells values apart, whatever their size: two texts that agree
  up to where a value can stop are texts of one value.  The induction is on one of
  the values; its first byte says what the other one is.
-/

namespace Ipms.ManagementJson

open List (append_assoc append_cancel_left cons_append flatMap_cons)

/-! ## Strings and integers -/

theorem escaped_cancel {r r' : Bytes} : {cs ds : List Char} →
    cs.flatMap escape ++ 34 :: r = ds.flatMap escape ++ 34 :: r' → cs = ds ∧ r = r'
  | [], [], h => ⟨rfl, (List.cons.inj h).2⟩
  | [], d :: ds, h => by
    obtain ⟨first, tail, hd, hne⟩ := escape_head d
    rw [flatMap_cons, hd] at h
    exact absurd (List.cons.inj h).1.symm hne
  | c :: cs, [], h => by
    obtain ⟨first, tail, hc, hne⟩ := escape_head c
    rw [flatMap_cons, hc] at h
    exact absurd (List.cons.inj h).1 hne
  | c :: cs, d :: ds, h => by
    rw [flatMap_cons, flatMap_cons, append_assoc, append_assoc] at h
    have hread := character_escape c (cs.flatMap escape ++ 34 :: r)
    rw [h, character_escape] at hread
    obtain ⟨rfl, hrest⟩ := Prod.mk.inj (Option.some.inj hread)
    obtain ⟨rfl, hr⟩ := escaped_cancel hrest.symm
    exact ⟨rfl, hr⟩

theorem renderString_cancel {s t : String} {r r' : Bytes}
    (h : renderString s ++ r = renderString t ++ r') : s = t ∧ r = r' := by
  unfold renderString at h
  rw [cons_append, cons_append, append_assoc, append_assoc, cons_append,
    cons_append] at h
  obtain ⟨hst, hr⟩ := escaped_cancel (List.cons.inj h).2
  exact ⟨String.toList_injective hst, hr⟩

theorem natDigits_cancel {n m : Nat} {r r' : Bytes} (hr : Stops r) (hr' : Stops r')
    (h : natDigits n ++ r = natDigits m ++ r') : n = m ∧ r = r' := by
  have hdigits : natDigits n = natDigits m := by
    have htake := congrArg (List.takeWhile digitByte) h
    rwa [List.takeWhile_append_of_pos (natDigits_digits n), hr.digits.1,
      List.takeWhile_append_of_pos (natDigits_digits m), hr'.digits.1, List.append_nil,
      List.append_nil] at htake
  have hnm : n = m := by
    rw [← digitsValue_natDigits n, hdigits, digitsValue_natDigits]
  subst hnm
  exact ⟨rfl, append_cancel_left h⟩

theorem natDigits_ne_minus (n : Nat) (r tail : Bytes) : natDigits n ++ r ≠ 45 :: tail := by
  intro h
  obtain ⟨first, rest, htext, hfirst⟩ := natDigits_cons n
  rw [htext] at h
  rw [(List.cons.inj h).1] at hfirst
  exact absurd hfirst (by decide)

theorem toChars_cancel {n m : Int} {r r' : Bytes} (hr : Stops r) (hr' : Stops r')
    (h : toChars n ++ r = toChars m ++ r') : n = m ∧ r = r' := by
  unfold toChars at h
  split at h <;> split at h
  · obtain ⟨heq, hrest⟩ := natDigits_cancel hr hr' (List.cons.inj h).2
    exact ⟨by omega, hrest⟩
  · exact absurd h.symm (natDigits_ne_minus _ _ _)
  · exact absurd h (natDigits_ne_minus _ _ _)
  · obtain ⟨heq, hrest⟩ := natDigits_cancel hr hr' h
    exact ⟨by omega, hrest⟩

/-! ## Values -/

/-- The first byte of a value that is no integer. -/
def initial : Value → Option UInt8
  | .null => some 110
  | .bool true => some 116
  | .bool false => some 102
  | .int _ => none
  | .str _ => some 34
  | .arr _ => some 91
  | .obj _ => some 123

theorem head_of_initial {v : Value} {b : UInt8} (h : initial v = some b) (r : Bytes) :
    (render v ++ r).head? = some b := by
  cases v with
  | int n => cases h
  | bool item => cases item <;> exact h
  | _ => exact h

theorem head_of_int (n : Int) (r : Bytes) {w : Value} {b : UInt8} (hw : initial w = some b) :
    (render (.int n) ++ r).head? ≠ some b := by
  obtain ⟨first, tail, htext, h110, h116, h102, h34, h91, h123⟩ := toChars_cons n
  rw [render, htext]
  intro h
  obtain rfl : first = b := Option.some.inj h
  cases w with
  | int m => cases hw
  | bool item => cases item <;> cases hw <;> contradiction
  | _ => cases hw; contradiction

theorem initial_eq {v w : Value} {r r' : Bytes} (h : render v ++ r = render w ++ r') :
    initial v = initial w := by
  have hhead := congrArg List.head? h
  cases hv : initial v with
  | some b =>
    rw [head_of_initial hv] at hhead
    cases hw : initial w with
    | some b' =>
      rw [head_of_initial hw] at hhead
      exact hhead
    | none =>
      cases w with
      | int n => exact absurd hhead.symm (head_of_int n r' hv)
      | bool item => cases item <;> cases hw
      | _ => cases hw
  | none =>
    cases hw : initial w with
    | none => rfl
    | some b' =>
      rw [head_of_initial hw] at hhead
      cases v with
      | int n => exact absurd hhead (head_of_int n r hw)
      | bool item => cases item <;> cases hv
      | _ => cases hv

theorem stops_items (items : List Value) (r : Bytes) : Stops (renderItems items false ++ 93 :: r) := by
  cases items with
  | nil => exact .inr ⟨93, r, rfl, by decide⟩
  | cons item items => exact .inr ⟨44, _, rfl, by decide⟩

theorem stops_members (members : List (String × Value)) (r : Bytes) :
    Stops (renderMembers members false ++ 125 :: r) := by
  cases members with
  | nil => exact .inr ⟨125, r, rfl, by decide⟩
  | cons member members => exact .inr ⟨44, _, rfl, by decide⟩

theorem renderItems_ne_close (item : Value) (items : List Value) (first : Bool) (r tail : Bytes) :
    renderItems (item :: items) first ++ r ≠ 93 :: tail := by
  intro h
  cases first with
  | false => exact absurd (List.cons.inj h).1 (by decide)
  | true =>
    obtain ⟨b, rest, htext, -, hne⟩ := render_cons item
    rw [renderItems, htext] at h
    exact hne (List.cons.inj h).1

theorem renderMembers_ne_close (member : String × Value) (members : List (String × Value))
    (first : Bool) (r tail : Bytes) : renderMembers (member :: members) first ++ r ≠ 125 :: tail := by
  intro h
  cases first <;> exact absurd (List.cons.inj h).1 (by decide)

mutual
/-- Texts of values that agree up to where the values stop are texts of one value. -/
theorem render_cancel : (v w : Value) → (r r' : Bytes) → Stops r → Stops r' →
    render v ++ r = render w ++ r' → v = w ∧ r = r'
  | v, w, r, r', hr, hr', h => by
    have hinitial := initial_eq h
    match v, w with
    | .null, .null | .bool true, .bool true | .bool false, .bool false =>
      exact ⟨rfl, append_cancel_left h⟩
    | .int n, .int m =>
      obtain ⟨rfl, hrest⟩ := toChars_cancel hr hr' h
      exact ⟨rfl, hrest⟩
    | .str s, .str t =>
      obtain ⟨rfl, hrest⟩ := renderString_cancel h
      exact ⟨rfl, hrest⟩
    | .arr items, .arr jtems =>
      rw [render, render, cons_append, cons_append, append_assoc,
        append_assoc] at h
      obtain ⟨rfl, hrest⟩ := renderItems_cancel items jtems true r r' (List.cons.inj h).2
      exact ⟨rfl, hrest⟩
    | .obj members, .obj nembers =>
      rw [render, render, cons_append, cons_append, append_assoc,
        append_assoc] at h
      obtain ⟨rfl, hrest⟩ := renderMembers_cancel members nembers true r r' (List.cons.inj h).2
      exact ⟨rfl, hrest⟩
theorem renderItems_cancel : (items jtems : List Value) → (first : Bool) → (r r' : Bytes) →
    renderItems items first ++ 93 :: r = renderItems jtems first ++ 93 :: r' →
    items = jtems ∧ r = r'
  | [], [], _, r, r', h => ⟨rfl, (List.cons.inj h).2⟩
  | [], _ :: _, first, r, r', h => absurd h.symm (renderItems_ne_close _ _ first _ _)
  | _ :: _, [], first, r, r', h => absurd h (renderItems_ne_close _ _ first _ _)
  | item :: items, jtem :: jtems, first, r, r', h => by
    rw [renderItems, renderItems, append_assoc, append_assoc, append_assoc,
      append_assoc] at h
    obtain ⟨rfl, hrest⟩ := render_cancel item jtem _ _ (stops_items _ _) (stops_items _ _)
      (append_cancel_left h)
    obtain ⟨rfl, hr⟩ := renderItems_cancel items jtems false r r' hrest
    exact ⟨rfl, hr⟩
theorem renderMembers_cancel : (members nembers : List (String × Value)) → (first : Bool) →
    (r r' : Bytes) → renderMembers members first ++ 125 :: r = renderMembers nembers first ++ 125 :: r' →
    members = nembers ∧ r = r'
  | [], [], _, r, r', h => ⟨rfl, (List.cons.inj h).2⟩
  | [], _ :: _, first, r, r', h => absurd h.symm (renderMembers_ne_close _ _ first _ _)
  | _ :: _, [], first, r, r', h => absurd h (renderMembers_ne_close _ _ first _ _)
  | (key, item) :: members, (key', item') :: nembers, first, r, r', h => by
    rw [renderMembers, renderMembers] at h
    simp only [append_assoc] at h
    obtain ⟨rfl, hitem⟩ := renderString_cancel (append_cancel_left h)
    obtain ⟨rfl, hrest⟩ := render_cancel item item' _ _ (stops_members _ _) (stops_members _ _)
      (append_cancel_left hitem)
    obtain ⟨rfl, hr⟩ := renderMembers_cancel members nembers false r r' hrest
    exact ⟨rfl, hr⟩
end

theorem render_injective {v w : Value} (h : render v = render w) : v = w := by
  refine (render_cancel v w [] [] (.inl rfl) (.inl rfl) ?_).1
  rw [h]

end Ipms.ManagementJson
