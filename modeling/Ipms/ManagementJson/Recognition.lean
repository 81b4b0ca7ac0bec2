import Ipms.ManagementJson.Tokens

/-
  Ipms.ManagementJson.Recognition

  The parser accepts exactly the documents of the grammar that stay within its
  bounds, and returns what they denote.
-/

namespace Ipms.ManagementJson

open Ipms.Lib
open Txn (exec_bind exec_bind_ok exec_get exec_pure)
open List (append_assoc append_nil cons_append drop_succ_cons drop_zero head?_cons map_cons mem_map nil_append pairwise_map)

/-! ## Members in any order -/

theorem withinMembers_eq_all (bounds : Limits) (members : List (String × Value)) (depth : Nat) :
    withinMembers bounds members depth = members.all fun m =>
      decide ((utf8 m.1).length ≤ bounds.stringBytes) && within bounds m.2 depth := by
  induction members with
  | nil => rfl
  | cons m members ih => rw [withinMembers, List.all_cons, ih]

theorem nodeCountMembers_eq_sum (members : List (String × Value)) :
    nodeCountMembers members = (members.map fun m => 1 + nodeCount m.2).sum := by
  induction members with
  | nil => rfl
  | cons m members ih => rw [nodeCountMembers, map_cons, List.sum_cons, ih]

variable {members map : List (String × Value)} {bounds : Limits}

theorem withinMembers_perm (h : map.Perm members) (depth : Nat) :
    withinMembers bounds map depth = withinMembers bounds members depth := by
  rw [withinMembers_eq_all, withinMembers_eq_all]
  exact h.all_eq

theorem nodeCountMembers_perm (h : map.Perm members) :
    nodeCountMembers map = nodeCountMembers members := by
  rw [nodeCountMembers_eq_sum, nodeCountMembers_eq_sum]
  exact (h.map _).sum_nat

/-! ## The steps of the readers -/

variable {r' r : Reader} {u : Unit}

theorem exec_node_ok (h : (Read.node bounds).exec r = .ok (u, r')) :
    r.nodes + 1 ≤ bounds.nodes ∧ r' = { r with nodes := r.nodes + 1 } := by
  rw [exec_node] at h
  split_ifs at h with hfull
  simp only [Except.ok.injEq, Prod.mk.injEq] at h
  exact ⟨Nat.not_lt.mp hfull, h.2.symm⟩

theorem exec_throwIf_ok {c : Prop} [Decidable c]
    (h : (throwIf c invalidDocument : Read Unit).exec r = .ok (u, r')) : ¬ c ∧ r' = r := by
  rw [exec_throwIf] at h
  split_ifs at h with hc
  simp only [Except.ok.injEq, Prod.mk.injEq] at h
  exact ⟨hc, h.2.symm⟩

theorem exec_literal_ok {text : Bytes} (h : (literal text).exec r = .ok (u, r')) :
    r.rest = text ++ r'.rest ∧ r'.nodes = r.nodes := by
  unfold literal at h
  rw [exec_bind, exec_get] at h
  dsimp only at h
  obtain ⟨_, start, hguard, hmove⟩ := exec_bind_ok.mp h
  obtain ⟨htext, rfl⟩ := exec_throwIf_ok hguard
  rw [exec_advance] at hmove
  simp only [Except.ok.injEq, Prod.mk.injEq] at hmove
  obtain ⟨_, rfl⟩ := hmove
  refine ⟨?_, rfl⟩
  conv_lhs => rw [← List.take_append_drop text.length start.rest, not_not.mp htext]

theorem exec_consume_true {item : UInt8} (h : (consume item).exec r = .ok (true, r')) :
    r.rest = item :: r'.rest ∧ r'.nodes = r.nodes := by
  rw [exec_consume] at h
  split_ifs at h with hhead
  · simp only [Except.ok.injEq, Prod.mk.injEq, true_and] at h
    obtain ⟨source, nodes⟩ := r
    cases source with
    | nil => cases hhead
    | cons b tail =>
      rw [← h, Option.some.inj hhead]
      exact ⟨rfl, rfl⟩
  · simp only [Except.ok.injEq, Prod.mk.injEq, Bool.false_eq_true, false_and] at h

theorem exec_consume_false {item : UInt8} (h : (consume item).exec r = .ok (false, r')) :
    r.rest.head? ≠ some item ∧ r' = r := by
  rw [exec_consume] at h
  split_ifs at h with hhead
  · simp only [Except.ok.injEq, Prod.mk.injEq, Bool.true_eq_false, false_and] at h
  · simp only [Except.ok.injEq, Prod.mk.injEq, true_and] at h
    exact ⟨hhead, h.symm⟩

variable {s : Bytes}

theorem cons_of_peek {b : UInt8} (h : s.head?.getD 0 = b) (hb : b ≠ 0) : ∃ tail, s = b :: tail := by
  cases s with
  | nil => exact absurd h.symm hb
  | cons c tail => exact ⟨tail, by rw [show c = b from h]⟩

/-! ## What is read is derived -/

/-- What a reader of a value gives: a value of the grammar within the bounds, its nodes counted. -/
structure ReadsValue (bounds : Limits) (depth : Nat) (r : Reader) (v : Value) (r' : Reader) : Prop where
  derived : ValueAt r.rest v r'.rest
  within : within bounds v depth = true
  counted : r'.nodes = r.nodes + nodeCount v
  bounded : r'.nodes ≤ bounds.nodes

/-- What a reader of items gives. -/
structure ReadsItems (bounds : Limits) (depth : Nat) (r : Reader) (items : List Value) (r' : Reader) :
    Prop where
  derived : ItemsAt r.rest items r'.rest
  within : withinItems bounds items depth = true
  counted : r'.nodes = r.nodes + nodeCountItems items
  bounded : r'.nodes ≤ bounds.nodes

/-- What a reader of members gives. -/
structure ReadsMembers (bounds : Limits) (depth : Nat) (r : Reader)
    (members : List (String × Value)) (r' : Reader) : Prop where
  derived : MembersAt r.rest members r'.rest
  within : withinMembers bounds members depth = true
  counted : r'.nodes = r.nodes + nodeCountMembers members
  bounded : r'.nodes ≤ bounds.nodes

variable {rest t : Bytes}

theorem ItemsAt.after_space {items : List Value} (h : ItemsAt t items rest) (hspace : Ws s t) :
    ItemsAt s items rest := by
  cases h with
  | last hws hitem hclose => exact .last (hspace.trans hws) hitem hclose
  | more hws hitem hcomma hrest => exact .more (hspace.trans hws) hitem hcomma hrest

theorem MembersAt.after_space (h : MembersAt t members rest) (hspace : Ws s t) :
    MembersAt s members rest := by
  cases h with
  | last hws hkey hcolon hws' hitem hclose =>
    exact .last (hspace.trans hws) hkey hcolon hws' hitem hclose
  | more hws hkey hcolon hws' hitem hcomma hrest =>
    exact .more (hspace.trans hws) hkey hcolon hws' hitem hcomma hrest

variable {v : Value}

section Sound

variable {bounds : Limits} {fuel : Nat}

/-- The readers under a reader of more fuel. -/
structure ReadersSound (bounds : Limits) (fuel : Nat) : Prop where
  value : ∀ {depth r v r'}, (readValue bounds fuel depth).exec r = .ok (v, r') →
    ReadsValue bounds depth r v r'
  items : ∀ {depth result r v r'}, (readItems bounds fuel depth result).exec r = .ok (v, r') →
    ∃ items, v = .arr (result ++ items) ∧ ReadsItems bounds depth r items r'
  members : ∀ {depth result r v r'}, result.Pairwise KeyLt →
    (readMembers bounds fuel depth result).exec r = .ok (v, r') →
    ∃ members map, v = .obj map ∧ map.Perm (result ++ members) ∧ map.Pairwise KeyLt ∧
      ReadsMembers bounds depth r members r'

variable {depth : Nat}

/-- One more turn of the reader of items. -/
theorem readItems_sound (ih : ReadersSound bounds fuel) {result : List Value}
    (h : (readItems bounds (fuel + 1) depth result).exec r = .ok (v, r')) :
    ∃ items, v = .arr (result ++ items) ∧ ReadsItems bounds depth r items r' := by
  rw [readItems, exec_bind, exec_whitespace] at h
  dsimp only at h
  obtain ⟨item, afterItem, hitem, hafter⟩ := exec_bind_ok.mp h
  have hvalue := ih.value hitem
  have hcounted := hvalue.counted
  have hspace := ws_dropWhile afterItem.rest
  rw [exec_bind, exec_whitespace] at hafter
  dsimp only at hafter hcounted
  obtain ⟨closed, afterClose, hclosed, hlast⟩ := exec_bind_ok.mp hafter
  cases closed with
  | true =>
    obtain ⟨hclose, hnodes⟩ := exec_consume_true hclosed
    dsimp only at hclose hnodes
    rw [if_pos rfl, exec_pure] at hlast
    simp only [Except.ok.injEq, Prod.mk.injEq] at hlast
    obtain ⟨rfl, rfl⟩ := hlast
    rw [hclose] at hspace
    refine ⟨[item], rfl, .last (ws_dropWhile _) hvalue.derived hspace, ?_, ?_, ?_⟩
    · simp only [withinItems, hvalue.within, Bool.and_self]
    · rw [hnodes, hcounted, nodeCountItems, nodeCountItems, Nat.add_zero]
    · rw [hnodes]
      exact hvalue.bounded
  | false =>
    obtain ⟨_, rfl⟩ := exec_consume_false hclosed
    rw [if_neg Bool.false_ne_true] at hlast
    obtain ⟨comma, afterComma, hcomma, hmore⟩ := exec_bind_ok.mp hlast
    cases comma with
    | false => cases hmore
    | true =>
      obtain ⟨hseparator, hnodes⟩ := exec_consume_true hcomma
      dsimp only at hseparator hnodes
      rw [if_pos rfl] at hmore
      obtain ⟨items, rfl, hrest⟩ := ih.items hmore
      rw [hseparator] at hspace
      refine ⟨item :: items, by rw [append_assoc, List.singleton_append],
        .more (ws_dropWhile _) hvalue.derived hspace hrest.derived, ?_, ?_, hrest.bounded⟩
      · simp only [withinItems, hvalue.within, hrest.within, Bool.and_self]
      · rw [hrest.counted, hnodes, nodeCountItems, hcounted, Nat.add_assoc]

/-- One more turn of the reader of members. -/
theorem readMembers_sound (ih : ReadersSound bounds fuel) {result : List (String × Value)}
    (hresult : result.Pairwise KeyLt)
    (h : (readMembers bounds (fuel + 1) depth result).exec r = .ok (v, r')) :
    ∃ members map, v = .obj map ∧ map.Perm (result ++ members) ∧ map.Pairwise KeyLt ∧
      ReadsMembers bounds depth r members r' := by
  rw [readMembers, exec_bind, exec_whitespace] at h
  dsimp only at h
  obtain ⟨_, afterNode, hnode, hrest₁⟩ := exec_bind_ok.mp h
  obtain ⟨_, rfl⟩ := exec_node_ok hnode
  obtain ⟨key, afterKey, hkey, hrest₂⟩ := exec_bind_ok.mp hrest₁
  obtain ⟨hstring, hshort, hkeyNodes⟩ := exec_readString_iff.mp hkey
  obtain ⟨_, afterNew, hnew, hrest₃⟩ := exec_bind_ok.mp hrest₂
  obtain ⟨hfresh, rfl⟩ := exec_throwIf_ok hnew
  rw [exec_bind, exec_whitespace] at hrest₃
  dsimp only at hrest₃ hstring hkeyNodes
  obtain ⟨colon, afterColon, hcolon, hrest₄⟩ := exec_bind_ok.mp hrest₃
  cases colon with
  | false => cases hrest₄
  | true =>
    obtain ⟨hseparator, hcolonNodes⟩ := exec_consume_true hcolon
    rw [if_neg (by decide), exec_bind, exec_whitespace] at hrest₄
    dsimp only at hrest₄ hseparator hcolonNodes
    obtain ⟨item, afterItem, hitem, hrest₅⟩ := exec_bind_ok.mp hrest₄
    have hvalue := ih.value hitem
    have hcounted := hvalue.counted
    rw [exec_bind, exec_whitespace] at hrest₅
    dsimp only at hrest₅ hcounted
    have hbeforeColon := ws_dropWhile afterNew.rest
    rw [hseparator] at hbeforeColon
    have hspace := ws_dropWhile afterItem.rest
    -- the key is new, so the map with the member is in order again
    have hkeyNew : key ∉ result.map (·.1) := by
      intro hmem
      obtain ⟨m, hm, hkeyEq⟩ := mem_map.mp hmem
      apply hfresh
      rw [List.lookup_isSome_iff]
      exact ⟨m, hm, by rw [hkeyEq]; exact beq_self_eq_true key⟩
    have hsorted : (insertMember key item result).Pairwise KeyLt := insertMember_sorted hresult hkeyNew
    have hperm := insertMember_perm key item result
    obtain ⟨closed, afterClose, hclosed, hlast⟩ := exec_bind_ok.mp hrest₅
    cases closed with
    | true =>
      obtain ⟨hclose, hnodes⟩ := exec_consume_true hclosed
      dsimp only at hclose hnodes
      rw [if_pos rfl, exec_pure] at hlast
      simp only [Except.ok.injEq, Prod.mk.injEq] at hlast
      obtain ⟨rfl, rfl⟩ := hlast
      rw [hclose] at hspace
      refine ⟨[(key, item)], _, rfl, ?_, hsorted,
        .last (ws_dropWhile _) hstring hbeforeColon (ws_dropWhile _) hvalue.derived hspace,
        ?_, ?_, ?_⟩
      · exact hperm.trans (List.perm_append_singleton _ _).symm
      · simp only [withinMembers, decide_eq_true hshort, hvalue.within, Bool.and_self]
      · simp only [nodeCountMembers]
        omega
      · rw [hnodes]
        exact hvalue.bounded
    | false =>
      obtain ⟨_, rfl⟩ := exec_consume_false hclosed
      rw [if_neg Bool.false_ne_true] at hlast
      obtain ⟨comma, afterComma, hcomma, hmore⟩ := exec_bind_ok.mp hlast
      cases comma with
      | false => cases hmore
      | true =>
        obtain ⟨hcommaAt, hnodes⟩ := exec_consume_true hcomma
        dsimp only at hcommaAt hnodes
        rw [if_pos rfl] at hmore
        obtain ⟨members, map, rfl, hmap, hmapSorted, hothers⟩ := ih.members hsorted hmore
        rw [hcommaAt] at hspace
        refine ⟨(key, item) :: members, map, rfl, ?_, hmapSorted,
          .more (ws_dropWhile _) hstring hbeforeColon (ws_dropWhile _) hvalue.derived hspace
            hothers.derived, ?_, ?_, hothers.bounded⟩
        · exact hmap.trans ((hperm.append_right members).trans List.perm_middle.symm)
        · simp only [withinMembers, decide_eq_true hshort, hvalue.within, hothers.within,
            Bool.and_self]
        · rw [hothers.counted]
          simp only [nodeCountMembers]
          omega

/-- The reader of values gives a value of the grammar. -/
theorem readValue_sound (ih : ReadersSound bounds fuel)
    (h : (readValue bounds (fuel + 1) depth).exec r = .ok (v, r')) :
    ReadsValue bounds depth r v r' := by
  obtain ⟨source, nodes⟩ := r
  rw [readValue] at h
  obtain ⟨_, afterNode, hnode, hread⟩ := exec_bind_ok.mp h
  obtain ⟨hroom, rfl⟩ := exec_node_ok hnode
  rw [exec_bind, exec_peek] at hread
  dsimp only at hread hroom
  split_ifs at hread with hn ht hf hstr harr hobj
  · obtain ⟨_, after, hliteral, hdone⟩ := exec_bind_ok.mp hread
    obtain ⟨htext, hnodes⟩ := exec_literal_ok hliteral
    cases hdone
    dsimp only at htext hnodes
    exact ⟨by rw [htext]; exact .nullWord, rfl, hnodes, by rw [hnodes]; exact hroom⟩
  · obtain ⟨_, after, hliteral, hdone⟩ := exec_bind_ok.mp hread
    obtain ⟨htext, hnodes⟩ := exec_literal_ok hliteral
    cases hdone
    dsimp only at htext hnodes
    exact ⟨by rw [htext]; exact .trueWord, rfl, hnodes, by rw [hnodes]; exact hroom⟩
  · obtain ⟨_, after, hliteral, hdone⟩ := exec_bind_ok.mp hread
    obtain ⟨htext, hnodes⟩ := exec_literal_ok hliteral
    cases hdone
    dsimp only at htext hnodes
    exact ⟨by rw [htext]; exact .falseWord, rfl, hnodes, by rw [hnodes]; exact hroom⟩
  · obtain ⟨text, after, hstring, hdone⟩ := exec_bind_ok.mp hread
    obtain ⟨hderived, hshort, hnodes⟩ := exec_readString_iff.mp hstring
    cases hdone
    exact ⟨.string hderived, decide_eq_true hshort, hnodes, by rw [hnodes]; exact hroom⟩
  · obtain ⟨tail, rfl⟩ := cons_of_peek harr (by decide)
    obtain ⟨_, start, hguard, hinside⟩ := exec_bind_ok.mp hread
    obtain ⟨hdepth, rfl⟩ := exec_throwIf_ok hguard
    rw [exec_bind, exec_advance] at hinside
    dsimp only at hinside
    rw [exec_bind, exec_whitespace] at hinside
    dsimp only at hinside
    have hspace : Ws tail ((91 :: tail : Bytes).drop 1 |>.dropWhile space) := ws_dropWhile tail
    obtain ⟨closed, after, hclosed, hlast⟩ := exec_bind_ok.mp hinside
    cases closed with
    | true =>
      obtain ⟨hclose, hnodes⟩ := exec_consume_true hclosed
      cases hlast
      dsimp only at hclose hnodes
      rw [hclose] at hspace
      refine ⟨.emptyArray hspace, ?_, hnodes, by rw [hnodes]; exact hroom⟩
      simp only [within, withinItems, Bool.and_true, decide_eq_true_eq]
      omega
    | false =>
      obtain ⟨_, rfl⟩ := exec_consume_false hclosed
      rw [if_neg Bool.false_ne_true] at hlast
      obtain ⟨items, rfl, hitems⟩ := ih.items hlast
      have hderived := hitems.derived
      have hcounted := hitems.counted
      dsimp only at hderived hcounted
      refine ⟨.array (hderived.after_space hspace), ?_, ?_, hitems.bounded⟩
      · simp only [within, nil_append, hitems.within, Bool.and_true, decide_eq_true_eq]
        omega
      · rw [hcounted, nil_append, nodeCount, Nat.add_assoc]
  · obtain ⟨tail, rfl⟩ := cons_of_peek hobj (by decide)
    obtain ⟨_, start, hguard, hinside⟩ := exec_bind_ok.mp hread
    obtain ⟨hdepth, rfl⟩ := exec_throwIf_ok hguard
    rw [exec_bind, exec_advance] at hinside
    dsimp only at hinside
    rw [exec_bind, exec_whitespace] at hinside
    dsimp only at hinside
    have hspace : Ws tail ((123 :: tail : Bytes).drop 1 |>.dropWhile space) := ws_dropWhile tail
    obtain ⟨closed, after, hclosed, hlast⟩ := exec_bind_ok.mp hinside
    cases closed with
    | true =>
      obtain ⟨hclose, hnodes⟩ := exec_consume_true hclosed
      cases hlast
      dsimp only at hclose hnodes
      rw [hclose] at hspace
      refine ⟨.emptyObject hspace, ?_, hnodes, by rw [hnodes]; exact hroom⟩
      simp only [within, withinMembers, Bool.and_true, decide_eq_true_eq]
      omega
    | false =>
      obtain ⟨_, rfl⟩ := exec_consume_false hclosed
      rw [if_neg Bool.false_ne_true] at hlast
      obtain ⟨members, map, rfl, hperm, hsorted, hmembers⟩ := ih.members List.Pairwise.nil hlast
      rw [nil_append] at hperm
      have hderived := hmembers.derived
      have hcounted := hmembers.counted
      dsimp only at hderived hcounted
      refine ⟨.object (hderived.after_space hspace) hperm hsorted, ?_, ?_, hmembers.bounded⟩
      · simp only [within, withinMembers_perm hperm, hmembers.within, Bool.and_true,
          decide_eq_true_eq]
        omega
      · rw [hcounted, nodeCount, nodeCountMembers_perm hperm, Nat.add_assoc]
  · obtain ⟨hderived, hcount, hin, hnodes⟩ := exec_integer_sound hread
    refine ⟨hderived, hin bounds depth, ?_, ?_⟩
    · rw [hnodes, hcount]
    · rw [hnodes]
      exact hroom

theorem readers_sound (bounds : Limits) (fuel : Nat) : ReadersSound bounds fuel := by
  induction fuel with
  | zero => exact ⟨fun h => (nomatch h), fun h => (nomatch h), fun _ h => (nomatch h)⟩
  | succ fuel ih =>
    exact ⟨readValue_sound ih, readItems_sound ih, readMembers_sound ih⟩

end Sound

/-! ## What is derived is read -/

theorem IntAt.head {n : Int} (h : IntAt s n rest) :
    ∃ b tail, s = b :: tail ∧ (b = 0x2d ∨ Digit b) := by
  cases h with
  | plain hnat =>
    obtain ⟨b, tail, heq, hb⟩ := hnat.head
    exact ⟨b, tail, heq, Or.inr hb⟩
  | minus _ => exact ⟨_, _, rfl, Or.inl rfl⟩

theorem ne_of_intHead {b c : UInt8} (h : b = 0x2d ∨ Digit b) (hc : digitByte c = false)
    (hminus : c ≠ 0x2d) : b ≠ c := by
  rintro rfl
  rcases h with rfl | hdigit
  · exact hminus rfl
  · rw [digitByte_iff.mpr hdigit] at hc
    cases hc

theorem ValueAt.head (h : ValueAt s v rest) :
    ∃ b tail, s = b :: tail ∧ space b = false ∧ b ≠ 0x5d := by
  cases h with
  | number hint _ _ =>
    obtain ⟨b, tail, heq, hb⟩ := hint.head
    refine ⟨b, tail, heq, ?_, ne_of_intHead hb (by decide) (by decide)⟩
    by_contra hspace
    rcases space_iff.mp (Bool.of_not_eq_false hspace) with rfl | rfl | rfl | rfl <;>
      exact ne_of_intHead hb (by decide) (by decide) rfl
  | string hstring =>
    cases hstring
    exact ⟨_, _, rfl, by decide, by decide⟩
  | _ => exact ⟨_, _, rfl, by decide, by decide⟩

theorem Ws.dropWhile_value (h : Ws s t) (hv : ValueAt t v rest) : s.dropWhile space = t := by
  obtain ⟨b, tail, rfl, hspace, _⟩ := hv.head
  rw [h.dropWhile_eq, List.dropWhile_cons, hspace]
  rfl

theorem Ws.dropWhile_cons {b : UInt8} (h : Ws s (b :: rest)) (hb : space b = false) :
    s.dropWhile space = b :: rest := by
  rw [h.dropWhile_eq, List.dropWhile_cons, hb]
  rfl

theorem StringAt.dropWhile_eq {text : String} (h : StringAt t text rest) (hspace : Ws s t) :
    s.dropWhile space = t := by
  cases h
  exact hspace.dropWhile_cons (by decide)

theorem Ws.follows {s rest : Bytes} {b : UInt8} (h : Ws s (b :: rest))
    (hb : b = 0x2c ∨ b = 0x5d ∨ b = 0x7d) : Follows s := by
  intro c tail heq
  cases h with
  | done =>
    cases heq
    exact Or.inr hb
  | more hspace _ =>
    cases heq
    exact Or.inl (space_iff.mpr hspace)

theorem dropWhile_idem (s : Bytes) : (s.dropWhile space).dropWhile space = s.dropWhile space :=
  (ws_dropWhile s).dropWhile_eq.symm

theorem readItems_space (bounds : Limits) (fuel depth : Nat) (result : List Value) (s : Bytes)
    (nodes : Nat) : (readItems bounds fuel depth result).exec ⟨s.dropWhile space, nodes⟩ =
      (readItems bounds fuel depth result).exec ⟨s, nodes⟩ := by
  cases fuel with
  | zero => rfl
  | succ fuel =>
    rw [readItems, exec_bind, exec_bind, exec_whitespace, exec_whitespace]
    dsimp only
    rw [dropWhile_idem]

theorem readMembers_space (bounds : Limits) (fuel depth : Nat) (result : List (String × Value))
    (s : Bytes) (nodes : Nat) : (readMembers bounds fuel depth result).exec ⟨s.dropWhile space, nodes⟩ =
      (readMembers bounds fuel depth result).exec ⟨s, nodes⟩ := by
  cases fuel with
  | zero => rfl
  | succ fuel =>
    rw [readMembers, exec_bind, exec_bind, exec_whitespace, exec_whitespace]
    dsimp only
    rw [dropWhile_idem]

theorem ItemsAt.head_dropWhile {items : List Value} (h : ItemsAt s items rest) :
    (s.dropWhile space).head? ≠ some 0x5d := by
  obtain ⟨t, v, u, hspace, hitem⟩ : ∃ t v u, Ws s t ∧ ValueAt t v u := by
    cases h with
    | last hspace hitem _ | more hspace hitem _ _ => exact ⟨_, _, _, hspace, hitem⟩
  obtain ⟨b, tail, heq, _, hb⟩ := hitem.head
  rw [hspace.dropWhile_value hitem, heq, head?_cons]
  exact fun h => hb (Option.some.inj h)

theorem MembersAt.head_dropWhile (h : MembersAt s members rest) :
    (s.dropWhile space).head? ≠ some 0x7d := by
  obtain ⟨t, key, u, hspace, hkey⟩ : ∃ t key u, Ws s t ∧ StringAt t key u := by
    cases h with
    | last hspace hkey _ _ _ _ | more hspace hkey _ _ _ _ _ => exact ⟨_, _, _, hspace, hkey⟩
  cases hkey
  rw [hspace.dropWhile_cons (by decide), head?_cons]
  decide

theorem lookup_isSome_false {key : String} (h : key ∉ map.map (·.1)) :
    (map.lookup key).isSome = false := by
  by_contra hsome
  obtain ⟨m, hm, hkey⟩ := List.lookup_isSome_iff.mp (Bool.of_not_eq_false hsome)
  exact h (mem_map.mpr ⟨m, hm, (eq_of_beq hkey).symm⟩)

mutual
/-- The reader of values reads what the grammar derives, within the bounds. -/
theorem exec_of_valueAt (bounds : Limits) {s rest : Bytes} {v : Value} (h : ValueAt s v rest) :
    ∀ depth fuel nodes, within bounds v depth = true → nodes + nodeCount v ≤ bounds.nodes →
      2 * nodeCount v ≤ fuel → Follows rest →
      (readValue bounds fuel depth).exec ⟨s, nodes⟩ = .ok (v, ⟨rest, nodes + nodeCount v⟩) := by
  intro depth fuel nodes hin hnodes hfuel hrest
  have hpos := nodeCount_pos v
  have hroom : ¬ nodes + 1 > bounds.nodes := by omega
  obtain ⟨fuel, rfl⟩ : ∃ f, fuel = f + 1 := ⟨fuel - 1, by omega⟩
  match h with
  | .nullWord =>
    have hlit := exec_literal [110, 117, 108, 108] rest (nodes + 1)
    simp only [cons_append, nil_append] at hlit
    simp only [readValue, nodeCount, exec_bind, exec_node, if_neg hroom, exec_peek,
      head?_cons, Option.getD_some, if_true, hlit, exec_pure]
  | .trueWord =>
    have hlit := exec_literal [116, 114, 117, 101] rest (nodes + 1)
    simp only [cons_append, nil_append] at hlit
    simp only [readValue, nodeCount, exec_bind, exec_node, if_neg hroom, exec_peek,
      head?_cons, Option.getD_some, if_neg (by decide : ¬(116 : UInt8) = 110), if_true, hlit,
      exec_pure]
  | .falseWord =>
    have hlit := exec_literal [102, 97, 108, 115, 101] rest (nodes + 1)
    simp only [cons_append, nil_append] at hlit
    simp only [readValue, nodeCount, exec_bind, exec_node, if_neg hroom, exec_peek,
      head?_cons, Option.getD_some, if_neg (by decide : ¬(102 : UInt8) = 110),
      if_neg (by decide : ¬(102 : UInt8) = 116), if_true, hlit, exec_pure]
  | .number hint hlow hhigh =>
    have hread := exec_integer_complete hint (int64_iff.mpr ⟨hlow, hhigh⟩) hrest (nodes + 1)
    obtain ⟨b, tail, rfl, hb⟩ := hint.head
    have hne := fun {c : UInt8} => ne_of_intHead (c := c) hb
    simp only [readValue, nodeCount, exec_bind, exec_node, if_neg hroom, exec_peek,
      head?_cons, Option.getD_some, if_neg (hne (by decide : digitByte 110 = false) (by decide)),
      if_neg (hne (by decide : digitByte 116 = false) (by decide)),
      if_neg (hne (by decide : digitByte 102 = false) (by decide)),
      if_neg (hne (by decide : digitByte 34 = false) (by decide)),
      if_neg (hne (by decide : digitByte 91 = false) (by decide)),
      if_neg (hne (by decide : digitByte 123 = false) (by decide)), hread]
  | .string hstring =>
    simp only [within, decide_eq_true_eq] at hin
    have hread : (readString bounds).exec ⟨s, nodes + 1⟩ = .ok (_, ⟨rest, nodes + 1⟩) :=
      exec_readString_iff.mpr ⟨hstring, hin, rfl⟩
    cases hstring
    simp only [readValue, nodeCount, exec_bind, exec_node, if_neg hroom, exec_peek,
      head?_cons, Option.getD_some, if_neg (by decide : ¬(34 : UInt8) = 110),
      if_neg (by decide : ¬(34 : UInt8) = 116), if_neg (by decide : ¬(34 : UInt8) = 102), if_true,
      hread, exec_pure]
  | .emptyArray hspace =>
    simp only [within, Bool.and_eq_true, decide_eq_true_eq] at hin
    simp only [readValue, nodeCount, nodeCountItems, exec_bind, exec_node, if_neg hroom,
      exec_peek, head?_cons, Option.getD_some, if_neg (by decide : ¬(91 : UInt8) = 110),
      if_neg (by decide : ¬(91 : UInt8) = 116), if_neg (by decide : ¬(91 : UInt8) = 102),
      if_neg (by decide : ¬(91 : UInt8) = 34), if_true, exec_throwIf,
      if_neg (Nat.not_le.mpr hin.1), exec_advance, drop_succ_cons, drop_zero,
      exec_whitespace, hspace.dropWhile_cons (by decide), exec_consume_cons, exec_pure,
      Nat.add_zero]
  | @ValueAt.array t _ items hitems =>
    simp only [within, Bool.and_eq_true, decide_eq_true_eq] at hin
    simp only [nodeCount] at hnodes hfuel
    have hread := exec_of_itemsAt bounds hitems (depth + 1) fuel (nodes + 1) [] hin.2 (by omega)
      (by omega)
    simp only [readValue, nodeCount, exec_bind, exec_node, if_neg hroom, exec_peek,
      head?_cons, Option.getD_some, if_neg (by decide : ¬(91 : UInt8) = 110),
      if_neg (by decide : ¬(91 : UInt8) = 116), if_neg (by decide : ¬(91 : UInt8) = 102),
      if_neg (by decide : ¬(91 : UInt8) = 34), if_true, exec_throwIf,
      if_neg (Nat.not_le.mpr hin.1), exec_advance, drop_succ_cons, drop_zero,
      exec_whitespace, exec_consume, if_neg hitems.head_dropWhile, Bool.false_eq_true, if_false,
      readItems_space, hread, nil_append, Nat.add_assoc]
  | .emptyObject hspace =>
    simp only [within, Bool.and_eq_true, decide_eq_true_eq] at hin
    simp only [readValue, nodeCount, nodeCountMembers, exec_bind, exec_node, if_neg hroom,
      exec_peek, head?_cons, Option.getD_some, if_neg (by decide : ¬(123 : UInt8) = 110),
      if_neg (by decide : ¬(123 : UInt8) = 116), if_neg (by decide : ¬(123 : UInt8) = 102),
      if_neg (by decide : ¬(123 : UInt8) = 34), if_neg (by decide : ¬(123 : UInt8) = 91), if_true,
      exec_throwIf, if_neg (Nat.not_le.mpr hin.1), exec_advance, drop_succ_cons,
      drop_zero, exec_whitespace, hspace.dropWhile_cons (by decide), exec_consume_cons,
      exec_pure, Nat.add_zero]
  | @ValueAt.object t _ members map hmembers hperm hsorted =>
    simp only [within, Bool.and_eq_true, decide_eq_true_eq, withinMembers_perm hperm] at hin
    simp only [nodeCount, nodeCountMembers_perm hperm] at hnodes hfuel
    have hkeys : (members.map (·.1)).Nodup := by
      rw [← (hperm.map (·.1)).nodup_iff, List.Nodup, pairwise_map]
      exact hsorted.imp fun hlt heq => absurd hlt (by rw [KeyLt, heq]; exact List.lt_irrefl _)
    have hread := exec_of_membersAt bounds hmembers (depth + 1) fuel (nodes + 1) [] hin.2
      (by omega) (by omega) (by rw [nil_append]; exact hkeys)
    obtain ⟨hall, hallSorted⟩ := insertAll_spec hkeys
    have hmap : insertAll members = map := eq_of_sorted (hall.trans hperm.symm) hallSorted hsorted
    rw [← insertAll, hmap] at hread
    simp only [readValue, nodeCount, nodeCountMembers_perm hperm, exec_bind, exec_node,
      if_neg hroom, exec_peek, head?_cons, Option.getD_some,
      if_neg (by decide : ¬(123 : UInt8) = 110), if_neg (by decide : ¬(123 : UInt8) = 116),
      if_neg (by decide : ¬(123 : UInt8) = 102), if_neg (by decide : ¬(123 : UInt8) = 34),
      if_neg (by decide : ¬(123 : UInt8) = 91), if_true, exec_throwIf,
      if_neg (Nat.not_le.mpr hin.1), exec_advance, drop_succ_cons, drop_zero,
      exec_whitespace, exec_consume, if_neg hmembers.head_dropWhile, Bool.false_eq_true, if_false,
      readMembers_space, hread, Nat.add_assoc]
/-- The reader of items reads what the grammar derives, within the bounds. -/
theorem exec_of_itemsAt (bounds : Limits) {s rest : Bytes} {items : List Value}
    (h : ItemsAt s items rest) : ∀ depth fuel nodes result, withinItems bounds items depth = true →
      nodes + nodeCountItems items ≤ bounds.nodes → 2 * nodeCountItems items + 1 ≤ fuel →
      (readItems bounds fuel depth result).exec ⟨s, nodes⟩ =
        .ok (.arr (result ++ items), ⟨rest, nodes + nodeCountItems items⟩) := by
  intro depth fuel nodes result hin hnodes hfuel
  obtain ⟨fuel, rfl⟩ : ∃ f, fuel = f + 1 := ⟨fuel - 1, by omega⟩
  match h with
  | .last hspace hitem hclose =>
    simp only [withinItems, Bool.and_true] at hin
    simp only [nodeCountItems, Nat.add_zero] at hnodes hfuel ⊢
    have hread := exec_of_valueAt bounds hitem depth fuel nodes hin hnodes (by omega)
      (hclose.follows (Or.inr (Or.inl rfl)))
    simp only [readItems, exec_bind, exec_whitespace, hspace.dropWhile_value hitem, hread,
      hclose.dropWhile_cons (by decide), exec_consume_cons, if_true, exec_pure]
  | @ItemsAt.more _ _ _ _ _ item items hspace hitem hcomma hrest =>
    have hpos := nodeCount_pos item
    simp only [withinItems, Bool.and_eq_true] at hin
    simp only [nodeCountItems] at hnodes hfuel ⊢
    have hread := exec_of_valueAt bounds hitem depth fuel nodes hin.1 (by omega) (by omega)
      (hcomma.follows (Or.inl rfl))
    have hothers := exec_of_itemsAt bounds hrest depth fuel (nodes + nodeCount item)
      (result ++ [item]) hin.2 (by omega) (by omega)
    simp only [readItems, exec_bind, exec_whitespace, hspace.dropWhile_value hitem, hread,
      hcomma.dropWhile_cons (by decide), exec_consume_cons, if_neg (by decide : ¬(44 : UInt8) = 93),
      Bool.false_eq_true, if_false, if_true, hothers, append_assoc, List.singleton_append,
      Nat.add_assoc]
/-- The reader of members reads what the grammar derives, within the bounds. -/
theorem exec_of_membersAt (bounds : Limits) {s rest : Bytes} {members : List (String × Value)}
    (h : MembersAt s members rest) : ∀ depth fuel nodes result,
      withinMembers bounds members depth = true →
      nodes + nodeCountMembers members ≤ bounds.nodes → 2 * nodeCountMembers members + 1 ≤ fuel →
      ((result ++ members).map (·.1)).Nodup →
      (readMembers bounds fuel depth result).exec ⟨s, nodes⟩ =
        .ok (.obj (members.foldl (fun map m => insertMember m.1 m.2 map) result),
          ⟨rest, nodes + nodeCountMembers members⟩) := by
  intro depth fuel nodes result hin hnodes hfuel hkeys
  obtain ⟨fuel, rfl⟩ : ∃ f, fuel = f + 1 := ⟨fuel - 1, by omega⟩
  match h with
  | @MembersAt.last _ _ _ _ _ _ _ key item hspace hkey hcolon hspace' hitem hclose =>
    have hpos := nodeCount_pos item
    simp only [withinMembers, Bool.and_eq_true, Bool.and_true, decide_eq_true_eq] at hin
    simp only [nodeCountMembers, Nat.add_zero] at hnodes hfuel ⊢
    have hroom : ¬ nodes + 1 > bounds.nodes := by omega
    have hnew : (result.lookup key).isSome = false := lookup_isSome_false (by
      rw [List.map_append, List.nodup_append] at hkeys
      exact fun hmem => hkeys.2.2 _ hmem _ List.mem_cons_self rfl)
    have hstring : ∀ n, (readString bounds).exec ⟨_, n⟩ = .ok (key, ⟨_, n⟩) := fun n =>
      exec_readString_iff.mpr ⟨hkey, hin.1, rfl⟩
    have hread := exec_of_valueAt bounds hitem depth fuel (nodes + 1) hin.2 (by omega) (by omega)
      (hclose.follows (Or.inr (Or.inr rfl)))
    simp only [readMembers, exec_bind, exec_whitespace, hkey.dropWhile_eq hspace, exec_node,
      if_neg hroom, hstring, hnew, exec_throwIf, Bool.false_eq_true, if_false,
      hcolon.dropWhile_cons (by decide), exec_consume_cons, if_true, Bool.not_true,
      hspace'.dropWhile_value hitem, hread, hclose.dropWhile_cons (by decide), exec_pure,
      List.foldl_cons, List.foldl_nil, Nat.add_assoc]
  | @MembersAt.more _ _ _ _ _ _ _ _ key item members hspace hkey hcolon hspace' hitem hcomma hrest =>
    have hpos := nodeCount_pos item
    simp only [withinMembers, Bool.and_eq_true, decide_eq_true_eq] at hin
    simp only [nodeCountMembers] at hnodes hfuel ⊢
    have hroom : ¬ nodes + 1 > bounds.nodes := by omega
    have hnew : (result.lookup key).isSome = false := lookup_isSome_false (by
      rw [List.map_append, map_cons, List.nodup_append] at hkeys
      exact fun hmem => hkeys.2.2 _ hmem _ List.mem_cons_self rfl)
    have hstring : ∀ n, (readString bounds).exec ⟨_, n⟩ = .ok (key, ⟨_, n⟩) := fun n =>
      exec_readString_iff.mpr ⟨hkey, hin.1.1, rfl⟩
    have hread := exec_of_valueAt bounds hitem depth fuel (nodes + 1) hin.1.2 (by omega) (by omega)
      (hcomma.follows (Or.inl rfl))
    have hlater : ((insertMember key item result ++ members).map (·.1)).Nodup := by
      have hperm : (insertMember key item result ++ members).Perm (result ++ (key, item) :: members) :=
        ((insertMember_perm key item result).append_right members).trans List.perm_middle.symm
      exact (hperm.map (·.1)).nodup_iff.mpr hkeys
    have hothers := exec_of_membersAt bounds hrest depth fuel (nodes + 1 + nodeCount item)
      (insertMember key item result) hin.2 (by omega) (by omega) hlater
    simp only [readMembers, exec_bind, exec_whitespace, hkey.dropWhile_eq hspace, exec_node,
      if_neg hroom, hstring, hnew, exec_throwIf, Bool.false_eq_true, if_false,
      hcolon.dropWhile_cons (by decide), exec_consume_cons, if_true, Bool.not_true,
      hspace'.dropWhile_value hitem, hread, hcomma.dropWhile_cons (by decide),
      if_neg (by decide : ¬(44 : UInt8) = 125), List.foldl_cons]
    rw [hothers]
    simp only [Nat.add_assoc]
end

/-- The parser returns a value exactly when the source is a document of the grammar that denotes
    it, and the source and the value stay within valid bounds. -/
theorem parse_eq_ok_iff {source : Bytes} : parse source bounds = .ok v ↔
      bounds.valid = true ∧ source.length ≤ bounds.documentBytes ∧ Document source v ∧
        within bounds v 0 = true ∧ nodeCount v ≤ bounds.nodes := by
  constructor
  · intro h
    unfold parse at h
    split_ifs at h with hlimits
    rw [not_or, Bool.not_eq_true', Bool.not_eq_false, Nat.not_lt] at hlimits
    obtain ⟨hvalid, hlength⟩ := hlimits
    cases hrun : (readDocument bounds).exec { rest := source } with
    | error e =>
      rw [hrun] at h
      cases h
    | ok result =>
      obtain ⟨document, last⟩ := result
      rw [hrun] at h
      cases h
      rw [readDocument, exec_bind, exec_whitespace] at hrun
      dsimp only at hrun
      obtain ⟨value, afterValue, hvalue, hend⟩ := exec_bind_ok.mp hrun
      have hread := (readers_sound bounds _).value hvalue
      rw [exec_bind, exec_whitespace] at hend
      dsimp only at hend
      rw [exec_bind, exec_get] at hend
      dsimp only at hend
      obtain ⟨_, afterEnd, hguard, hdone⟩ := exec_bind_ok.mp hend
      obtain ⟨hempty, rfl⟩ := exec_throwIf_ok hguard
      cases hdone
      have hspace := ws_dropWhile afterValue.rest
      rw [not_not.mp hempty] at hspace
      have hcounted := hread.counted
      rw [Nat.zero_add] at hcounted
      refine ⟨hvalid, hlength, ⟨_, _, ws_dropWhile source, hread.derived, hspace⟩, hread.within, ?_⟩
      rw [← hcounted]
      exact hread.bounded
  · rintro ⟨hvalid, hlength, ⟨s, t, hstart, hvalue, hend⟩, hin, hnodes⟩
    have hlimits : ¬ ((!bounds.valid) = true ∨ source.length > bounds.documentBytes) := by
      rw [hvalid]
      simp only [Bool.not_true, Bool.false_eq_true, false_or]
      omega
    have hfollows : Follows t := by
      intro b tail heq
      cases hend with
      | done => cases heq
      | more hspace _ =>
        cases heq
        exact Or.inl (space_iff.mpr hspace)
    have hread := exec_of_valueAt bounds hvalue 0 (2 * bounds.nodes + 1) 0 hin (by omega) (by omega)
      hfollows
    have hlast : t.dropWhile space = [] := hend.dropWhile_eq
    simp only [parse, if_neg hlimits, readDocument, exec_bind, exec_whitespace,
      hstart.dropWhile_value hvalue, hread, hlast, exec_get, exec_throwIf, ne_eq,
      not_true_eq_false, if_false, exec_pure, Except.map]

/-! ## Rendered text -/

theorem natAt_natDigits (n : Nat) (rest : Bytes) : NatAt (natDigits n ++ rest) n rest := by
  by_cases hn : n = 0
  · subst hn
    rw [natDigits_lt 0 (by decide)]
    exact .zero
  · obtain ⟨first, tail, htext, hfirst⟩ := natDigits_head n (Nat.pos_of_ne_zero hn)
    rw [not_or, UInt8.not_lt, UInt8.not_lt] at hfirst
    have hvalue := digitsValue_natDigits n
    have hdigits := natDigits_digits n
    rw [htext] at hvalue hdigits ⊢
    have hread : NatAt (first :: tail ++ rest) (digitsValue (first :: tail)) rest :=
      .digits hfirst.1 hfirst.2 fun b hb => digitByte_iff.mp (hdigits b (List.mem_cons_of_mem _ hb))
    rwa [hvalue] at hread

theorem intAt_toChars (n : Int) (rest : Bytes) : IntAt (toChars n ++ rest) n rest := by
  unfold toChars
  by_cases hneg : n < 0
  · have hread := IntAt.minus (natAt_natDigits n.natAbs rest)
    rw [show -(n.natAbs : Int) = n by omega] at hread
    rw [if_pos hneg]
    exact hread
  · have hread := IntAt.plain (natAt_natDigits n.natAbs rest)
    rw [show (n.natAbs : Int) = n by omega] at hread
    rw [if_neg hneg]
    exact hread

theorem charsAt_escape (rest : Bytes) : (cs : List Char) →
    CharsAt (cs.flatMap escape ++ 34 :: rest) cs rest
  | [] => .close
  | c :: cs => by
    have hread := character_escape c (cs.flatMap escape ++ 34 :: rest)
    obtain ⟨first, tail, hesc, hne⟩ := escape_head c
    have hhead : (escape c ++ (cs.flatMap escape ++ 34 :: rest)).head? ≠ some 34 := by
      rw [hesc]
      exact fun h => hne (Option.some.inj h)
    rw [List.flatMap_cons, append_assoc]
    exact .char (character_sound hread hhead) (charsAt_escape rest cs)

theorem stringAt_renderString (s : String) (rest : Bytes) :
    StringAt (renderString s ++ rest) s rest := by
  rw [renderString, append_assoc]
  exact .quoted (charsAt_escape rest s.toList)

mutual
/-- The text of a value is a value of the grammar. -/
theorem valueAt_render : (v : Value) → (rest : Bytes) → wellFormed v = true →
    ValueAt (render v ++ rest) v rest
  | .null, _, _ => .nullWord
  | .bool true, _, _ => .trueWord
  | .bool false, _, _ => .falseWord
  | .int n, rest, hwf => by
    obtain ⟨hlow, hhigh⟩ := int64_iff.mp hwf
    exact .number (intAt_toChars n rest) hlow hhigh
  | .str s, rest, _ => .string (stringAt_renderString s rest)
  | .arr items, rest, hwf => by
    rw [render, append_assoc]
    by_cases hitems : items = []
    · subst hitems
      exact .emptyArray .done
    · exact .array (itemsAt_render items rest hitems hwf)
  | .obj members, rest, hwf => by
    simp only [wellFormed, Bool.and_eq_true, decide_eq_true_eq, pairwise_map] at hwf
    rw [render, append_assoc]
    by_cases hmembers : members = []
    · subst hmembers
      exact .emptyObject .done
    · exact .object (membersAt_render members rest hmembers hwf.2) (.refl _) hwf.1
/-- The text of the items of an array. -/
theorem itemsAt_render : (items : List Value) → (rest : Bytes) → items ≠ [] →
    wellFormedItems items = true → ItemsAt (renderItems items true ++ 93 :: rest) items rest
  | [], _, hne, _ => absurd rfl hne
  | item :: items, rest, _, hwf => by
    rw [wellFormedItems, Bool.and_eq_true] at hwf
    cases items with
    | nil =>
      rw [renderItems, renderItems, if_pos rfl, nil_append, append_nil]
      exact .last .done (valueAt_render item _ hwf.1) .done
    | cons next items =>
      have hrest := itemsAt_render (next :: items) rest (List.cons_ne_nil _ _) hwf.2
      simp only [renderItems, if_true, nil_append, Bool.false_eq_true, if_false,
        cons_append, append_assoc] at hrest ⊢
      exact .more .done (valueAt_render item _ hwf.1) .done hrest
/-- The text of the members of an object. -/
theorem membersAt_render : (members : List (String × Value)) → (rest : Bytes) → members ≠ [] →
    wellFormedMembers members = true →
    MembersAt (renderMembers members true ++ 125 :: rest) members rest
  | [], _, hne, _ => absurd rfl hne
  | (key, item) :: members, rest, _, hwf => by
    rw [wellFormedMembers, Bool.and_eq_true] at hwf
    have hkey := fun rest => stringAt_renderString key rest
    cases members with
    | nil =>
      simp only [renderMembers, if_true, nil_append, append_nil, append_assoc,
        cons_append]
      exact .last .done (hkey _) .done .done (valueAt_render item _ hwf.1) .done
    | cons next members =>
      have hrest := membersAt_render (next :: members) rest (List.cons_ne_nil _ _) hwf.2
      simp only [renderMembers, if_true, nil_append, Bool.false_eq_true, if_false,
        cons_append, append_assoc] at hrest ⊢
      exact .more .done (hkey _) .done .done (valueAt_render item _ hwf.1) .done hrest
end

theorem parse_render (v : Value) (bounds : Limits) (hwf : wellFormed v = true)
    (hfits : fits v bounds = true) : parse (render v) bounds = .ok v := by
  simp only [fits, Bool.and_eq_true, decide_eq_true_eq] at hfits
  obtain ⟨⟨⟨hvalid, hin⟩, hbytes⟩, hnodes⟩ := hfits
  have hvalue := valueAt_render v [] hwf
  rw [append_nil] at hvalue
  exact parse_eq_ok_iff.mpr ⟨hvalid, hbytes, ⟨_, _, .done, hvalue, .done⟩, hin, hnodes⟩

mutual
theorem wellFormed_of_valueAt {s rest : Bytes} {v : Value} (h : ValueAt s v rest) :
    wellFormed v = true := by
  match h with
  | .nullWord | .trueWord | .falseWord | .string _ | .emptyArray _ | .emptyObject _ => rfl
  | .number _ hlow hhigh => exact int64_iff.mpr ⟨hlow, hhigh⟩
  | .array hitems => exact wellFormed_of_itemsAt hitems
  | .object hmembers hperm hsorted =>
    simp only [wellFormed, Bool.and_eq_true, decide_eq_true_eq, pairwise_map]
    refine ⟨hsorted, wellFormedMembers_iff _ |>.mpr fun m hm => ?_⟩
    exact (wellFormedMembers_iff _).mp (wellFormed_of_membersAt hmembers) m (hperm.mem_iff.mp hm)
theorem wellFormed_of_itemsAt {s rest : Bytes} {items : List Value} (h : ItemsAt s items rest) :
    wellFormedItems items = true := by
  match h with
  | .last _ hitem _ => simp only [wellFormedItems, wellFormed_of_valueAt hitem, Bool.and_true]
  | .more _ hitem _ hrest =>
    simp only [wellFormedItems, wellFormed_of_valueAt hitem, wellFormed_of_itemsAt hrest,
      Bool.and_true]
theorem wellFormed_of_membersAt {s rest : Bytes} {members : List (String × Value)}
    (h : MembersAt s members rest) : wellFormedMembers members = true := by
  match h with
  | .last _ _ _ _ hitem _ => simp only [wellFormedMembers, wellFormed_of_valueAt hitem, Bool.and_true]
  | .more _ _ _ _ hitem _ hrest =>
    simp only [wellFormedMembers, wellFormed_of_valueAt hitem, wellFormed_of_membersAt hrest,
      Bool.and_true]
end

theorem wellFormed_of_parse {source : Bytes} (h : parse source bounds = .ok v) :
    wellFormed v = true := by
  obtain ⟨-, -, ⟨_, _, -, hvalue, -⟩, -⟩ := parse_eq_ok_iff.mp h
  exact wellFormed_of_valueAt hvalue

theorem parse_serialize {text : Bytes} (hwf : wellFormed v = true)
    (h : serialize v bounds = .ok text) : parse text bounds = .ok v := by
  rw [serialize_eq] at h
  split_ifs at h with hfits
  cases h
  exact parse_render v bounds hwf hfits

/-- The parser accepts the documents of the grammar within its bounds and no others, and reads
    what the serializer writes.  A value the agent can hold has 64-bit integers and maps. -/
theorem management_json :
    (∀ (source : Bytes) (bounds : Limits), (∃ v, parse source bounds = .ok v) ↔
      ∃ v, Document source v ∧ bounds.valid = true ∧ source.length ≤ bounds.documentBytes ∧
        within bounds v 0 = true ∧ nodeCount v ≤ bounds.nodes) ∧
    (∀ (source : Bytes) (bounds : Limits) (v : Value), parse source bounds = .ok v →
      Document source v) ∧
    ∀ (v : { v : Value // wellFormed v = true }) (bounds : Limits) (text : Bytes),
      serialize v.val bounds = .ok text → parse text bounds = .ok v.val := by
  refine ⟨fun source bounds => ?_, fun source bounds v h => (parse_eq_ok_iff.mp h).2.2.1, ?_⟩
  · constructor
    · rintro ⟨v, h⟩
      obtain ⟨hvalid, hlength, hdocument, hin, hnodes⟩ := parse_eq_ok_iff.mp h
      exact ⟨v, hdocument, hvalid, hlength, hin, hnodes⟩
    · rintro ⟨v, hdocument, hvalid, hlength, hin, hnodes⟩
      exact ⟨v, parse_eq_ok_iff.mpr ⟨hvalid, hlength, hdocument, hin, hnodes⟩⟩
  · exact fun v bounds text h => parse_serialize v.property h

/-- An object with a nested array and a text to escape. -/
def nestedValue : Value := .obj [("a", .arr [.null, .int (-7)]), ("b", .str "\"")]

theorem management_json_sample : parse (render nestedValue) {} = .ok nestedValue :=
  management_json.2.2 ⟨nestedValue, by decide⟩ {} _
    (by rw [serialize_eq, if_pos (by decide)])

end Ipms.ManagementJson
