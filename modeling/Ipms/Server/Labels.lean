import Ipms.Server.Text

/-
  Ipms.Server.Labels

  The characters of DNS names.  A name of lowercase labels is ASCII text that
  lowering leaves as it is, for both sides of a contract.
-/

namespace Ipms.Server

/-! ## Characters -/

theorem toLower_of_labelChar {c : Char}
    (h : (decide ('a' ≤ c) && decide (c ≤ 'z') || Agent.Gpo.digit c || c == '-') = true) :
    c.toNat < 128 ∧ c.toLower = c := by
  have hrange : c.toNat < 128 ∧ ¬('A'.toNat ≤ c.toNat ∧ c.toNat ≤ 'Z'.toNat) := by
    simp only [Agent.Gpo.digit, Bool.or_eq_true, Bool.and_eq_true, decide_eq_true_eq,
      beq_iff_eq] at h
    rcases h with (⟨hlow, hhigh⟩ | ⟨hlow, hhigh⟩) | rfl
    · have hlow : 97 ≤ c.toNat := hlow
      have hhigh : c.toNat ≤ 122 := hhigh
      exact ⟨by omega, fun hupper => absurd (show c.toNat ≤ 90 from hupper.2) (by omega)⟩
    · have hlow : 48 ≤ c.toNat := hlow
      have hhigh : c.toNat ≤ 57 := hhigh
      exact ⟨by omega, fun hupper => absurd (show 65 ≤ c.toNat from hupper.1) (by omega)⟩
    · decide
  refine ⟨hrange.1, ?_⟩
  unfold Char.toLower
  rw [dif_neg]
  rintro ⟨hlow, hhigh⟩
  exact hrange.2 ⟨hlow, hhigh⟩

/-- A character of a lowercase DNS name. -/
def NameChar (c : Char) : Prop :=
  c = '.' ∨ (decide ('a' ≤ c) && decide (c ≤ 'z') || Agent.Gpo.digit c || c == '-') = true

theorem nameChar_ascii {c : Char} (h : NameChar c) : c.toNat < 128 ∧ c.toLower = c := by
  rcases h with rfl | h
  · decide
  · exact toLower_of_labelChar h

theorem asciiLower_of_nameChars {s : String} (h : ∀ c ∈ s.toList, NameChar c) :
    asciiLower s = s := by
  have hmap : s.toList.map Char.toLower = s.toList := by
    calc s.toList.map Char.toLower
        = s.toList.map id := List.map_congr_left fun c hc => (nameChar_ascii (h c hc)).2
      _ = s.toList := List.map_id _
  unfold asciiLower
  rw [hmap, String.ofList_toList]

/-! ## Labels -/

theorem dnsLabel_chars {cs : List Char} (h : Agent.Gpo.dnsLabel cs = true) :
    ∀ c ∈ cs, (decide ('a' ≤ c) && decide (c ≤ 'z') || Agent.Gpo.digit c || c == '-') = true := by
  simp only [Agent.Gpo.dnsLabel, Bool.and_eq_true] at h
  exact List.all_eq_true.mp h.2

theorem mem_splitOn {x c : Char} {cs : List Char} (hc : c ∈ cs) :
    c = x ∨ ∃ part ∈ cs.splitOn x, c ∈ part := by
  induction cs with
  | nil => cases hc
  | cons d ds ih =>
    rw [List.splitOn_cons_eq_if_modifyHead]
    by_cases hd : (d == x) = true
    · rw [if_pos hd]
      rcases List.mem_cons.mp hc with rfl | hc
      · exact .inl (eq_of_beq hd)
      · rcases ih hc with rfl | ⟨part, hpart, hmem⟩
        · exact .inl rfl
        · exact .inr ⟨part, List.mem_cons_of_mem _ hpart, hmem⟩
    · rw [if_neg hd]
      obtain ⟨first, rest, hsplit⟩ := List.exists_cons_of_ne_nil (List.splitOn_ne_nil x ds)
      rw [hsplit] at ih ⊢
      rw [List.modifyHead_cons]
      rcases List.mem_cons.mp hc with rfl | hc
      · exact .inr ⟨c :: first, List.mem_cons_self, List.mem_cons_self⟩
      · rcases ih hc with rfl | ⟨part, hpart, hmem⟩
        · exact .inl rfl
        · rcases List.mem_cons.mp hpart with rfl | hpart
          · exact .inr ⟨d :: part, List.mem_cons_self, List.mem_cons_of_mem _ hmem⟩
          · exact .inr ⟨part, List.mem_cons_of_mem _ hpart, hmem⟩

theorem nameChars_of_labels {s : String}
    (h : ∀ part ∈ s.toList.splitOn '.', Agent.Gpo.dnsLabel part = true) :
    ∀ c ∈ s.toList, NameChar c := by
  intro c hc
  rcases mem_splitOn hc with hdot | ⟨part, hpart, hmem⟩
  · exact .inl hdot
  · exact .inr (dnsLabel_chars (h part hpart) c hmem)

/-- `str.lower` of ASCII text lowers its ASCII capitals. -/
def LowersAscii (unicode : Unicode) : Prop :=
  ∀ s : String, (∀ c ∈ s.toList, c.toNat < 128) → unicode.lower s = asciiLower s

theorem lower_of_nameChars {unicode : Unicode} (hlower : LowersAscii unicode) {s : String}
    (h : ∀ c ∈ s.toList, NameChar c) : unicode.lower s = s := by
  rw [hlower s fun c hc => (nameChar_ascii (h c hc)).1]
  exact asciiLower_of_nameChars h

end Ipms.Server
