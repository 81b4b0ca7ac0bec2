import Ipms.Agent.Console.GuardPacket
import Ipms.Agent.Console.Lease
import Ipms.ManagementJson.Recognition

/-
  Ipms.Agent.Console.LeaseText

  The scanner of the lease against the grammar of documents.  It takes an object
  of the three members in any order and with any space; the only documents of
  that meaning that it leaves out are those with an escape.
-/

namespace Ipms.Agent.Console

open Ipms.ManagementJson
open Option (bind_eq_bind bind_eq_some_iff some)
open List (append_assoc flatMap_cons forall_mem_iff_get length_cons mem_append mem_cons mem_cons_of_mem mem_cons_self not_mem_nil)

/-! ## Space and marks -/

/-- No backslash stands between two places of an input. -/
def Unescaped (s rest : Bytes) : Prop := ∃ text, s = text ++ rest ∧ (0x5c : UInt8) ∉ text

variable {t : Bytes}

theorem Unescaped.trans {s rest : Bytes} (hs : Unescaped s t) (ht : Unescaped t rest) :
    Unescaped s rest := by
  obtain ⟨a, rfl, ha⟩ := hs
  obtain ⟨b, rfl, hb⟩ := ht
  refine ⟨a ++ b, (append_assoc ..).symm, ?_⟩
  rw [mem_append, not_or]
  exact ⟨ha, hb⟩

theorem Unescaped.cons {b : UInt8} {rest : Bytes} (hb : b ≠ 0x5c) : Unescaped (b :: rest) rest :=
  ⟨[b], rfl, by rw [List.mem_singleton]; exact hb.symm⟩

theorem unescaped_of_ws {s rest : Bytes} (h : Ws s rest) : Unescaped s rest := by
  induction h with
  | done => exact ⟨[], rfl, not_mem_nil⟩
  | more hb _ ih =>
    refine (Unescaped.cons ?_).trans ih
    rintro rfl
    revert hb
    decide

variable {b : UInt8}

theorem not_mem_of_ws (h : Ws s t) (hb : b ∉ s) : b ∉ t := by
  induction h with
  | done => exact hb
  | more _ _ ih =>
    rw [mem_cons, not_or] at hb
    exact ih hb.2

theorem token_iff {s rest : Bytes} (hb : space b = false) :
    token b s = some rest ↔ Ws s (b :: rest) := by
  unfold token
  constructor
  · intro h
    have hws := ws_dropWhile s
    cases hdrop : s.dropWhile space with
    | nil =>
      rw [hdrop] at h
      cases h
    | cons c tail =>
      rw [hdrop] at h hws
      dsimp only at h
      split at h
      · next hc =>
          cases h
          rwa [hc] at hws
      · cases h
  · intro h
    rw [h.dropWhile_cons hb]
    exact if_pos rfl

/-! ## Strings -/

/-- A byte that a string of the scanner may have. -/
def PlainByte (c : UInt8) : Prop := ¬ (c < 32 ∨ 128 ≤ c ∨ c = 0x5c) ∧ c ≠ 0x22

instance (c : UInt8) : Decidable (PlainByte c) := inferInstanceAs (Decidable (_ ∧ _))

theorem quotedText_iff {s text rest : Bytes} :
    quotedText s = some (text, rest) ↔ s = text ++ 0x22 :: rest ∧ ∀ c ∈ text, PlainByte c := by
  induction s generalizing text with
  | nil =>
    constructor
    · intro h
      cases h
    · rintro ⟨h, -⟩
      cases text <;> cases h
  | cons c s ih =>
    unfold quotedText
    by_cases hquote : c = 0x22
    · rw [if_pos hquote, hquote]
      constructor
      · intro h
        cases h
        exact ⟨rfl, fun c hc => absurd hc not_mem_nil⟩
      · rintro ⟨h, hplain⟩
        obtain - | ⟨d, text⟩ := text
        · cases h
          rfl
        · cases h
          exact absurd rfl (hplain _ (mem_cons_self ..)).2
    · rw [if_neg hquote]
      by_cases hbad : c < 32 ∨ 128 ≤ c ∨ c = 0x5c
      · rw [if_pos hbad]
        constructor
        · intro h
          cases h
        · rintro ⟨h, hplain⟩
          obtain - | ⟨d, text⟩ := text
          · cases h
            exact absurd rfl hquote
          · cases h
            exact absurd hbad (hplain _ (mem_cons_self ..)).1
      · rw [if_neg hbad, Option.map_eq_some_iff]
        constructor
        · rintro ⟨⟨text', rest'⟩, hread, heq⟩
          cases heq
          obtain ⟨rfl, hplain⟩ := ih.mp hread
          refine ⟨rfl, fun d hd => ?_⟩
          obtain rfl | hd := mem_cons.mp hd
          · exact ⟨hbad, hquote⟩
          · exact hplain d hd
        · rintro ⟨h, hplain⟩
          obtain - | ⟨d, text⟩ := text
          · cases h
            exact absurd rfl hquote
          · cases h
            exact ⟨(text, rest), ih.mpr ⟨rfl, fun d hd => hplain d (mem_cons_of_mem _ hd)⟩,
              rfl⟩

theorem leaseString_iff {s text rest : Bytes} :
    leaseString s = some (text, rest) ↔
      Ws s (0x22 :: text ++ 0x22 :: rest) ∧ ∀ c ∈ text, PlainByte c := by
  unfold leaseString
  rw [bind_eq_bind, bind_eq_some_iff]
  constructor
  · rintro ⟨t, htoken, hquoted⟩
    obtain ⟨rfl, hplain⟩ := quotedText_iff.mp hquoted
    exact ⟨(token_iff (by decide)).mp htoken, hplain⟩
  · rintro ⟨hws, hplain⟩
    exact ⟨text ++ 0x22 :: rest, (token_iff (by decide)).mpr hws, quotedText_iff.mpr ⟨rfl, hplain⟩⟩

theorem charsAt_plain {cs : List Char} {rest : Bytes}
    (h : ∀ b ∈ cs.flatMap String.utf8EncodeChar, PlainByte b) :
    CharsAt (cs.flatMap String.utf8EncodeChar ++ 0x22 :: rest) cs rest := by
  induction cs with
  | nil => exact .close
  | cons c cs ih =>
    rw [flatMap_cons, append_assoc]
    refine .char ?_ (ih fun b hb => h b (List.mem_flatMap.mpr ?_))
    · -- a control character, a quotation mark or a backslash is its own byte
      have hbyte : c.toNat < 0x80 → PlainByte (UInt8.ofNat c.toNat) := fun hlt => by
        apply h
        rw [flatMap_cons, encode_ascii hlt]
        exact List.mem_append_left _ (List.mem_singleton_self _)
      refine .unescaped ?_ ?_ ?_
      · by_contra hlt
        have hplain := (hbyte (by omega)).1
        rw [not_or, UInt8.not_lt, UInt8.le_iff_toNat_le, UInt8.toNat_ofNat'] at hplain
        have hle := hplain.1
        simp only [UInt8.reduceToNat] at hle
        omega
      · rintro rfl
        exact absurd rfl (hbyte (by decide)).2
      · rintro rfl
        exact absurd (Or.inr (Or.inr rfl)) (hbyte (by decide)).1
    · obtain ⟨d, hd, hb⟩ := List.mem_flatMap.mp hb
      exact ⟨d, mem_cons_of_mem _ hd, hb⟩

theorem charsAt_eq_plain {s rest : Bytes} {cs : List Char} (h : CharsAt s cs rest)
    (hslash : (0x5c : UInt8) ∉ s) : s = cs.flatMap String.utf8EncodeChar ++ 0x22 :: rest := by
  induction h with
  | close => rfl
  | char hchar hchars ih =>
    cases hchar with
    | unescaped _ _ _ =>
      rw [mem_append, not_or] at hslash
      rw [ih hslash.2, flatMap_cons, append_assoc]
    | short _ | unit _ _ | pair _ _ _ _ _ _ => exact absurd (mem_cons_self ..) hslash

variable {text : String}

theorem stringAt_plain {rest : Bytes} (h : ∀ b ∈ utf8 text, PlainByte b) :
    StringAt (0x22 :: utf8 text ++ 0x22 :: rest) text rest := .quoted (charsAt_plain h)

theorem leaseString_sound {s rest : Bytes} (h : leaseString s = some (utf8 text, rest)) :
    (∃ t, Ws s t ∧ StringAt t text rest) ∧ Unescaped s rest := by
  obtain ⟨hws, hplain⟩ := leaseString_iff.mp h
  refine ⟨⟨_, hws, stringAt_plain hplain⟩, (unescaped_of_ws hws).trans ⟨0x22 :: utf8 text ++ [0x22],
    by simp, ?_⟩⟩
  simp only [List.cons_append, mem_cons, mem_append, not_mem_nil, or_false, not_or]
  exact ⟨by decide, fun hmem => (hplain _ hmem).1 (Or.inr (Or.inr rfl)), by decide⟩

theorem leaseString_complete {s rest : Bytes} (hws : Ws s t) (hstring : StringAt t text rest)
    (hslash : (0x5c : UInt8) ∉ s) (hplain : ∀ b ∈ utf8 text, PlainByte b) :
    leaseString s = some (utf8 text, rest) ∧ (0x5c : UInt8) ∉ rest := by
  have ht := not_mem_of_ws hws hslash
  obtain ⟨hchars⟩ := hstring
  rw [mem_cons, not_or] at ht
  have hspelled := charsAt_eq_plain hchars ht.2
  rw [hspelled] at hws ht
  rw [mem_append, not_or, mem_cons, not_or] at ht
  exact ⟨leaseString_iff.mpr ⟨hws, hplain⟩, ht.2.2.2⟩

/-- The number after some digits more. -/
def digitsFrom (acc : Nat) (ds : Bytes) : Nat := ds.foldl (fun n b => n * 10 + (b.toNat - 48)) acc

theorem le_digitsFrom (acc : Nat) (ds : Bytes) : acc * 10 ^ ds.length ≤ digitsFrom acc ds := by
  induction ds generalizing acc with
  | nil => simp [digitsFrom]
  | cons d ds ih =>
    have hstep := ih (acc * 10 + (d.toNat - 48))
    calc acc * 10 ^ (d :: ds).length = acc * 10 * 10 ^ ds.length := by
            rw [length_cons, Nat.pow_succ', Nat.mul_assoc]
      _ ≤ (acc * 10 + (d.toNat - 48)) * 10 ^ ds.length :=
            Nat.mul_le_mul_right _ (Nat.le_add_right ..)
      _ ≤ digitsFrom acc (d :: ds) := hstep

variable {n : Nat}

theorem secondsDigits_iff {acc taken : Nat} {s rest : Bytes} {count : Nat} (htaken : taken ≤ 2) :
    secondsDigits acc taken s = some (n, count, rest) ↔
      ∃ ds, s = ds ++ rest ∧ (∀ b ∈ ds, digitByte b = true) ∧
        (∀ b tail, rest = b :: tail → digitByte b = false) ∧
        count = taken + ds.length ∧ count ≤ 2 ∧ n = digitsFrom acc ds := by
  induction s generalizing acc taken with
  | nil =>
    constructor
    · intro h
      cases h
      exact ⟨[], rfl, by simp, by simp, rfl, htaken, rfl⟩
    · rintro ⟨ds, hds, -, -, rfl, -, rfl⟩
      obtain ⟨rfl, rfl⟩ := List.append_eq_nil_iff.mp hds.symm
      rfl
  | cons c s ih =>
    unfold secondsDigits
    by_cases hdigit : digitByte c = true
    · rw [if_pos hdigit]
      by_cases hmany : 2 ≤ taken
      · rw [if_pos hmany]
        constructor
        · intro h
          cases h
        · rintro ⟨ds, hds, -, hrest, rfl, hcount, -⟩
          obtain - | ⟨d, ds⟩ := ds
          · have hc := hrest c s hds.symm
            rw [hdigit] at hc
            cases hc
          · rw [length_cons] at hcount
            omega
      · rw [if_neg hmany, ih (by omega)]
        constructor
        · rintro ⟨ds, rfl, hdigits, hrest, rfl, hcount, rfl⟩
          refine ⟨c :: ds, rfl, ?_, hrest, by rw [length_cons]; omega, hcount, rfl⟩
          intro b hb
          obtain rfl | hb := mem_cons.mp hb
          · exact hdigit
          · exact hdigits b hb
        · rintro ⟨ds, hds, hdigits, hrest, rfl, hcount, rfl⟩
          obtain - | ⟨d, ds⟩ := ds
          · have hc := hrest c s hds.symm
            rw [hdigit] at hc
            cases hc
          · cases hds
            rw [length_cons] at hcount ⊢
            exact ⟨ds, rfl, fun b hb => hdigits b (mem_cons_of_mem _ hb), hrest, by omega,
              hcount, rfl⟩
    · rw [if_neg hdigit]
      constructor
      · intro h
        cases h
        refine ⟨[], rfl, by simp, fun b tail heq => ?_, rfl, htaken, rfl⟩
        cases heq
        exact Bool.eq_false_iff.mpr hdigit
      · rintro ⟨ds, hds, hdigits, -, rfl, -, rfl⟩
        obtain - | ⟨d, ds⟩ := ds
        · cases hds
          rfl
        · cases hds
          exact absurd (hdigits c (mem_cons_self ..)) hdigit

/-! ## Members -/

/-- The members of a lease. -/
inductive Field where
  | kind | generation | seconds
  deriving DecidableEq

namespace Field

/-- The bit that marks a member as read. -/
def bit : Field → Nat
  | kind => 1
  | generation => 2
  | seconds => 4

/-- The key of a member. -/
def key : Field → String
  | kind => "type"
  | generation => "stream_generation"
  | seconds => "seconds"

/-- The value of a member. -/
def value (id : String) (n : Nat) : Field → Value
  | kind => .str "lease"
  | generation => .str id
  | seconds => .int n

theorem key_plain (f : Field) : ∀ b ∈ utf8 f.key, PlainByte b := by
  cases f
  · exact forall_mem_iff_get.mpr (by decide)
  · exact forall_mem_iff_get.mpr (by decide)
  · exact forall_mem_iff_get.mpr (by decide)

end Field

/-- What has been read with one member more. -/
def Scan.add (scan : Scan) (f : Field) (n : Nat) : Scan where
  fields := scan.fields ||| f.bit
  seconds := if f = .seconds then n else scan.seconds

/-- The spelling of a member in the grammar. -/
def MemberAt (id : String) (f : Field) (n : Nat) (s rest : Bytes) : Prop :=
  ∃ t u v w, Ws s t ∧ StringAt t f.key u ∧ Ws u (0x3a :: v) ∧ Ws v w ∧
    ValueAt w (f.value id n) rest

/-- The seconds are zero until they are read. -/
def Scan.Fresh (scan : Scan) : Prop := scan.fields &&& 4 = 0 → scan.seconds = 0

variable {generation : Bytes} {id : String} {scan scan' : Scan} {s rest : Bytes}

theorem uuid_plain (h : nativeConsoleUuid generation = true) : ∀ b ∈ generation, PlainByte b := by
  intro b hb
  obtain rfl | hhex := nativeConsoleUuid_mem h hb
  · decide
  · unfold PlainByte
    simp only [hexByte, Bool.or_eq_true, Bool.and_eq_true, decide_eq_true_eq,
      UInt8.le_iff_toNat_le, UInt8.lt_iff_toNat_lt, ← UInt8.toNat_inj, UInt8.reduceToNat,
      Ne] at hhex ⊢
    omega

theorem lease_plain : ∀ b ∈ utf8 "lease", PlainByte b := forall_mem_iff_get.mpr (by decide)

theorem natAt_of_digits {ds : Bytes} (hne : ds ≠ []) (hdigits : ∀ b ∈ ds, digitByte b = true)
    (hzero : (ds ++ rest).head? ≠ some 48) :
    NatAt (ds ++ rest) (digitsFrom 0 ds) rest ∧ 1 ≤ digitsFrom 0 ds := by
  obtain - | ⟨d, ds⟩ := ds
  · exact absurd rfl hne
  · have hd := digitByte_iff.mp (hdigits d (mem_cons_self ..))
    have hne48 : d ≠ 48 := by
      rintro rfl
      exact hzero rfl
    have hlow : 49 ≤ d := by
      have h48 := hd.1
      simp only [UInt8.le_iff_toNat_le, ← UInt8.toNat_inj, UInt8.reduceToNat, Ne] at h48 hne48 ⊢
      omega
    refine ⟨.digits hlow hd.2 fun b hb =>
      digitByte_iff.mp (hdigits b (mem_cons_of_mem _ hb)), ?_⟩
    have hstep := le_digitsFrom (0 * 10 + (d.toNat - 48)) ds
    have hpos : 1 ≤ d.toNat - 48 := by
      simp only [UInt8.le_iff_toNat_le, UInt8.reduceToNat] at hlow
      omega
    calc 1 ≤ 10 ^ ds.length := Nat.one_le_pow _ _ (by omega)
      _ ≤ (0 * 10 + (d.toNat - 48)) * 10 ^ ds.length := Nat.le_mul_of_pos_left _ (by omega)
      _ ≤ digitsFrom 0 (d :: ds) := hstep

theorem digits_unescaped {ds : Bytes} (hdigits : ∀ b ∈ ds, digitByte b = true) :
    Unescaped (ds ++ rest) rest := by
  refine ⟨ds, rfl, fun hmem => ?_⟩
  have hslash := hdigits _ hmem
  revert hslash
  decide

theorem digits_of_natAt {w : Bytes} (h : NatAt w n rest) (hpos : 1 ≤ n) (hn : n ≤ 15) :
    ∃ ds, w = ds ++ rest ∧ ds ≠ [] ∧ (∀ b ∈ ds, digitByte b = true) ∧ ds.length ≤ 2 ∧
      w.head? ≠ some 48 ∧ n = digitsFrom 0 ds := by
  cases h with
  | zero => omega
  | @digits d ds _ hlow hhigh hdigits =>
    have hd : 1 ≤ d.toNat - 48 ∧ d ≠ 48 := by
      simp only [UInt8.le_iff_toNat_le, ← UInt8.toNat_inj, UInt8.reduceToNat, Ne] at hlow ⊢
      omega
    have hbound := le_digitsFrom (0 * 10 + (d.toNat - 48)) ds
    replace hbound : (0 * 10 + (d.toNat - 48)) * 10 ^ ds.length ≤ 15 := Nat.le_trans hbound hn
    rw [Nat.zero_mul, Nat.zero_add] at hbound
    have hlength : ds.length ≤ 1 := by
      by_contra hlong
      have hpow : 10 ^ 2 ≤ 10 ^ ds.length := Nat.pow_le_pow_right (by omega) (by omega)
      have hmul := Nat.mul_le_mul_right (10 ^ ds.length) hd.1
      omega
    refine ⟨d :: ds, rfl, by simp, ?_, Nat.succ_le_succ hlength, ?_, rfl⟩
    · intro b hb
      obtain rfl | hb := mem_cons.mp hb
      · refine digitByte_iff.mpr ⟨UInt8.le_trans (by decide) hlow, hhigh⟩
      · exact digitByte_iff.mpr (hdigits b hb)
    · intro heq
      exact hd.2 (some.inj heq)

theorem member_sound (h : leaseMember (utf8 id) scan s = some (scan', rest)) (hfresh : scan.Fresh) :
    ∃ f n, MemberAt id f n s rest ∧ Unescaped s rest ∧ scan.fields &&& f.bit = 0 ∧
      scan' = scan.add f n ∧ 1 ≤ n ∧ n ≤ 15 := by
  unfold leaseMember at h
  rw [bind_eq_bind, bind_eq_some_iff] at h
  obtain ⟨⟨key, s₁⟩, hkey, h⟩ := h
  rw [bind_eq_bind, bind_eq_some_iff] at h
  obtain ⟨s₂, hcolon, h⟩ := h
  have hws := (token_iff (by decide)).mp hcolon
  have hplain₁ := (unescaped_of_ws hws).trans (Unescaped.cons (by decide))
  -- a member whose value is a string
  have hstring : ∀ (f : Field) (text : String), key = utf8 f.key → f.value id 1 = .str text →
      leaseString s₂ = some (utf8 text, rest) → MemberAt id f 1 s rest ∧ Unescaped s rest := by
    intro f text hk hvalue hread
    rw [hk] at hkey
    obtain ⟨⟨t, hs, ht⟩, hplain⟩ := leaseString_sound hkey
    obtain ⟨⟨w, hv, hw⟩, hplain₂⟩ := leaseString_sound hread
    refine ⟨⟨t, s₁, s₂, w, hs, ht, hws, hv, ?_⟩, hplain.trans (hplain₁.trans hplain₂)⟩
    rw [hvalue]
    exact .string hw
  by_cases hkind : key = utf8 "type"
  · rw [if_pos (Or.inl hkind)] at h
    dsimp only at h
    rw [if_pos hkind] at h
    split at h
    · cases h
    · next hbit =>
        rw [bind_eq_some_iff] at h
        obtain ⟨⟨value, s₃⟩, hvalue, h⟩ := h
        dsimp only at h
        split at h
        · cases h
        · next heq =>
            rw [not_not] at heq
            cases h
            rw [heq] at hvalue
            obtain ⟨hmember, hplain⟩ := hstring .kind "lease" hkind rfl hvalue
            exact ⟨.kind, 1, hmember, hplain, not_not.mp hbit, rfl, by omega, by omega⟩
  · by_cases hgeneration : key = utf8 "stream_generation"
    · rw [if_pos (Or.inr hgeneration)] at h
      dsimp only at h
      rw [if_neg hkind] at h
      split at h
      · cases h
      · next hbit =>
          rw [bind_eq_some_iff] at h
          obtain ⟨⟨value, s₃⟩, hvalue, h⟩ := h
          dsimp only at h
          split at h
          · cases h
          · next heq =>
              rw [not_not] at heq
              cases h
              rw [heq] at hvalue
              obtain ⟨hmember, hplain⟩ := hstring .generation id hgeneration rfl hvalue
              exact ⟨.generation, 1, hmember, hplain, not_not.mp hbit, rfl, by omega, by omega⟩
    · rw [if_neg (by rw [not_or]; exact ⟨hkind, hgeneration⟩)] at h
      split at h
      · next hseconds =>
          split at h
          · cases h
          · next hbit =>
              rw [not_not] at hbit
              rw [hfresh hbit, bind_eq_bind, bind_eq_some_iff] at h
              obtain ⟨⟨n, taken, s₃⟩, hdigits, h⟩ := h
              dsimp only at h
              split at h
              · cases h
              · next hgood =>
                  rw [not_or, not_or] at hgood
                  cases h
                  obtain ⟨ds, hds, hall, -, rfl, -, rfl⟩ := (secondsDigits_iff (by omega)).mp hdigits
                  rw [hds] at hgood
                  have hne : ds ≠ [] := by
                    rintro rfl
                    exact hgood.1 rfl
                  obtain ⟨hnat, hpos⟩ := natAt_of_digits hne hall hgood.2.1
                  rw [hseconds] at hkey
                  obtain ⟨⟨t, hs, ht⟩, hplain⟩ := leaseString_sound
                    (show leaseString s = some (utf8 "seconds", s₁) from hkey)
                  have hv := ws_dropWhile s₂
                  rw [hds] at hv
                  refine ⟨.seconds, digitsFrom 0 ds, ⟨t, s₁, s₂, _, hs, ht, hws, hv,
                    .number (.plain hnat) ?_ ?_⟩, ?_, hbit, rfl, hpos, by omega⟩
                  · omega
                  · have := hgood.2.2
                    omega
                  · exact hplain.trans (hplain₁.trans
                      ((unescaped_of_ws hv).trans (digits_unescaped hall)))
      · cases h

variable {f : Field}

theorem member_complete (hid : nativeConsoleUuid (utf8 id) = true)
    (hmember : MemberAt id f n s rest) (hslash : (0x5c : UInt8) ∉ s)
    (hrest : ∀ b tail, rest = b :: tail → digitByte b = false) (hpos : 1 ≤ n) (hn : n ≤ 15)
    (hbit : scan.fields &&& f.bit = 0) (hfresh : scan.Fresh) :
    leaseMember (utf8 id) scan s = some (scan.add f n, rest) := by
  obtain ⟨t, u, v, w, hs, ht, hu, hv, hw⟩ := hmember
  obtain ⟨hkey, hu'⟩ := leaseString_complete hs ht hslash f.key_plain
  have hcolon := (token_iff (by decide)).mpr hu
  have hv' := not_mem_of_ws hu hu'
  rw [mem_cons, not_or] at hv'
  unfold leaseMember
  rw [hkey]
  show (token 0x3a u >>= fun json => _) = _
  rw [hcolon]
  cases f with
  | kind =>
    cases hw with
    | string hstring =>
      obtain ⟨hvalue, -⟩ := leaseString_complete hv hstring hv'.2 lease_plain
      show (if scan.fields &&& 1 ≠ 0 then none else leaseString v >>= fun x => _) = _
      rw [if_neg (show ¬ scan.fields &&& 1 ≠ 0 from not_not.mpr hbit), hvalue]
      rfl
  | generation =>
    cases hw with
    | string hstring =>
      obtain ⟨hvalue, -⟩ := leaseString_complete hv hstring hv'.2 (uuid_plain hid)
      show (if scan.fields &&& 2 ≠ 0 then none else leaseString v >>= fun x => _) = _
      rw [if_neg (show ¬ scan.fields &&& 2 ≠ 0 from not_not.mpr hbit), hvalue]
      show (if utf8 id ≠ utf8 id then _ else _) = _
      rw [if_neg (not_not.mpr rfl)]
      rfl
  | seconds =>
    obtain ⟨ds, hds, hne, hall, hlength, hhead, hvalue⟩ : ∃ ds, w = ds ++ rest ∧ ds ≠ [] ∧
        (∀ b ∈ ds, digitByte b = true) ∧ ds.length ≤ 2 ∧ w.head? ≠ some 48 ∧
        n = digitsFrom 0 ds := by
      generalize hint : Field.value id n .seconds = value at hw
      cases hw with
      | number hnumber _ _ =>
        cases hint
        generalize hcast : (n : Int) = m at hnumber
        cases hnumber with
        | plain hnat =>
          rw [← Int.ofNat.inj hcast] at hnat
          exact digits_of_natAt hnat hpos hn
        | minus _ => omega
      | _ => cases hint
    have hdigit : v.dropWhile space = w := by
      obtain - | ⟨d, ds⟩ := ds
      · exact absurd rfl hne
      · rw [hds] at hv ⊢
        refine hv.dropWhile_cons ?_
        have hd := digitByte_iff.mp (hall d (mem_cons_self ..))
        by_contra hspace
        rw [Bool.not_eq_false] at hspace
        have hlow := hd.1
        obtain rfl | rfl | rfl | rfl := space_iff.mp hspace <;> revert hlow <;> decide
    have hread : secondsDigits scan.seconds 0 w = some (n, ds.length, rest) := by
      rw [hfresh hbit, hvalue]
      exact (secondsDigits_iff (by omega)).mpr
        ⟨ds, hds, hall, hrest, by omega, hlength, rfl⟩
    have hgood : ¬ (ds.length = 0 ∨ w.head? = some 48 ∨ 15 < n) := by
      rw [List.length_eq_zero_iff]
      rintro (h | h | h)
      · exact hne h
      · exact hhead h
      · omega
    show (if scan.fields &&& 4 ≠ 0 then none
      else secondsDigits scan.seconds 0 (v.dropWhile space) >>= fun x => _) = _
    rw [if_neg (show ¬ scan.fields &&& 4 ≠ 0 from not_not.mpr hbit), hdigit, hread]
    exact if_neg hgood

/-! ## The document -/

/-- The members of a lease in the order of their keys. -/
def leaseFields : List Field := [.seconds, .generation, .kind]

/-- A member of the document. -/
def Field.entry (id : String) (n : Nat) (f : Field) : String × Value := (f.key, f.value id n)

def leaseDocument (id : String) (n : Nat) : Value := .obj (leaseFields.map (Field.entry id n))

theorem Field.value_eq {m : Nat} (h : f = .seconds → n = m) : f.value id n = f.value id m := by
  cases f with
  | kind => rfl
  | generation => rfl
  | seconds => rw [h rfl]

variable {g : Field}

theorem fields_perm {h : Field} (hg : (0 ||| f.bit) &&& g.bit = 0)
    (hh : ((0 ||| f.bit) ||| g.bit) &&& h.bit = 0) : leaseFields.Perm [f, g, h] := by
  revert hg hh
  cases f <;> cases g <;> cases h <;> decide

theorem fields_bits {h : Field} (hperm : leaseFields.Perm [f, g, h]) :
    (0 ||| f.bit) &&& g.bit = 0 ∧ ((0 ||| f.bit) ||| g.bit) &&& h.bit = 0 ∧
      ((0 ||| f.bit) ||| g.bit) ||| h.bit = 7 := by
  revert hperm
  cases f <;> cases g <;> cases h <;> decide

theorem add_seconds {f g h : Field} {i j k : Nat} (hperm : leaseFields.Perm [f, g, h]) :
    ∃ n, (((({} : Scan).add f i).add g j).add h k).seconds = n ∧ (n = i ∨ n = j ∨ n = k) ∧
      (f = .seconds → i = n) ∧ (g = .seconds → j = n) ∧ (h = .seconds → k = n) := by
  revert hperm
  cases f <;> cases g <;> cases h <;> first
    | exact fun hperm => absurd hperm (by decide)
    | exact fun _ => ⟨i, rfl, by simp⟩
    | exact fun _ => ⟨j, rfl, by simp⟩
    | exact fun _ => ⟨k, rfl, by simp⟩

theorem fresh_start : ({} : Scan).Fresh := fun _ => rfl

theorem fresh_add {f : Field} {n : Nat} (hfresh : scan.Fresh) : (scan.add f n).Fresh := by
  intro hbit
  have hsplit : scan.fields &&& 4 = 0 ∧ f.bit &&& 4 = 0 := by
    change (scan.fields ||| f.bit) &&& 4 = 0 at hbit
    rw [Nat.and_or_distrib_right, Nat.or_eq_zero_iff] at hbit
    exact hbit
  have hf : f ≠ .seconds := by
    rintro rfl
    exact absurd hsplit.2 (by decide)
  show (if f = .seconds then n else scan.seconds) = 0
  rw [if_neg hf]
  exact hfresh hsplit.1

/-- The members that the scanner reads are those of a lease. -/
theorem members_sound (h : leaseMembers (utf8 id) [0x2c, 0x2c, 0x7d] {} s = some (scan, rest)) :
    ∃ f g k, leaseFields.Perm [f, g, k] ∧ 1 ≤ scan.seconds ∧ scan.seconds ≤ 15 ∧
      MembersAt s ([f, g, k].map (Field.entry id scan.seconds)) rest ∧ Unescaped s rest := by
  unfold leaseMembers at h
  rw [bind_eq_bind, bind_eq_some_iff] at h
  obtain ⟨⟨scan₁, r₁⟩, hfirst, h⟩ := h
  rw [bind_eq_bind, bind_eq_some_iff] at h
  obtain ⟨s₁, hcomma₁, h⟩ := h
  unfold leaseMembers at h
  rw [bind_eq_bind, bind_eq_some_iff] at h
  obtain ⟨⟨scan₂, r₂⟩, hsecond, h⟩ := h
  rw [bind_eq_bind, bind_eq_some_iff] at h
  obtain ⟨s₂, hcomma₂, h⟩ := h
  unfold leaseMembers at h
  rw [bind_eq_bind, bind_eq_some_iff] at h
  obtain ⟨⟨scan₃, r₃⟩, hthird, h⟩ := h
  rw [bind_eq_bind, bind_eq_some_iff] at h
  obtain ⟨s₃, hbrace, h⟩ := h
  cases h
  obtain ⟨f, i, ⟨t, u, v, w, hs, ht, hu, hv, hw⟩, hplain₁, -, rfl, hi⟩ :=
    member_sound hfirst fresh_start
  obtain ⟨g, j, ⟨t', u', v', w', hs', ht', hu', hv', hw'⟩, hplain₂, hbit₂, rfl, hj⟩ :=
    member_sound hsecond (fresh_add fresh_start)
  obtain ⟨k, m, ⟨t'', u'', v'', w'', hs'', ht'', hu'', hv'', hw''⟩, hplain₃, hbit₃, rfl, hm⟩ :=
    member_sound hthird (fresh_add (fresh_add fresh_start))
  have hperm := fields_perm hbit₂ hbit₃
  obtain ⟨n, hn, hcases, hf, hg, hk⟩ := add_seconds (i := i) (j := j) (k := m) hperm
  have hws₁ := (token_iff (by decide)).mp hcomma₁
  have hws₂ := (token_iff (by decide)).mp hcomma₂
  have hws₃ := (token_iff (by decide)).mp hbrace
  rw [hn]
  refine ⟨f, g, k, hperm, by omega, by omega, ?_, ?_⟩
  · rw [Field.value_eq hf] at hw
    rw [Field.value_eq hg] at hw'
    rw [Field.value_eq hk] at hw''
    exact .more hs ht hu hv hw hws₁ (.more hs' ht' hu' hv' hw' hws₂
      (.last hs'' ht'' hu'' hv'' hw'' hws₃))
  · have hmark : ∀ {r s : Bytes} {b : UInt8}, Ws r (b :: s) → b ≠ 0x5c → Unescaped r s :=
      fun hws hb => (unescaped_of_ws hws).trans (Unescaped.cons hb)
    exact hplain₁.trans ((hmark hws₁ (by decide)).trans (hplain₂.trans ((hmark hws₂ (by decide)).trans
      (hplain₃.trans (hmark hws₃ (by decide))))))

theorem entry_key_nodup (id : String) (n : Nat) :
    ((leaseFields.map (Field.entry id n)).map Prod.fst).Nodup := by
  rw [List.map_map]
  show (leaseFields.map Field.key).Nodup
  decide

theorem exists_fields {members : List (String × Value)}
    (h : (leaseFields.map (Field.entry id n)).Perm members) :
    ∃ f g k, leaseFields.Perm [f, g, k] ∧ members = [f, g, k].map (Field.entry id n) := by
  have hentry : ∀ m ∈ members, ∃ f, m = Field.entry id n f := by
    intro m hm
    obtain ⟨f, -, rfl⟩ := List.mem_map.mp (h.mem_iff.mpr hm)
    exact ⟨f, rfl⟩
  have hlength : members.length = 3 := h.length_eq.symm
  obtain - | ⟨a, - | ⟨b, - | ⟨c, - | ⟨d, members⟩⟩⟩⟩ := members
  · cases hlength
  · cases hlength
  · cases hlength
  rotate_left
  · cases hlength
  obtain ⟨f, rfl⟩ := hentry a (by simp)
  obtain ⟨g, rfl⟩ := hentry b (by simp)
  obtain ⟨k, rfl⟩ := hentry c (by simp)
  refine ⟨f, g, k, ?_, rfl⟩
  have hnodup := (h.map Prod.fst).nodup_iff.mp (entry_key_nodup id n)
  replace hnodup : ([f, g, k].map Field.key).Nodup := hnodup
  revert hnodup
  cases f <;> cases g <;> cases k <;> decide

theorem entry_memberAt {u v w x : Bytes} (hs : Ws s t) (ht : StringAt t (Field.entry id n f).1 u)
    (hu : Ws u (0x3a :: v)) (hv : Ws v w) (hw : ValueAt w (Field.entry id n f).2 x) :
    MemberAt id f n s x :=
  ⟨t, u, v, w, hs, ht, hu, hv, hw⟩

theorem not_digit_of_ws (h : Ws s (b :: rest)) (hb : b = 0x2c ∨ b = 0x7d) :
    ∀ c tail, s = c :: tail → digitByte c = false := by
  rintro c tail rfl
  have hfollows : Follows (c :: tail) := h.follows (hb.imp_right Or.inr)
  exact hfollows.head.2.1

theorem intAt_append {n : Int} (h : IntAt s n rest) : ∃ text, s = text ++ rest := by
  have hnat : ∀ {s rest : Bytes} {n : Nat}, NatAt s n rest → ∃ text, s = text ++ rest := by
    intro s rest n h
    cases h with
    | zero => exact ⟨[48], rfl⟩
    | digits _ _ _ => exact ⟨_, rfl⟩
  cases h with
  | plain h => exact hnat h
  | minus h =>
    obtain ⟨text, rfl⟩ := hnat h
    exact ⟨0x2d :: text, rfl⟩

theorem not_mem_of_member (hid : nativeConsoleUuid (utf8 id) = true) (h : MemberAt id f n s rest)
    (hslash : (0x5c : UInt8) ∉ s) : (0x5c : UInt8) ∉ rest := by
  obtain ⟨t, u, v, w, hs, ht, hu, hv, hw⟩ := h
  have hv' := not_mem_of_ws hu (leaseString_complete hs ht hslash f.key_plain).2
  rw [mem_cons, not_or] at hv'
  cases f with
  | kind =>
    cases hw with
    | string hstring => exact (leaseString_complete hv hstring hv'.2 lease_plain).2
  | generation =>
    cases hw with
    | string hstring => exact (leaseString_complete hv hstring hv'.2 (uuid_plain hid)).2
  | seconds =>
    have hw' := not_mem_of_ws hv hv'.2
    generalize hint : Field.value id n .seconds = value at hw
    cases hw with
    | number hnumber _ _ =>
      obtain ⟨text, rfl⟩ := intAt_append hnumber
      rw [mem_append, not_or] at hw'
      exact hw'.2
    | _ => cases hint

theorem members_complete {k : Field} (hid : nativeConsoleUuid (utf8 id) = true)
    (hperm : leaseFields.Perm [f, g, k]) (h : MembersAt s ([f, g, k].map (Field.entry id n)) rest)
    (hslash : (0x5c : UInt8) ∉ s) (hpos : 1 ≤ n) (hn : n ≤ 15) :
    leaseMembers (utf8 id) [0x2c, 0x2c, 0x7d] {} s =
      some (((({} : Scan).add f n).add g n).add k n, rest) := by
  obtain ⟨hbit₂, hbit₃, -⟩ := fields_bits hperm
  have hnot : ∀ {r s : Bytes} {b : UInt8}, Ws r (b :: s) → (0x5c : UInt8) ∉ r →
      (0x5c : UInt8) ∉ s := by
    intro r s b hws hr
    have hs := not_mem_of_ws hws hr
    rw [mem_cons, not_or] at hs
    exact hs.2
  obtain _ | ⟨hs, ht, hu, hv, hw, hcomma₁, h⟩ := h
  have hfirst := entry_memberAt hs ht hu hv hw
  have hslash₁ := hnot hcomma₁ (not_mem_of_member hid hfirst hslash)
  obtain _ | ⟨hs', ht', hu', hv', hw', hcomma₂, h⟩ := h
  have hsecond := entry_memberAt hs' ht' hu' hv' hw'
  have hslash₂ := hnot hcomma₂ (not_mem_of_member hid hsecond hslash₁)
  obtain ⟨hs'', ht'', hu'', hv'', hw'', hbrace⟩ | ⟨-, -, -, -, -, -, hmore⟩ := h
  rotate_left
  · cases hmore
  have hthird := entry_memberAt hs'' ht'' hu'' hv'' hw''
  have hread₁ := member_complete hid hfirst hslash (not_digit_of_ws hcomma₁ (Or.inl rfl)) hpos hn
    (Nat.zero_and _) fresh_start
  have hread₂ := member_complete hid hsecond hslash₁ (not_digit_of_ws hcomma₂ (Or.inl rfl)) hpos hn
    hbit₂ (fresh_add (n := n) fresh_start)
  have hread₃ := member_complete hid hthird hslash₂ (not_digit_of_ws hbrace (Or.inr rfl)) hpos hn
    hbit₃ (fresh_add (n := n) (fresh_add (n := n) fresh_start))
  have htoken₁ := (token_iff (by decide)).mpr hcomma₁
  have htoken₂ := (token_iff (by decide)).mpr hcomma₂
  have htoken₃ := (token_iff (by decide)).mpr hbrace
  unfold leaseMembers
  rw [hread₁]
  show (token 0x2c _ >>= fun json => leaseMembers (utf8 id) [0x2c, 0x7d] _ json) = _
  rw [htoken₁]
  show leaseMembers (utf8 id) [0x2c, 0x7d] _ _ = _
  unfold leaseMembers
  rw [hread₂]
  show (token 0x2c _ >>= fun json => leaseMembers (utf8 id) [0x7d] _ json) = _
  rw [htoken₂]
  show leaseMembers (utf8 id) [0x7d] _ _ = _
  unfold leaseMembers
  rw [hread₃]
  show (token 0x7d _ >>= fun json => leaseMembers (utf8 id) [] _ json) = _
  rw [htoken₃]
  rfl

theorem leaseDocument_sorted (id : String) (n : Nat) :
    (leaseFields.map (Field.entry id n)).Pairwise KeyLt := by
  rw [List.pairwise_map]
  show leaseFields.Pairwise fun f g => utf8 f.key < utf8 g.key
  decide

theorem exists_text (h : nativeConsoleUuid generation = true) : ∃ id, utf8 id = generation := by
  have hascii : ∀ b ∈ generation, b.toNat < 0x80 := by
    intro b hb
    have hle := (nativeConsoleUuid_ascii h hb).2
    simp only [UInt8.le_iff_toNat_le, UInt8.reduceToNat] at hle
    omega
  refine ⟨String.ofList (generation.map fun b => Char.ofNat b.toNat), ?_⟩
  rw [utf8_ofList, List.flatMap_map]
  clear h
  induction generation with
  | nil => rfl
  | cons b bs ih =>
    have hb := hascii b (mem_cons_self ..)
    have hc : (Char.ofNat b.toNat).toNat = b.toNat := by
      rw [Char.ofNat, dif_pos (Or.inl (by omega))]
      rfl
    rw [flatMap_cons, encode_ascii (by rw [hc]; exact hb), hc, UInt8.ofNat_toNat,
      ih fun d hd => hascii d (mem_cons_of_mem _ hd)]
    rfl

/-- The scanner accepts exactly the texts of its size that are the document of a lease for the
identifier, with no escape in them. -/
theorem nativeLeaseSeconds_iff {json : Bytes} : nativeLeaseSeconds json generation = some n ↔
      json.length ≤ 256 ∧ nativeConsoleUuid generation = true ∧ (0x5c : UInt8) ∉ json ∧ 1 ≤ n ∧
        n ≤ 15 ∧ ∃ id, utf8 id = generation ∧ Document json (leaseDocument id n) := by
  unfold nativeLeaseSeconds
  constructor
  · intro h
    split at h
    · cases h
    · next hsize =>
        rw [not_or, not_lt, Bool.not_eq_false] at hsize
        obtain ⟨id, rfl⟩ := exists_text hsize.2
        rw [bind_eq_bind, bind_eq_some_iff] at h
        obtain ⟨s, hbrace, h⟩ := h
        rw [bind_eq_bind, bind_eq_some_iff] at h
        obtain ⟨⟨scan, t⟩, hmembers, h⟩ := h
        dsimp only at h
        split at h
        · cases h
        · next hend =>
            rw [not_or, not_not] at hend
            cases h
            obtain ⟨f, g, k, hperm, hpos, hmax, hgrammar, hplain⟩ := members_sound hmembers
            have hopen := (token_iff (by decide)).mp hbrace
            have hclose := ws_dropWhile t
            rw [hend.1] at hclose
            refine ⟨hsize.1, hsize.2, ?_, hpos, hmax, id, rfl, _, t, hopen,
              .object hgrammar (hperm.map _) (leaseDocument_sorted _ _), hclose⟩
            obtain ⟨text, hjson, htext⟩ := (unescaped_of_ws hopen).trans
              ((Unescaped.cons (by decide)).trans (hplain.trans (unescaped_of_ws hclose)))
            rwa [hjson, List.append_nil]
  · rintro ⟨hsize, hid, hslash, hpos, hmax, id, rfl, s, t, hopen, hvalue, hclose⟩
    rw [if_neg (by rw [not_or, not_lt, Bool.not_eq_false]; exact ⟨hsize, hid⟩)]
    generalize hdocument : leaseDocument id n = document at hvalue
    cases hvalue with
    | @object s _ members map hmembers hperm hsorted =>
      have hmap : leaseFields.map (Field.entry id n) = map := Value.obj.inj hdocument
      rw [← hmap] at hperm
      obtain ⟨f, g, k, hfields, rfl⟩ := exists_fields hperm
      have hs := not_mem_of_ws hopen hslash
      rw [mem_cons, not_or] at hs
      have hread := members_complete hid hfields hmembers hs.2 hpos hmax
      obtain ⟨m, hm, hcases, -⟩ := add_seconds (i := n) (j := n) (k := n) hfields
      obtain ⟨-, -, hall⟩ := fields_bits hfields
      have hmn : m = n := by omega
      rw [(token_iff (by decide)).mpr hopen]
      show (leaseMembers (utf8 id) [0x2c, 0x2c, 0x7d] {} s >>= fun x => _) = _
      rw [hread]
      show (if t.dropWhile space ≠ [] ∨ _ ∨ _ then none else some _) = _
      rw [hm, hmn, hclose.dropWhile_eq]
      refine if_neg ?_
      rw [not_or, not_or, not_not, not_not, not_lt]
      exact ⟨rfl, hall, hpos⟩
    | emptyObject _ | _ => cases hdocument

end Ipms.Agent.Console
