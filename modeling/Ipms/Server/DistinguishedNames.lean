import Mathlib.Data.List.Forall2
import Mathlib.Data.List.TakeWhile
import Mathlib.Tactic.Tauto
import Mathlib.Tactic.SplitIfs
import Ipms.Lib.Fallible
import Ipms.Server.Text

/-
  Ipms.Server.DistinguishedNames

  The grammar of the distinguished names the control plane supports: components
  apart by commas, each an attribute type and a value written in pieces.  The
  scanner reads exactly these, and what it returns is what they denote.
-/

namespace Ipms.Server

open Ipms.Lib Ipms.ManagementJson
open List (any_eq_true append_assoc append_nil cons_append cons_ne_nil flatMap_cons flatMap_nil forall_mem_cons length_append mem_cons mem_cons_of_mem mem_cons_self nil_append not_mem_nil reverse_reverse)

/-! ## The grammar -/

/-- A piece of an attribute value: a byte in hexadecimal, a special character after a backslash,
or a character as itself. -/
inductive Piece where
  | byte (high low : Char) (value : UInt8)
  | quoted (c : Char)
  | plain (c : Char)

namespace Piece

def text : Piece → List Char
  | byte high low _ => ['\\', high, low]
  | quoted c => ['\\', c]
  | plain c => [c]

/-- The bytes a piece stands for. -/
def bytes : Piece → Bytes
  | byte _ _ value => [value]
  | quoted c => String.utf8EncodeChar c
  | plain c => String.utf8EncodeChar c

/-- A separator, which stands in a value only after a backslash. -/
def reserved : List Char := [',', '+', '"', '\\', '<', '>', ';', '=']

/-- The digits are those of the byte, only special characters are quoted, and no separator stands
as itself. -/
def Valid : Piece → Prop
  | byte high low value => hexByte? high low = some value
  | quoted c => c ∈ escapable
  | plain c => c ∉ reserved

end Piece

/-- An attribute value: pieces of which the first is no plain space or number sign and the last
no plain space. -/
structure ValueText (text : List Char) (bytes : Bytes) (pieces : List Piece) : Prop where
  valid : ∀ p ∈ pieces, p.Valid
  first : pieces.head? ≠ some (.plain ' ') ∧ pieces.head? ≠ some (.plain '#')
  last : pieces.getLast? ≠ some (.plain ' ')
  text_eq : text = pieces.flatMap Piece.text
  bytes_eq : bytes = pieces.flatMap Piece.bytes

/-- A component: white space, `OU` or `DC` in either case, an equals sign and a value.  It denotes
its attribute with its value decoded, normalized and folded. -/
def ComponentText (unicode : Unicode) (raw : List Char) (component : Attribute × String) : Prop :=
  ∃ blanks type text bytes pieces decoded, (∀ c ∈ blanks, space c = true) ∧
    raw = blanks ++ type ++ '=' :: text ∧ attribute? type = some component.1 ∧
    pieces ≠ [] ∧ ValueText text bytes pieces ∧ String.fromUTF8? ⟨bytes.toArray⟩ = some decoded ∧
    component.2 = unicode.casefold (unicode.nfc decoded) ∧ component.2 ≠ "" ∧
    ∀ c ∈ component.2.toList, 32 ≤ c.toNat ∧ c.toNat ≠ 127

/-- A distinguished name: one or more components apart by commas. -/
def NameText (unicode : Unicode) (text : List Char) (components : List (Attribute × String)) : Prop :=
  ∃ raws, raws ≠ [] ∧ text = joinWith [','] raws ∧
    List.Forall₂ (ComponentText unicode) raws components

/-- The components are units of the domain, at least one unless the domain itself is allowed. -/
def InDomain (domain : String) (allowDomainRoot : Bool) (components : List (Attribute × String)) :
    Prop :=
  ∃ units, components = units ++ domainSuffix domain ∧ (∀ u ∈ units, u.1 = Attribute.ou) ∧
    (units ≠ [] ∨ allowDomainRoot = true)

/-! ## Values -/

/-- A text in which every backslash has a character after it and no comma stands alone. -/
inductive Balanced : List Char → Prop
  | nil : Balanced []
  | escaped {c : Char} {rest : List Char} : Balanced rest → Balanced ('\\' :: c :: rest)
  | plain {c : Char} {rest : List Char} : c ≠ '\\' → c ≠ ',' → Balanced rest → Balanced (c :: rest)

variable {cs : List Char}

variable {ds : List Char}

theorem Balanced.append (hc : Balanced cs) (hd : Balanced ds) : Balanced (cs ++ ds) := by
  induction hc with
  | nil => exact hd
  | escaped _ ih => exact .escaped ih
  | plain hslash hcomma _ ih => exact .plain hslash hcomma ih

variable {c : Char}

variable {rest : List Char}

theorem Balanced.tail (h : Balanced (c :: rest)) (hc : c ≠ '\\') : c ≠ ',' ∧ Balanced rest := by
  cases h with
  | escaped _ => exact absurd rfl hc
  | plain _ hcomma hrest => exact ⟨hcomma, hrest⟩

theorem Balanced.after_escape (h : Balanced ('\\' :: c :: rest)) : Balanced rest := by
  cases h with
  | escaped hrest => exact hrest
  | plain hslash _ _ => exact absurd rfl hslash

theorem ne_of_hexDigit {k : Nat} (h : hexDigit? c = some k) : c ≠ '\\' ∧ c ≠ ',' := by
  constructor
  · rintro rfl
    cases h
  · rintro rfl
    cases h

theorem hexDigits_of_hexByte {a b : Char} {value : UInt8} (h : hexByte? a b = some value) :
    (a ≠ '\\' ∧ a ≠ ',') ∧ b ≠ '\\' ∧ b ≠ ',' := by
  unfold hexByte? at h
  obtain ⟨high, hhigh, h⟩ := Option.bind_eq_some_iff.mp h
  obtain ⟨low, hlow, _⟩ := Option.bind_eq_some_iff.mp h
  exact ⟨ne_of_hexDigit hhigh, ne_of_hexDigit hlow⟩

theorem Piece.text_ne_nil (p : Piece) : p.text ≠ [] := by
  cases p <;> exact cons_ne_nil _ _

variable {pieces : List Piece}

theorem eq_nil_of_flatMap_text (h : pieces.flatMap Piece.text = []) : pieces = [] := by
  cases pieces with
  | nil => rfl
  | cons p ps =>
    rw [flatMap_cons, List.append_eq_nil_iff] at h
    exact absurd h.1 p.text_ne_nil

theorem decodeRdn_plain (hc : c ≠ '\\') (rest : List Char) (start : Bool) :
    decodeRdn (c :: rest) start =
      if c ∈ ['+', '"', '<', '>', ';', '='] ∨ start = true ∧ c ∈ [' ', '#'] ∨ rest = [] ∧ c = ' ' then
        none
      else (decodeRdn rest false).map (String.utf8EncodeChar c ++ ·) := by
  rw [decodeRdn]
  · exact fun h _ => hc h
  · exact fun _ h _ => hc h
  · exact fun _ _ _ h _ => hc h

/-- What is decoded was written in pieces. -/
theorem decodeRdn_sound {start : Bool} {bytes : Bytes} (hbalanced : Balanced cs)
    (h : decodeRdn cs start = some bytes) :
    ∃ pieces : List Piece, (∀ p ∈ pieces, p.Valid) ∧ cs = pieces.flatMap Piece.text ∧
      bytes = pieces.flatMap Piece.bytes ∧ pieces.getLast? ≠ some (.plain ' ') ∧
      (start = true → pieces.head? ≠ some (.plain ' ') ∧ pieces.head? ≠ some (.plain '#')) := by
  -- a piece before those of the rest
  have hcons : ∀ (p : Piece) (ps : List Piece), p.Valid → (∀ q ∈ ps, q.Valid) →
      (∀ q ∈ p :: ps, q.Valid) := fun p ps hp hps => forall_mem_cons.mpr ⟨hp, hps⟩
  have hlast : ∀ (p : Piece) (ps : List Piece), p ≠ .plain ' ' → ps.getLast? ≠ some (.plain ' ') →
      (p :: ps).getLast? ≠ some (.plain ' ') := by
    intro p ps hp hps
    cases ps with
    | nil => exact fun heq => hp (Option.some.inj heq)
    | cons q qs => rwa [List.getLast?_cons_cons]
  fun_induction decodeRdn cs start generalizing bytes with
  | case1 => exact ⟨[], by simp, rfl, (Option.some.inj h).symm, by simp, by simp⟩
  | case2 => cases h
  | case3 c _ hc =>
    cases h
    exact ⟨[.quoted c], hcons _ _ hc (by simp), rfl, by simp [Piece.bytes],
      hlast _ _ (fun h => nomatch h) (by simp), by simp⟩
  | case4 => cases h
  | case5 a b rest _ value hvalue ih =>
    obtain ⟨tail, htail, rfl⟩ := Option.map_eq_some_iff.mp h
    have hdigits := hexDigits_of_hexByte hvalue
    have hrest : Balanced rest := (hbalanced.after_escape.tail hdigits.2.1).2
    obtain ⟨pieces, hvalid, rfl, rfl, hend, _⟩ := ih hrest htail
    exact ⟨.byte a b value :: pieces, hcons _ _ hvalue hvalid, rfl, rfl,
      hlast _ _ (fun h => nomatch h) hend, by simp⟩
  | case6 a b rest _ _ ha ih =>
    obtain ⟨tail, htail, rfl⟩ := Option.map_eq_some_iff.mp h
    obtain ⟨pieces, hvalid, hrest, rfl, hend, _⟩ := ih hbalanced.after_escape htail
    exact ⟨.quoted a :: pieces, hcons _ _ ha hvalid, by rw [hrest]; rfl, rfl,
      hlast _ _ (fun h => nomatch h) hend, by simp⟩
  | case7 | case8 => cases h
  | case9 c rest start hnil hone htwo hplain ih =>
    obtain ⟨tail, htail, rfl⟩ := Option.map_eq_some_iff.mp h
    have hslash : c ≠ '\\' := by
      intro hc
      cases rest with
      | nil => exact hnil hc rfl
      | cons d rest =>
        cases rest with
        | nil => exact hone d hc rfl
        | cons e rest => exact htwo d e rest hc rfl
    obtain ⟨hcomma, hrest⟩ := hbalanced.tail hslash
    obtain ⟨pieces, hvalid, hpieces, rfl, hend, _⟩ := ih hrest htail
    simp only [mem_cons, not_mem_nil, or_false, not_or, not_and] at hplain
    obtain ⟨hreserved, hstart, hspace⟩ := hplain
    refine ⟨.plain c :: pieces, hcons _ _ ?_ hvalid, by rw [hpieces]; rfl, rfl, ?_, fun hs => ?_⟩
    · show c ∉ Piece.reserved
      simp only [Piece.reserved, mem_cons, not_mem_nil, or_false, not_or]
      tauto
    · cases pieces with
      | nil =>
        intro heq
        cases heq
        exact hspace hpieces rfl
      | cons q qs => rwa [List.getLast?_cons_cons]
    · have hne := hstart hs
      exact ⟨fun heq => hne.1 (by cases heq; rfl), fun heq => hne.2 (by cases heq; rfl)⟩

/-- What is written in pieces is decoded. -/
theorem decodeRdn_complete (pieces : List Piece) (start : Bool) (hvalid : ∀ p ∈ pieces, p.Valid)
    (hend : pieces.getLast? ≠ some (.plain ' '))
    (hstart : start = true → pieces.head? ≠ some (.plain ' ') ∧ pieces.head? ≠ some (.plain '#')) :
    decodeRdn (pieces.flatMap Piece.text) start = some (pieces.flatMap Piece.bytes) := by
  induction pieces generalizing start with
  | nil => rw [flatMap_nil, decodeRdn, flatMap_nil]
  | cons p pieces ih =>
    have hp := hvalid p mem_cons_self
    have hrest := ih false (fun q hq => hvalid q (mem_cons_of_mem _ hq))
      (by
        cases pieces with
        | nil => simp
        | cons q qs => rwa [List.getLast?_cons_cons] at hend)
      (by intro h; cases h)
    rw [flatMap_cons, flatMap_cons]
    cases p with
    | byte high low value =>
      have hbyte : hexByte? high low = some value := hp
      rw [Piece.text, cons_append, cons_append, cons_append, nil_append,
        decodeRdn, hbyte]
      dsimp only
      rw [hrest]
      rfl
    | quoted c =>
      have hc : c ∈ escapable := hp
      rw [Piece.text, cons_append, cons_append, nil_append]
      cases hcs : pieces.flatMap Piece.text with
      | nil =>
        have hnil := eq_nil_of_flatMap_text hcs
        subst hnil
        rw [decodeRdn, if_pos hc, flatMap_nil, append_nil]
        rfl
      | cons d rest =>
        have hnone : hexByte? c d = none := by
          cases hd : hexByte? c d with
          | none => rfl
          | some value =>
            unfold hexByte? at hd
            obtain ⟨k, hk, _⟩ := Option.bind_eq_some_iff.mp hd
            have hall : (escapable.all fun e => (hexDigit? e).isNone) = true := by decide
            rw [Option.isNone_iff_eq_none.mp (List.all_eq_true.mp hall c hc)] at hk
            cases hk
        rw [decodeRdn, hnone]
        dsimp only
        rw [if_pos hc, ← hcs, hrest]
        rfl
    | plain c =>
      have hc : c ∉ Piece.reserved := hp
      simp only [Piece.reserved, mem_cons, not_mem_nil, or_false, not_or] at hc
      rw [Piece.text, cons_append, nil_append, decodeRdn_plain hc.2.2.2.1, if_neg, hrest]
      · rfl
      · simp only [mem_cons, not_mem_nil, or_false]
        rintro (hsep | ⟨hs, hfirst⟩ | ⟨hempty, rfl⟩)
        · tauto
        · have hne := hstart hs
          rcases hfirst with rfl | rfl
          · exact hne.1 rfl
          · exact hne.2 rfl
        · have hnil := eq_nil_of_flatMap_text hempty
          subst hnil
          exact hend rfl

/-! ## Splitting -/

theorem joinWith_cons_cons (r s : List Char) (rs : List (List Char)) :
    joinWith [','] (r :: s :: rs) = r ++ ',' :: joinWith [','] (s :: rs) := by
  simp [joinWith, List.intercalate]

theorem joinWith_singleton (r : List Char) : joinWith [','] [r] = r := by
  simp [joinWith, List.intercalate]

theorem splitRdns_balanced (h : Balanced cs) (rest acc : List Char) :
    splitRdns (cs ++ rest) acc = splitRdns rest (acc ++ cs) := by
  induction h generalizing acc with
  | nil => rw [nil_append, append_nil]
  | escaped _ ih =>
    rw [cons_append, cons_append, splitRdns, ih, append_assoc]
    rfl
  | plain hslash hcomma _ ih =>
    rw [cons_append, splitRdns, ih, append_assoc]
    · rfl
    · exact fun h _ => hslash h
    · exact fun _ _ h _ => hslash h
    · exact hcomma

theorem splitRdns_joinWith {raws : List (List Char)} (hne : raws ≠ [])
    (h : ∀ r ∈ raws, Balanced r) : splitRdns (joinWith [','] raws) [] = some raws := by
  induction raws with
  | nil => exact absurd rfl hne
  | cons r raws ih =>
    have hr := h r mem_cons_self
    cases raws with
    | nil =>
      have hsplit := splitRdns_balanced hr [] []
      rw [append_nil, nil_append] at hsplit
      rw [joinWith_singleton, hsplit, splitRdns]
    | cons s rs =>
      rw [joinWith_cons_cons, splitRdns_balanced hr, nil_append, splitRdns,
        ih (cons_ne_nil _ _) (fun q hq => h q (mem_cons_of_mem _ hq)), Option.map_some]

variable {text : List Char}

/-- The components that are split join to the text, and each is balanced. -/
theorem splitRdns_sound {acc : List Char} {raws : List (List Char)} (hacc : Balanced acc)
    (h : splitRdns text acc = some raws) :
    raws ≠ [] ∧ acc ++ text = joinWith [','] raws ∧ ∀ r ∈ raws, Balanced r := by
  fun_induction splitRdns text acc generalizing raws with
  | case1 acc =>
    cases h
    refine ⟨cons_ne_nil _ _, by rw [joinWith_singleton, append_nil], fun r hr => ?_⟩
    rw [List.mem_singleton.mp hr]
    exact hacc
  | case2 => cases h
  | case3 c rest acc ih =>
    obtain ⟨hne, hjoin, hall⟩ := ih (hacc.append (.escaped .nil)) h
    refine ⟨hne, ?_, hall⟩
    rw [← hjoin, append_assoc]
    rfl
  | case4 rest acc ih =>
    obtain ⟨others, hothers, rfl⟩ := Option.map_eq_some_iff.mp h
    obtain ⟨hne, hjoin, hall⟩ := ih .nil hothers
    refine ⟨cons_ne_nil _ _, ?_, forall_mem_cons.mpr ⟨hacc, hall⟩⟩
    cases others with
    | nil => exact absurd rfl hne
    | cons s rs => rw [joinWith_cons_cons, ← hjoin, nil_append]
  | case5 c rest acc hnil hcons hcomma ih =>
    have hslash : c ≠ '\\' := by
      intro hc
      cases rest with
      | nil => exact hnil hc rfl
      | cons d rest => exact hcons d rest hc rfl
    obtain ⟨hne, hjoin, hall⟩ := ih (hacc.append (.plain hslash hcomma .nil)) h
    refine ⟨hne, ?_, hall⟩
    rw [← hjoin, append_assoc]
    rfl

/-! ## Components -/

theorem letter_of_toUpper (h : c.toUpper ∈ ['O', 'U', 'D', 'C']) :
    65 ≤ c.toNat ∧ c.toNat ≤ 90 ∨ 97 ≤ c.toNat ∧ c.toNat ≤ 122 := by
  unfold Char.toUpper at h
  split_ifs at h with hlower
  · right
    exact ⟨hlower.1, hlower.2⟩
  · left
    simp only [mem_cons, not_mem_nil, or_false] at h
    rcases h with rfl | rfl | rfl | rfl <;> decide

/-- The letters of an attribute type. -/
theorem attribute_letters {type : List Char} {kind : Attribute} (h : attribute? type = some kind) :
    type ≠ [] ∧ ∀ c ∈ type, space c = false ∧ c ≠ '=' ∧ c ≠ '\\' ∧ c ≠ ',' := by
  have hupper : type.map Char.toUpper = ['O', 'U'] ∨ type.map Char.toUpper = ['D', 'C'] := by
    unfold attribute? at h
    dsimp only at h
    split_ifs at h with hou hdc
    · exact Or.inl (eq_of_beq hou)
    · exact Or.inr (eq_of_beq hdc)
  constructor
  · rintro rfl
    simp at hupper
  · intro c hc
    have hmem : c.toUpper ∈ type.map Char.toUpper := List.mem_map_of_mem hc
    have hletter : c.toUpper ∈ ['O', 'U', 'D', 'C'] := by
      rcases hupper with heq | heq
      · rw [heq] at hmem
        simp only [mem_cons, not_mem_nil, or_false] at hmem ⊢
        tauto
      · rw [heq] at hmem
        simp only [mem_cons, not_mem_nil, or_false] at hmem ⊢
        tauto
    have hrange := letter_of_toUpper hletter
    refine ⟨?_, ?_, ?_, ?_⟩
    · unfold space
      simp only [Bool.or_eq_false_iff, Bool.and_eq_false_iff, decide_eq_false_iff_not,
        beq_eq_false_iff_ne]
      omega
    · rintro rfl
      exact absurd hrange (by decide)
    · rintro rfl
      exact absurd hrange (by decide)
    · rintro rfl
      exact absurd hrange (by decide)

theorem Balanced.drop_append (h : Balanced (cs ++ ds)) (hcs : ∀ c ∈ cs, c ≠ '\\') :
    Balanced ds := by
  induction cs with
  | nil => exact h
  | cons c cs ih =>
    exact ih (h.tail (hcs c mem_cons_self)).2 fun d hd => hcs d (mem_cons_of_mem _ hd)

theorem balanced_of_plain (h : ∀ c ∈ cs, c ≠ '\\' ∧ c ≠ ',') : Balanced cs := by
  induction cs with
  | nil => exact .nil
  | cons c cs ih =>
    have hc := h c mem_cons_self
    exact .plain hc.1 hc.2 (ih fun d hd => h d (mem_cons_of_mem _ hd))

theorem balanced_pieces (h : ∀ p ∈ pieces, p.Valid) : Balanced (pieces.flatMap Piece.text) := by
  induction pieces with
  | nil => exact .nil
  | cons p pieces ih =>
    have hrest := ih fun q hq => h q (mem_cons_of_mem _ hq)
    have hp := h p mem_cons_self
    rw [flatMap_cons]
    cases p with
    | byte high low value =>
      have hdigits := hexDigits_of_hexByte (show hexByte? high low = some value from hp)
      exact .escaped (.plain hdigits.2.1 hdigits.2.2 hrest)
    | quoted c => exact .escaped hrest
    | plain c =>
      have hc : c ∉ Piece.reserved := hp
      simp only [Piece.reserved, mem_cons, not_mem_nil, or_false, not_or] at hc
      exact .plain hc.2.2.2.1 hc.1 hrest

theorem space_ne (h : space c = true) : c ≠ '\\' ∧ c ≠ ',' := by
  constructor
  · rintro rfl
    exact absurd h (by decide)
  · rintro rfl
    exact absurd h (by decide)

variable {unicode : Unicode}

variable {component : Attribute × String} {raw : List Char}

theorem ComponentText.balanced (h : ComponentText unicode raw component) : Balanced raw := by
  obtain ⟨blanks, type, text, bytes, pieces, decoded, hblanks, rfl, htype, _, htext, _⟩ := h
  have hletters := (attribute_letters htype).2
  have hvalue : Balanced text := by
    rw [htext.text_eq]
    exact balanced_pieces htext.valid
  have hstart : Balanced (blanks ++ type) := balanced_of_plain fun c hc => by
    rcases List.mem_append.mp hc with hblank | hletter
    · exact space_ne (hblanks c hblank)
    · exact (hletters c hletter).2.2
  exact hstart.append (.plain (by decide) (by decide) hvalue)

theorem dropWhile_eq_cons (h : (cs.dropWhile (· ≠ '=')).drop 1 ≠ []) :
    ∃ text, cs.dropWhile (· ≠ '=') = '=' :: text := by
  have hhead := List.head?_dropWhile_not (fun c => decide (c ≠ '=')) cs
  cases hcs : cs.dropWhile (· ≠ '=') with
  | nil =>
    rw [hcs] at h
    exact absurd rfl h
  | cons c text =>
    rw [hcs, List.head?_cons] at hhead
    have hc : c = '=' := by simpa using hhead
    exact ⟨text, by rw [hc]⟩

/-- A balanced component is decoded exactly as the grammar says. -/
theorem decodeComponent_iff (hbalanced : Balanced raw) :
    decodeComponent unicode raw = some component ↔ ComponentText unicode raw component := by
  constructor
  · intro h
    unfold decodeComponent at h
    dsimp only at h
    obtain ⟨kind, hkind, h⟩ := Option.bind_eq_some_iff.mp h
    split_ifs at h with hempty
    obtain ⟨bytes, hbytes, h⟩ := Option.bind_eq_some_iff.mp h
    obtain ⟨decoded, hdecoded, h⟩ := Option.bind_eq_some_iff.mp h
    split_ifs at h with hbad
    cases h
    obtain ⟨text, hsplit⟩ := dropWhile_eq_cons hempty
    rw [hsplit, List.drop_succ_cons, List.drop_zero] at hbytes hempty
    have hraw : raw = raw.takeWhile space ++ (raw.dropWhile space).takeWhile (· ≠ '=') ++ '=' :: text := by
      rw [← hsplit, append_assoc, List.takeWhile_append_dropWhile, List.takeWhile_append_dropWhile]
    have hletters := (attribute_letters hkind).2
    have htext : Balanced text := by
      have hwhole := hbalanced
      rw [hraw] at hwhole
      have hrest := hwhole.drop_append fun c hc => by
        rcases List.mem_append.mp hc with hblank | hletter
        · exact (space_ne (List.mem_takeWhile_imp hblank)).1
        · exact (hletters c hletter).2.2.1
      exact (hrest.tail (by decide)).2
    obtain ⟨pieces, hvalid, rfl, rfl, hend, hstart⟩ := decodeRdn_sound htext hbytes
    have hpieces : pieces ≠ [] := by
      rintro rfl
      exact hempty rfl
    rw [not_or, any_eq_true, not_exists] at hbad
    refine ⟨_, _, _, _, pieces, decoded, fun c hc => List.mem_takeWhile_imp hc, hraw, hkind, hpieces,
      ⟨hvalid, hstart rfl, hend, rfl, rfl⟩, hdecoded, rfl, hbad.1, fun c hc => ?_⟩
    have hc' := hbad.2 c
    simp only [hc, true_and, Bool.or_eq_true, decide_eq_true_eq, beq_iff_eq, not_or, not_lt] at hc'
    exact hc'
  · rintro ⟨blanks, type, text, bytes, pieces, decoded, hblanks, rfl, htype, hpieces, htext, hdecoded,
      hvalue, hne, hcontrol⟩
    obtain ⟨hnonempty, hletters⟩ := attribute_letters htype
    have hbody : (blanks ++ type ++ '=' :: text).dropWhile space = type ++ '=' :: text := by
      rw [append_assoc, List.dropWhile_append_of_pos hblanks]
      cases type with
      | nil => exact absurd rfl hnonempty
      | cons c cs =>
        rw [cons_append, List.dropWhile_cons, (hletters c mem_cons_self).1]
        rfl
    have hplain : ∀ c ∈ type, decide (c ≠ '=') = true := fun c hc =>
      decide_eq_true (hletters c hc).2.1
    have htake : (type ++ '=' :: text).takeWhile (· ≠ '=') = type := by
      rw [List.takeWhile_append_of_pos hplain]
      simp
    have hdrop : (type ++ '=' :: text).dropWhile (· ≠ '=') = '=' :: text := by
      rw [List.dropWhile_append_of_pos hplain]
      simp
    have hdecode : decodeRdn text true = some bytes := by
      rw [htext.text_eq, htext.bytes_eq]
      exact decodeRdn_complete pieces true htext.valid htext.last fun _ => htext.first
    have htextNe : text ≠ [] := by
      rw [htext.text_eq]
      exact fun h => hpieces (eq_nil_of_flatMap_text h)
    have hgood : ¬ (unicode.casefold (unicode.nfc decoded) = "" ∨
        (unicode.casefold (unicode.nfc decoded)).toList.any
          (fun c => decide (c.toNat < 32) || c.toNat == 127) = true) := by
      rw [← hvalue]
      rintro (hnil | hany)
      · exact hne hnil
      · obtain ⟨c, hc, hbad⟩ := any_eq_true.mp hany
        have hok := hcontrol c hc
        simp only [Bool.or_eq_true, decide_eq_true_eq, beq_iff_eq] at hbad
        omega
    unfold decodeComponent
    simp only [hbody, htake, htype, hdrop, List.drop_succ_cons, List.drop_zero, if_neg htextNe,
      hdecode, hdecoded, if_neg hgood, Option.bind_eq_bind, Option.bind_some]
    rw [← hvalue]

theorem decodeComponent_blanks {blanks : List Char} (h : ∀ c ∈ blanks, space c = true)
    (raw : List Char) : decodeComponent unicode (blanks ++ raw) = decodeComponent unicode raw := by
  unfold decodeComponent
  rw [List.dropWhile_append_of_pos h]

variable {components : List (Attribute × String)}

theorem nameText_iff : NameText unicode text components ↔
      ∃ raws, splitRdns text [] = some raws ∧ raws.mapM (decodeComponent unicode) = some components := by
  constructor
  · rintro ⟨raws, hne, rfl, hall⟩
    have hbalanced : ∀ r ∈ raws, Balanced r := by
      clear hne
      induction hall with
      | nil => exact fun _ h => absurd h not_mem_nil
      | cons hcomponent _ ih => exact forall_mem_cons.mpr ⟨hcomponent.balanced, ih⟩
    refine ⟨raws, splitRdns_joinWith hne hbalanced, mapM_eq_some_iff.mpr ?_⟩
    exact hall.imp fun _ _ h => (decodeComponent_iff h.balanced).mpr h
  · rintro ⟨raws, hsplit, hdecoded⟩
    obtain ⟨hne, hjoin, hbalanced⟩ := splitRdns_sound .nil hsplit
    refine ⟨raws, hne, hjoin, ?_⟩
    have hall := mapM_eq_some_iff.mp hdecoded
    clear hsplit hne hjoin hdecoded
    induction hall with
    | nil => exact .nil
    | cons hcomponent _ ih =>
      obtain ⟨hfirst, hrest⟩ := forall_mem_cons.mp hbalanced
      exact .cons ((decodeComponent_iff hfirst).mp hcomponent) (ih hrest)

theorem NameText.unique {left right : List (Attribute × String)}
    (hleft : NameText unicode text left) (hright : NameText unicode text right) : left = right := by
  obtain ⟨raws, hraws, hl⟩ := nameText_iff.mp hleft
  obtain ⟨raws', hraws', hr⟩ := nameText_iff.mp hright
  rw [hraws] at hraws'
  cases hraws'
  rw [hl] at hr
  exact Option.some.inj hr

/-- A bounded value: one to 2048 characters, none of them a control character. -/
def BoundedName (value : String) : Prop :=
  value ≠ "" ∧ value.toList.length ≤ 2048 ∧ ∀ c ∈ value.toList, 32 ≤ c.toNat ∧ c.toNat ≠ 127

variable {allowDomainRoot : Bool} {domain value : String}

/-- `ou_identity` accepts the bounded names of the domain's units, white space around them aside,
and gives what they denote. -/
theorem ouIdentity_eq_some_iff : ouIdentity unicode value domain allowDomainRoot = some components ↔
      BoundedName value ∧ NameText unicode (strip value.toList) components ∧
        InDomain domain allowDomainRoot components := by
  rw [nameText_iff]
  constructor
  · intro h
    unfold ouIdentity at h
    split_ifs at h with hbounds
    rw [not_or, not_or, not_lt] at hbounds
    obtain ⟨hne, hlength, hcontrol⟩ := hbounds
    obtain ⟨raws, hraws, h⟩ := Option.bind_eq_some_iff.mp h
    obtain ⟨decoded, hdecoded, h⟩ := Option.bind_eq_some_iff.mp h
    have hbounded : BoundedName value := by
      refine ⟨hne, hlength, fun c hc => ?_⟩
      have hc' : ¬ ((decide (c.toNat < 32) || c.toNat == 127) = true) := fun hbad =>
        hcontrol (any_eq_true.mpr ⟨c, hc, hbad⟩)
      simp only [Bool.or_eq_true, decide_eq_true_eq, beq_iff_eq] at hc'
      omega
    dsimp only at h
    split_ifs at h with hroot hunits
    · cases h
      exact ⟨hbounded, ⟨raws, hraws, hdecoded⟩, [], hroot.1, by simp, Or.inr hroot.2⟩
    · cases h
      rw [not_or, not_or, not_le, Bool.not_eq_true', Bool.not_eq_false] at hunits
      obtain ⟨hlong, hsuffix, hkinds⟩ := hunits
      obtain ⟨units, rfl⟩ := List.isSuffixOf_iff_suffix.mp hsuffix
      have htake : (units ++ domainSuffix domain).take
          ((units ++ domainSuffix domain).length - (domainSuffix domain).length) = units := by
        rw [length_append, Nat.add_sub_cancel, List.take_left]
      rw [htake] at hkinds
      refine ⟨hbounded, ⟨raws, hraws, hdecoded⟩, units, rfl, fun u hu => ?_, Or.inl ?_⟩
      · by_contra hkind
        exact hkinds (any_eq_true.mpr ⟨u, hu, decide_eq_true hkind⟩)
      · rintro rfl
        rw [nil_append] at hlong
        exact absurd hlong (Nat.lt_irrefl _)
  · rintro ⟨⟨hne, hlength, hcontrol⟩, ⟨raws, hraws, hdecoded⟩, units, rfl, hkinds, hroot⟩
    have hbounds : ¬ (value = "" ∨ 2048 < value.toList.length ∨
        value.toList.any (fun c => decide (c.toNat < 32) || c.toNat == 127) = true) := by
      rintro (hempty | hlong | hany)
      · exact hne hempty
      · omega
      · obtain ⟨c, hc, hbad⟩ := any_eq_true.mp hany
        have hok := hcontrol c hc
        simp only [Bool.or_eq_true, decide_eq_true_eq, beq_iff_eq] at hbad
        omega
    have htake : (units ++ domainSuffix domain).take
        ((units ++ domainSuffix domain).length - (domainSuffix domain).length) = units := by
      rw [length_append, Nat.add_sub_cancel, List.take_left]
    have hsuffix : (domainSuffix domain).isSuffixOf (units ++ domainSuffix domain) = true :=
      List.isSuffixOf_iff_suffix.mpr (List.suffix_append _ _)
    unfold ouIdentity
    simp only [if_neg hbounds, hraws, hdecoded, Option.bind_eq_bind, Option.bind_some]
    by_cases hempty : units = []
    · subst hempty
      have hallowed : allowDomainRoot = true := hroot.resolve_left fun h => h rfl
      rw [nil_append, if_pos ⟨rfl, hallowed⟩]
    · have hpos := List.length_pos_of_ne_nil hempty
      have hlong : ¬ (units ++ domainSuffix domain).length ≤ (domainSuffix domain).length := by
        rw [length_append]
        omega
      have hnone : ¬ (units.any (fun c => decide (c.1 ≠ Attribute.ou)) = true) := by
        intro hany
        obtain ⟨u, hu, hkind⟩ := any_eq_true.mp hany
        exact of_decide_eq_true hkind (hkinds u hu)
      rw [if_neg (fun h => hlong (by rw [h.1])), htake, hsuffix, if_neg]
      rintro (h | h | h)
      · exact hlong h
      · cases h
      · exact hnone h

/-! ## The space around a name -/

theorem dropWhile_eq_self (h : ∀ c, cs.head? = some c → space c = false) :
    cs.dropWhile space = cs := by
  cases cs with
  | nil => rfl
  | cons c cs => rw [List.dropWhile_cons, h c rfl, if_neg Bool.false_ne_true]

theorem head?_dropWhile {cs : List Char} (c : Char) (h : (cs.dropWhile space).head? = some c) :
    space c = false := by
  have hhead := List.head?_dropWhile_not space cs
  rw [h] at hhead
  exact hhead

theorem strip_strip (cs : List Char) : strip (strip cs) = strip cs := by
  have hleft : (strip cs).dropWhile space = strip cs := by
    apply dropWhile_eq_self
    intro c hc
    -- what is left of the text starts where the text without its leading space does
    have hsuffix : (cs.dropWhile space).reverse.dropWhile space <:+ (cs.dropWhile space).reverse :=
      List.dropWhile_suffix _
    have hstart : strip cs <+: cs.dropWhile space := by
      rw [← List.reverse_suffix, strip, reverse_reverse]
      exact hsuffix
    obtain ⟨rest, hrest⟩ := hstart
    apply @head?_dropWhile cs c
    rw [← hrest, List.head?_append, hc]
    rfl
  have hright : (strip cs).reverse.dropWhile space = (strip cs).reverse := by
    apply dropWhile_eq_self
    intro c hc
    rw [strip, reverse_reverse] at hc
    exact head?_dropWhile c hc
  conv_lhs => rw [strip, hleft, hright, reverse_reverse]

theorem strip_eq_self (hfirst : ∀ c, cs.head? = some c → space c = false)
    (hlast : ∀ c, cs.getLast? = some c → space c = false) : strip cs = cs := by
  rw [strip, dropWhile_eq_self hfirst, dropWhile_eq_self, reverse_reverse]
  intro c hc
  rw [List.head?_reverse] at hc
  exact hlast c hc

theorem NameText.ne_nil (h : NameText unicode text components) : text ≠ [] := by
  rintro rfl
  obtain ⟨raws, hraws, hdecoded⟩ := nameText_iff.mp h
  cases hraws
  cases hdecoded

theorem ouIdentity_strip (h : ouIdentity unicode value domain allowDomainRoot = some components) :
    ouIdentity unicode (String.ofList (strip value.toList)) domain allowDomainRoot =
      some components := by
  obtain ⟨⟨_, hlength, hcontrol⟩, hname, hdomain⟩ := ouIdentity_eq_some_iff.mp h
  have hsublist : (strip value.toList).Sublist value.toList := by
    rw [← List.reverse_sublist, strip, reverse_reverse]
    exact (List.dropWhile_sublist _).trans (List.reverse_sublist.mpr (List.dropWhile_sublist _))
  refine ouIdentity_eq_some_iff.mpr ⟨⟨?_, ?_, ?_⟩, ?_, hdomain⟩
  · intro hempty
    apply hname.ne_nil
    have hlist := congrArg String.toList hempty
    rwa [String.toList_ofList] at hlist
  · rw [String.toList_ofList]
    exact Nat.le_trans hsublist.length_le hlength
  · rw [String.toList_ofList]
    exact fun c hc => hcontrol c (hsublist.mem hc)
  · rw [String.toList_ofList, strip_strip]
    exact hname

end Ipms.Server
