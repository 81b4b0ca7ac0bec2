import Ipms.Agent.Gpo.OverrideText
import Ipms.ManagementJson.Size
import Ipms.Server.Gpo.Overrides
import Ipms.Server.Gpo.ValidSnapshot
import Ipms.Server.Labels

/-
  Ipms.Server.Gpo.OverrideAgreement

  Two validators of one override.  The control plane checks the entries when an
  operator saves them and again in every assignment; the agent checks the job
  it is handed.  Compiled from one catalog, they agree on every entry: what the
  control plane accepts is in the agent's order, within its bounds and of its
  types.  Only the identifier itself may differ, since the agent refuses zero.
-/

namespace Ipms.Server.Gpo

open Ipms.Lib Ipms.ManagementJson
open Ipms.Agent.Gpo (Catalog ManagedJob OverrideEntry Override SettingDescriptor entriesJson digit
  digitsValue sidPart sidParts size)
open List (all_eq_true length_append length_cons map_cons mem_cons_of_mem mem_cons_self)

/-! ## Identifiers -/

/-- `0|[1-9][0-9]*`. -/
def decimalToken (cs : List Char) : Bool :=
  cs == ['0'] || (cs.head?.any fun c => decide ('1' ≤ c) && decide (c ≤ '9')) && cs.all digit

/-- `_sid`: the parts of the pattern, and the bounds of the numbers among them. -/
def sidMatch (value : String) : Bool :=
  match value.toList.splitOn '-' with
  | ['S'] :: ['1'] :: authority :: rest =>
    decimalToken authority && rest.all decimalToken && decide (1 ≤ rest.length) &&
      decide (rest.length ≤ 15) && decide (digitsValue authority < 2 ^ 48) &&
      rest.all fun part => decide (digitsValue part < 2 ^ 32)
  | _ => false

/-- A token of the pattern within a bound is a part of an identifier. -/
theorem sidPart_eq (part : List Char) (maximum : Nat) :
    sidPart part maximum = (decimalToken part && decide (digitsValue part < maximum + 1)) := by
  have hbound : decide (digitsValue part ≤ maximum) = decide (digitsValue part < maximum + 1) :=
    decide_eq_decide.mpr Nat.lt_succ_iff.symm
  unfold sidPart decimalToken
  rw [hbound]
  congr 1
  match part with
  | [] => rfl
  | [c] =>
    by_cases hzero : c = '0'
    · subst hzero
      decide
    · have hone : digit c = (decide ('1' ≤ c) && decide (c ≤ '9')) := by
        have hle : '0' ≤ c ↔ '1' ≤ c := by
          have hne : c.toNat ≠ 48 := fun h => hzero (Char.toNat_inj.mp h)
          show (48 ≤ c.toNat) ↔ (49 ≤ c.toNat)
          omega
        simp [digit, hle]
      simp [hone, hzero]
  | c :: d :: rest =>
    by_cases hzero : c = '0'
    · subst hzero
      simp
    · by_cases hdigit : digit c = true
      · have hle : '1' ≤ c ∧ c ≤ '9' := by
          obtain ⟨hlow, hhigh⟩ := Agent.Gpo.digit_eq_true.mp hdigit
          have hne : c.toNat ≠ 48 := fun h => hzero (Char.toNat_inj.mp h)
          have hlow' : 48 ≤ c.toNat := hlow
          refine ⟨?_, hhigh⟩
          show 49 ≤ c.toNat
          omega
        simp [hzero, hdigit, hle]
      · simp [hdigit]

/-- The pattern finds the parts after `S-1-`. -/
theorem overrideSid_eq_sidMatch (s : String) : overrideSid s = sidMatch s := by
  unfold overrideSid sidMatch
  by_cases hstart : "S-1-".toList <+: s.toList
  · obtain ⟨rest, hrest⟩ := hstart
    have hsplit : s.toList.splitOn '-' = ['S'] :: ['1'] :: rest.splitOn '-' := by
      rw [← hrest]
      show List.splitOn '-' (['S'] ++ '-' :: (['1'] ++ '-' :: rest)) = _
      rw [List.splitOn_append_cons_self, List.splitOn_append_cons_self]
      rfl
    have hfront : "S-1-".toList.isPrefixOf s.toList = true :=
      List.isPrefixOf_iff_prefix.mpr ⟨rest, hrest⟩
    have hdrop : s.toList.drop 4 = rest := by
      rw [← hrest]
      rfl
    rw [hsplit, hfront, hdrop, Bool.true_and]
    cases rest.splitOn '-' with
    | nil => rfl
    | cons authority parts =>
      rw [sidParts, Bool.eq_iff_iff]
      simp only [sidPart_eq, Bool.and_eq_true, all_eq_true, decide_eq_true_eq]
      constructor
      · rintro ⟨⟨⟨⟨hauthority, hbound⟩, hparts⟩, hlow⟩, hhigh⟩
        exact ⟨⟨⟨⟨⟨hauthority, fun p hp => (hparts p hp).1⟩, by omega⟩, by omega⟩, hbound⟩,
          fun p hp => (hparts p hp).2⟩
      · rintro ⟨⟨⟨⟨⟨hauthority, hparts⟩, hlow⟩, hhigh⟩, hbound⟩, hbounds⟩
        exact ⟨⟨⟨⟨hauthority, hbound⟩, fun p hp => ⟨hparts p hp, hbounds p hp⟩⟩, by omega⟩,
          by omega⟩
  · have hfront : "S-1-".toList.isPrefixOf s.toList = false := by
      rw [Bool.eq_false_iff]
      exact fun h => hstart (List.isPrefixOf_iff_prefix.mp h)
    rw [hfront, Bool.false_and]
    split
    · next authority parts hsplit =>
        have hjoined := @List.intercalate_splitOn _ s.toList _ _ '-'
        rw [hsplit] at hjoined
        refine absurd ⟨['-'].intercalate (authority :: parts), ?_⟩ hstart
        rw [← hjoined, List.intercalate_cons_cons, List.intercalate_cons_cons]
        rfl
    · rfl

theorem pow_le_foldl_digits (number : Nat) (cs : List Char) :
    number * 10 ^ cs.length ≤ cs.foldl (fun n c => 10 * n + (c.toNat - 48)) number := by
  induction cs generalizing number with
  | nil => simp
  | cons c cs ih =>
    rw [length_cons, List.foldl_cons]
    calc number * 10 ^ (cs.length + 1) = 10 * number * 10 ^ cs.length := by
          rw [Nat.pow_succ, Nat.mul_comm 10 number, Nat.mul_assoc, Nat.mul_comm 10]
      _ ≤ (10 * number + (c.toNat - 48)) * 10 ^ cs.length :=
          Nat.mul_le_mul_right _ (Nat.le_add_right _ _)
      _ ≤ _ := ih _

theorem length_sidPart {part : List Char} {maximum digits : Nat} (h : sidPart part maximum = true)
    (hmaximum : maximum < 10 ^ digits) (hdigits : 0 < digits) : part.length ≤ digits := by
  simp only [sidPart_eq, decimalToken, Bool.and_eq_true, Bool.or_eq_true, beq_iff_eq,
    decide_eq_true_eq] at h
  obtain ⟨rfl | ⟨hfirst, -⟩, hbound⟩ := h
  · exact hdigits
  · match part, hfirst with
    | c :: cs, hfirst =>
      simp only [List.head?_cons, Option.any_some, Bool.and_eq_true, decide_eq_true_eq] at hfirst
      have hone : 1 ≤ c.toNat - 48 := by
        have hlow : 49 ≤ c.toNat := hfirst.1
        omega
      have hvalue := pow_le_foldl_digits (c.toNat - 48) cs
      have hpow : 10 ^ cs.length < 10 ^ digits := by
        have hle : 10 ^ cs.length ≤ (c.toNat - 48) * 10 ^ cs.length :=
          Nat.le_mul_of_pos_left _ hone
        have hvalue' : Agent.Gpo.digitsValue (c :: cs) =
            cs.foldl (fun n c => 10 * n + (c.toNat - 48)) (c.toNat - 48) := by
          rw [Agent.Gpo.digitsValue, List.foldl_cons, Nat.mul_zero, Nat.zero_add]
        omega
      exact (Nat.pow_lt_pow_iff_right (by decide)).mp hpow

variable {s : String}

theorem size_of_ascii (h : ∀ c ∈ s.toList, c.toNat < 128) : size s = s.toList.length := by
  have hflat : ∀ cs : List Char, (∀ c ∈ cs, c.toNat < 128) →
      (cs.flatMap String.utf8EncodeChar).length = cs.length := by
    intro cs
    induction cs with
    | nil => exact fun _ => rfl
    | cons c cs ih =>
      intro hall
      have hc : c.val.toNat ≤ 0x7f := Nat.le_of_lt_succ (hall c mem_cons_self)
      have hone : (String.utf8EncodeChar c).length = 1 := by
        simp only [String.utf8EncodeChar]
        rw [if_pos hc]
        rfl
      rw [List.flatMap_cons, length_append, hone, length_cons,
        ih fun d hd => hall d (mem_cons_of_mem c hd), Nat.add_comm]
  exact hflat s.toList h

theorem length_intercalate_lt {n : Nat} : {cs : List (List Char)} → cs ≠ [] →
    (∀ c ∈ cs, c.length ≤ n) → (['-'].intercalate cs).length < cs.length * (n + 1)
  | [], hne, _ => absurd rfl hne
  | [c], _, h => by
    have hc := h c mem_cons_self
    rw [List.intercalate_singleton, List.length_singleton]
    omega
  | c :: d :: rest, _, h => by
    have hc := h c mem_cons_self
    have hrest := length_intercalate_lt (List.cons_ne_nil d rest) fun e he =>
      h e (mem_cons_of_mem c he)
    rw [List.intercalate_cons_cons, length_append, length_append,
      List.length_singleton, length_cons, Nat.succ_mul]
    omega

/-- An identifier of the control plane is one of the agent's: no longer than 184 bytes, and ending
in a digit. -/
theorem sid_of_overrideSid (h : overrideSid s = true) : Agent.Gpo.sid s = true := by
  unfold overrideSid at h
  rw [Bool.and_eq_true] at h
  obtain ⟨hfront, hparts⟩ := h
  obtain ⟨rest, hrest⟩ := List.isPrefixOf_iff_prefix.mp hfront
  have hdrop : s.toList.drop 4 = rest := by
    rw [← hrest]
    rfl
  have hall : ∃ authority parts, rest.splitOn '-' = authority :: parts ∧
      sidPart authority 281474976710655 = true ∧
      (∀ p ∈ parts, sidPart p 4294967295 = true) ∧ parts.length ≤ 15 := by
    rw [hdrop] at hparts
    cases hsplit : rest.splitOn '-' with
    | nil => exact absurd hsplit (List.splitOn_ne_nil _ _)
    | cons authority parts =>
      rw [hsplit, sidParts] at hparts
      simp only [Bool.and_eq_true, all_eq_true, decide_eq_true_eq] at hparts
      exact ⟨authority, parts, rfl, hparts.1.1.1, hparts.1.1.2, Nat.le_of_succ_le_succ hparts.2⟩
  obtain ⟨authority, parts, hsplit, hauthority, hrestParts, hcount⟩ := hall
  have hjoined : rest = ['-'].intercalate (authority :: parts) := by
    rw [← hsplit, List.intercalate_splitOn]
  have hpart : ∀ part ∈ rest.splitOn '-', ∀ c ∈ part, digit c = true := by
    have hdigits : ∀ {part : List Char} {maximum : Nat}, sidPart part maximum = true →
        ∀ c ∈ part, digit c = true := by
      intro part maximum hpart
      simp only [sidPart, Bool.and_eq_true] at hpart
      exact all_eq_true.mp hpart.1.2
    rw [hsplit]
    exact List.forall_mem_cons.mpr ⟨hdigits hauthority, fun p hp => hdigits (hrestParts p hp)⟩
  have hnonempty : ∀ part ∈ rest.splitOn '-', part ≠ [] := by
    have hne : ∀ {part : List Char} {maximum : Nat}, sidPart part maximum = true → part ≠ [] := by
      rintro _ maximum h rfl
      exact absurd h (by simp [sidPart])
    rw [hsplit]
    exact List.forall_mem_cons.mpr ⟨hne hauthority, fun p hp => hne (hrestParts p hp)⟩
  have hascii : ∀ c ∈ s.toList, c.toNat < 128 := by
    rw [← hrest]
    have hlead : ("S-1-".toList.all fun c => decide (c.toNat < 128)) = true := by decide
    refine List.forall_mem_append.mpr
      ⟨fun c hc => of_decide_eq_true (all_eq_true.mp hlead c hc), fun c hc => ?_⟩
    rcases mem_splitOn (x := '-') hc with rfl | ⟨part, hmem, hc⟩
    · decide
    · have hle : c.toNat ≤ 57 := (Agent.Gpo.digit_eq_true.mp (hpart part hmem c hc)).2
      omega
  have hlength : s.toList.length ≤ 184 := by
    have hfirst : authority.length ≤ 15 := length_sidPart hauthority (by decide) (by decide)
    have hothers : ∀ p ∈ parts, p.length ≤ 10 := fun p hp =>
      length_sidPart (hrestParts p hp) (by decide) (by decide)
    rw [← hrest, length_append, hjoined]
    have hfour : "S-1-".toList.length = 4 := rfl
    cases parts with
    | nil =>
      rw [List.intercalate_singleton]
      omega
    | cons p ps =>
      rw [List.intercalate_cons_cons, length_append, length_append,
        List.length_singleton]
      have hjoin := length_intercalate_lt (List.cons_ne_nil p ps) hothers
      have hmul : (p :: ps).length * (10 + 1) ≤ 15 * 11 := Nat.mul_le_mul_right _ hcount
      omega
  have hlast : s.toList.getLast? ≠ some '-' := by
    intro hdash
    -- a text that ends in the separator has an empty last part, which is no number
    rw [← hrest, List.getLast?_append] at hdash
    obtain ⟨body, hbody⟩ : ∃ body, rest = body ++ ['-'] := by
      cases hend : rest.getLast? with
      | none =>
        obtain rfl := List.getLast?_eq_none_iff.mp hend
        exact absurd rfl (hnonempty [] (by simp))
      | some c =>
        rw [hend] at hdash
        obtain rfl := Option.some.inj hdash
        exact List.getLast?_eq_some_iff.mp hend
    have hempty : [] ∈ rest.splitOn '-' := by
      rw [hbody, List.splitOn_append_cons_self, List.splitOn_nil]
      exact List.mem_append_right _ mem_cons_self
    exact hnonempty [] hempty rfl
  unfold Agent.Gpo.sid
  rw [hfront, hparts, size_of_ascii hascii]
  simp [hlength, hlast]

theorem sidScan_eq_sidMatch (value : String) : Agent.Gpo.sidScan value = sidMatch value := by
  rw [Agent.Gpo.sidScan_eq, ← overrideSid_eq_sidMatch, Bool.eq_iff_iff]
  constructor
  · -- the size and the last character that the agent checks first are no loss
    intro h
    simp only [Agent.Gpo.sid, Bool.and_eq_true] at h
    exact Bool.and_eq_true_iff.mpr ⟨h.1.1.1, h.2⟩
  · exact sid_of_overrideSid

/-! ## Values -/

/-- A value that an editable setting can have: a number, a text or a list of texts. -/
def PlainValue : Value → Prop
  | .int _ => True
  | .str _ => True
  | .arr items => ∀ item ∈ items, ∃ text, item = .str text
  | _ => False

variable {value : Value} {d : Setting}

/-- What the control plane accepts for a setting is a value of one of its types. -/
theorem validOverrideValue_cases (h : validOverrideValue d value = true) :
    (∃ n : Int, d.valueType = "integer" ∧ value = .int n ∧ d.min ≤ n ∧ n ≤ d.max) ∨
      (∃ text, d.valueType = "string" ∧ value = .str text ∧
        safeString text d.maxLength = true) ∨
      (∃ items, d.valueType = "string_list" ∧ value = .arr items ∧ items.length ≤ d.maxItems ∧
        items.Nodup ∧ ∀ item ∈ items, ∃ text, item = .str text ∧
          safeString text d.maxLength = true ∧
          (d.kind = "privilege_right" → overrideSid text = true)) := by
  simp only [validOverrideValue, Bool.and_eq_true, Bool.or_eq_true, bne_iff_ne] at h
  obtain ⟨⟨htyped, -⟩, hkind⟩ := h
  unfold validTyped at htyped
  split at htyped
  · next n htype =>
      simp only [Bool.and_eq_true, decide_eq_true_eq] at htyped
      exact .inl ⟨n, htype, rfl, htyped⟩
  · next text htype => exact .inr (.inl ⟨text, htype, rfl, htyped⟩)
  · next items htype =>
      simp only [Bool.and_eq_true, decide_eq_true_eq, all_eq_true] at htyped
      obtain ⟨⟨hlength, hdistinct⟩, hitems⟩ := htyped
      refine .inr (.inr ⟨items, htype, rfl, hlength, hdistinct, fun item hitem => ?_⟩)
      have hsafe := hitems item hitem
      split at hsafe
      · next text =>
          refine ⟨text, rfl, hsafe, fun hright => ?_⟩
          have hall := hkind.resolve_left (fun hne => hne hright)
          exact all_eq_true.mp hall (.str text) hitem
      · cases hsafe
  · cases htyped

theorem PlainValue.of_valid (h : validOverrideValue d value = true) : PlainValue value := by
  rcases validOverrideValue_cases h with ⟨n, -, rfl, -⟩ | ⟨text, -, rfl, -⟩ |
    ⟨items, -, rfl, -, -, hitems⟩
  · exact trivial
  · exact trivial
  · intro item hitem
    obtain ⟨text, htext, -⟩ := hitems item hitem
    exact ⟨text, htext⟩

theorem safeText_of_safeString {text : String} {maximum : Nat}
    (h : safeString text maximum = true) : Agent.Gpo.safeText text maximum = true := by
  simp only [safeString, bounded, Bool.true_or, Bool.true_and] at h
  exact h

/-- For every text, the agent's checks of its bytes find what the control plane's checks of its
characters find: its length and control characters, and the numbers of a security identifier. -/
theorem overrideTexts_agree (text : String) (maximum : Nat) :
    Agent.Gpo.safeTextBytes (utf8 text) maximum = safeString text maximum ∧
      Agent.Gpo.sidScan text = sidMatch text := by
  refine ⟨?_, sidScan_eq_sidMatch text⟩
  rw [Agent.Gpo.safeTextBytes_utf8, safeString, bounded, Bool.true_or, Bool.true_and]
  rfl

theorem validValue_of_validOverrideValue (heditable : d.editable = true)
    (h : validOverrideValue d value = true) :
    Agent.Gpo.validValue d.toSettingDescriptor value = true := by
  have hoptions : (d.enumOptions.isEmpty || d.enumOptions.contains value) = true := by
    simp only [validOverrideValue, Bool.and_eq_true] at h
    exact h.1.2
  unfold Agent.Gpo.validValue
  rw [heditable, hoptions, Bool.true_and, Bool.and_true]
  rcases validOverrideValue_cases h with ⟨n, htype, rfl, hmin, hmax⟩ | ⟨text, htype, rfl, hsafe⟩ |
    ⟨items, htype, rfl, hlength, hdistinct, hitems⟩
  · rw [htype]
    simp [hmin, hmax]
  · rw [htype]
    exact safeText_of_safeString hsafe
  · rw [htype]
    simp only [hlength, hdistinct, decide_true, Bool.true_and, Bool.and_true, all_eq_true]
    intro item hitem
    obtain ⟨text, rfl, hsafe, hright⟩ := hitems item hitem
    simp only [Agent.Gpo.validListItem, safeText_of_safeString hsafe, Bool.true_and,
      Bool.or_eq_true, bne_iff_ne]
    by_cases hkind : d.kind = "privilege_right"
    · exact .inr (sid_of_overrideSid (hright hkind))
    · exact .inl hkind

/-- What `normalize_entries` says of entries it returns unchanged. -/
structure Normalized (settings : List Setting) (entries : List OverrideEntry) : Prop where
  few : entries.length ≤ 128
  distinct : (entries.map OverrideEntry.settingId).Nodup
  valid : ∀ e ∈ entries, ∃ d, entrySetting settings e = some d ∧
    validOverrideValue d e.value = true
  sorted : entries.Pairwise fun e f => e.settingId ≤ f.settingId
  short : (render (entriesJson entries)).length ≤ 8192

variable {entries : List OverrideEntry} {settings : List Setting}

theorem Normalized.of_eq_some (h : normalizeEntries settings entries true = some entries) :
    Normalized settings entries := by
  unfold normalizeEntries at h
  split at h
  · cases h
  next hchecks =>
  rw [not_or, Nat.not_lt, not_not] at hchecks
  obtain ⟨kept, hkept, h⟩ := Option.bind_eq_some_iff.mp h
  simp only at h
  split at h
  · cases h
  next hshort =>
  have hentry : List.Forall₂ (fun e k => (∃ d, entrySetting settings e = some d ∧
      validOverrideValue d e.value = true) ∧ (e, true) = k) entries kept := by
    refine (mapM_eq_some_iff.mp hkept).imp fun e k hk => ?_
    obtain ⟨d, hd, hk⟩ := Option.bind_eq_some_iff.mp hk
    split at hk
    · next hvalid => exact ⟨⟨d, hd, hvalid⟩, Option.some.inj hk⟩
    · cases hk
  obtain ⟨hvalid, hpairs⟩ := (List.forall₂_and_left _ _).mp hentry
  have hkept' : entries.map (fun e => (e, true)) = kept := by
    rw [← List.forall₂_eq_eq_eq, List.forall₂_map_left_iff]
    exact hpairs
  have hall : (kept.filter Prod.snd).map Prod.fst = entries := by
    rw [← hkept', List.filter_map, List.map_map]
    simp [Function.comp_def]
  rw [hall] at h hshort
  have hsorted := Option.some.inj h
  rw [hsorted, Nat.not_lt, canonical_eq_render] at hshort
  refine ⟨hchecks.1, hchecks.2, hvalid, ?_, hshort⟩
  have hpairwise := List.pairwise_insertionSort
    (fun e f : OverrideEntry => e.settingId ≤ f.settingId) entries
  rwa [hsorted] at hpairwise

theorem increasing_of_sorted (hsorted : entries.Pairwise fun e f => e.settingId ≤ f.settingId)
    (hdistinct : (entries.map OverrideEntry.settingId).Nodup) {previous : String}
    (hfirst : ∀ e ∈ entries, previous < e.settingId) :
    Agent.Gpo.increasing previous entries = true := by
  induction entries generalizing previous with
  | nil => rfl
  | cons e rest ih =>
    rw [List.pairwise_cons] at hsorted
    rw [map_cons, List.nodup_cons] at hdistinct
    simp only [Agent.Gpo.increasing, hfirst e mem_cons_self, decide_true, Bool.true_and]
    refine ih hsorted.2 hdistinct.2 fun f hf => ?_
    have hne : e.settingId ≠ f.settingId := fun heq =>
      hdistinct.1 (heq ▸ List.mem_map_of_mem hf)
    exact Std.lt_of_le_of_ne (hsorted.1 f hf) hne

theorem empty_lt (h : s ≠ "") : "" < s := by
  show "".toList < s.toList
  cases hs : s.toList with
  | nil => exact absurd (String.toList_inj.mp hs) h
  | cons c cs => exact List.nil_lt_cons c cs

/-! ## Sizes -/

theorem nodeCountItems_texts {items : List Value} (h : ∀ item ∈ items, ∃ text, item = .str text) :
    nodeCountItems items = items.length := by
  induction items with
  | nil => rfl
  | cons item rest ih =>
    obtain ⟨text, rfl⟩ := h item mem_cons_self
    rw [nodeCountItems, ih fun v hv => h v (mem_cons_of_mem _ hv), length_cons,
      Nat.add_comm]
    rfl

theorem PlainValue.nodeCount_le {v : Value} (h : PlainValue v) :
    3 * nodeCount v ≤ (render v).length + 2 := by
  cases v with
  | int n =>
    have hpos := length_toChars_pos n
    show 3 * 1 ≤ (toChars n).length + 2
    omega
  | str s =>
    have hquotes := length_renderString s
    show 3 * 1 ≤ (renderString s).length + 2
    omega
  | arr items =>
    have hitems := nodeCountItems_texts h
    have htwo : ∀ v ∈ items, 2 ≤ (render v).length := by
      intro v hv
      obtain ⟨text, rfl⟩ := h v hv
      have hquotes := length_renderString text
      show 2 ≤ (renderString text).length
      omega
    have hlong := length_render_arr_ge htwo
    show 3 * (1 + nodeCountItems items) ≤ _
    omega
  | null | bool b | obj members => cases h

theorem nodeCount_entry_le {e : OverrideEntry} (h : PlainValue e.value) :
    3 * nodeCount e.toJson ≤ (render e.toJson).length := by
  have hvalue := h.nodeCount_le
  have hid := length_renderString e.settingId
  have hkeys : (renderString "setting_id").length = 12 ∧ (renderString "value").length = 7 := by
    decide
  obtain ⟨hsetting, hvalueKey⟩ := hkeys
  have hnodes : nodeCount e.toJson = 4 + nodeCount e.value := by
    simp only [OverrideEntry.toJson, nodeCount, nodeCountMembers]
    omega
  have hlength : (render e.toJson).length =
      24 + (renderString e.settingId).length + (render e.value).length := by
    show (123 :: renderMembers [("setting_id", .str e.settingId), ("value", e.value)] true ++
      [125]).length = _
    simp only [renderMembers, render, if_true, Bool.false_eq_true, if_false, List.nil_append,
      List.append_nil, length_append, length_cons, List.length_nil, hsetting, hvalueKey]
    omega
  omega

theorem nodeCount_entries_le (h : ∀ e ∈ entries, PlainValue e.value) :
    3 * nodeCount (entriesJson entries) ≤ (render (entriesJson entries)).length + 2 := by
  have hitems : ∀ es : List OverrideEntry, (∀ e ∈ es, PlainValue e.value) →
      3 * nodeCountItems (es.map OverrideEntry.toJson) ≤
        ((es.map OverrideEntry.toJson).map fun v => (render v).length + 1).sum := by
    intro es
    induction es with
    | nil => exact fun _ => Nat.le_refl 0
    | cons e es ih =>
      intro hall
      have he := nodeCount_entry_le (hall e mem_cons_self)
      have hes := ih fun f hf => hall f (mem_cons_of_mem e hf)
      simp only [map_cons, nodeCountItems, List.sum_cons]
      omega
  have hsum := hitems entries h
  have harr := length_render_arr (entries.map OverrideEntry.toJson)
  show 3 * (1 + nodeCountItems (entries.map OverrideEntry.toJson)) ≤
    (render (.arr (entries.map OverrideEntry.toJson))).length + 2
  omega

theorem within_str {bounds : Limits} {depth : Nat}
    (h : (render (.str s)).length ≤ bounds.stringBytes) : within bounds (.str s) depth = true := by
  have hbytes := (length_renderString_bounds s).1
  have hshort : (renderString s).length ≤ bounds.stringBytes := h
  simp only [within, decide_eq_true_eq]
  omega

theorem within_items {bounds : Limits} {items : List Value} {depth : Nat}
    (h : ∀ item ∈ items, within bounds item depth = true) :
    withinItems bounds items depth = true := by
  induction items with
  | nil => rfl
  | cons item rest ih =>
    rw [withinItems, h item mem_cons_self, ih fun v hv => h v (mem_cons_of_mem _ hv)]
    rfl

theorem PlainValue.within {v : Value} (h : PlainValue v) {depth : Nat} (hdepth : depth < 8)
    (hshort : (render v).length ≤ 16384) : within {} v depth = true := by
  cases v with
  | int n => rfl
  | str s => exact within_str hshort
  | arr items =>
    have hitems : withinItems {} items (depth + 1) = true := by
      refine within_items fun item hitem => ?_
      obtain ⟨text, rfl⟩ := h item hitem
      exact within_str ((length_render_item hitem).trans hshort)
    simp [ManagementJson.within, hitems, hdepth]
  | null | bool b | obj members => cases h

theorem within_entries {entries : List OverrideEntry} (h : ∀ e ∈ entries, PlainValue e.value)
    {depth : Nat} (hdepth : depth < 6) (hshort : (render (entriesJson entries)).length ≤ 16384) :
    within {} (entriesJson entries) depth = true := by
  have hitems : withinItems {} (entries.map OverrideEntry.toJson) (depth + 1) = true := by
    refine within_items fun item hitem => ?_
    obtain ⟨e, he, rfl⟩ := List.mem_map.mp hitem
    have hentry : (render e.toJson).length ≤ 16384 := (length_render_item hitem).trans hshort
    have hid : (utf8 e.settingId).length ≤ 16384 := by
      have hbytes := (length_renderString_bounds e.settingId).1
      have hmember : (renderString e.settingId).length ≤ (render e.toJson).length :=
        length_render_member (v := .str e.settingId) (k := "setting_id") (by simp)
      omega
    have hvalue : within {} e.value (depth + 2) = true :=
      (h e he).within (by omega) (Nat.le_trans (length_render_member (k := "value") (by simp)) hentry)
    have hkeys : (utf8 "setting_id").length ≤ 16384 ∧ (utf8 "value").length ≤ 16384 := by decide
    simp only [OverrideEntry.toJson, ManagementJson.within, withinMembers, hvalue,
      Bool.and_true, Bool.and_eq_true, decide_eq_true_eq]
    exact ⟨by omega, ⟨hkeys.1, hid⟩, hkeys.2⟩
  simp only [entriesJson, within, hitems, Bool.and_true, decide_eq_true_eq]
  omega

theorem Normalized.fits {settings : List Setting} {entries : List OverrideEntry}
    (h : Normalized settings entries) : fits (entriesJson entries) = true := by
  have hplain : ∀ e ∈ entries, PlainValue e.value := fun e he =>
    let ⟨_, _, hvalid⟩ := h.valid e he
    .of_valid hvalid
  have hshort := h.short
  have hnodes := nodeCount_entries_le hplain
  have hwithin := @within_entries _ hplain 0 (by decide) (by omega)
  simp only [ManagementJson.fits, hwithin, Bool.and_true, Bool.and_eq_true, decide_eq_true_eq]
  refine ⟨⟨by decide, ?_⟩, ?_⟩
  · show (render (entriesJson entries)).length ≤ 65536
    omega
  · show nodeCount (entriesJson entries) ≤ 4096
    omega

/-! ## The agreement -/

/-- Both sides compiled from one catalog: the agent has every component that the control plane
offers, with the same settings in the same order, the files they are written to and names of
ordinary length. -/
structure SameCatalog (content : Content) (catalog : Catalog) : Prop where
  settings : ∀ {baselineId backupId artifact settings},
    content.overrideComponents baselineId backupId = some (artifact, settings) →
    ∃ c, (catalog.overrideComponents.find? fun c => c.baselineId == baselineId &&
        c.backupId == backupId && c.artifactSha256 == artifact) = some c ∧
      c.settings = settings.map Setting.toSettingDescriptor
  files : ∀ {baselineId backupId artifact settings},
    content.overrideComponents baselineId backupId = some (artifact, settings) →
    ∃ o, catalog.lookupComponent baselineId backupId = some o ∧ o.artifactSha256 = artifact ∧
      ∀ d ∈ settings, d.file ∈ o.files
  named : ∀ {baselineId backupId artifact settings},
    content.overrideComponents baselineId backupId = some (artifact, settings) →
    (∀ d ∈ settings, d.settingId ≠ "") ∧ size baselineId ≤ 128 ∧ size backupId ≤ 128 ∧
      size artifact ≤ 128

section
variable {content : Content} {catalog : Catalog} {a : ManagedJob} {o : Override}

/-- What `patch_valid` says of an assignment. -/
structure PatchValid (content : Content) (a : ManagedJob) (o : Override)
    (settings : List Setting) : Prop where
  id : uuidText o.overrideId = true
  revision : 1 ≤ o.overrideRevision ∧ o.overrideRevision < 2 ^ 31
  component : content.overrideComponents a.baselineId a.backupId =
    some (a.artifactSha256, settings)
  normalized : Normalized settings o.entries
  nonempty : o.entries ≠ []
  digest : digest (patchJson o.overrideId o.overrideRevision a.baselineId a.backupId
    a.artifactSha256 o.entries) = o.overrideSha256

theorem PatchValid.of_eq_true (h : patchValid content a o = true) :
    ∃ settings, PatchValid content a o settings := by
  simp only [patchValid, Bool.and_eq_true, decide_eq_true_eq, beq_iff_eq, Bool.not_eq_true',
    List.isEmpty_eq_false_iff] at h
  obtain ⟨⟨⟨⟨⟨hid, hlow⟩, hhigh⟩, hcomponent⟩, hnonempty⟩, hdigest⟩ := h
  split at hcomponent
  · cases hcomponent
  · next artifact settings hfound =>
      simp only [Bool.and_eq_true, beq_iff_eq] at hcomponent
      obtain ⟨rfl, hentries⟩ := hcomponent
      exact ⟨settings, hid, ⟨hlow, hhigh⟩, hfound, .of_eq_some hentries, hnonempty, hdigest⟩

theorem size_of_uuidText (h : uuidText s = true) : size s = 36 := by
  simp only [uuidText, Bool.and_eq_true, beq_iff_eq, all_eq_true] at h
  obtain ⟨hlength, hchars⟩ := h
  rw [size_of_ascii, hlength]
  intro c hc
  obtain ⟨i, hi, rfl⟩ := List.mem_iff_getElem.mp hc
  have hplace := hchars (s.toList[i], i) (by
    rw [List.mem_iff_getElem]
    exact ⟨i, by simpa using hi, by simp⟩)
  simp only at hplace
  split at hplace
  · rw [beq_iff_eq.mp hplace]
    decide
  · simp only [Agent.Gpo.lowerHex, Bool.or_eq_true, Bool.and_eq_true, decide_eq_true_eq] at hplace
    rcases hplace with ⟨-, hle⟩ | ⟨-, hle⟩
    · have hle' : s.toList[i].toNat ≤ 57 := hle
      omega
    · have hle' : s.toList[i].toNat ≤ 102 := hle
      omega

/-- The agent can write down the digested document of such an assignment. -/
theorem PatchValid.fits {settings : List Setting} (h : PatchValid content a o settings)
    (hsame : SameCatalog content catalog) :
    fits (patchJson o.overrideId o.overrideRevision a.baselineId a.backupId a.artifactSha256
      o.entries) = true := by
  obtain ⟨-, hbaseline, hbackup, hartifact⟩ := hsame.named h.component
  have hid := size_of_uuidText h.id
  have hplain : ∀ e ∈ o.entries, PlainValue e.value := fun e he =>
    let ⟨_, _, hvalid⟩ := h.normalized.valid e he
    .of_valid hvalid
  have hshort := h.normalized.short
  have hnodes := nodeCount_entries_le hplain
  have hwithin := @within_entries _ hplain 1 (by decide) (by omega)
  have hrevision := @length_toChars_le o.overrideRevision 10 (by decide)
    (by have := h.revision; omega) (by have := h.revision; omega)
  unfold size at hid hbaseline hbackup hartifact
  have hbytesBaseline := (length_renderString_bounds a.baselineId).2
  have hbytesBackup := (length_renderString_bounds a.backupId).2
  have hbytesArtifact := (length_renderString_bounds a.artifactSha256).2
  have hbytesId := (length_renderString_bounds o.overrideId).2
  have hkeys : (renderString "artifact_sha256").length = 17 ∧
      (renderString "backup_id").length = 11 ∧ (renderString "baseline_id").length = 13 ∧
      (renderString "entries").length = 9 ∧ (renderString "id").length = 4 ∧
      (renderString "revision").length = 10 := by decide
  obtain ⟨hkartifact, hkbackup, hkbaseline, hkentries, hkid, hkrevision⟩ := hkeys
  have hlength : (render (patchJson o.overrideId o.overrideRevision a.baselineId a.backupId
      a.artifactSha256 o.entries)).length ≤ 65536 := by
    unfold patchJson
    show (123 :: renderMembers _ true ++ [125]).length ≤ _
    simp only [renderMembers, if_true, Bool.false_eq_true, if_false, List.nil_append,
      length_append, length_cons, List.length_nil, List.append_nil, hkartifact,
      hkbackup, hkbaseline, hkentries, hkid, hkrevision]
    rw [show render (.str a.artifactSha256) = renderString a.artifactSha256 from rfl,
      show render (.str a.backupId) = renderString a.backupId from rfl,
      show render (.str a.baselineId) = renderString a.baselineId from rfl,
      show render (.str o.overrideId) = renderString o.overrideId from rfl,
      show render (.int o.overrideRevision) = toChars o.overrideRevision from rfl]
    omega
  have hcount : nodeCount (patchJson o.overrideId o.overrideRevision a.baselineId a.backupId
      a.artifactSha256 o.entries) ≤ 4096 := by
    simp only [patchJson, nodeCount, nodeCountMembers]
    omega
  have hbounds : within {} (patchJson o.overrideId o.overrideRevision a.baselineId a.backupId
      a.artifactSha256 o.entries) 0 = true := by
    have htexts : ∀ key ∈ ["artifact_sha256", "backup_id", "baseline_id", "entries", "id",
        "revision"], (utf8 key).length ≤ 16384 := by decide
    simp only [List.forall_mem_cons] at htexts
    simp only [patchJson, within, withinMembers, hwithin, Bool.and_true, Bool.and_eq_true,
      decide_eq_true_eq]
    omega
  simp only [ManagementJson.fits, hbounds, Bool.and_true, Bool.and_eq_true, decide_eq_true_eq]
  exact ⟨⟨by decide, hlength⟩, hcount⟩

theorem PatchValid.validEntry (h : PatchValid content a o settings)
    {c : Agent.Gpo.OverrideComponent} {original : Agent.Gpo.Component}
    (hsettings : c.settings = settings.map Setting.toSettingDescriptor)
    (hfiles : ∀ d ∈ settings, d.file ∈ original.files) {e : OverrideEntry} (he : e ∈ o.entries) :
    Agent.Gpo.validEntry c (some original) e = true := by
  obtain ⟨d, hd, hvalid⟩ := h.normalized.valid e he
  obtain ⟨hfound, heditable⟩ := Option.filter_eq_some_iff.mp hd
  have hsetting : c.setting e.settingId = some d.toSettingDescriptor := by
    unfold Agent.Gpo.OverrideComponent.setting
    rw [hsettings, List.find?_map]
    exact congrArg (Option.map Setting.toSettingDescriptor) hfound
  have hfile : original.files.contains d.file = true :=
    List.contains_iff_mem.mpr (hfiles d (List.mem_of_find?_eq_some hfound))
  simp only [Agent.Gpo.validEntry, hsetting, validValue_of_validOverrideValue heditable hvalid,
    Bool.true_and, Option.any_some]
  exact hfile

/-- The nil UUID, which the control plane reads as a UUID and the agent as none. -/
def nilUuid : String := "00000000-0000-0000-0000-000000000000"

/-- Every other UUID is one of the agent's. -/
theorem validUuid_of_uuidText (h : uuidText s = true) (hne : s ≠ nilUuid) :
    Agent.Gpo.validUuid s = true := by
  unfold uuidText at h
  unfold Agent.Gpo.validUuid
  rw [h, Bool.true_and]
  by_contra hzero
  rw [Bool.not_eq_true, List.any_eq_false] at hzero
  simp only [Bool.and_eq_true, beq_iff_eq, all_eq_true] at h
  obtain ⟨hlength, hchars⟩ := h
  have hnil : ∀ i < 36, nilUuid.toList[i]? =
      some (if Agent.Gpo.uuidSeparator i then '-' else '0') := by decide
  refine hne (String.toList_inj.mp (List.ext_getElem? fun i => ?_))
  by_cases hi : i < 36
  · have hi' : i < s.toList.length := by omega
    have hmem : (s.toList[i], i) ∈ s.toList.zipIdx := by
      rw [List.mem_iff_getElem]
      exact ⟨i, by simpa using hi', by simp⟩
    have hchar := hchars _ hmem
    have hplain := hzero _ hmem
    rw [hnil i hi, List.getElem?_eq_getElem hi']
    simp only at hchar hplain
    split at hchar
    · next hseparator => rw [hseparator, if_pos rfl, beq_iff_eq.mp hchar]
    · next hseparator =>
        have hnot : Agent.Gpo.uuidSeparator i = false := Bool.eq_false_iff.mpr hseparator
        rw [hnot] at hplain ⊢
        simpa using hplain
  · have hnilLength : nilUuid.toList.length = 36 := by decide
    rw [List.getElem?_eq_none (by omega), List.getElem?_eq_none (by omega)]

/-- For one catalog, an override that the control plane accepts is one that the agent accepts,
unless it is named by the nil UUID. -/
theorem patchValid_accepted (hsame : SameCatalog content catalog)
    (hvalid : patchValid content a o = true) :
    Agent.Gpo.validateOverrideJob catalog a.toJobCore o = .ok () ↔ o.overrideId ≠ nilUuid := by
  obtain ⟨settings, h⟩ := PatchValid.of_eq_true hvalid
  obtain ⟨c, hdescriptor, hsettings⟩ := hsame.settings h.component
  obtain ⟨original, hlookup, hartifact, hfiles⟩ := hsame.files h.component
  have hentries : serialize (entriesJson o.entries) = .ok (render (entriesJson o.entries)) := by
    rw [serialize_eq, if_pos h.normalized.fits]
  have hdigest : Agent.Gpo.overrideDigest a.toJobCore o = .ok o.overrideSha256 := by
    rw [← h.digest, digest, canonical_eq_render]
    show (serialize (patchJson _ _ _ _ _ _) >>= fun text => pure (Crypto.sha256 text)) = _
    rw [serialize_eq, if_pos (h.fits hsame)]
    rfl
  have hcomponent : Agent.Gpo.component catalog a.toJobCore = some original := by
    unfold Agent.Gpo.component
    rw [hlookup, Option.filter_some, if_pos (beq_iff_eq.mpr hartifact)]
  constructor
  · intro haccepted hnil
    obtain ⟨_, hid, -⟩ := bind_eq_ok.mp haccepted
    rw [throwIf_eq_ok, hnil] at hid
    rw [show Agent.Gpo.validUuid nilUuid = false by decide] at hid
    exact hid rfl
  · intro hid
    have hpositive : Agent.Gpo.positive o.overrideRevision = true := by
      have hrevision := h.revision
      simp only [Agent.Gpo.positive, Bool.and_eq_true, decide_eq_true_eq]
      refine ⟨hrevision.1, ?_⟩
      have hmax : (2 ^ 31 : Int) ≤ Agent.Gpo.int64Max := by decide
      omega
    have hincreasing : Agent.Gpo.increasing "" o.entries = true := by
      refine increasing_of_sorted h.normalized.sorted h.normalized.distinct fun e he => ?_
      obtain ⟨d, hd, -⟩ := h.normalized.valid e he
      obtain ⟨hfound, -⟩ := Option.filter_eq_some_iff.mp hd
      have hmatch := List.find?_some hfound
      have hname : d.settingId = e.settingId := beq_iff_eq.mp hmatch
      rw [← hname]
      exact empty_lt ((hsame.named h.component).1 d (List.mem_of_find?_eq_some hfound))
    have hall : (o.entries.all (Agent.Gpo.validEntry c (some original))) = true :=
      all_eq_true.mpr fun e he => h.validEntry hsettings hfiles he
    have hshort := h.normalized.short
    refine bind_eq_ok.mpr ⟨(), throwIf_eq_ok.mpr ?_, bind_eq_ok.mpr ⟨_, hdigest,
      bind_eq_ok.mpr ⟨(), throwIf_eq_ok.mpr (not_not.mpr rfl), bind_eq_ok.mpr ⟨_, hentries,
        bind_eq_ok.mpr ⟨(), throwIf_eq_ok.mpr ?_, ?_⟩⟩⟩⟩⟩
    · rw [validUuid_of_uuidText h.id hid, hpositive]
      decide
    · rintro (hempty | hmany | hlong)
      · exact h.nonempty hempty
      · exact Nat.not_lt.mpr h.normalized.few hmany
      · exact Nat.not_lt.mpr hshort hlong
    · unfold Agent.Gpo.overrideDescriptor
      rw [hdescriptor]
      refine throwIf_eq_ok.mpr ?_
      rw [hincreasing, hcomponent, hall]
      decide

end

/-! ## A component with two settings -/

/-- A registry number and a privilege of the component. -/
def pairSettings : List Setting :=
  [{ settingId := "e78c0701e225f2cad07e8bbcf6fe77ff5c0010cfba8e68beba476493da7ea2cf"
     editable := true, valueType := "integer", min := 0, max := 4294967295, maxLength := 2048
     maxItems := 64, kind := "registry", file := "DomainSysvol/GPO/Machine/registry.pol"
     enumOptions := [], baselineValue := .int 0 },
   { settingId := "71230503cf6eb547dbf93ef41c5a110a119c2ac320f675e338510a8c93568563"
     editable := true, valueType := "string_list", min := 0, max := 4294967295, maxLength := 2048
     maxItems := 64, kind := "privilege_right"
     file := "DomainSysvol/GPO/Machine/microsoft/windows nt/SecEdit/GptTmpl.inf"
     enumOptions := [], baselineValue := .arr [] }]

/-- A control plane that offers the settings. -/
def pairContent : Content where
  unicode := asciiUnicode
  components := fun _ _ => none
  profileComponents := fun _ _ => []
  overrideComponents := fun baselineId backupId =>
    if baselineId = sampleDraft.baselineId ∧ backupId = sampleDraft.backupId then
      some (sampleDraft.artifactSha256, pairSettings)
    else none
  artifactBytes := fun _ => none
  reviewable := fun _ => false

/-- An agent compiled from the same settings. -/
def pairCatalog : Catalog where
  lookupComponent := fun baselineId backupId =>
    if baselineId = sampleDraft.baselineId ∧ backupId = sampleDraft.backupId then
      some { artifactSha256 := sampleDraft.artifactSha256, scope := .machine,
             files := pairSettings.map fun d => d.file }
    else none
  overrideComponents :=
    [{ baselineId := sampleDraft.baselineId, backupId := sampleDraft.backupId
       artifactSha256 := sampleDraft.artifactSha256
       settings := pairSettings.map Setting.toSettingDescriptor }]

/-- An override of both settings, under an identifier. -/
def pairOverride (id : String) : Override where
  overrideId := id
  overrideRevision := 1
  overrideSha256 := digest (patchJson id 1 sampleDraft.baselineId sampleDraft.backupId
    sampleDraft.artifactSha256 pairEntries)
  entries := pairEntries
where
  /-- The values of the override. -/
  pairEntries : List OverrideEntry :=
    [⟨"71230503cf6eb547dbf93ef41c5a110a119c2ac320f675e338510a8c93568563",
        .arr [.str "S-1-5-32-544", .str "S-1-5-19"]⟩,
      ⟨"e78c0701e225f2cad07e8bbcf6fe77ff5c0010cfba8e68beba476493da7ea2cf", .int 1⟩]

theorem pairContent_eq_some {baselineId backupId artifact : String}
    (h : pairContent.overrideComponents baselineId backupId = some (artifact, settings)) :
    baselineId = sampleDraft.baselineId ∧ backupId = sampleDraft.backupId ∧
      artifact = sampleDraft.artifactSha256 ∧ settings = pairSettings := by
  unfold pairContent at h
  simp only at h
  split at h
  · next hkey =>
      obtain ⟨rfl, rfl⟩ := Prod.mk.inj (Option.some.inj h)
      exact ⟨hkey.1, hkey.2, rfl, rfl⟩
  · cases h

theorem pairCatalog_same : SameCatalog pairContent pairCatalog where
  settings h := by
    obtain ⟨rfl, rfl, rfl, rfl⟩ := pairContent_eq_some h
    refine ⟨{ baselineId := sampleDraft.baselineId, backupId := sampleDraft.backupId,
              artifactSha256 := sampleDraft.artifactSha256,
              settings := pairSettings.map Setting.toSettingDescriptor }, ?_, rfl⟩
    simp [pairCatalog]
  files h := by
    obtain ⟨rfl, rfl, rfl, rfl⟩ := pairContent_eq_some h
    refine ⟨{ artifactSha256 := sampleDraft.artifactSha256, scope := .machine,
              files := pairSettings.map fun d => d.file }, ?_, rfl, ?_⟩
    · simp [pairCatalog]
    · exact fun d hd => List.mem_map_of_mem hd
  named h := by
    obtain ⟨rfl, rfl, rfl, rfl⟩ := pairContent_eq_some h
    refine ⟨?_, by decide, by decide, by decide⟩
    simp [pairSettings]

theorem pairOverride_valid (id : String) (hid : uuidText id = true) :
    patchValid pairContent sampleDraft (pairOverride id) = true := by
  have hentries : normalizeEntries pairSettings (pairOverride id).entries true ==
      some (pairOverride id).entries := by
    show normalizeEntries pairSettings pairOverride.pairEntries true ==
      some pairOverride.pairEntries
    decide +kernel
  have hcomponent : pairContent.overrideComponents sampleDraft.baselineId sampleDraft.backupId =
      some (sampleDraft.artifactSha256, pairSettings) := by simp [pairContent]
  unfold patchValid
  rw [hcomponent]
  simp only [hentries, beq_self_eq_true, Bool.and_true]
  simp [pairOverride, hid, pairOverride.pairEntries]

/-- The agent accepts the override under an ordinary name. -/
theorem patchValid_accepted_sample :
    Agent.Gpo.validateOverrideJob pairCatalog sampleDraft.toJobCore
      (pairOverride "00000000-0000-4000-8000-000000000006") = .ok () :=
  (patchValid_accepted pairCatalog_same (pairOverride_valid _ (by decide))).mpr (by decide)

/-- Under the nil UUID the control plane accepts it and the agent does not. -/
theorem patchValid_nil_refused :
    SameCatalog pairContent pairCatalog ∧
      patchValid pairContent sampleDraft (pairOverride nilUuid) = true ∧
      Agent.Gpo.validateOverrideJob pairCatalog sampleDraft.toJobCore
        (pairOverride nilUuid) ≠ .ok () := by
  refine ⟨pairCatalog_same, pairOverride_valid nilUuid (by decide), ?_⟩
  intro haccepted
  obtain ⟨_, hid, -⟩ := bind_eq_ok.mp haccepted
  rw [throwIf_eq_ok, show Agent.Gpo.validUuid (pairOverride nilUuid).overrideId = false by decide]
    at hid
  exact hid rfl

end Ipms.Server.Gpo
