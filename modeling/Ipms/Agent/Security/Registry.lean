import Ipms.Agent.JsonText
import Ipms.Agent.Security.Scan
import Ipms.Lib.Fallible
import Ipms.Lib.LittleEndian

/-
  Ipms.Agent.Security.Registry

  The values of the registry, as a scan reads them from the bytes that Windows
  returns.  A value is measured exactly when the bytes are the encoding of it for
  their type, and no read leaves the buffer.
-/

namespace Ipms.Agent.Security.Registry

open Ipms.Lib Ipms.ManagementJson LittleEndian
open Ipms.Server (encode)
open List (append_assoc drop_drop flatMap_cons length length_append length_cons length_drop length_eq_zero_iff length_nil length_singleton)

/-! ## The decoder -/

def regSz : UInt32 := 1

def regExpandSz : UInt32 := 2

def regDword : UInt32 := 4

def regMultiSz : UInt32 := 7

/-- How a read ends without a value: an index outside the buffer, a failure that is returned with
its status, or an exception. -/
inductive Stop where
  | outside | failed (status : String) | thrown
  deriving DecidableEq

/-- The unit at an index. -/
def unitAt (text : Wide) (i : Nat) : Except Stop UInt16 :=
  match text[i]? with
  | some u => .ok u
  | none => .error .outside

/-- `utf8`, by `WideCharToMultiByte` with `WC_ERR_INVALID_CHARS`. -/
def utf8Text (value : Wide) : Except Stop String :=
  if value = [] then .ok ""
  else if value.length > 2048 then .error .thrown
  else
    match wideChars value with
    | none => .error .thrown
    | some cs => if (encode cs).length > 1024 then .error .thrown else .ok (String.ofList cs)

/-- The units of bytes, the low byte first. -/
def units : Bytes → Wide
  | low :: high :: rest => UInt16.ofNat (low.toNat + 256 * high.toNat) :: units rest
  | _ => []

/-- `text.find(L'\0', start)`. -/
def findNul (text : Wide) (start : Nat) : Option Nat :=
  ((text.drop start).findIdx? (· = 0)).map (start + ·)

/-- The loop over the items of a list, from the index `start` of the next one. -/
def readItems (text : Wide) (start : Nat) (items : List Value) : Except Stop (List Value) :=
  if start < text.length - 1 then
    match hend : findNul text start with
    | none => .error (.failed "limit")
    | some stop =>
      if stop = start then
        if start ≠ text.length - 2 ∨ items ≠ [] then .error (.failed "error") else .ok items
      else if items.length ≥ 32 then .error (.failed "limit")
      else do
        let item ← utf8Text ((text.drop start).take (stop - start))
        readItems text (stop + 1) (items ++ [.str item])
  else .ok items
termination_by text.length - start
decreasing_by
  obtain ⟨n, -, rfl⟩ := Option.map_eq_some_iff.mp hend
  omega

/-- The value of a registry entry, up to what is observed of it. -/
def registryValue (control : ControlDescriptor) (type : UInt32) (data : Bytes) :
    Except Stop Value :=
  if type = regDword ∧ control.valueType = "dword" then
    if data.length ≠ 4 then .error (.failed "error") else .ok (.int (LittleEndian.value data))
  else
    let single := (type = regSz ∨ type = regExpandSz) ∧ control.valueType = "string"
    let multiple := type = regMultiSz ∧ control.valueType = "string_list"
    if ¬single ∧ ¬multiple then .error (.failed "unsupported")
    else if data = [] ∨ data.length % 2 ≠ 0 ∨ data.length > 4096 then .error (.failed "error")
    else do
      let text := units data
      throwIf ((← unitAt text (text.length - 1)) ≠ 0) (.failed "error")
      if single then
        let text := text.dropLast
        throwIf (findNul text 0 ≠ none) (.failed "error")
        return .str (← utf8Text text)
      else
        throwIf (text.length < 2) (.failed "error")
        throwIf ((← unitAt text (text.length - 2)) ≠ 0) (.failed "error")
        return .arr (← readItems text 0 [])

def failure (control : ControlDescriptor) (status : String) : Except Exn Object :=
  observation control.id status .null

/-- `decode_security_registry_value`: nothing when an index left the buffer. -/
def decodeSecurityRegistryValue (control : ControlDescriptor) (type : UInt32) (data : Bytes) :
    Option (Except Exn Object) :=
  let caught : Except Exn Object → Except Exn Object
    | .ok object => .ok object
    | .error _ => failure control "limit"
  match registryValue control type data with
  | .error .outside => none
  | .error .thrown => some (failure control "limit")
  | .error (.failed status) => some (caught (failure control status))
  | .ok value => some (caught (observation control.id "ok" value))

/-! ## UTF-16 -/

/-- The units of a character. -/
def utf16 (c : Char) : Wide :=
  if c.toNat < 0x10000 then [UInt16.ofNat c.toNat]
  else [UInt16.ofNat (0xd800 + (c.toNat - 0x10000) / 0x400),
    UInt16.ofNat (0xdc00 + (c.toNat - 0x10000) % 0x400)]

theorem toNat_unit {n : Nat} (h : n < 0x10000) : (UInt16.ofNat n).toNat = n := by
  rw [UInt16.toNat_ofNat', Nat.mod_eq_of_lt h]

theorem ofNat_unit (u : UInt16) : UInt16.ofNat u.toNat = u := by
  simp

theorem toNat_char {n : Nat} (h : n.isValidChar) : (Char.ofNat n).toNat = n := by
  rw [Char.ofNat, dif_pos h]
  rfl

/-- The units of a character in front of a text are read as the character. -/
theorem wideChars_utf16 (c : Char) (rest : Wide) :
    wideChars (utf16 c ++ rest) = (wideChars rest).map (c :: ·) := by
  have hvalid : c.toNat < 0xd800 ∨ 0xdfff < c.toNat ∧ c.toNat < 0x110000 := c.valid
  unfold utf16
  by_cases hone : c.toNat < 0x10000
  · have hunit := toNat_unit hone
    have hhigh : highSurrogate (UInt16.ofNat c.toNat) = false := by
      rw [highSurrogate, hunit]
      simp only [Bool.and_eq_false_iff, decide_eq_false_iff_not]
      omega
    have hlow : lowSurrogate (UInt16.ofNat c.toNat) = false := by
      rw [lowSurrogate, hunit]
      simp only [Bool.and_eq_false_iff, decide_eq_false_iff_not]
      omega
    rw [if_pos hone, List.singleton_append, wideChars.eq_def]
    simp only [hhigh, hlow, hunit, Bool.false_eq_true, if_false, Char.ofNat_toNat]
  · have hfirst := toNat_unit (n := 0xd800 + (c.toNat - 0x10000) / 0x400) (by omega)
    have hsecond := toNat_unit (n := 0xdc00 + (c.toNat - 0x10000) % 0x400) (by omega)
    have hhigh : highSurrogate (UInt16.ofNat (0xd800 + (c.toNat - 0x10000) / 0x400)) = true := by
      rw [highSurrogate, hfirst]
      simp only [Bool.and_eq_true, decide_eq_true_eq]
      omega
    have hlow : lowSurrogate (UInt16.ofNat (0xdc00 + (c.toNat - 0x10000) % 0x400)) = true := by
      rw [lowSurrogate, hsecond]
      simp only [Bool.and_eq_true, decide_eq_true_eq]
      omega
    have hpoint : 0x10000 + (0xd800 + (c.toNat - 0x10000) / 0x400 - 0xd800) * 0x400 +
        (0xdc00 + (c.toNat - 0x10000) % 0x400 - 0xdc00) = c.toNat := by
      omega
    rw [if_neg hone, List.cons_append, List.singleton_append, wideChars]
    simp only [hhigh, hlow, if_true, hfirst, hsecond, hpoint, Char.ofNat_toNat]

/-- A text is well formed exactly when it is the units of characters. -/
theorem wideChars_eq_some {w : Wide} {cs : List Char} :
    wideChars w = some cs ↔ w = cs.flatMap utf16 := by
  constructor
  · intro h
    fun_induction wideChars w generalizing cs with
    | case1 =>
      cases h
      rfl
    | case2 u hu low rest hlow ih =>
      obtain ⟨tail, htail, rfl⟩ := Option.map_eq_some_iff.mp h
      simp only [highSurrogate, lowSurrogate, Bool.and_eq_true, decide_eq_true_eq] at hu hlow
      have hpoint := toNat_char (n := 0x10000 + (u.toNat - 0xd800) * 0x400 + (low.toNat - 0xdc00))
        (.inr (by omega))
      have hunits : utf16 (Char.ofNat (0x10000 + (u.toNat - 0xd800) * 0x400 +
          (low.toNat - 0xdc00))) = [u, low] := by
        rw [utf16, hpoint, if_neg (by omega),
          show 0xd800 + (0x10000 + (u.toNat - 0xd800) * 0x400 + (low.toNat - 0xdc00) - 0x10000) /
            0x400 = u.toNat by omega,
          show 0xdc00 + (0x10000 + (u.toNat - 0xd800) * 0x400 + (low.toNat - 0xdc00) - 0x10000) %
            0x400 = low.toNat by omega, ofNat_unit, ofNat_unit]
      rw [flatMap_cons, hunits, ih htail]
      rfl
    | case3 | case4 | case5 => cases h
    | case6 u rest hhigh hlow ih =>
      obtain ⟨tail, htail, rfl⟩ := Option.map_eq_some_iff.mp h
      have hbound := u.toNat_lt
      simp only [highSurrogate, lowSurrogate, Bool.and_eq_true, decide_eq_true_eq] at hhigh hlow
      have hpoint := toNat_char (n := u.toNat) (by unfold Nat.isValidChar; omega)
      rw [flatMap_cons, ← ih htail, utf16, hpoint, if_pos (by omega), ofNat_unit]
      rfl
  · rintro rfl
    induction cs with
    | nil => rfl
    | cons c cs ih => rw [flatMap_cons, wideChars_utf16, ih, Option.map_some]

def textUnits (s : String) : Wide := s.toList.flatMap utf16

variable {s : String}

theorem textUnits_injective {t : String} (h : textUnits s = textUnits t) : s = t := by
  have hs := wideChars_eq_some.mpr (rfl : textUnits s = s.toList.flatMap utf16)
  rw [h, wideChars_eq_some.mpr (rfl : textUnits t = t.toList.flatMap utf16)] at hs
  exact String.toList_injective (Option.some.inj hs).symm

theorem zero_mem_textUnits : (0 : UInt16) ∈ textUnits s ↔ Char.ofNat 0 ∈ s.toList := by
  have hchar : ∀ c : Char, (0 : UInt16) ∈ utf16 c ↔ c = Char.ofNat 0 := by
    intro c
    have hvalid : c.toNat < 0xd800 ∨ 0xdfff < c.toNat ∧ c.toNat < 0x110000 := c.valid
    have hzero : ∀ n < 0x10000, (0 : UInt16) = UInt16.ofNat n → n = 0 := fun n hn h =>
      (toNat_unit hn).symm.trans (congrArg UInt16.toNat h).symm
    unfold utf16
    constructor
    · intro h
      split at h
      next hone =>
        have hn := hzero _ hone (List.mem_singleton.mp h)
        rw [← Char.ofNat_toNat c, hn]
      next hone =>
        rcases List.mem_cons.mp h with h | h
        · have := hzero _ (by omega) h
          omega
        · have := hzero _ (by omega) (List.mem_singleton.mp h)
          omega
    · rintro rfl
      decide
  unfold textUnits
  simp only [List.mem_flatMap, hchar, exists_eq_right]

theorem utf8Text_eq_ok {w : Wide} :
    utf8Text w = .ok s ↔ w = textUnits s ∧ w.length ≤ 2048 ∧ (utf8 s).length ≤ 1024 := by
  unfold utf8Text
  by_cases hempty : w = []
  · rw [if_pos hempty, hempty]
    constructor
    · intro h
      cases h
      decide
    · rintro ⟨h, -⟩
      have hnone : textUnits "" = [] := by simp [textUnits]
      rw [textUnits_injective (h.symm.trans hnone.symm)]
  · rw [if_neg hempty]
    by_cases hlong : w.length > 2048
    · rw [if_pos hlong]
      exact ⟨fun h => (nomatch h), fun h => absurd h.2.1 (Nat.not_le.mpr hlong)⟩
    · rw [if_neg hlong]
      cases hchars : wideChars w with
      | none =>
        refine ⟨fun h => (nomatch h), fun h => ?_⟩
        rw [wideChars_eq_some.mpr h.1] at hchars
        cases hchars
      | some cs =>
        have hbytes : encode cs = utf8 (String.ofList cs) := by simp [encode, utf8]
        have hunits := wideChars_eq_some.mp hchars
        simp only
        split
        next hover =>
          refine ⟨fun h => (nomatch h), fun h => ?_⟩
          have hsame : String.ofList cs = s := textUnits_injective (by
            rw [← h.1, hunits, textUnits, String.toList_ofList])
          rw [hbytes, hsame] at hover
          exact absurd h.2.2 (Nat.not_le.mpr hover)
        next hfits =>
          rw [hbytes] at hfits
          constructor
          · intro h
            cases h
            exact ⟨by rw [textUnits, String.toList_ofList, hunits], by omega, by omega⟩
          · rintro ⟨h, -⟩
            have hsame : w = textUnits (String.ofList cs) := by
              rw [hunits, textUnits, String.toList_ofList]
            rw [textUnits_injective (h.symm.trans hsame)]

/-- The bytes of units. -/
def wideBytes (w : Wide) : Bytes := w.flatMap fun u => LittleEndian.bytes 2 u.toNat

theorem length_wideBytes (w : Wide) : (wideBytes w).length = 2 * w.length := by
  induction w with
  | nil => rfl
  | cons u w ih =>
    rw [wideBytes, flatMap_cons, length_append, length_bytes, ← wideBytes,
      ih, length_cons]
    omega

theorem units_wideBytes (w : Wide) : units (wideBytes w) = w := by
  induction w with
  | nil => rfl
  | cons u w ih =>
    have hlt := u.toNat_lt
    have hvalue : value (bytes 2 u.toNat) = u.toNat := value_bytes (by omega)
    rw [bytes, bytes, bytes, value_cons,
      value_cons, value_nil, Nat.mul_zero, Nat.add_zero] at hvalue
    rw [wideBytes, flatMap_cons, bytes, bytes, bytes]
    show UInt16.ofNat _ :: units (wideBytes w) = _
    rw [hvalue, ih, ofNat_unit]

theorem wideBytes_units : (bs : Bytes) → bs.length % 2 = 0 → wideBytes (units bs) = bs
  | [], _ => rfl
  | [_], h => absurd h Nat.one_ne_zero
  | low :: high :: rest, h => by
    have hlow := low.toNat_lt
    have hhigh := high.toNat_lt
    have hrest := wideBytes_units rest (by simpa [Nat.add_assoc] using h)
    have hvalue : value [low, high] = low.toNat + 256 * high.toNat := by
      simp only [value_cons, value_nil, Nat.mul_zero, Nat.add_zero]
    have hfirst : bytes 2 (value [low, high]) = [low, high] :=
      bytes_value [low, high]
    show bytes 2 (UInt16.ofNat (low.toNat + 256 * high.toNat)).toNat ++
      wideBytes (units rest) = low :: high :: rest
    rw [toNat_unit (by omega), ← hvalue, hfirst, hrest]
    rfl

/-- An item of a list with its terminator. -/
def entry (s : String) : Wide := textUnits s ++ [0]

/-- An item that a list can hold. -/
def Listed (s : String) : Prop := s ≠ "" ∧ Char.ofNat 0 ∉ s.toList

/-- The bytes that encode a value for its type. -/
inductive Encodes : String → UInt32 → Value → Bytes → Prop
  | dword {n : Nat} : n < 2 ^ 32 → Encodes "dword" regDword (.int n) (LittleEndian.bytes 4 n)
  | text {type : UInt32} {s : String} : type = regSz ∨ type = regExpandSz →
      Char.ofNat 0 ∉ s.toList → Encodes "string" type (.str s) (wideBytes (entry s))
  | list {items : List String} : items ≠ [] → items.length ≤ 32 → (∀ s ∈ items, Listed s) →
      Encodes "string_list" regMultiSz (.arr (items.map .str))
        (wideBytes (items.flatMap entry ++ [0]))
  | noItems : Encodes "string_list" regMultiSz (.arr []) (wideBytes [0, 0])

variable {text : Wide}

theorem findNul_eq {item rest : Wide} {start : Nat} (hdrop : text.drop start = item ++ 0 :: rest)
    (hitem : 0 ∉ item) : findNul text start = some (start + item.length) := by
  have hfirst : (item ++ 0 :: rest).findIdx? (· = 0) = some item.length := by
    rw [List.findIdx?_append, List.findIdx?_eq_none_iff.mpr fun u hu => by
      simpa using fun h : u = 0 => hitem (h ▸ hu), Option.none_or, List.findIdx?_cons]
    simp
  rw [findNul, hdrop, hfirst]
  rfl

theorem readItems_turn {item rest : Wide} {start : Nat} {items : List Value}
    (hdrop : text.drop start = item ++ 0 :: rest) (hitem : 0 ∉ item) : readItems text start items =
      if start < text.length - 1 then
        if item = [] then
          if start ≠ text.length - 2 ∨ items ≠ [] then .error (.failed "error") else .ok items
        else if items.length ≥ 32 then .error (.failed "limit")
        else do
          let s ← utf8Text item
          readItems text (start + item.length + 1) (items ++ [.str s])
      else .ok items := by
  have hstop := findNul_eq hdrop hitem
  rw [readItems]
  split
  next hmore =>
    split
    next hnone =>
      rw [hnone] at hstop
      cases hstop
    next stop hsome =>
      cases hsome.symm.trans hstop
      have hempty : start + item.length = start ↔ item = [] := by
        rw [← length_eq_zero_iff]
        omega
      have htake : (text.drop start).take (start + item.length - start) = item := by
        rw [hdrop, Nat.add_sub_cancel_left, List.take_left' rfl]
      simp only [hempty, htake]
  · rfl

/-- The loop ends well only behind items and the last terminator, or at once before two. -/
theorem readItems_sound (hlast : text[text.length - 1]? = some 0)
    (hnext : text[text.length - 2]? = some 0) (n : Nat) : ∀ start items result,
    text.length - start = n → start < text.length → items.length ≤ 32 →
    readItems text start items = .ok result →
    text.drop start = [0, 0] ∧ items = [] ∧ result = [] ∨
      ∃ new : List String, result = items ++ new.map .str ∧ result.length ≤ 32 ∧
        (∀ s ∈ new, Listed s) ∧ text.drop start = new.flatMap entry ++ [0] := by
  induction n using Nat.strongRecOn with
  | ind n ih =>
    intro start items result hn hstart hcount h
    have hzero : (0 : UInt16) ∈ text.drop start := by
      refine List.mem_of_getElem? (i := text.length - 1 - start) ?_
      rw [List.getElem?_drop, Nat.add_sub_cancel' (by omega), hlast]
    obtain ⟨item, rest, hdrop, hitem⟩ := List.eq_append_cons_of_mem hzero
    have hlength := congrArg length hdrop
    rw [length_drop, length_append, length_cons] at hlength
    have hat : ∀ i, text[start + i]? = (item ++ 0 :: rest)[i]? := fun i => by
      rw [← hdrop, List.getElem?_drop]
    rw [readItems_turn hdrop hitem] at h
    split at h
    next hmore =>
      split at h
      next hempty =>
        split at h
        · cases h
        rename_i hend
        cases h
        rw [not_or, not_not, not_not] at hend
        obtain ⟨rfl, hitems⟩ := hend
        have hone : rest.length = 1 := by
          rw [hempty] at hlength
          simp only [length_nil] at hlength
          omega
        obtain ⟨u, rfl⟩ := List.length_eq_one_iff.mp hone
        have hu := hat 1
        rw [show text.length - 2 + 1 = text.length - 1 by omega, hlast, hempty] at hu
        cases hu
        exact .inl ⟨by rw [hdrop, hempty]; rfl, hitems, hitems⟩
      next hne =>
        split at h
        · cases h
        rename_i hroom
        obtain ⟨s, hs, h⟩ := bind_eq_ok.mp h
        obtain ⟨hunits, -, -⟩ := utf8Text_eq_ok.mp hs
        have hpos := List.length_pos_of_ne_nil hne
        have hrest : rest ≠ [] := by
          rintro rfl
          -- the last item would end at the unit before the last, which is NUL
          have hu := hat (item.length - 1)
          rw [length_nil] at hlength
          rw [show start + (item.length - 1) = text.length - 2 by omega, hnext,
            List.getElem?_append_left (by omega)] at hu
          exact hitem (List.mem_of_getElem? hu.symm)
        have hafter : text.drop (start + item.length + 1) = rest := by
          rw [Nat.add_assoc, ← drop_drop, hdrop, ← drop_drop, List.drop_left' rfl]
          rfl
        have := List.length_pos_of_ne_nil hrest
        rcases ih (text.length - (start + item.length + 1)) (by omega) _ _ _ rfl (by omega)
            (by rw [length_append, length_singleton]; omega) h with
          ⟨-, hitems, -⟩ | ⟨new, rfl, hlimit, hlisted, htext⟩
        · cases List.append_eq_nil_iff.mp hitems |>.2
        · have hself : Listed s := by
            refine ⟨?_, fun hnul => hitem (hunits ▸ zero_mem_textUnits.mpr hnul)⟩
            rintro rfl
            exact hne (by rw [hunits]; simp [textUnits])
          refine .inr ⟨s :: new, by simp, hlimit, List.forall_mem_cons.mpr ⟨hself, hlisted⟩, ?_⟩
          rw [hdrop, flatMap_cons, entry, ← hunits, append_assoc, append_assoc,
            ← htext, hafter]
          rfl
    next hdone =>
      cases h
      have hsingle : item = [] ∧ rest = [] := by
        rw [← length_eq_zero_iff, ← length_eq_zero_iff]
        omega
      refine .inr ⟨[], by simp, hcount, nofun, ?_⟩
      rw [hdrop, hsingle.1, hsingle.2]
      rfl

/-- The loop reads the items of a list that has room for them. -/
theorem readItems_complete {text : Wide} : (new : List String) → (start : Nat) →
    (items : List Value) → text.drop start = new.flatMap entry ++ [0] →
    (∀ s ∈ new, Listed s ∧ (textUnits s).length ≤ 2048 ∧ (utf8 s).length ≤ 1024) →
    items.length + new.length ≤ 32 →
    readItems text start items = .ok (items ++ new.map .str)
  | [], start, items, hdrop, _, _ => by
    have hlength := congrArg length hdrop
    rw [length_drop] at hlength
    simp only [List.flatMap_nil, List.nil_append, length_singleton] at hlength
    rw [readItems, if_neg (by omega), List.map_nil, List.append_nil]
  | s :: new, start, items, hdrop, hnew, hcount => by
    obtain ⟨⟨hlisted, hwide, hbytes⟩, hnew⟩ := List.forall_mem_cons.mp hnew
    rw [flatMap_cons, entry, append_assoc, append_assoc,
      List.singleton_append] at hdrop
    rw [length_cons] at hcount
    have hlength := congrArg length hdrop
    simp only [length_drop, length_append, length_cons, length_nil] at hlength
    have hne : textUnits s ≠ [] := fun h =>
      hlisted.1 (textUnits_injective (h.trans (by simp [textUnits])))
    have hpos := List.length_pos_of_ne_nil hne
    have hafter : text.drop (start + (textUnits s).length + 1) = new.flatMap entry ++ [0] := by
      rw [Nat.add_assoc, ← drop_drop, hdrop, ← drop_drop, List.drop_left' rfl]
      rfl
    rw [readItems_turn hdrop (fun h => hlisted.2 (zero_mem_textUnits.mp h)), if_pos (by omega),
      if_neg hne, if_neg (by omega), utf8Text_eq_ok.mpr ⟨rfl, hwide, hbytes⟩, ok_bind,
      readItems_complete new _ _ hafter hnew
        (by rw [length_append, length_singleton]; omega)]
    simp

/-! ## Values -/

theorem unitAt_eq {i : Nat} {u : UInt16} : unitAt text i = .ok u ↔ text[i]? = some u := by
  unfold unitAt
  split
  next v hv => rw [hv, Except.ok.injEq, Option.some.injEq]
  next hnone => simp [hnone]

variable {control : ControlDescriptor} {type : UInt32} {data : Bytes} {v : Value}

/-- A value that is read is encoded by the bytes. -/
theorem registryValue_sound (h : registryValue control type data = .ok v) :
    Encodes control.valueType type v data ∧ data.length ≤ 4096 := by
  unfold registryValue at h
  split at h
  next hdword =>
    split at h
    · cases h
    rename_i hlength
    cases h
    rw [not_not] at hlength
    have hvalue := value_lt data
    have hbytes := bytes_value data
    rw [hlength] at hvalue hbytes
    rw [hdword.1, hdword.2, ← hbytes, value_bytes (by omega)]
    exact ⟨.dword (by omega), by rw [length_bytes]; decide⟩
  next =>
    dsimp only at h
    split at h
    · cases h
    rename_i htyped
    split at h
    · cases h
    rename_i hbytes
    rw [not_or, not_or, not_not, Nat.not_lt] at hbytes
    obtain ⟨-, heven, hlength⟩ := hbytes
    refine ⟨?_, hlength⟩
    have hdata := wideBytes_units data heven
    generalize units data = text at h hdata
    subst hdata
    obtain ⟨u, hu, h⟩ := bind_eq_ok.mp h
    obtain ⟨_, hzero, h⟩ := bind_eq_ok.mp h
    rw [throwIf_eq_ok, not_not] at hzero
    rw [unitAt_eq, hzero] at hu
    split at h
    next hsingle =>
      obtain ⟨_, hnul, h⟩ := bind_eq_ok.mp h
      obtain ⟨s, hs, h⟩ := bind_eq_ok.mp h
      cases h
      obtain ⟨hunits, -, -⟩ := utf8Text_eq_ok.mp hs
      have hnone : (0 : UInt16) ∉ text.dropLast := by
        intro hmem
        obtain ⟨item, rest, hcut, hitem⟩ := List.eq_append_cons_of_mem hmem
        rw [throwIf_eq_ok, not_not, @findNul_eq _ item rest 0 hcut hitem] at hnul
        cases hnul
      have hsplit : text = entry s := by
        rw [entry, ← hunits]
        refine (List.dropLast_append_getLast? 0 ?_).symm
        rw [List.getLast?_eq_getElem?]
        exact hu
      rw [hsplit, hsingle.2]
      exact .text hsingle.1 fun hmem => hnone (hunits ▸ zero_mem_textUnits.mpr hmem)
    next hsingle =>
      obtain ⟨_, htwo, h⟩ := bind_eq_ok.mp h
      obtain ⟨u, hnext, h⟩ := bind_eq_ok.mp h
      obtain ⟨_, hzero, h⟩ := bind_eq_ok.mp h
      obtain ⟨items, hitems, h⟩ := bind_eq_ok.mp h
      cases h
      rw [throwIf_eq_ok, Nat.not_lt] at htwo
      rw [throwIf_eq_ok, not_not] at hzero
      rw [unitAt_eq, hzero] at hnext
      obtain ⟨htype, hvalue⟩ := (not_and_or.mp htyped).elim (absurd · (not_not.mpr hsingle))
        fun hmultiple => not_not.mp hmultiple
      rw [htype, hvalue]
      rcases readItems_sound hu hnext _ 0 [] items rfl (by omega) (by simp) hitems with
        ⟨htext, -, rfl⟩ | ⟨new, rfl, hcount, hlisted, htext⟩
      · rw [show text = [0, 0] from htext]
        exact .noItems
      · rw [List.nil_append] at hcount ⊢
        rw [show text = new.flatMap entry ++ [0] from htext]
        refine .list ?_ (by rwa [List.length_map] at hcount) hlisted
        rintro rfl
        rw [show text = [0] from htext] at htwo
        exact absurd htwo (by decide)

/-- What is read of units with a last NUL, where the type is one of texts. -/
theorem registryValue_units
    (htyped : (type = regSz ∨ type = regExpandSz) ∧ control.valueType = "string" ∨
      type = regMultiSz ∧ control.valueType = "string_list")
    (hlength : (wideBytes text).length ≤ 4096) (hlast : text[text.length - 1]? = some 0) :
    registryValue control type (wideBytes text) =
      if (type = regSz ∨ type = regExpandSz) ∧ control.valueType = "string" then do
        throwIf (findNul text.dropLast 0 ≠ none) (.failed "error")
        return .str (← utf8Text text.dropLast)
      else do
        throwIf (text.length < 2) (.failed "error")
        throwIf ((← unitAt text (text.length - 2)) ≠ 0) (.failed "error")
        return .arr (← readItems text 0 []) := by
  have hdword : ¬(type = regDword ∧ control.valueType = "dword") := by
    rintro ⟨-, hvalue⟩
    rw [hvalue] at htyped
    rcases htyped with h | h
    · exact absurd h.2 (by decide)
    · exact absurd h.2 (by decide)
  have hbytes : ¬(wideBytes text = [] ∨ (wideBytes text).length % 2 ≠ 0 ∨
      (wideBytes text).length > 4096) := by
    have hpos : text.length ≠ 0 := by
      intro hzero
      rw [length_eq_zero_iff.mp hzero] at hlast
      cases hlast
    rw [← length_eq_zero_iff]
    rw [length_wideBytes] at hlength ⊢
    omega
  unfold registryValue
  rw [if_neg hdword]
  dsimp only
  rw [if_neg (not_and_or.mpr (htyped.imp not_not.mpr not_not.mpr)), if_neg hbytes, units_wideBytes,
    unitAt_eq.mpr hlast, ok_bind, throwIf_bind, if_neg (not_not.mpr rfl)]

theorem clean_length (h : clean s 1024 = true) : (utf8 s).length ≤ 1024 := by
  simp only [clean, Bool.and_eq_true, decide_eq_true_eq] at h
  exact h.1

/-- A value that can be observed is read from its encoding. -/
theorem registryValue_complete (h : Encodes control.valueType type v data)
    (hlength : data.length ≤ 4096) (hmeasured : measuredValue v = true) :
    registryValue control type data = .ok v := by
  generalize hvalue : control.valueType = valueType at h
  cases h with
  | dword hn =>
    unfold registryValue
    rw [if_pos ⟨rfl, hvalue⟩, if_neg (by rw [length_bytes]; decide),
      value_bytes hn]
  | @text type s htype hnul =>
    have hnone : findNul (textUnits s) 0 = none := by
      rw [findNul, List.drop_zero, List.findIdx?_eq_none_iff.mpr, Option.map_none]
      intro u hu
      simpa using fun hzero : u = 0 => hnul (zero_mem_textUnits.mp (hzero ▸ hu))
    have hwide := hlength
    rw [length_wideBytes, entry, length_append, length_singleton] at hwide
    rw [registryValue_units (.inl ⟨htype, hvalue⟩) hlength (by simp [entry]),
      if_pos ⟨htype, hvalue⟩, entry, List.dropLast_concat, throwIf_bind,
      if_neg (not_not.mpr hnone),
      utf8Text_eq_ok.mpr ⟨rfl, by omega, clean_length hmeasured⟩]
    rfl
  | @list items hne hcount hlisted =>
    have hsingle : ¬((regMultiSz = regSz ∨ regMultiSz = regExpandSz) ∧
        control.valueType = "string") := fun h => absurd h.1 (by decide)
    have hwide := hlength
    rw [length_wideBytes, length_append, length_singleton] at hwide
    obtain ⟨body, hbody⟩ : ∃ body, items.flatMap entry = body ++ [0] := by
      obtain rfl | ⟨init, last, rfl⟩ := List.eq_nil_or_concat items
      · exact absurd rfl hne
      · exact ⟨init.flatMap entry ++ textUnits last, by simp [entry]⟩
    have hnext : unitAt (items.flatMap entry ++ [0]) ((items.flatMap entry ++ [0]).length - 2) =
        .ok 0 := unitAt_eq.mpr (by rw [hbody]; simp)
    rw [registryValue_units (.inr ⟨rfl, hvalue⟩) hlength (by simp), if_neg hsingle,
      throwIf_bind, if_neg (by rw [hbody]; simp), hnext, ok_bind,
      throwIf_bind, if_neg (not_not.mpr rfl),
      readItems_complete items 0 [] rfl ?_ (by simpa using hcount)]
    · rfl
    · intro s hs
      have hitem := List.all_eq_true.mp (Bool.and_eq_true_iff.mp hmeasured).2 (.str s)
        (List.mem_map_of_mem hs)
      have hpart : (entry s).length ≤ (items.flatMap entry).length := by
        obtain ⟨before, after, rfl⟩ := List.append_of_mem hs
        simp only [List.flatMap_append, flatMap_cons, length_append]
        omega
      rw [entry, length_append, length_singleton] at hpart
      exact ⟨hlisted s hs, by omega, clean_length hitem⟩
  | noItems =>
    have hsingle : ¬((regMultiSz = regSz ∨ regMultiSz = regExpandSz) ∧
        control.valueType = "string") := fun h => absurd h.1 (by decide)
    have hturn := @readItems_turn [0, 0] [] [0] 0 [] rfl (by simp)
    rw [registryValue_units (.inr ⟨rfl, hvalue⟩) (by decide) rfl, if_neg hsingle]
    show (readItems [0, 0] 0 [] >>= fun items => _) = _
    rw [hturn]
    rfl

/-! ## No index leaves the buffer -/

/-- A stop that is returned with a status of its own. -/
def Stop.Refusal : Stop → Prop
  | .outside => False
  | .failed status => status ∈ unreadStatuses
  | .thrown => True

/-- A read that stays in the buffer. -/
def Inside {α : Type} (x : Except Stop α) : Prop := ∀ stop, x = .error stop → stop.Refusal

variable {α : Type}

theorem inside_ok (a : α) : Inside (.ok a) := nofun

theorem inside_error {stop : Stop} (h : stop.Refusal) : Inside (.error stop : Except Stop α) := by
  rintro _ ⟨⟩
  exact h

theorem inside_bind {β : Type} {x : Except Stop α} {f : α → Except Stop β} (hx : Inside x)
    (hf : ∀ a, Inside (f a)) : Inside (x >>= f) := by
  cases x with
  | error stop => exact inside_error (hx stop rfl)
  | ok a => exact hf a

theorem inside_throwIf {c : Prop} [Decidable c] {status : String} (h : status ∈ unreadStatuses) :
    Inside (throwIf c (.failed status)) := by
  unfold throwIf
  split
  · exact inside_error h
  · exact inside_ok ()

theorem inside_utf8Text (w : Wide) : Inside (utf8Text w) := by
  unfold utf8Text
  split
  · exact inside_ok ""
  · split
    · exact inside_error trivial
    · split
      · exact inside_error trivial
      · split
        · exact inside_error trivial
        · exact inside_ok _

theorem inside_readItems (text : Wide) (start : Nat) (items : List Value) :
    Inside (readItems text start items) := by
  fun_induction readItems text start items with
  | case1 | case4 => exact inside_error (by decide : "limit" ∈ unreadStatuses)
  | case2 => exact inside_error (by decide : "error" ∈ unreadStatuses)
  | case5 start items _ _ _ _ _ ih => exact inside_bind (inside_utf8Text _) ih
  | case3 | case6 => exact inside_ok _

/-- Every read of a value stays in the buffer. -/
theorem inside_registryValue (control : ControlDescriptor) (type : UInt32) (data : Bytes) :
    Inside (registryValue control type data) := by
  have herror : "error" ∈ unreadStatuses := by decide
  unfold registryValue
  split
  · split
    · exact inside_error herror
    · exact inside_ok _
  · dsimp only
    split
    · exact inside_error (by decide : "unsupported" ∈ unreadStatuses)
    · split
      · exact inside_error herror
      rename_i hbytes
      rw [not_or, not_or, not_not, ← ne_eq, ← List.length_pos_iff] at hbytes
      have hlength := congrArg length (wideBytes_units data hbytes.2.1)
      rw [length_wideBytes] at hlength
      have hunit : ∀ i < (units data).length, Inside (unitAt (units data) i) := by
        intro i hi
        rw [unitAt_eq.mpr (List.getElem?_eq_getElem hi)]
        exact inside_ok _
      refine inside_bind (hunit _ (by omega)) fun _ =>
        inside_bind (inside_throwIf herror) fun _ => ?_
      split
      · exact inside_bind (inside_throwIf herror) fun _ =>
          inside_bind (inside_utf8Text _) fun _ => inside_ok _
      · by_cases hshort : (units data).length < 2
        · rw [throwIf_bind, if_pos hshort]
          exact inside_error herror
        · rw [throwIf_bind, if_neg hshort]
          refine inside_bind (hunit _ (by omega)) fun _ =>
            inside_bind (inside_throwIf herror) fun _ => ?_
          exact inside_bind (inside_readItems _ _ _) fun _ => inside_ok _

/-! ## Observations -/

/-- A measured observation. -/
def measured (id : String) (v : Value) : Object :=
  [("control_id", .str id), ("read_status", .str "ok"), ("value", v)]

/-- An observation without a value. -/
def unread (id status : String) : Object :=
  [("control_id", .str id), ("read_status", .str status), ("value", .null)]

/-- The limits of a value that is observed. -/
def Observable (v : Value) : Prop :=
  measuredValue v = true ∧ ∃ text, serialize v = .ok text ∧ text.length ≤ 1024

theorem observation_ok {id : String} {object : Object} : observation id "ok" v = .ok object ↔
      token id = true ∧ Observable v ∧ object = measured id v := by
  unfold observation Observable
  rw [if_pos rfl]
  constructor
  · intro h
    obtain ⟨_, htoken, h⟩ := bind_eq_ok.mp h
    obtain ⟨_, hvalue, h⟩ := bind_eq_ok.mp h
    obtain ⟨text, htext, h⟩ := bind_eq_ok.mp h
    obtain ⟨_, hlength, h⟩ := bind_eq_ok.mp h
    cases h
    rw [throwIf_eq_ok, Bool.not_eq_false] at htoken hvalue
    rw [throwIf_eq_ok, Nat.not_lt] at hlength
    exact ⟨htoken, ⟨hvalue, text, htext, hlength⟩, rfl⟩
  · rintro ⟨htoken, ⟨hvalue, text, htext, hlength⟩, rfl⟩
    rw [throwIf_bind, if_neg (by simp [htoken]), throwIf_bind, if_neg (by simp [hvalue]), htext,
      ok_bind, throwIf_bind, if_neg (by omega)]
    rfl

theorem failure_eq {status : String} (htoken : token control.id = true)
    (hstatus : status ∈ unreadStatuses) :
    failure control status = .ok (unread control.id status) := by
  have hne : status ≠ "ok" := by
    rintro rfl
    exact absurd hstatus (by decide)
  unfold failure observation
  rw [throwIf_bind, if_neg (by simp [htoken]), if_neg hne, throwIf_bind, if_neg (by simp [hstatus])]
  rfl

theorem decodeSecurityRegistryValue_token {object : Object}
    (h : decodeSecurityRegistryValue control type data = some (.ok object)) :
    token control.id = true := by
  by_contra htoken
  rw [Bool.not_eq_true] at htoken
  have hnone : ∀ status v, observation control.id status v = .error invalid := by
    intro status v
    rw [observation, throwIf_bind, if_pos htoken]
  unfold decodeSecurityRegistryValue failure at h
  simp only [hnone] at h
  split at h <;> cases h

def encoding : Value → Bytes
  | .int n => LittleEndian.bytes 4 n.toNat
  | .str s => wideBytes (entry s)
  | .arr [] => wideBytes [0, 0]
  | .arr items => wideBytes ((items.flatMap fun | .str s => entry s | _ => []) ++ [0])
  | _ => []

theorem Encodes.eq_encoding {valueType : String} (h : Encodes valueType type v data) :
    data = encoding v := by
  cases h with
  | dword | text | noItems => rfl
  | @list items hne =>
    cases items with
    | nil => exact absurd rfl hne
    | cons s items => simp [encoding, List.flatMap_map]

theorem decodeSecurityRegistryValue_eq (htoken : token control.id = true) (type : UInt32)
    (data : Bytes) : (∃ v, registryValue control type data = .ok v ∧ Observable v ∧
      decodeSecurityRegistryValue control type data = some (.ok (measured control.id v))) ∨
    (∀ v, registryValue control type data = .ok v → ¬Observable v) ∧
      ∃ status ∈ unreadStatuses,
        decodeSecurityRegistryValue control type data = some (.ok (unread control.id status)) := by
  have hlimit : "limit" ∈ unreadStatuses := by decide
  unfold decodeSecurityRegistryValue
  cases hread : registryValue control type data with
  | error stop =>
    have hstop := inside_registryValue control type data stop hread
    cases stop with
    | outside => exact hstop.elim
    | thrown => exact .inr ⟨nofun, "limit", hlimit, by rw [failure_eq htoken hlimit]⟩
    | failed status => exact .inr ⟨nofun, status, hstop, by simp only [failure_eq htoken hstop]⟩
  | ok value =>
    cases hobserved : observation control.id "ok" value with
    | ok object =>
      obtain ⟨-, hvalue, rfl⟩ := observation_ok.mp hobserved
      exact .inl ⟨value, rfl, hvalue, by simp only [hobserved]⟩
    | error e =>
      refine .inr ⟨?_, "limit", hlimit, by simp only [hobserved, failure_eq htoken hlimit]⟩
      rintro _ ⟨⟩ hvalue
      rw [observation_ok.mpr ⟨htoken, hvalue, rfl⟩] at hobserved
      cases hobserved

/-- A value is measured exactly when the bytes encode it within the limits; all else is returned
without a value, no index leaves the buffer, and a value has one encoding for a type. -/
theorem registry_value_decoded (control : ControlDescriptor) (type : UInt32) (data : Bytes) :
    (∀ v, decodeSecurityRegistryValue control type data = some (.ok (measured control.id v)) ↔
      token control.id = true ∧ Encodes control.valueType type v data ∧ data.length ≤ 4096 ∧
        Observable v) ∧
    (token control.id = true →
      (¬∃ v, Encodes control.valueType type v data ∧ data.length ≤ 4096 ∧ Observable v) →
      ∃ status ∈ unreadStatuses,
        decodeSecurityRegistryValue control type data = some (.ok (unread control.id status))) ∧
    decodeSecurityRegistryValue control type data ≠ none ∧
    ∀ other v, decodeSecurityRegistryValue control type data = some (.ok (measured control.id v)) →
      decodeSecurityRegistryValue control type other = some (.ok (measured control.id v)) →
        data = other := by
  have hmeasured : ∀ data v,
      decodeSecurityRegistryValue control type data = some (.ok (measured control.id v)) ↔
        token control.id = true ∧ Encodes control.valueType type v data ∧ data.length ≤ 4096 ∧
          Observable v := by
    intro data v
    constructor
    · intro h
      have htoken := decodeSecurityRegistryValue_token h
      rcases decodeSecurityRegistryValue_eq htoken type data with
        ⟨w, hread, hobserved, hw⟩ | ⟨-, status, hstatus, hunread⟩
      · cases hw.symm.trans h
        obtain ⟨hencoded, hlength⟩ := registryValue_sound hread
        exact ⟨htoken, hencoded, hlength, hobserved⟩
      · cases hunread.symm.trans h
        exact absurd hstatus (by decide)
    · rintro ⟨htoken, hencoded, hlength, hobserved⟩
      have hread := registryValue_complete hencoded hlength hobserved.1
      rcases decodeSecurityRegistryValue_eq htoken type data with ⟨w, hw, -, h⟩ | ⟨hnone, -⟩
      · cases hread.symm.trans hw
        exact h
      · exact absurd hobserved (hnone v hread)
  refine ⟨hmeasured data, fun htoken hnone => ?_, ?_, fun other v hdata hother =>
    ((hmeasured data v).mp hdata).2.1.eq_encoding.trans
      ((hmeasured other v).mp hother).2.1.eq_encoding.symm⟩
  · rcases decodeSecurityRegistryValue_eq htoken type data with ⟨v, hread, hobserved, -⟩ | ⟨-, h⟩
    · obtain ⟨hencoded, hlength⟩ := registryValue_sound hread
      exact absurd ⟨v, hencoded, hlength, hobserved⟩ hnone
    · exact h
  · intro houtside
    unfold decodeSecurityRegistryValue at houtside
    dsimp only at houtside
    split at houtside
    next h => exact inside_registryValue control type data _ h
    all_goals cases houtside

/-- The text of a tab is encoded within the limits, and it is not measured: a control character is
refused. -/
theorem registry_value_tab :
    let control : ControlDescriptor :=
      ⟨"account", .registryValue, "machine", "Software", "Name", "string"⟩
    Encodes control.valueType regSz (.str "\t") [9, 0, 0, 0] ∧
      decodeSecurityRegistryValue control regSz [9, 0, 0, 0] =
        some (.ok (unread "account" "limit")) := by
  refine ⟨?_, by decide +kernel⟩
  exact .text (.inl rfl) (by decide)

end Ipms.Agent.Security.Registry
