import Mathlib.Data.List.TakeWhile
import Ipms.Lib.Fallible
import Ipms.Server.NativeProtocol.Framer

/-
  Ipms.Server.NativeProtocol.Framing

  Framing does not depend on where the stream is split.  A call of `feed` reads
  runs of characters; the framer that reads one character at a time reaches the
  same states and completes the same instructions, so a call only decides which
  instructions share a message.
-/

namespace Ipms.Server.NativeProtocol

open Ipms.Lib Transducer
open Ipms.Agent.Gpo (digit digitsValue)

namespace Framer

/-! ## Runs of characters -/

variable {s s' : Framer} {text : List Char}

theorem append_eq_ok :
    s.append text = .ok s' ↔ s.size + byteLength text ≤ s.maximum ∧ s' = s.extend text := by
  unfold append
  by_cases h : s.size + byteLength text > s.maximum
  · rw [if_pos h]
    simp only [reduceCtorEq, false_iff, not_and]
    omega
  · rw [if_neg h]
    simp only [Except.ok.injEq]
    exact ⟨fun heq => ⟨by omega, heq.symm⟩, fun heq => heq.2.symm⟩

/-- Digits the framer accepts. -/
def DigitsFit (s : Framer) (digits : List Char) : Prop :=
  (s.lengthPrefix ++ digits).length ≤ 7 ∧ number (s.lengthPrefix ++ digits) = true ∧
    s.size + byteLength digits ≤ s.maximum

/-- The framer with more digits of its length. -/
def withDigits (s : Framer) (digits : List Char) : Framer :=
  { s with lengthPrefix := s.lengthPrefix ++ digits }.extend digits

variable {digits : List Char}

theorem readDigits_eq_ok :
    s.readDigits digits = .ok s' ↔ s.DigitsFit digits ∧ s' = s.withDigits digits := by
  unfold readDigits DigitsFit
  by_cases h : (s.lengthPrefix ++ digits).length > 7 ∨ number (s.lengthPrefix ++ digits) = false
  · simp only [if_pos h, reduceCtorEq, false_iff, not_and]
    rintro ⟨hlength, hnumber, -⟩
    rcases h with h | h
    · omega
    · rw [h] at hnumber
      cases hnumber
  · rw [not_or, Bool.not_eq_false, Nat.not_lt] at h
    simp only [if_neg (show ¬((s.lengthPrefix ++ digits).length > 7 ∨
      number (s.lengthPrefix ++ digits) = false) by rw [h.2]; simp; simpa using h.1)]
    rw [append_eq_ok]
    exact ⟨fun heq => ⟨⟨h.1, h.2, heq.1⟩, heq.2⟩, fun heq => ⟨heq.1.2.2, heq.2⟩⟩

/-- The framer after the dot of a length. -/
def withDot (s : Framer) : Framer :=
  { s with lengthPrefix := [], remaining := some (digitsValue s.lengthPrefix) }.extend ['.']

theorem readDot_eq_ok : s.readDot = .ok s' ↔
      s.size + 1 + digitsValue s.lengthPrefix + 1 ≤ s.maximum ∧ s' = s.withDot := by
  unfold readDot
  simp only [bind_eq_ok, append_eq_ok]
  constructor
  · rintro ⟨t, ⟨-, rfl⟩, h⟩
    split at h
    · cases h
    rename_i hroom
    obtain rfl := Except.ok.inj h
    have hsize : s.size + 1 + digitsValue s.lengthPrefix + 1 ≤ s.maximum := Nat.not_lt.mp hroom
    exact ⟨hsize, rfl⟩
  · rintro ⟨hroom, rfl⟩
    refine ⟨s.withDot, ⟨?_, rfl⟩, ?_⟩
    · show s.size + 1 ≤ s.maximum
      omega
    · exact if_neg (Nat.not_lt.mpr hroom)

/-- The framer with more characters of an element. -/
def withContent (s : Framer) (missing : Nat) (text : List Char) : Framer :=
  { s.extend text with remaining := some (missing - text.length) }

theorem readContent_eq_ok {missing : Nat} : s.readContent missing text = .ok s' ↔
      s.size + byteLength text ≤ s.maximum ∧ s' = s.withContent missing text := by
  unfold readContent
  simp only [bind_eq_ok, append_eq_ok, pure_eq_ok]
  constructor
  · rintro ⟨t, ⟨hroom, rfl⟩, rfl⟩
    exact ⟨hroom, rfl⟩
  · rintro ⟨hroom, rfl⟩
    exact ⟨s.extend text, ⟨hroom, rfl⟩, rfl⟩

/-- The framer after a delimiter. -/
def withDelimiter (s : Framer) (c : Char) : Framer := { s.extend [c] with remaining := none }

variable {c : Char}

theorem readDelimiter_eq_ok : s.readDelimiter c = .ok s' ↔
      (c = ',' ∨ c = ';') ∧ s.size + byteLength [c] ≤ s.maximum ∧ s' = s.withDelimiter c := by
  unfold readDelimiter
  by_cases hc : c ≠ ',' ∧ c ≠ ';'
  · rw [if_pos hc]
    simp only [reduceCtorEq, false_iff, not_and]
    intro hor
    exact absurd hor (by tauto)
  · rw [if_neg hc]
    simp only [bind_eq_ok, append_eq_ok, pure_eq_ok]
    constructor
    · rintro ⟨t, ⟨hroom, rfl⟩, rfl⟩
      exact ⟨by tauto, hroom, rfl⟩
    · rintro ⟨-, hroom, rfl⟩
      exact ⟨s.extend [c], ⟨hroom, rfl⟩, rfl⟩

/-! ### One character -/

variable {r : Framer × List (List Char)}

theorem char_digit (hs : s.remaining = none) (hc : c ≠ '.') :
    s.char c = .ok r ↔ s.DigitsFit [c] ∧ r = (s.withDigits [c], []) := by
  unfold char
  rw [hs]
  simp only [if_neg hc, bind_eq_ok, readDigits_eq_ok, pure_eq_ok]
  constructor
  · rintro ⟨t, ⟨hfit, rfl⟩, rfl⟩
    exact ⟨hfit, rfl⟩
  · rintro ⟨hfit, rfl⟩
    exact ⟨_, ⟨hfit, rfl⟩, rfl⟩

theorem char_dot {s : Framer} {r : Framer × List (List Char)} (hs : s.remaining = none) :
    s.char '.' = .ok r ↔ ∃ s', s.readDigits [] = .ok s' ∧ ∃ t, s'.readDot = .ok t ∧ r = (t, []) := by
  unfold char
  rw [hs]
  simp only [if_true, bind_eq_ok, pure_eq_ok]
  constructor
  · rintro ⟨s', hdigits, t, hdot, rfl⟩
    exact ⟨s', hdigits, t, hdot, rfl⟩
  · rintro ⟨s', hdigits, t, hdot, rfl⟩
    exact ⟨s', hdigits, t, hdot, rfl⟩

theorem char_content {n : Nat} (hs : s.remaining = some (n + 1)) :
    s.char c = .ok r ↔ s.size + byteLength [c] ≤ s.maximum ∧ r = (s.withContent (n + 1) [c], []) := by
  unfold char
  rw [hs]
  simp only [bind_eq_ok, readContent_eq_ok, pure_eq_ok]
  constructor
  · rintro ⟨t, ⟨hroom, rfl⟩, rfl⟩
    exact ⟨hroom, rfl⟩
  · rintro ⟨hroom, rfl⟩
    exact ⟨_, ⟨hroom, rfl⟩, rfl⟩

theorem char_delimiter {s : Framer} {c : Char} {r : Framer × List (List Char)}
    (hs : s.remaining = some 0) :
    s.char c = .ok r ↔ (c = ',' ∨ c = ';') ∧ s.size + byteLength [c] ≤ s.maximum ∧
      r = if c = ';' then ((s.withDelimiter c).reset, [(s.withDelimiter c).instruction])
        else (s.withDelimiter c, []) := by
  unfold char
  rw [hs]
  simp only [bind_eq_ok, readDelimiter_eq_ok]
  constructor
  · rintro ⟨t, ⟨hc, hroom, rfl⟩, h⟩
    refine ⟨hc, hroom, ?_⟩
    split at h
    · next hsemi =>
        rw [if_pos hsemi]
        exact (pure_eq_ok.mp h).symm
    · next hsemi =>
        rw [if_neg hsemi]
        exact (pure_eq_ok.mp h).symm
  · rintro ⟨hc, hroom, rfl⟩
    refine ⟨_, ⟨hc, hroom, rfl⟩, ?_⟩
    split
    · rfl
    · rfl

/-! ### Runs -/

theorem digitsFit_append {more : List Char} (hne : digits ≠ []) :
    s.DigitsFit (digits ++ more) ↔ s.DigitsFit digits ∧ (s.withDigits digits).DigitsFit more := by
  have hsome : ∀ rest : List Char, (s.lengthPrefix ++ (digits ++ rest)).isEmpty = false := by
    intro rest
    simp [hne]
  have hfirst := hsome []
  rw [List.append_nil] at hfirst
  have hall : (s.lengthPrefix ++ (digits ++ more)).all digit =
      ((s.lengthPrefix ++ digits).all digit && more.all digit) := by simp [Bool.and_assoc]
  have hlong : (s.lengthPrefix ++ digits ++ more).isEmpty = false := by
    rw [List.append_assoc]
    exact hsome more
  unfold DigitsFit number
  simp only [withDigits, extend, List.append_assoc, List.length_append, byteLength_append, hsome,
    hfirst, Bool.not_false, Bool.true_and, hall, Bool.and_eq_true, List.all_append]
  constructor
  · rintro ⟨hlength, hnumber, hsize⟩
    exact ⟨⟨by omega, hnumber.1, by omega⟩, by omega, by tauto, by omega⟩
  · rintro ⟨⟨-, hnumber, -⟩, hlength, hmore, hsize⟩
    exact ⟨by omega, by tauto, by omega⟩

theorem withDigits_append (s : Framer) (digits more : List Char) :
    (s.withDigits digits).withDigits more = s.withDigits (digits ++ more) := by
  apply Framer.ext
  · rfl
  · exact List.append_assoc _ _ _
  · exact List.append_assoc _ _ _
  · rfl

/-- A run of digits, read one by one. -/
theorem chars_digits {s : Framer} {digits : List Char} {r : Framer × List (List Char)}
    (hs : s.remaining = none) (hdot : '.' ∉ digits) (hne : digits ≠ []) :
    s.chars digits = .ok r ↔ s.DigitsFit digits ∧ r = (s.withDigits digits, []) := by
  induction digits generalizing s r with
  | nil => exact absurd rfl hne
  | cons c rest ih =>
    have hc : c ≠ '.' := fun heq => hdot (heq ▸ List.mem_cons_self)
    have hrest : '.' ∉ rest := fun hmem => hdot (List.mem_cons_of_mem _ hmem)
    by_cases hnil : rest = []
    · subst hnil
      unfold chars
      rw [run_singleton]
      exact char_digit hs hc
    · have hsplit : c :: rest = [c] ++ rest := rfl
      obtain ⟨t, outs⟩ := r
      unfold chars
      rw [hsplit, run_append_eq_ok, digitsFit_append (by simp), ← withDigits_append]
      constructor
      · rintro ⟨mid, first, more, hfirst, hmore, rfl⟩
        rw [run_singleton] at hfirst
        obtain ⟨hfit, heq⟩ := (char_digit hs hc).mp hfirst
        obtain ⟨rfl, rfl⟩ := Prod.mk.inj heq
        obtain ⟨hfit', heq'⟩ := (ih (s := s.withDigits [c]) hs hrest hnil).mp hmore
        obtain ⟨rfl, rfl⟩ := Prod.mk.inj heq'
        exact ⟨⟨hfit, hfit'⟩, rfl⟩
      · rintro ⟨⟨hfit, hfit'⟩, heq⟩
        obtain ⟨rfl, rfl⟩ := Prod.mk.inj heq
        refine ⟨s.withDigits [c], [], [], ?_, ?_, rfl⟩
        · rw [run_singleton]
          exact (char_digit hs hc).mpr ⟨hfit, rfl⟩
        · exact (ih (s := s.withDigits [c]) hs hrest hnil).mpr ⟨hfit', rfl⟩

/-- A run of characters of an element, read one by one. -/
theorem chars_content {n : Nat} (hs : s.remaining = some n) (hroom : text.length ≤ n)
    (hne : text ≠ []) : s.chars text = .ok r ↔
      s.size + byteLength text ≤ s.maximum ∧ r = (s.withContent n text, []) := by
  induction text generalizing s n r with
  | nil => exact absurd rfl hne
  | cons c rest ih =>
    rw [List.length_cons] at hroom
    obtain ⟨n, rfl⟩ : ∃ m, n = m + 1 := ⟨n - 1, by omega⟩
    by_cases hnil : rest = []
    · subst hnil
      unfold chars
      rw [run_singleton]
      exact char_content hs
    · have hsplit : c :: rest = [c] ++ rest := rfl
      have hnext : (s.withContent (n + 1) [c]).remaining = some n := rfl
      have hjoin : (s.withContent (n + 1) [c]).withContent n rest =
          s.withContent (n + 1) (c :: rest) := by
        apply Framer.ext
        · rfl
        · exact List.append_assoc _ _ _
        · rfl
        · show some (n - rest.length) = some (n + 1 - (rest.length + 1))
          rw [Nat.add_sub_add_right]
      have hsize : (s.withContent (n + 1) [c]).size = s.size + byteLength [c] := rfl
      have hmaximum : (s.withContent (n + 1) [c]).maximum = s.maximum := rfl
      obtain ⟨t, outs⟩ := r
      unfold chars
      rw [hsplit, run_append_eq_ok, byteLength_append]
      constructor
      · rintro ⟨mid, first, more, hfirst, hmore, rfl⟩
        rw [run_singleton] at hfirst
        obtain ⟨-, heq⟩ := (char_content hs).mp hfirst
        obtain ⟨rfl, rfl⟩ := Prod.mk.inj heq
        obtain ⟨hfit, heq'⟩ := (ih hnext (by omega) hnil).mp hmore
        obtain ⟨rfl, rfl⟩ := Prod.mk.inj heq'
        rw [hsize, hmaximum] at hfit
        exact ⟨by omega, by rw [hjoin]; rfl⟩
      · rintro ⟨hfit, heq⟩
        obtain ⟨rfl, rfl⟩ := Prod.mk.inj heq
        refine ⟨s.withContent (n + 1) [c], [], [], ?_, ?_, rfl⟩
        · rw [run_singleton]
          exact (char_content hs).mpr ⟨by omega, rfl⟩
        · refine (ih hnext (by omega) hnil).mpr ⟨?_, ?_⟩
          · rw [hsize, hmaximum]
            omega
          · rw [hjoin]
            rfl

/-! ## A call of `feed` -/

/-- The batch with instructions added in turn. -/
def Batch.pushAll (b : Batch) (instructions : List (List Char)) : Batch :=
  instructions.foldl (fun b i => b.push i (byteLength i)) b

/-- The messages one call makes of the instructions it completes. -/
def messagesOf (instructions : List (List Char)) : List (List Char) :=
  (Batch.pushAll {} instructions).close

theorem readDigits_nil_eq_ok : s.readDigits [] = .ok s' ↔ s.DigitsFit [] ∧ s' = s := by
  rw [readDigits_eq_ok]
  have hsame : s.withDigits [] = s := by
    apply Framer.ext
    · rfl
    · exact List.append_nil _
    · exact List.append_nil _
    · rfl
  rw [hsame]

theorem digitsFit_nil (h : s.DigitsFit digits) : (s.withDigits digits).DigitsFit [] := by
  obtain ⟨hlength, hnumber, hsize⟩ := h
  refine ⟨?_, ?_, hsize⟩
  · rw [List.append_nil]
    exact hlength
  · rw [List.append_nil]
    exact hnumber

theorem chars_length (hs : s.remaining = none) (hdot : '.' ∉ digits) :
    s.chars (digits ++ ['.']) = .ok r ↔
      ∃ s', s.readDigits digits = .ok s' ∧ ∃ t, s'.readDot = .ok t ∧ r = (t, []) := by
  by_cases hne : digits = []
  · subst hne
    rw [List.nil_append]
    unfold chars
    rw [run_singleton]
    exact char_dot hs
  · obtain ⟨t, outs⟩ := r
    unfold chars
    rw [run_append_eq_ok]
    constructor
    · rintro ⟨mid, first, rest, hfirst, hrest, rfl⟩
      obtain ⟨hfit, heq⟩ := (chars_digits hs hdot hne).mp hfirst
      obtain ⟨rfl, rfl⟩ := Prod.mk.inj heq
      rw [run_singleton] at hrest
      obtain ⟨s', hdigits, t', htail, heq'⟩ := (char_dot (s := s.withDigits digits) hs).mp hrest
      obtain ⟨-, rfl⟩ := readDigits_nil_eq_ok.mp hdigits
      exact ⟨_, readDigits_eq_ok.mpr ⟨hfit, rfl⟩, t', htail, heq'⟩
    · rintro ⟨s', hdigits, t', htail, heq⟩
      obtain ⟨hfit, rfl⟩ := readDigits_eq_ok.mp hdigits
      refine ⟨s.withDigits digits, [], outs, (chars_digits hs hdot hne).mpr ⟨hfit, rfl⟩, ?_, rfl⟩
      rw [run_singleton]
      exact (char_dot (s := s.withDigits digits) hs).mpr
        ⟨_, readDigits_nil_eq_ok.mpr ⟨digitsFit_nil hfit, rfl⟩, t', htail, heq⟩

/-- The loop of `feed` completes the instructions the framer completes character by character. -/
theorem feedFrom_eq_ok {fuel : Nat} {b b' : Batch} (hfuel : text.length ≤ fuel) :
    feedFrom fuel s b text = .ok (s', b') ↔
      ∃ outs, s.chars text = .ok (s', outs) ∧ b' = b.pushAll outs := by
  induction fuel generalizing s b text with
  | zero =>
    obtain rfl := List.length_eq_zero_iff.mp (Nat.le_zero.mp hfuel)
    simp only [feedFrom, chars, run_nil, Except.ok.injEq, Prod.mk.injEq]
    constructor
    · rintro ⟨rfl, rfl⟩
      exact ⟨[], ⟨rfl, rfl⟩, rfl⟩
    · rintro ⟨outs, ⟨rfl, rfl⟩, rfl⟩
      exact ⟨rfl, rfl⟩
  | succ fuel ih =>
    cases text with
    | nil =>
      simp only [feedFrom, chars, run_nil, Except.ok.injEq, Prod.mk.injEq]
      constructor
      · rintro ⟨rfl, rfl⟩
        exact ⟨[], ⟨rfl, rfl⟩, rfl⟩
      · rintro ⟨outs, ⟨rfl, rfl⟩, rfl⟩
        exact ⟨rfl, rfl⟩
    | cons c rest =>
      rw [List.length_cons] at hfuel
      cases hs : s.remaining with
      | none =>
        have hsplit := List.takeWhile_append_dropWhile (p := (· ≠ '.')) (l := c :: rest)
        have hdot : '.' ∉ (c :: rest).takeWhile (· ≠ '.') := fun hmem => by
          have hne : decide ('.' ≠ '.') = true :=
            List.mem_takeWhile_imp (p := fun x => decide (x ≠ '.')) hmem
          exact absurd hne (by decide)
        unfold feedFrom
        simp only [hs, bind_eq_ok]
        cases htail : (c :: rest).dropWhile (· ≠ '.') with
        | nil =>
          rw [htail, List.append_nil] at hsplit
          have hrun : ∀ r, s.chars (c :: rest) = .ok r ↔ _ := fun r =>
            chars_digits (r := r) hs (hsplit ▸ hdot) (List.cons_ne_nil c rest)
          simp only [hsplit, readDigits_eq_ok, pure_eq_ok, Prod.mk.injEq, hrun]
          constructor
          · rintro ⟨t, ⟨hfit, rfl⟩, rfl, rfl⟩
            exact ⟨[], ⟨hfit, rfl, rfl⟩, rfl⟩
          · rintro ⟨outs, ⟨hfit, rfl, rfl⟩, rfl⟩
            exact ⟨_, ⟨hfit, rfl⟩, rfl, rfl⟩
        | cons d tail =>
          have hd : d = '.' := by
            have hhead := List.head?_dropWhile_not (· ≠ '.') (c :: rest)
            rw [htail] at hhead
            simpa using hhead
          subst hd
          rw [htail] at hsplit
          have hlength := congrArg List.length hsplit
          rw [List.length_append, List.length_cons, List.length_cons] at hlength
          have hshort : tail.length ≤ fuel := by omega
          have hjoin : c :: rest =
              (c :: rest).takeWhile (· ≠ '.') ++ ['.'] ++ tail := by
            rw [List.append_assoc]
            exact hsplit.symm
          simp only [bind_eq_ok, ih hshort]
          constructor
          · rintro ⟨s₁, hdigits, s₂, hd, outs, hrun, rfl⟩
            refine ⟨outs, ?_, rfl⟩
            rw [hjoin]
            exact (run_append_eq_ok _).mpr ⟨s₂, [], outs,
              (chars_length hs hdot).mpr ⟨s₁, hdigits, s₂, hd, rfl⟩, hrun, rfl⟩
          · rintro ⟨outs, hrun, rfl⟩
            rw [hjoin] at hrun
            obtain ⟨mid, first, more, hfirst, hmore, rfl⟩ :=
              (run_append_eq_ok _).mp hrun
            obtain ⟨s₁, hdigits, s₂, hd, heq⟩ := (chars_length hs hdot).mp hfirst
            obtain ⟨rfl, rfl⟩ := Prod.mk.inj heq
            exact ⟨s₁, hdigits, mid, hd, more, hmore, rfl⟩
      | some n =>
        cases n with
        | succ n =>
          have htake : ((c :: rest).take (n + 1)).length ≤ n + 1 := List.length_take_le _ _
          have hne : (c :: rest).take (n + 1) ≠ [] := by simp
          have hshort : ((c :: rest).drop (n + 1)).length ≤ fuel := by
            rw [List.length_drop, List.length_cons]
            omega
          have hjoin := List.take_append_drop (n + 1) (c :: rest)
          unfold feedFrom
          simp only [hs, bind_eq_ok, readContent_eq_ok, ih hshort]
          constructor
          · rintro ⟨t, ⟨hroom, rfl⟩, outs, hrun, rfl⟩
            refine ⟨outs, ?_, rfl⟩
            rw [← hjoin]
            exact (run_append_eq_ok _).mpr ⟨_, [], outs,
              (chars_content hs htake hne).mpr ⟨hroom, rfl⟩, hrun, rfl⟩
          · rintro ⟨outs, hrun, rfl⟩
            rw [← hjoin] at hrun
            obtain ⟨mid, first, more, hfirst, hmore, rfl⟩ :=
              (run_append_eq_ok _).mp hrun
            obtain ⟨hroom, heq⟩ := (chars_content hs htake hne).mp hfirst
            obtain ⟨rfl, rfl⟩ := Prod.mk.inj heq
            exact ⟨_, ⟨hroom, rfl⟩, more, hmore, rfl⟩
        | zero =>
          have hshort : rest.length ≤ fuel := by omega
          unfold feedFrom
          simp only [hs, bind_eq_ok, readDelimiter_eq_ok]
          constructor
          · rintro ⟨t, ⟨hc, hroom, rfl⟩, h⟩
            have hstep := (char_delimiter hs).mpr ⟨hc, hroom, rfl⟩
            unfold chars
            by_cases hsemi : c = ';'
            · rw [if_pos hsemi, ih hshort] at h
              rw [if_pos hsemi] at hstep
              obtain ⟨outs, hrun, rfl⟩ := h
              refine ⟨(s.withDelimiter c).instruction :: outs, ?_, ?_⟩
              · rw [run_cons_ok _ _ hstep]
                rw [show run char _ rest = _ from hrun]
                rfl
              · rw [(s.withDelimiter c).size_eq]
                rfl
            · rw [if_neg hsemi, ih hshort] at h
              rw [if_neg hsemi] at hstep
              obtain ⟨outs, hrun, rfl⟩ := h
              refine ⟨outs, ?_, rfl⟩
              rw [run_cons_ok _ _ hstep]
              rw [show run char _ rest = _ from hrun]
              rfl
          · rintro ⟨outs, hrun, rfl⟩
            have hsplit : c :: rest = [c] ++ rest := rfl
            rw [hsplit] at hrun
            obtain ⟨mid, first, more, hfirst, hmore, rfl⟩ :=
              (run_append_eq_ok _).mp hrun
            rw [run_singleton] at hfirst
            obtain ⟨hc, hroom, heq⟩ := (char_delimiter hs).mp hfirst
            refine ⟨_, ⟨hc, hroom, rfl⟩, ?_⟩
            by_cases hsemi : c = ';'
            · rw [if_pos hsemi] at heq ⊢
              obtain ⟨rfl, rfl⟩ := Prod.mk.inj heq
              rw [ih hshort]
              refine ⟨more, hmore, ?_⟩
              rw [(s.withDelimiter c).size_eq]
              rfl
            · rw [if_neg hsemi] at heq ⊢
              obtain ⟨rfl, rfl⟩ := Prod.mk.inj heq
              rw [ih hshort]
              exact ⟨more, hmore, rfl⟩

/-- `feed` groups into messages what the framer completes character by character. -/
theorem feed_groups : Groups char feed messagesOf := by
  intro s text
  have hok : ∀ s' messages, s.feed text = .ok (s', messages) ↔
      ∃ outs, s.chars text = .ok (s', outs) ∧ messages = messagesOf outs := by
    intro s' messages
    unfold feed
    simp only [bind_eq_ok, pure_eq_ok, Prod.mk.injEq, Prod.exists]
    constructor
    · rintro ⟨t, b, hrun, rfl, rfl⟩
      obtain ⟨outs, hchars, rfl⟩ := (feedFrom_eq_ok (Nat.le_refl _)).mp hrun
      exact ⟨outs, hchars, rfl⟩
    · rintro ⟨outs, hchars, rfl⟩
      exact ⟨s', _, (feedFrom_eq_ok (Nat.le_refl _)).mpr ⟨outs, hchars, rfl⟩, rfl, rfl⟩
  cases hrun : run char s text with
  | ok r => exact (hok r.1 (messagesOf r.2)).mpr ⟨r.2, hrun, rfl⟩
  | error e =>
    cases hfeed : s.feed text with
    | ok r =>
      obtain ⟨outs, hchars, -⟩ := (hok r.1 r.2).mp hfeed
      rw [show s.chars text = _ from hrun] at hchars
      cases hchars
    | error e' =>
      cases e
      cases e'
      rfl

end Framer

end Ipms.Server.NativeProtocol
