import Ipms.Lib.Decimal
import Ipms.Server.NativeProtocol.Instructions

/-
  Ipms.Server.NativeProtocol.Codec

  Instructions as lists of values: `guac` writes one, and `guac_instructions`
  reads the text of a browser.  Reading gives back what was written, and accepts
  nothing but written instructions whose lengths may carry leading zeros.
-/

namespace Ipms.Server.NativeProtocol

open Ipms.Lib
open Ipms.Agent.Gpo (digit digitsValue)

/-- The values of an instruction. -/
abbrev Values := List (List Char)

/-- `isascii`. -/
def ascii (text : List Char) : Bool := text.all fun c => decide (c.toNat < 128)

/-! ## Writing -/

/-- One element of `guac`. -/
def guacElement (value : List Char) : List Char := Nat.toDigits 10 value.length ++ '.' :: value

def guac (values : Values) : List Char :=
  List.intercalate [','] (values.map guacElement) ++ [';']

theorem guac_singleton (value : List Char) : guac [value] = guacElement value ++ [';'] := by
  unfold guac
  rw [List.map_singleton, List.intercalate_singleton]

theorem guac_cons_cons (value next : List Char) (rest : Values) :
    guac (value :: next :: rest) = guacElement value ++ ',' :: guac (next :: rest) := by
  unfold guac
  rw [List.map_cons, List.map_cons, List.intercalate_cons_cons]
  simp

/-! ## Reading -/

/-- The element a text begins with: its value, its delimiter and the text after both. -/
def readElement (text : List Char) : Option (List Char × Char × List Char) :=
  let digits := text.takeWhile (· ≠ '.')
  match text.dropWhile (· ≠ '.') with
  | [] => none
  | _ :: body =>
    if number digits = false ∨ digits.length > 6 then none
    else match body.drop (digitsValue digits) with
      | [] => none
      | delimiter :: rest => some (body.take (digitsValue digits), delimiter, rest)

variable {text value rest : List Char} {delimiter : Char}

/-- An element that is read stands at the start of the text. -/
theorem readElement_eq_some (h : readElement text = some (value, delimiter, rest)) :
    ∃ digits, number digits = true ∧ digits.length ≤ 6 ∧ digitsValue digits = value.length ∧
      text = digits ++ '.' :: (value ++ delimiter :: rest) := by
  unfold readElement at h
  simp only at h
  have hsplit := List.takeWhile_append_dropWhile (p := fun c => decide (c ≠ '.')) (l := text)
  split at h
  · cases h
  rename_i d body htail
  obtain rfl : d = '.' := by
    have hhead := List.head?_dropWhile_not (fun c => decide (c ≠ '.')) text
    rw [htail] at hhead
    simpa using hhead
  split at h
  · cases h
  rename_i hchecks
  rw [not_or, Bool.not_eq_false, Nat.not_lt] at hchecks
  split at h
  · cases h
  rename_i d' rest' hdrop
  obtain ⟨rfl, heq⟩ := Prod.mk.inj (Option.some.inj h)
  obtain ⟨rfl, rfl⟩ := Prod.mk.inj heq
  refine ⟨text.takeWhile (· ≠ '.'), hchecks.1, hchecks.2, ?_, ?_⟩
  · have hlength := congrArg List.length hdrop
    rw [List.length_drop, List.length_cons] at hlength
    rw [List.length_take]
    omega
  · rw [← hdrop, List.take_append_drop, ← htail]
    exact hsplit.symm

theorem readElement_shorter (h : readElement text = some (value, delimiter, rest)) :
    rest.length < text.length := by
  obtain ⟨digits, -, -, -, rfl⟩ := readElement_eq_some h
  simp only [List.length_append, List.length_cons]
  omega

/-- The loop of `guac_instructions`: the values of the instruction it reads, and the instructions
before it. -/
def readInstructions (text : List Char) (values : Values) (result : List Values) :
    Except ProtocolError (List Values) :=
  match text with
  | [] => if values ≠ [] then .error .native else .ok result
  | c :: rest =>
    match _h : readElement (c :: rest) with
    | none => .error .native
    | some (value, delimiter, tail) =>
      if delimiter = ';' then readInstructions tail [] (result ++ [values ++ [value]])
      else if delimiter = ',' then readInstructions tail (values ++ [value]) result
      else .error .native
  termination_by text.length
  decreasing_by
    all_goals exact readElement_shorter _h

def guacInstructions (text : List Char) (maximum : Nat := chunkBytes) :
    Except ProtocolError (List Values) :=
  if ascii text = false ∨ text.length > maximum then .error .native
  else readInstructions text [] []

/-! ### What is written is read -/

theorem digitsValue_toDigits (n : Nat) : digitsValue (Nat.toDigits 10 n) = n :=
  Nat.ofDigitChars_ten_toDigits

theorem number_toDigits (n : Nat) : number (Nat.toDigits 10 n) = true := by
  simp only [number, Bool.and_eq_true, Bool.not_eq_true', List.isEmpty_eq_false_iff,
    List.all_eq_true]
  refine ⟨Nat.toDigits_ne_nil, fun c hc => ?_⟩
  obtain ⟨hlow, hhigh⟩ := Decimal.isDigit_of_mem_toDigits hc
  simp only [digit, Bool.and_eq_true, decide_eq_true_eq]
  exact ⟨hlow, hhigh⟩

theorem readElement_append {digits : List Char} (hnumber : number digits = true)
    (hshort : digits.length ≤ 6) (hvalue : digitsValue digits = value.length) :
    readElement (digits ++ '.' :: (value ++ delimiter :: rest)) = some (value, delimiter, rest) := by
  have hdot := dot_not_mem_number hnumber
  have hkeep : ∀ c ∈ digits, decide (c ≠ '.') = true := fun c hc =>
    decide_eq_true fun heq => hdot (heq ▸ hc)
  have htake : (digits ++ '.' :: (value ++ delimiter :: rest)).takeWhile
      (fun c => decide (c ≠ '.')) = digits := by
    rw [List.takeWhile_append_of_pos hkeep]
    simp
  have hdrop : (digits ++ '.' :: (value ++ delimiter :: rest)).dropWhile
      (fun c => decide (c ≠ '.')) = '.' :: (value ++ delimiter :: rest) := by
    rw [List.dropWhile_append_of_pos hkeep]
    simp
  unfold readElement
  simp only [htake, hdrop, hvalue, hnumber, List.drop_left, List.take_left]
  rw [if_neg (by simp; omega)]

theorem length_toDigits_le {n : Nat} (h : n ≤ chunkBytes) : (Nat.toDigits 10 n).length ≤ 6 := by
  rw [Nat.length_toDigits_le_iff (by decide) (by decide)]
  exact Nat.lt_of_le_of_lt h (by decide)

theorem readInstructions_delimited {tail : List Char} (values : Values) (result : List Values)
    (h : value.length ≤ chunkBytes) :
    readInstructions (guacElement value ++ delimiter :: tail) values result =
      if delimiter = ';' then readInstructions tail [] (result ++ [values ++ [value]])
      else if delimiter = ',' then readInstructions tail (values ++ [value]) result
      else .error .native := by
  have hread : readElement (guacElement value ++ delimiter :: tail) =
      some (value, delimiter, tail) := by
    have heq : guacElement value ++ delimiter :: tail =
        Nat.toDigits 10 value.length ++ '.' :: (value ++ delimiter :: tail) := by
      simp [guacElement]
    rw [heq]
    exact readElement_append (number_toDigits _) (length_toDigits_le h) (digitsValue_toDigits _)
  cases htext : guacElement value ++ delimiter :: tail with
  | nil => simp at htext
  | cons c rest =>
    rw [htext] at hread
    rw [readInstructions]
    split
    · next hnone => rw [hread] at hnone; cases hnone
    · next value' delimiter' tail' hsome =>
        rw [hread] at hsome
        obtain ⟨rfl, heq⟩ := Prod.mk.inj (Option.some.inj hsome)
        obtain ⟨rfl, rfl⟩ := Prod.mk.inj heq
        rfl

variable {instruction : Values} {result : List Values}

theorem readInstructions_guac {values : Values} {tail : List Char} (hne : instruction ≠ [])
    (h : ∀ value ∈ instruction, value.length ≤ chunkBytes) :
    readInstructions (guac instruction ++ tail) values result =
      readInstructions tail [] (result ++ [values ++ instruction]) := by
  induction instruction generalizing values with
  | nil => exact absurd rfl hne
  | cons value rest ih =>
    have hvalue := h value List.mem_cons_self
    cases rest with
    | nil =>
      rw [guac_singleton, List.append_assoc, List.singleton_append,
        readInstructions_delimited values result hvalue, if_pos rfl]
    | cons next rest =>
      rw [guac_cons_cons, List.append_assoc, List.cons_append,
        readInstructions_delimited values result hvalue, if_neg (by decide), if_pos rfl,
        ih (by simp) fun v hv => h v (List.mem_cons_of_mem _ hv)]
      simp

variable {instructions : List Values}

theorem readInstructions_flatMap (hne : ∀ i ∈ instructions, i ≠ [])
    (h : ∀ i ∈ instructions, ∀ value ∈ i, value.length ≤ chunkBytes) :
    readInstructions (instructions.flatMap guac) [] result = .ok (result ++ instructions) := by
  induction instructions generalizing result with
  | nil =>
    rw [List.flatMap_nil, readInstructions]
    simp
  | cons i rest ih =>
    rw [List.flatMap_cons, readInstructions_guac (hne i List.mem_cons_self) (h i List.mem_cons_self),
      ih (fun j hj => hne j (List.mem_cons_of_mem _ hj))
        fun j hj => h j (List.mem_cons_of_mem _ hj)]
    simp

/-! ### Lengths -/

theorem length_le_guac (h : value ∈ instruction) : value.length ≤ (guac instruction).length := by
  induction instruction with
  | nil => cases h
  | cons first rest ih =>
    have hfirst : first.length ≤ (guacElement first).length := by
      simp [guacElement]
      omega
    cases rest with
    | nil =>
      obtain rfl := List.mem_singleton.mp h
      rw [guac_singleton, List.length_append]
      omega
    | cons next rest =>
      rw [guac_cons_cons, List.length_append, List.length_cons]
      rcases List.mem_cons.mp h with rfl | h
      · omega
      · have hrest := ih h
        omega

theorem length_le_flatMap (h : instruction ∈ instructions) :
    (guac instruction).length ≤ (instructions.flatMap guac).length := by
  obtain ⟨before, after, rfl⟩ := List.append_of_mem h
  simp only [List.flatMap_append, List.flatMap_cons, List.length_append]
  omega

theorem ascii_append (text more : List Char) : ascii (text ++ more) = (ascii text && ascii more) :=
  List.all_append

theorem ascii_number {digits : List Char} (h : number digits = true) : ascii digits = true := by
  simp only [number, Bool.and_eq_true] at h
  refine List.all_eq_true.mpr fun c hc => ?_
  have hdigit := List.all_eq_true.mp h.2 c hc
  simp only [digit, Bool.and_eq_true, decide_eq_true_eq] at hdigit
  have hhigh : c.toNat ≤ 57 := hdigit.2
  exact decide_eq_true (by omega)

theorem ascii_guac (h : ∀ value ∈ instruction, ascii value = true) :
    ascii (guac instruction) = true := by
  have helement : ∀ value ∈ instruction, ascii (guacElement value) = true := by
    intro value hvalue
    unfold guacElement
    rw [ascii_append, ascii_number (number_toDigits _), Bool.true_and]
    exact h value hvalue
  induction instruction with
  | nil => rfl
  | cons value rest ih =>
    have hvalue := helement value List.mem_cons_self
    cases rest with
    | nil =>
      rw [guac_singleton, ascii_append, hvalue]
      rfl
    | cons next rest =>
      rw [guac_cons_cons, ascii_append, hvalue, Bool.true_and]
      exact ih (fun v hv => h v (List.mem_cons_of_mem _ hv))
        fun v hv => helement v (List.mem_cons_of_mem _ hv)

theorem ascii_flatMap (h : ∀ i ∈ instructions, ∀ value ∈ i, ascii value = true) :
    ascii (instructions.flatMap guac) = true := by
  induction instructions with
  | nil => rfl
  | cons i rest ih =>
    rw [List.flatMap_cons, ascii_append, ascii_guac (h i List.mem_cons_self),
      ih fun j hj => h j (List.mem_cons_of_mem _ hj)]
    rfl

theorem guacInstructions_guac (hne : ∀ i ∈ instructions, i ≠ [])
    (hascii : ∀ i ∈ instructions, ∀ value ∈ i, ascii value = true)
    (hlength : (instructions.flatMap guac).length ≤ chunkBytes) :
    guacInstructions (instructions.flatMap guac) = .ok instructions := by
  unfold guacInstructions
  rw [ascii_flatMap hascii, if_neg (not_or.mpr ⟨by simp, Nat.not_lt.mpr hlength⟩),
    readInstructions_flatMap hne]
  · rw [List.nil_append]
  · intro i hi value hvalue
    exact Nat.le_trans (length_le_guac hvalue) (Nat.le_trans (length_le_flatMap hi) hlength)

/-! ### What is read was written -/

/-- An element whose length carries zeros in front. -/
def paddedElement (k : Nat) (value : List Char) : List Char :=
  List.replicate k '0' ++ guacElement value

/-- A text spells an instruction: it is what `guac` writes, up to zeros before the lengths. -/
inductive Spells : List Char → Values → Prop
  | last (k : Nat) (value : List Char) : Spells (paddedElement k value ++ [';']) [value]
  | more (k : Nat) (value : List Char) {text : List Char} {rest : Values} (h : Spells text rest) :
      Spells (paddedElement k value ++ ',' :: text) (value :: rest)

theorem spells_ne_nil (h : Spells text instruction) : instruction ≠ [] := by
  cases h with
  | last => simp
  | more => simp

theorem length_guac_le (h : Spells text instruction) : (guac instruction).length ≤ text.length := by
  induction h with
  | last k value =>
    rw [guac_singleton]
    simp [paddedElement]
  | @more k value text rest hrest ih =>
    cases rest with
    | nil => exact absurd rfl (spells_ne_nil hrest)
    | cons next rest =>
      rw [guac_cons_cons]
      simp only [paddedElement, List.length_append, List.length_cons]
      omega

theorem ascii_spells (h : Spells text instruction) (hascii : ascii text = true) :
    ∀ value ∈ instruction, ascii value = true := by
  have hpart : ∀ k (value tail : List Char), ascii (paddedElement k value ++ tail) = true →
      ascii value = true ∧ ascii tail = true := by
    intro k value tail hall
    simp only [paddedElement, guacElement, ascii_append, Bool.and_eq_true] at hall
    obtain ⟨⟨-, -, hvalue⟩, htail⟩ := hall
    have hdot : ('.' :: value) = ['.'] ++ value := rfl
    rw [hdot, ascii_append, Bool.and_eq_true] at hvalue
    exact ⟨hvalue.2, htail⟩
  induction h with
  | last k value =>
    intro v hv
    obtain rfl := List.mem_singleton.mp hv
    exact (hpart k v _ hascii).1
  | @more k value text rest hrest ih =>
    obtain ⟨hvalue, htail⟩ := hpart k value _ hascii
    have hcomma : (',' :: text) = [','] ++ text := rfl
    rw [hcomma, ascii_append, Bool.and_eq_true] at htail
    intro v hv
    rcases List.mem_cons.mp hv with rfl | hv
    · exact hvalue
    · exact ih htail.2 v hv

theorem readElement_padded (h : readElement text = some (value, delimiter, rest)) :
    ∃ k, text = paddedElement k value ++ delimiter :: rest := by
  obtain ⟨digits, hnumber, -, hvalue, rfl⟩ := readElement_eq_some h
  have hdigits : ∀ c ∈ digits, Decimal.IsDigit c := by
    intro c hc
    simp only [number, Bool.and_eq_true] at hnumber
    have hdigit := List.all_eq_true.mp hnumber.2 c hc
    simp only [digit, Bool.and_eq_true, decide_eq_true_eq] at hdigit
    exact hdigit
  obtain ⟨k, hk⟩ := Decimal.exists_zeros (number_ne_nil hnumber) hdigits
  rw [show Nat.ofDigitChars 10 digits 0 = value.length from hvalue] at hk
  refine ⟨k, ?_⟩
  rw [hk]
  simp [paddedElement, guacElement]

/-- The loop reads the instructions a text spells; the first one goes on with the values read
before. -/
theorem readInstructions_spells {values : Values} {out : List Values}
    (h : readInstructions text values result = .ok out) : text = [] ∧ values = [] ∧ out = result ∨
      ∃ first instruction texts instructions, text = first ++ texts.flatten ∧
        Spells first instruction ∧ List.Forall₂ Spells texts instructions ∧
        out = result ++ (values ++ instruction) :: instructions := by
  induction hn : text.length using Nat.strong_induction_on generalizing text values result with
  | _ n ih =>
    subst hn
    cases text with
    | nil =>
      rw [readInstructions] at h
      split at h
      · cases h
      next hvalues => exact .inl ⟨rfl, not_not.mp hvalues, (Except.ok.inj h).symm⟩
    | cons c rest =>
      rw [readInstructions] at h
      split at h
      · cases h
      rename_i value delimiter tail hread
      have hshorter := readElement_shorter hread
      obtain ⟨k, hk⟩ := readElement_padded hread
      rw [hk]
      split at h
      · next hsemi =>
          subst hsemi
          rcases ih tail.length hshorter h rfl with ⟨rfl, -, rfl⟩ |
            ⟨first, instruction, texts, instructions, rfl, hfirst, hrest, rfl⟩
          · exact .inr ⟨_, [value], [], [], by simp, .last k value, .nil, rfl⟩
          · exact .inr ⟨_, [value], first :: texts, instruction :: instructions, by simp,
              .last k value, .cons hfirst hrest, by simp⟩
      · split at h
        · next hcomma =>
            subst hcomma
            rcases ih tail.length hshorter h rfl with ⟨-, hnil, -⟩ |
              ⟨first, instruction, texts, instructions, rfl, hfirst, hrest, rfl⟩
            · simp at hnil
            · exact .inr ⟨_, value :: instruction, texts, instructions, by simp,
                .more k value hfirst, hrest, by simp⟩
        · cases h

theorem guacInstructions_spells (h : guacInstructions text = .ok instructions) :
    ascii text = true ∧ text.length ≤ chunkBytes ∧
      ∃ texts, text = texts.flatten ∧ List.Forall₂ Spells texts instructions := by
  unfold guacInstructions at h
  split at h
  · cases h
  rename_i hchecks
  rw [not_or, Bool.not_eq_false, Nat.not_lt] at hchecks
  refine ⟨hchecks.1, hchecks.2, ?_⟩
  rcases readInstructions_spells h with ⟨rfl, -, rfl⟩ |
    ⟨first, instruction, texts, rest, rfl, hfirst, hrest, rfl⟩
  · exact ⟨[], rfl, .nil⟩
  · exact ⟨first :: texts, by simp, .cons hfirst hrest⟩

end Ipms.Server.NativeProtocol
