import Mathlib

/-
  Ipms.Lib.LittleEndian

  Numbers as bytes, the least significant first: a fixed number of bytes for a
  number that fits, and the number that a list of bytes stands for.  Payloads that
  each stand behind their length make a table, which is read back from the front.
-/

namespace Ipms.Lib.LittleEndian

/-- The first `width` bytes of a number. -/
def bytes : Nat → Nat → List UInt8
  | 0, _ => []
  | width + 1, n => UInt8.ofNat n :: bytes width (n / 256)

/-- The number of a list of bytes. -/
def value (bs : List UInt8) : Nat := Nat.ofDigits 256 (bs.map UInt8.toNat)

@[simp] theorem value_nil : value [] = 0 := rfl

@[simp] theorem value_cons (b : UInt8) (bs : List UInt8) :
    value (b :: bs) = b.toNat + 256 * value bs := Nat.ofDigits_cons

@[simp] theorem length_bytes (width n : Nat) : (bytes width n).length = width := by
  induction width generalizing n with
  | zero => rfl
  | succ width ih => exact congrArg Nat.succ (ih (n / 256))

variable {width n : Nat}

/-- A number that fits is read back from its bytes. -/
theorem value_bytes (h : n < 256 ^ width) : value (bytes width n) = n := by
  induction width generalizing n with
  | zero =>
    rw [Nat.pow_zero] at h
    exact (Nat.lt_one_iff.mp h).symm
  | succ width ih =>
    have hrest : n / 256 < 256 ^ width := by
      rw [Nat.pow_succ] at h
      exact Nat.div_lt_of_lt_mul (by omega)
    have hfirst : (UInt8.ofNat n).toNat = n % 256 := UInt8.toNat_ofNat'
    show value (UInt8.ofNat n :: bytes width (n / 256)) = n
    rw [value_cons, ih hrest, hfirst]
    omega

/-- Bytes are those of their number. -/
theorem bytes_value (bs : List UInt8) : bytes bs.length (value bs) = bs := by
  induction bs with
  | nil => rfl
  | cons b bs ih =>
    have hlt := b.toNat_lt
    have hfirst : UInt8.ofNat (b.toNat + 256 * value bs) = b := by
      apply UInt8.toNat_inj.mp
      rw [UInt8.toNat_ofNat']
      omega
    have hrest : (b.toNat + 256 * value bs) / 256 = value bs := by omega
    rw [value_cons, List.length_cons]
    show UInt8.ofNat (b.toNat + 256 * value bs) :: bytes bs.length _ = b :: bs
    rw [hfirst, hrest, ih]

variable {bs : List UInt8}

/-- Bytes of a known number. -/
theorem eq_bytes (hlength : bs.length = width) (hvalue : value bs = n) : bs = bytes width n := by
  rw [← hlength, ← hvalue, bytes_value]

theorem eq_bytes_iff (hlength : bs.length = width) (hn : n < 256 ^ width) :
    bs = bytes width n ↔ value bs = n := by
  constructor
  · rintro rfl
    exact value_bytes hn
  · exact eq_bytes hlength

theorem value_lt (bs : List UInt8) : value bs < 256 ^ bs.length := by
  induction bs with
  | nil => exact Nat.one_pos
  | cons b bs ih =>
    have hlt := b.toNat_lt
    rw [value_cons, List.length_cons, Nat.pow_succ]
    omega

/-! ## Framed payloads -/

/-- A payload behind its length. -/
def framed (width : Nat) (payload : List UInt8) : List UInt8 :=
  bytes width payload.length ++ payload

@[simp] theorem length_framed (width : Nat) (payload : List UInt8) :
    (framed width payload).length = width + payload.length := by
  rw [framed, List.length_append, length_bytes]

/-- Bytes begin with a framed payload when the number in front of them is the payload's length,
and the payload stands behind it. -/
theorem eq_framed_append_iff {payload rest : List UInt8} (hfits : payload.length < 256 ^ width) :
    bs = framed width payload ++ rest ↔
      width ≤ bs.length ∧ value (bs.take width) = payload.length ∧
        (bs.drop width).take payload.length = payload ∧ bs.drop (width + payload.length) = rest := by
  have hwidth := length_bytes width payload.length
  constructor
  · rintro rfl
    have hcut : framed width payload ++ rest = bytes width payload.length ++ (payload ++ rest) :=
      List.append_assoc _ _ _
    refine ⟨by rw [List.length_append, length_framed]; omega, ?_, ?_, ?_⟩
    · rw [hcut, List.take_left' hwidth, value_bytes hfits]
    · rw [hcut, List.drop_left' hwidth, List.take_left' rfl]
    · exact List.drop_left' (length_framed width payload)
  · rintro ⟨hlength, hvalue, htake, hdrop⟩
    have hhead : bs.take width = bytes width payload.length :=
      eq_bytes (List.length_take_of_le hlength) hvalue
    calc bs = bs.take width ++ ((bs.drop width).take payload.length ++
          (bs.drop width).drop payload.length) := by rw [List.take_append_drop, List.take_append_drop]
      _ = framed width payload ++ rest := by
          rw [hhead, htake, List.drop_drop, hdrop, framed, List.append_assoc]

/-- Payloads one behind the other, each behind its length. -/
def table (width : Nat) (payloads : List (List UInt8)) : List UInt8 :=
  payloads.flatMap (framed width)

@[simp] theorem table_nil (width : Nat) : table width [] = [] := rfl

@[simp] theorem table_cons (width : Nat) (payload : List UInt8) (payloads : List (List UInt8)) :
    table width (payload :: payloads) = framed width payload ++ table width payloads :=
  List.flatMap_cons

/-- The offset and the size of every payload of a table that begins at `start`. -/
def spans (width : Nat) : Nat → List (List UInt8) → List (Nat × Nat)
  | _, [] => []
  | start, payload :: payloads =>
    (start + width, payload.length) :: spans width (start + width + payload.length) payloads

/-- The bytes of a span. -/
def slice (bs : List UInt8) (span : Nat × Nat) : List UInt8 := (bs.drop span.1).take span.2

/-- Spans fill the bytes from `start` to `stop`: behind the one before, `width` bytes hold the size
of the next, which begins right behind them. -/
inductive Tiles (width : Nat) (bs : List UInt8) : Nat → Nat → List (Nat × Nat) → Prop
  | nil {at_ : Nat} : Tiles width bs at_ at_ []
  | cons {start stop size : Nat} {rest : List (Nat × Nat)}
      (hsize : value (slice bs (start, width)) = size)
      (hrange : start + width + size ≤ bs.length)
      (hrest : Tiles width bs (start + width + size) stop rest) :
      Tiles width bs start stop ((start + width, size) :: rest)

/-- A table of payloads that fit is tiled by their spans, and these hold the payloads. -/
theorem tiles_table {payloads : List (List UInt8)} (hfits : ∀ p ∈ payloads, p.length < 256 ^ width)
    {start : Nat} {rest : List UInt8} (h : bs.drop start = table width payloads ++ rest)
    (hstart : start ≤ bs.length) :
    Tiles width bs start (start + (table width payloads).length) (spans width start payloads) ∧
      (spans width start payloads).map (slice bs) = payloads := by
  induction payloads generalizing start with
  | nil => exact ⟨.nil, rfl⟩
  | cons p ps ih =>
    rw [table_cons, List.append_assoc] at h
    have hp := hfits p List.mem_cons_self
    obtain ⟨hlength, hvalue, htake, hdrop⟩ := (eq_framed_append_iff hp).mp h
    have hplength : p.length ≤ (bs.drop (start + width)).length := by
      rw [← htake, List.drop_drop]
      exact List.length_take_le' _ _
    rw [List.length_drop] at hlength hplength
    have hrange : start + width + p.length ≤ bs.length := by omega
    have hnext : bs.drop (start + width + p.length) = table width ps ++ rest := by
      rw [← hdrop, List.drop_drop, Nat.add_assoc]
    obtain ⟨htiles, hslices⟩ := ih (fun q hq => hfits q (List.mem_cons_of_mem p hq)) hnext hrange
    constructor
    · have hstop : start + (table width (p :: ps)).length =
          start + width + p.length + (table width ps).length := by
        rw [table_cons, List.length_append, length_framed]
        omega
      rw [hstop]
      exact .cons hvalue hrange htiles
    · have hslice : slice bs (start + width, p.length) = p := by
        rw [slice, ← List.drop_drop]
        exact htake
      exact congrArg₂ List.cons hslice hslices

end Ipms.Lib.LittleEndian
