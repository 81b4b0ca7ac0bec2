import Mathlib

/-
  Ipms.Lib.Datetime

  Times in UTC as the calendar writes them, from the year 1 to the year 9999,
  in their order, and the text of a time.  Reading the text of a time gives the
  time back.
-/

namespace Ipms.Lib

/-! ## The calendar -/

/-- A leap year of the Gregorian calendar. -/
def leapYear (year : Nat) : Bool :=
  year % 4 == 0 && (year % 100 != 0 || year % 400 == 0)

def daysInMonth (year month : Nat) : Nat :=
  if month = 2 then (if leapYear year then 29 else 28)
  else if month = 4 ∨ month = 6 ∨ month = 9 ∨ month = 11 then 30 else 31

theorem daysInMonth_bounds (year month : Nat) :
    1 ≤ daysInMonth year month ∧ daysInMonth year month ≤ 31 := by
  unfold daysInMonth
  split
  · split <;> omega
  · split <;> omega

/-- A day of the calendar. -/
structure Day where
  year : Nat
  month : Nat
  day : Nat
  years : 1 ≤ year ∧ year ≤ 9999
  months : 1 ≤ month ∧ month ≤ 12
  days : 1 ≤ day ∧ day ≤ daysInMonth year month
  deriving DecidableEq

namespace Day

/-- A number that orders the days. -/
def key (d : Day) : Nat := (d.year * 13 + d.month) * 32 + d.day

theorem day_lt (d : Day) : d.day < 32 := by
  have hbound := (daysInMonth_bounds d.year d.month).2
  have hday := d.days.2
  omega

theorem key_injective {d e : Day} (h : d.key = e.key) : d = e := by
  have hd := d.day_lt
  have he := e.day_lt
  have hmd := d.months
  have hme := e.months
  unfold key at h
  obtain ⟨y, m, n, _, _, _⟩ := d
  obtain ⟨y', m', n', _, _, _⟩ := e
  dsimp only at h hd he hmd hme
  have hyear : y = y' := by omega
  have hmonth : m = m' := by omega
  have hday : n = n' := by omega
  subst hyear hmonth hday
  rfl

/-- The next day, if there is one. -/
def next (d : Day) : Option Day :=
  if hday : d.day + 1 ≤ daysInMonth d.year d.month then
    some ⟨d.year, d.month, d.day + 1, d.years, d.months, by have := d.days; omega, hday⟩
  else if hmonth : d.month + 1 ≤ 12 then
    some ⟨d.year, d.month + 1, 1, d.years, ⟨by omega, hmonth⟩, Nat.le_refl _,
      (daysInMonth_bounds _ _).1⟩
  else if hyear : d.year + 1 ≤ 9999 then
    some ⟨d.year + 1, 1, 1, ⟨by omega, hyear⟩, ⟨Nat.le_refl _, by decide⟩, Nat.le_refl _,
      (daysInMonth_bounds _ _).1⟩
  else none

theorem key_lt_next {d e : Day} (h : d.next = some e) : d.key < e.key := by
  have hday := d.day_lt
  have hmonth := d.months
  unfold next at h
  split at h
  · cases h
    unfold key
    dsimp only
    omega
  · split at h
    · cases h
      unfold key
      dsimp only
      omega
    · split at h
      · cases h
        unfold key
        dsimp only
        omega
      · cases h

/-- No day is between a day and the next one. -/
theorem next_le {d e f : Day} (h : d.next = some e) (hlt : d.key < f.key) : e.key ≤ f.key := by
  have hmonths := f.months
  have hdays := f.days
  have hday := f.day_lt
  have hd := d.day_lt
  have hdm := d.months
  unfold key at hlt
  unfold next at h
  split at h
  · cases h
    unfold key
    dsimp only
    omega
  · rename_i hlast
    -- the last day of a month: a later day is in a later month
    have hmonth : d.year * 13 + d.month < f.year * 13 + f.month := by
      by_contra hno
      have hsame : d.year = f.year ∧ d.month = f.month := by omega
      rw [← hsame.1, ← hsame.2] at hdays
      omega
    split at h
    · cases h
      unfold key
      dsimp only
      omega
    · split at h
      · cases h
        unfold key
        dsimp only
        omega
      · cases h

end Day

/-! ## Times -/

/-- The microseconds of a day. -/
def dayLength : Nat := 86400000000

/-- A time of a day of the calendar. -/
structure Datetime where
  day : Day
  micros : Nat
  bounded : micros < dayLength
  deriving DecidableEq

namespace Datetime

/-- A number that orders the times. -/
def key (t : Datetime) : Nat := t.day.key * dayLength + t.micros

theorem key_injective : Function.Injective key := by
  intro s t h
  obtain ⟨d, m, hm⟩ := s
  obtain ⟨e, n, hn⟩ := t
  unfold key at h
  dsimp only at h
  have hday : d.key = e.key := by
    unfold dayLength at *
    omega
  have hmicros : m = n := by
    rw [hday] at h
    omega
  obtain rfl := Day.key_injective hday
  subst hmicros
  rfl

instance : LinearOrder Datetime := LinearOrder.lift' key key_injective

theorem le_iff {s t : Datetime} : s ≤ t ↔ s.key ≤ t.key := Iff.rfl

theorem lt_iff {s t : Datetime} : s < t ↔ s.key < t.key := Iff.rfl

/-- A time less than a day later, unless that is beyond the calendar. -/
def later (t : Datetime) (micros : Nat) : Option Datetime :=
  if h : t.micros + micros < dayLength then some ⟨t.day, t.micros + micros, h⟩
  else t.day.next.map fun day =>
    ⟨day, (t.micros + micros - dayLength) % dayLength, Nat.mod_lt _ (by decide)⟩

/-- A later time is on the same day, or it is on the next one. -/
theorem later_cases {t u : Datetime} {micros : Nat} (hmicros : micros < dayLength)
    (h : t.later micros = some u) :
    t.micros + micros < dayLength ∧ u.day = t.day ∧ u.micros = t.micros + micros ∨
      dayLength ≤ t.micros + micros ∧ t.day.next = some u.day ∧
        u.micros = t.micros + micros - dayLength := by
  have ht := t.bounded
  unfold later at h
  split at h
  · rename_i hlt
    cases h
    exact .inl ⟨hlt, rfl, rfl⟩
  · rename_i hge
    obtain ⟨day, hday, rfl⟩ := Option.map_eq_some_iff.mp h
    exact .inr ⟨by omega, hday, Nat.mod_eq_of_lt (by omega)⟩

/-- A later day is later by all of a day. -/
theorem key_mul {a b : Nat} (h : a < b) : a * dayLength + dayLength ≤ b * dayLength := by
  rw [← Nat.succ_mul]
  exact Nat.mul_le_mul_right _ h

/-- Adding less than a day keeps the order. -/
theorem later_mono {s t u v : Datetime} {micros : Nat} (hmicros : micros < dayLength) (h : s ≤ t)
    (hs : s.later micros = some u) (ht : t.later micros = some v) : u ≤ v := by
  rw [le_iff] at h ⊢
  have hsm := s.bounded
  have htm := t.bounded
  unfold key at h ⊢
  have hdays : s.day.key ≤ t.day.key := by
    by_contra hlater
    have hmul := key_mul (Nat.lt_of_not_le hlater)
    omega
  have hle := Nat.mul_le_mul_right dayLength hdays
  rcases later_cases hmicros hs with ⟨hsum, hsday, hu⟩ | ⟨hsum, hsday, hu⟩
  · rcases later_cases hmicros ht with ⟨_, htday, hv⟩ | ⟨_, htday, hv⟩
    · rw [hsday, htday, hu, hv]
      omega
    · have hmul := key_mul (Day.key_lt_next htday)
      rw [hsday, hu]
      omega
  · rcases Nat.lt_or_eq_of_le hdays with hlt | heq
    · have hnext := Nat.mul_le_mul_right dayLength (Day.next_le hsday hlt)
      rcases later_cases hmicros ht with ⟨_, htday, hv⟩ | ⟨_, htday, hv⟩
      · rw [htday, hu, hv]
        omega
      · have hmul := key_mul (Day.key_lt_next htday)
        omega
    · -- on the same day the later of the two passes midnight as well
      have hday := Day.key_injective heq
      rw [heq] at h
      rcases later_cases hmicros ht with ⟨hsum', _, _⟩ | ⟨_, htday, hv⟩
      · omega
      · rw [hday, htday] at hsday
        rw [Option.some.inj hsday, hu, hv]
        omega

end Datetime

/-! ## Numbers in text -/

/-- The digits of a number, as many as the width asks for. -/
def digits : Nat → Nat → List Char
  | 0, _ => []
  | width + 1, n => digits width (n / 10) ++ [Nat.digitChar (n % 10)]

/-- A digit between `0` and `9`. -/
def digit? (c : Char) : Option Nat :=
  if '0' ≤ c ∧ c ≤ '9' then some (c.toNat - 48) else none

/-- The number that digits write, after the digits read before. -/
def readDigits : Nat → List Char → Option Nat
  | n, [] => some n
  | n, c :: cs => (digit? c).bind fun d => readDigits (10 * n + d) cs

theorem length_digits (width n : Nat) : (digits width n).length = width := by
  induction width generalizing n with
  | zero => rfl
  | succ width ih => rw [digits, List.length_append, ih, List.length_singleton]

theorem digit?_digitChar {d : Nat} (h : d < 10) : digit? (Nat.digitChar d) = some d := by
  match d, h with
  | 0, _ | 1, _ | 2, _ | 3, _ | 4, _ | 5, _ | 6, _ | 7, _ | 8, _ | 9, _ => decide

theorem readDigits_append (m : Nat) (cs ds : List Char) :
    readDigits m (cs ++ ds) = (readDigits m cs).bind fun n => readDigits n ds := by
  induction cs generalizing m with
  | nil => rfl
  | cons c cs ih =>
    rw [List.cons_append, readDigits, readDigits]
    cases digit? c with
    | none => rfl
    | some d => exact ih _

/-- Reading the digits of a number gives the number back. -/
theorem readDigits_digits {width n : Nat} (h : n < 10 ^ width) (m : Nat) :
    readDigits m (digits width n) = some (m * 10 ^ width + n) := by
  induction width generalizing n m with
  | zero =>
    rw [digits, readDigits]
    have hzero : n = 0 := by omega
    rw [hzero]
    simp
  | succ width ih =>
    have hdiv : n / 10 < 10 ^ width := by
      rw [Nat.pow_succ] at h
      omega
    have hsplit := Nat.div_add_mod n 10
    rw [digits, readDigits_append, ih hdiv, Option.bind_some, readDigits,
      digit?_digitChar (Nat.mod_lt _ (by decide)), Option.bind_some, readDigits, Nat.pow_succ,
      ← Nat.mul_assoc]
    congr 1
    omega

/-! ## The text of a time -/

/-- The fraction of a second and the `Z` that ends a time. -/
def readFraction : List Char → Option Nat
  | [] => none
  | c :: rest =>
    if c = 'Z' then if rest = [] then some 0 else none
    else
      let fraction := rest.dropLast
      if c = '.' ∧ rest.getLast? = some 'Z' ∧ 1 ≤ fraction.length ∧ fraction.length ≤ 6 then
        (readDigits 0 fraction).map (· * 10 ^ (6 - fraction.length))
      else none

namespace Day

/-- The day of these numbers, if there is one. -/
def of? (year month day : Nat) : Option Day :=
  if h : (1 ≤ year ∧ year ≤ 9999) ∧ (1 ≤ month ∧ month ≤ 12) ∧
      1 ≤ day ∧ day ≤ daysInMonth year month then
    some ⟨year, month, day, h.1, h.2.1, h.2.2⟩
  else none

theorem of?_self (d : Day) : of? d.year d.month d.day = some d :=
  dif_pos ⟨d.years, d.months, d.days⟩

end Day

namespace Datetime

/-- The time of these numbers.  The hour 24 is the midnight that ends the day. -/
def of? (day : Day) (hour minute second fraction : Nat) : Option Datetime :=
  if hour = 24 ∧ minute = 0 ∧ second = 0 ∧ fraction = 0 then
    day.next.map fun day => ⟨day, 0, by decide⟩
  else if h : hour < 24 ∧ minute < 60 ∧ second < 60 ∧ fraction < 1000000 then
    some ⟨day, ((hour * 60 + minute) * 60 + second) * 1000000 + fraction, by
      unfold dayLength
      omega⟩
  else none

/-- The time that a text in UTC writes, with the letter `Z` and up to six digits of a second. -/
def read : List Char → Option Datetime
  | y1 :: y2 :: y3 :: y4 :: '-' :: m1 :: m2 :: '-' :: d1 :: d2 :: 'T' :: h1 :: h2 :: ':' ::
      n1 :: n2 :: ':' :: s1 :: s2 :: rest => do
    let year ← readDigits 0 [y1, y2, y3, y4]
    let month ← readDigits 0 [m1, m2]
    let day ← readDigits 0 [d1, d2]
    let hour ← readDigits 0 [h1, h2]
    let minute ← readDigits 0 [n1, n2]
    let second ← readDigits 0 [s1, s2]
    let fraction ← readFraction rest
    of? (← Day.of? year month day) hour minute second fraction
  | _ => none

/-- The end of a text: the microseconds unless there are none. -/
def fractionText (fraction : Nat) : List Char :=
  if fraction = 0 then ['Z'] else '.' :: digits 6 fraction ++ ['Z']

/-- The text of a time. -/
def text (t : Datetime) : List Char :=
  let seconds := t.micros / 1000000
  digits 4 t.day.year ++ '-' :: digits 2 t.day.month ++ '-' :: digits 2 t.day.day ++ 'T' ::
    digits 2 (seconds / 3600) ++ ':' :: digits 2 (seconds / 60 % 60) ++ ':' ::
    digits 2 (seconds % 60) ++ fractionText (t.micros % 1000000)

theorem readFraction_text {fraction : Nat} (h : fraction < 1000000) :
    readFraction (fractionText fraction) = some fraction := by
  unfold fractionText
  split
  · rename_i hzero
    rw [hzero]
    rfl
  · have hread : readDigits 0 (digits 6 fraction) = some (0 * 10 ^ 6 + fraction) :=
      readDigits_digits h 0
    have hlength := length_digits 6 fraction
    rw [List.cons_append, readFraction, if_neg (by decide)]
    dsimp only
    rw [List.dropLast_concat, List.getLast?_concat, hlength, if_pos (by decide), hread]
    simp

theorem of?_micros (t : Datetime) :
    of? t.day (t.micros / 1000000 / 3600) (t.micros / 1000000 / 60 % 60) (t.micros / 1000000 % 60)
      (t.micros % 1000000) = some t := by
  have hbounded := t.bounded
  unfold dayLength at hbounded
  unfold of?
  rw [if_neg (by omega), dif_pos (by omega)]
  have hmicros : ((t.micros / 1000000 / 3600 * 60 + t.micros / 1000000 / 60 % 60) * 60 +
      t.micros / 1000000 % 60) * 1000000 + t.micros % 1000000 = t.micros := by omega
  obtain ⟨day, micros, hlt⟩ := t
  dsimp only at hmicros ⊢
  simp only [hmicros]

/-- Reading the text of a time gives the time back. -/
theorem read_text (t : Datetime) : read t.text = some t := by
  have hyear := t.day.years
  have hmonth := t.day.months
  have hday := t.day.day_lt
  have hbounded := t.bounded
  unfold dayLength at hbounded
  have hy : readDigits 0 (digits 4 t.day.year) = _ := readDigits_digits (by omega) 0
  have hm : readDigits 0 (digits 2 t.day.month) = _ := readDigits_digits (by omega) 0
  have hd : readDigits 0 (digits 2 t.day.day) = _ := readDigits_digits (by omega) 0
  have hh : readDigits 0 (digits 2 (t.micros / 1000000 / 3600)) = _ := readDigits_digits (by omega) 0
  have hn : readDigits 0 (digits 2 (t.micros / 1000000 / 60 % 60)) = _ :=
    readDigits_digits (by omega) 0
  have hs : readDigits 0 (digits 2 (t.micros / 1000000 % 60)) = _ := readDigits_digits (by omega) 0
  have hf := readFraction_text (Nat.mod_lt t.micros (by decide : 0 < 1000000))
  rw [Nat.zero_mul, Nat.zero_add] at hy hm hd hh hn hs
  simp only [digits, List.nil_append, List.cons_append] at hy hm hd hh hn hs
  unfold text
  simp only [digits, List.nil_append, List.cons_append]
  unfold read
  simp only [hy, hm, hd, hh, hn, hs, hf, Option.bind_eq_bind, Option.bind_some, Day.of?_self]
  exact of?_micros t

end Datetime

end Ipms.Lib
