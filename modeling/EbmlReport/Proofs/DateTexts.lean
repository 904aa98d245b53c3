import EbmlReport.Proofs.CalendarDays

/-!
# Texts of dates

A date is held as a count of nanoseconds from the start of 2001 and shown as a date and a time of
the calendar.  Here such a text is read, and what it says is counted up in nanoseconds again.
Each number in it has as many digits as its place, and larger units stand in front of smaller
ones.  So texts are ordered character by character as the instants are that they stand for.

A word of 64 bits reaches from 1708 to 2293, so that each count has a text.  Whoever prints dates
may count seconds from 1970, and these are far inside their word, too.

**Results.**
* `Calendar.digits_append_lt_iff`: numbers of one width are ordered as their digits are.
* `Calendar.Layout.read?_write`, `Calendar.Layout.write_lt_write_iff`: numbers in their places.
* `Calendar.Moment.read?_text`, `Calendar.Moment.text_lt_of_nanos_lt`: reading and order.
* `Calendar.momentOf_spec`, `Calendar.text_nanos`: the moment of an instant, and its text.
* `Calendar.checkedText_nanos`: no number on the way to a text leaves its word.
* `Calendar.text_faithful`: the law for every count of 64 bits.
-/

namespace EbmlReport

namespace Calendar

section Digits

/-- The last `width` decimal digits of a number. -/
def digits : (width : Nat) → (n : Nat) → List Char
  | 0, _ => []
  | width + 1, n => digits width (n / 10) ++ [Nat.digitChar (n % 10)]

@[simp] theorem length_digits (width n : Nat) : (digits width n).length = width := by
  induction width generalizing n with
  | zero => rfl
  | succ width ih => simp [digits, ih]

theorem digits_zero (width : Nat) : digits width 0 = List.replicate width '0' := by
  induction width with
  | zero => rfl
  | succ width ih =>
      rw [digits, Nat.zero_div, ih, List.replicate_succ']
      rfl

/-- A number with zeros in front is a run of digits, if there are enough of them. -/
theorem toList_field
    {width n : Nat}
    (hn : n < 10 ^ (width + 1)) :
    (field (width + 1) n).toList = digits (width + 1) n := by
  have hfield : ∀ width n, (field width n).toList =
      List.replicate (width - (Nat.toDigits 10 n).length) '0' ++ Nat.toDigits 10 n := by
    intro width n
    rw [field, padZeros, String.toList_append, String.toList_ofList, ← String.length_toList,
      Nat.toString_eq_repr, Nat.toList_repr]
  rw [hfield]
  induction width generalizing n with
  | zero =>
      rw [Nat.toDigits_eq_if (by decide), if_pos (by omega)]
      simp [digits, Nat.mod_eq_of_lt (show n < 10 by omega)]
  | succ width ih =>
      rw [Nat.toDigits_eq_if (by decide), digits]
      split
      · rename_i hsmall
        rw [Nat.div_eq_of_lt hsmall, digits_zero, Nat.mod_eq_of_lt hsmall]
        rfl
      · rename_i hlarge
        have hfront := ih (n := n / 10) (by rw [Nat.pow_succ] at hn; omega)
        rw [← hfront, List.length_append, List.length_singleton, ← List.append_assoc,
          Nat.add_sub_add_right]

theorem digitChar_lt_iff
    {a b : Nat}
    (ha : a < 10)
    (hb : b < 10) :
    Nat.digitChar a < Nat.digitChar b ↔ a < b := by
  have hall : ∀ a, a < 10 → ∀ b, b < 10 → (Nat.digitChar a < Nat.digitChar b ↔ a < b) := by
    decide
  exact hall a ha b hb

theorem digitChar_inj
    {a b : Nat}
    (ha : a < 10)
    (hb : b < 10) :
    Nat.digitChar a = Nat.digitChar b ↔ a = b := by
  have hall : ∀ a, a < 10 → ∀ b, b < 10 → (Nat.digitChar a = Nat.digitChar b ↔ a = b) := by
    decide
  exact hall a ha b hb

/-- Numbers of one width are ordered as their digits are, and what comes behind counts when they
are the same. -/
theorem digits_append_lt_iff
    {width a b : Nat}
    (ha : a < 10 ^ width)
    (hb : b < 10 ^ width)
    (front back : List Char) :
    digits width a ++ front < digits width b ++ back ↔ a < b ∨ a = b ∧ front < back := by
  induction width generalizing a b front back with
  | zero =>
      have hsame : a = b := by omega
      simp [digits, hsame]
  | succ width ih =>
      rw [Nat.pow_succ] at ha hb
      rw [digits, digits, List.append_assoc, List.append_assoc, ih (by omega) (by omega),
        List.singleton_append, List.singleton_append, List.cons_lt_cons_iff,
        digitChar_lt_iff (Nat.mod_lt _ (by decide)) (Nat.mod_lt _ (by decide)),
        digitChar_inj (Nat.mod_lt _ (by decide)) (Nat.mod_lt _ (by decide))]
      constructor
      · rintro (hhigh | ⟨hhigh, hlow | ⟨hlow, hbehind⟩⟩)
        · exact Or.inl (by omega)
        · exact Or.inl (by omega)
        · exact Or.inr ⟨by omega, hbehind⟩
      · rintro (hlt | ⟨rfl, hbehind⟩)
        · omega
        · exact Or.inr ⟨rfl, Or.inr ⟨rfl, hbehind⟩⟩

/-- Reads a number of the given width, and gives the characters behind it too. -/
def number? (width : Nat) (chars : List Char) : Option (Nat × List Char) :=
  if width ≤ chars.length ∧ (chars.take width).all Char.isDigit then
    some (Nat.ofDigitChars 10 (chars.take width) 0, chars.drop width)
  else none

theorem all_isDigit_digits (width n : Nat) : (digits width n).all Char.isDigit = true := by
  induction width generalizing n with
  | zero => rfl
  | succ width ih =>
      rw [digits, List.all_append, ih]
      simp [Nat.isDigit_digitChar, Nat.mod_lt]

theorem ofDigitChars_digits
    {width n : Nat}
    (hn : n < 10 ^ width) :
    Nat.ofDigitChars 10 (digits width n) 0 = n := by
  induction width generalizing n with
  | zero =>
      have hzero : n = 0 := by omega
      rw [hzero]
      rfl
  | succ width ih =>
      rw [Nat.pow_succ] at hn
      have hlast : (Nat.digitChar (n % 10)).toNat = 48 + n % 10 :=
        Nat.toNat_digitChar_of_lt_ten (Nat.mod_lt _ (by decide))
      have hzero : '0'.toNat = 48 := rfl
      rw [digits, Nat.ofDigitChars_append, ih (by omega), Nat.ofDigitChars_cons,
        Nat.ofDigitChars_nil, hlast, hzero]
      omega

/-- Digits are read back. -/
theorem number?_digits
    {width n : Nat}
    (hn : n < 10 ^ width)
    (rest : List Char) :
    number? width (digits width n ++ rest) = some (n, rest) := by
  have hfront : (digits width n ++ rest).take width = digits width n :=
    List.take_left' (length_digits width n)
  have hback : (digits width n ++ rest).drop width = rest :=
    List.drop_left' (length_digits width n)
  rw [number?, hfront, hback, ofDigitChars_digits hn, all_isDigit_digits, if_pos (by simp)]

end Digits

section Layouts

/-- Places for numbers, each with its width and the mark behind it. -/
abbrev Layout := List (Nat × Char)

namespace Layout

/-- There is one number for each place, and it is no wider than that. -/
def Fits : Layout → (numbers : List Nat) → Prop
  | [], [] => True
  | (width, _) :: places, n :: numbers => n < 10 ^ width ∧ Fits places numbers
  | _, _ => False

/-- Numbers in their places. -/
def write : Layout → (numbers : List Nat) → List Char
  | (width, mark) :: places, n :: numbers => digits width n ++ mark :: write places numbers
  | _, _ => []

/-- Reads the numbers in their places. -/
def read? : Layout → (chars : List Char) → Option (List Nat)
  | [], chars => if chars = [] then some [] else none
  | (width, mark) :: places, chars =>
      match number? width chars with
      | some (n, first :: rest) =>
          if first = mark then (read? places rest).map (n :: ·) else none
      | _ => none

/-- Characters of all the places and marks. -/
def length : Layout → Nat
  | [] => 0
  | (width, _) :: places => width + 1 + length places

variable {layout : Layout} {numbers numbers' : List Nat}

/-- Written numbers are read back. -/
theorem read?_write (h : layout.Fits numbers) :
    layout.read? (layout.write numbers) = some numbers := by
  induction layout generalizing numbers with
  | nil =>
      cases numbers with
      | nil => rfl
      | cons n numbers => cases h
  | cons place places ih =>
      cases numbers with
      | nil => cases h
      | cons n numbers =>
          obtain ⟨hn, hnumbers⟩ := h
          simp only [write, read?, number?_digits hn, if_true, ih hnumbers, Option.map_some]

/-- Whatever numbers are written, they take all the places. -/
theorem length_write (h : layout.Fits numbers) : (layout.write numbers).length = layout.length := by
  induction layout generalizing numbers with
  | nil =>
      cases numbers with
      | nil => rfl
      | cons n numbers => cases h
  | cons place places ih =>
      cases numbers with
      | nil => cases h
      | cons n numbers =>
          rw [write, length, List.length_append, length_digits, List.length_cons, ih h.2]
          omega

/-- Written numbers are ordered as the numbers are, of which the first ones count most. -/
theorem write_lt_write_iff
    (h : layout.Fits numbers)
    (h' : layout.Fits numbers') :
    layout.write numbers < layout.write numbers' ↔ numbers < numbers' := by
  induction layout generalizing numbers numbers' with
  | nil =>
      cases numbers with
      | cons n numbers => cases h
      | nil =>
          cases numbers' with
          | cons n' numbers' => cases h'
          | nil => simp [write]
  | cons place places ih =>
      cases numbers with
      | nil => cases h
      | cons n numbers =>
          cases numbers' with
          | nil => cases h'
          | cons n' numbers' =>
              rw [write, write, digits_append_lt_iff h.1 h'.1, List.cons_lt_cons_iff,
                List.cons_lt_cons_iff, ih h.2 h'.2]
              simp

end Layout

end Layouts

/-- A date and a time of day. -/
@[ext] structure Moment where
  year : Int
  month : Nat
  day : Nat
  hour : Nat
  minute : Nat
  second : Nat
  nano : Nat
deriving DecidableEq, Repr

namespace Moment

/-- There is such a moment: a date of the calendar, and a time of a day without leap seconds. -/
structure Valid (m : Moment) : Prop where
  date : IsDate m.year m.month m.day
  hour : m.hour < 24
  minute : m.minute < 60
  second : m.second < 60
  nano : m.nano < 1000000000

/-- Seconds from the start of 2001. -/
def seconds (m : Moment) : Int :=
  86400 * dayNumber m.year m.month m.day + (3600 * m.hour + 60 * m.minute + m.second : Nat)

/-- Nanoseconds from the start of 2001. -/
def nanos (m : Moment) : Int :=
  1000000000 * m.seconds + m.nano

/-- Date and time of day, with marks between and behind them. -/
def text (m : Moment) : String :=
  field 4 m.year.toNat ++ "-" ++ field 2 m.month ++ "-" ++ field 2 m.day ++ "T" ++
    field 2 m.hour ++ ":" ++ field 2 m.minute ++ ":" ++ field 2 m.second ++ "." ++
    field 9 m.nano ++ "Z"

/-- The numbers of a moment, in the order in which they are written. -/
def numbers (m : Moment) : List Nat :=
  [m.year.toNat, m.month, m.day, m.hour, m.minute, m.second, m.nano]

/-- Four, two and two digits for the date, and two, two, two and nine for the time of day. -/
def layout : Layout :=
  [(4, '-'), (2, '-'), (2, 'T'), (2, ':'), (2, ':'), (2, '.'), (9, 'Z')]

/-- Reads a date and a time of day. -/
def read? (text : String) : Option Moment :=
  match layout.read? text.toList with
  | some [year, month, day, hour, minute, second, nano] =>
      some ⟨year, month, day, hour, minute, second, nano⟩
  | _ => none

variable {m m' : Moment}

/-- The year has four digits. -/
def HasText (m : Moment) : Prop :=
  0 ≤ m.year ∧ m.year ≤ 9999

instance (m : Moment) : Decidable m.HasText :=
  inferInstanceAs (Decidable (0 ≤ m.year ∧ m.year ≤ 9999))

theorem Valid.time (h : m.Valid) :
    m.hour < 24 ∧ m.minute < 60 ∧ m.second < 60 ∧ m.nano < 1000000000 :=
  ⟨h.hour, h.minute, h.second, h.nano⟩

/-- The numbers of a moment have no more digits than there is place for. -/
theorem Valid.fits (h : m.Valid) (hyear : m.HasText) : layout.Fits m.numbers := by
  have hlengths : ∀ leap, ∀ month, month ≤ 12 → (monthLengths leap).getD (month - 1) 0 < 100 := by
    decide
  have hmonth := h.date.month_le
  have hday : m.day ≤ (monthLengths (isLeap m.year)).getD (m.month - 1) 0 := h.date.day_le
  have hlength := hlengths (isLeap m.year) m.month hmonth
  have htime := h.time
  obtain ⟨hlow, hhigh⟩ := hyear
  exact ⟨by omega, by omega, by omega, by omega, by omega, by omega, h.nano, trivial⟩

theorem toList_text (h : m.Valid) (hyear : m.HasText) :
    m.text.toList = layout.write m.numbers := by
  obtain ⟨hyears, hmonth, hday, hhour, hminute, hsecond, hnano, _⟩ := h.fits hyear
  simp only [text, String.toList_append]
  rw [toList_field hyears, toList_field hmonth, toList_field hday, toList_field hhour,
    toList_field hminute, toList_field hsecond, toList_field hnano]
  simp [layout, numbers, Layout.write]

/-- A text is read as the moment that it was written for. -/
theorem read?_text (h : m.Valid) (hyear : m.HasText) : read? m.text = some m := by
  rw [read?, toList_text h hyear, Layout.read?_write (h.fits hyear)]
  simp only [numbers, Int.toNat_of_nonneg hyear.1]

theorem length_text (h : m.Valid) (hyear : m.HasText) : m.text.length = 30 := by
  rw [← String.length_toList, toList_text h hyear, Layout.length_write (h.fits hyear)]
  rfl

/-- Texts of later moments are larger. -/
theorem text_lt_of_nanos_lt
    (h : m.Valid)
    (hyear : m.HasText)
    (h' : m'.Valid)
    (hyear' : m'.HasText)
    (hlt : m.nanos < m'.nanos) :
    m.text < m'.text := by
  rw [String.lt_iff, toList_text h hyear, toList_text h' hyear',
    Layout.write_lt_write_iff (h.fits hyear) (h'.fits hyear')]
  obtain ⟨hlow, _⟩ := hyear
  obtain ⟨hlow', _⟩ := hyear'
  have htime := h.time
  have htime' := h'.time
  simp only [nanos, seconds] at hlt
  simp only [numbers, List.cons_lt_cons_iff]
  -- The first number in which the moments differ is one of the date, or they are of one day.
  by_cases hdays : dayNumber m.year m.month m.day < dayNumber m'.year m'.month m'.day
  · have hearlier := (dayNumber_lt_iff h.date h'.date).mp hdays
    rw [Earlier] at hearlier
    omega
  · have hsame : dayNumber m.year m.month m.day = dayNumber m'.year m'.month m'.day := by omega
    obtain ⟨hyears, hmonths, hdays⟩ := eq_of_dayNumber_eq h.date h'.date hsame
    omega

/-- No two moments are one instant. -/
theorem eq_of_nanos_eq
    (h : m.Valid)
    (h' : m'.Valid)
    (heq : m.nanos = m'.nanos) :
    m = m' := by
  have htime := h.time
  have htime' := h'.time
  simp only [nanos, seconds] at heq
  have hdays : dayNumber m.year m.month m.day = dayNumber m'.year m'.month m'.day := by omega
  obtain ⟨hyear, hmonth, hday⟩ := eq_of_dayNumber_eq h.date h'.date hdays
  exact Moment.ext hyear hmonth hday (by omega) (by omega) (by omega) (by omega)

end Moment

/-- The date and the time of day of an instant. -/
def momentOf (nanos : Int) : Moment :=
  let seconds := nanos.fdiv nanosPerSecond
  let ofDay := (seconds.fmod secondsPerDay).toNat
  let date := civil (seconds.fdiv secondsPerDay)
  ⟨date.1, date.2.1, date.2.2, ofDay / 3600, ofDay / 60 % 60, ofDay % 60,
    (nanos.fmod nanosPerSecond).toNat⟩

theorem text_eq (nanos : Int) :
    text nanos =
      if (momentOf nanos).HasText then (momentOf nanos).text
      else "<date out of range: " ++ toString nanos ++ "ns>" := rfl

/-- An instant is divided into seconds, and these into days. -/
theorem momentOf_spec (nanos : Int) :
    (momentOf nanos).Valid ∧ (momentOf nanos).nanos = nanos := by
  obtain ⟨hdate, hday⟩ := civil_spec ((nanos.fdiv nanosPerSecond).fdiv secondsPerDay)
  have hseconds : nanos = 1000000000 * nanos.fdiv nanosPerSecond + nanos.fmod nanosPerSecond :=
    (Int.mul_fdiv_add_fmod nanos nanosPerSecond).symm
  have hfraction : 0 ≤ nanos.fmod nanosPerSecond ∧ nanos.fmod nanosPerSecond < 1000000000 :=
    ⟨Int.fmod_nonneg_of_pos _ (by decide), Int.fmod_lt_of_pos _ (by decide)⟩
  generalize hrest : nanos.fmod nanosPerSecond = rest at hseconds hfraction
  generalize hwhole : nanos.fdiv nanosPerSecond = whole at hseconds hdate hday
  have hdays : whole = 86400 * whole.fdiv secondsPerDay + whole.fmod secondsPerDay :=
    (Int.mul_fdiv_add_fmod whole secondsPerDay).symm
  have htime : 0 ≤ whole.fmod secondsPerDay ∧ whole.fmod secondsPerDay < 86400 :=
    ⟨Int.fmod_nonneg_of_pos _ (by decide), Int.fmod_lt_of_pos _ (by decide)⟩
  simp only [momentOf, Moment.nanos, Moment.seconds, hrest, hwhole]
  refine ⟨⟨hdate, ?_, ?_, ?_, ?_⟩, ?_⟩
  · dsimp only
    omega
  · dsimp only
    omega
  · dsimp only
    omega
  · dsimp only
    omega
  · rw [hday]
    omega

/-- The text of the instant of a moment is the text of the moment. -/
theorem text_nanos {m : Moment} (h : m.Valid) (hyear : m.HasText) : text m.nanos = m.text := by
  obtain ⟨hvalid, hnanos⟩ := momentOf_spec m.nanos
  have hsame : momentOf m.nanos = m := Moment.eq_of_nanos_eq hvalid h hnanos
  rw [text_eq, hsame, if_pos hyear]

section Words

variable {nanos : Int}

/-- A word of nanoseconds does not reach out of the years with four digits. -/
theorem hasText_momentOf
    (hlow : -2 ^ 63 ≤ nanos)
    (hhigh : nanos < 2 ^ 63) :
    (momentOf nanos).HasText := by
  obtain ⟨hvalid, hnanos⟩ := momentOf_spec nanos
  obtain ⟨hstart, hstop⟩ := dayNumber_bounds hvalid.date
  have htime := hvalid.time
  simp only [Moment.nanos, Moment.seconds] at hnanos
  have hfirst : yearStart 0 = -730851 := by
    rw [yearStart_eq]
    rfl
  have hlast : yearStart 10000 = 2921574 := by
    rw [yearStart_eq]
    rfl
  have hnotBefore := mt (year_lt_iff hvalid.date 0).mp (by omega)
  have hbefore := (year_lt_iff hvalid.date 10000).mpr (by omega)
  exact ⟨Int.not_lt.mp hnotBefore, Int.lt_add_one_iff.mp hbefore⟩

/-- The number, if it is one of 64 bits with a sign. -/
def word? (n : Int) : Option Int :=
  if -2 ^ 63 ≤ n ∧ n < 2 ^ 63 then some n else none

/-- The number, if it is one of 32 bits without a sign. -/
def half? (n : Int) : Option Nat :=
  if 0 ≤ n ∧ n < 2 ^ 32 then some n.toNat else none

theorem word?_eq_some
    (n : Int)
    (hlow : -2 ^ 63 ≤ n)
    (hhigh : n < 2 ^ 63) :
    word? n = some n :=
  if_pos ⟨hlow, hhigh⟩

theorem half?_eq_some (n : Nat) (h : n < 2 ^ 32) : half? n = some n := by
  rw [half?, if_pos ⟨Int.natCast_nonneg n, by omega⟩, Int.toNat_natCast]

/-- Seconds from the start of 1970 to the start of 2001. -/
def secondsTo2001 : Int := 978307200

/-- The text of a date by means of `print`, which is given the seconds from the start of 1970 and
the nanoseconds behind them, and need not have a text for all of them.  Every number on the way
there has to fit its word. -/
def checkedText (print : (seconds : Int) → (nano : Nat) → Option String) (nanos : Int) :
    Option String := do
  let whole ← word? (nanos / nanosPerSecond)
  let seconds ← word? (whole + secondsTo2001)
  let rest ← word? (nanos % nanosPerSecond)
  let nano ← half? rest
  print seconds nano

/-- Dates of the calendar are printed, as long as the year has four digits. -/
def Prints (print : (seconds : Int) → (nano : Nat) → Option String) : Prop :=
  ∀ m : Moment, m.Valid → m.HasText →
    print (m.seconds - (⟨1970, 1, 1, 0, 0, 0, 0⟩ : Moment).seconds) m.nano = some m.text

theorem seconds_1970 : (⟨1970, 1, 1, 0, 0, 0, 0⟩ : Moment).seconds = -secondsTo2001 := by
  decide

/-- No number on the way to the text of a moment leaves its word, if the instant is inside one. -/
theorem checkedText_nanos
    {print : (seconds : Int) → (nano : Nat) → Option String}
    (hprint : Prints print)
    {m : Moment}
    (hm : m.Valid)
    (hyear : m.HasText)
    (hlow : -2 ^ 63 ≤ m.nanos)
    (hhigh : m.nanos < 2 ^ 63) :
    checkedText print m.nanos = some m.text := by
  have hprinted := hprint m hm hyear
  have hnano := hm.nano
  have hnanos : m.nanos = 1000000000 * m.seconds + m.nano := rfl
  have hseconds : m.nanos / nanosPerSecond = m.seconds := by
    rw [nanosPerSecond]
    omega
  have hrest : m.nanos % nanosPerSecond = m.nano := by
    rw [nanosPerSecond]
    omega
  have hepoch : secondsTo2001 = 978307200 := rfl
  have hfits := word?_eq_some m.seconds (by omega) (by omega)
  have hmoved := word?_eq_some (m.seconds + secondsTo2001) (by omega) (by omega)
  have hword := word?_eq_some m.nano (by omega) (by omega)
  have hhalf := half?_eq_some m.nano (by omega)
  rw [seconds_1970, Int.sub_neg] at hprinted
  rw [checkedText, hseconds, hfits]
  simp only [Option.bind_eq_bind, Option.bind_some]
  rw [hmoved, Option.bind_some, hrest, hword, Option.bind_some, hhalf, Option.bind_some]
  exact hprinted

end Words

/-- **Texts of dates of 64 bits.**  Every count of nanoseconds of 64 bits has a text of 30
characters, and that text is read as the moment of the calendar which lies as many nanoseconds
behind the start of 2001.  A larger count has a larger text.  Where the text is printed from the
seconds since 1970, by any means that knows the calendar, all numbers on the way fit their words
and the date is in range. -/
theorem text_faithful (n : Int64) :
    (∃ m : Moment, m.Valid ∧ m.nanos = n.toInt ∧ (text n.toInt).length = 30 ∧
      Moment.read? (text n.toInt) = some m) ∧
      (∀ k : Int64, n < k → text n.toInt < text k.toInt) ∧
      (∀ print, Prints print → checkedText print n.toInt = some (text n.toInt)) := by
  have hmoment (k : Int64) : ∃ m : Moment,
      m.Valid ∧ m.HasText ∧ m.nanos = k.toInt ∧ text k.toInt = m.text := by
    obtain ⟨hvalid, hnanos⟩ := momentOf_spec k.toInt
    have hyear := hasText_momentOf k.le_toInt k.toInt_lt
    exact ⟨_, hvalid, hyear, hnanos, by rw [text_eq, if_pos hyear]⟩
  obtain ⟨m, hm, hyear, hnanos, htext⟩ := hmoment n
  refine ⟨⟨m, hm, hnanos, ?_, ?_⟩, ?_, ?_⟩
  · rw [htext]
    exact Moment.length_text hm hyear
  · rw [htext]
    exact Moment.read?_text hm hyear
  · intro k hk
    obtain ⟨m', hm', hyear', hnanos', htext'⟩ := hmoment k
    rw [htext, htext']
    refine Moment.text_lt_of_nanos_lt hm hyear hm' hyear' ?_
    rw [hnanos, hnanos']
    exact Int64.lt_iff_toInt_lt.mp hk
  · intro print hprint
    have hlow := n.le_toInt
    have hhigh := n.toInt_lt
    rw [htext]
    rw [← hnanos] at hlow hhigh ⊢
    exact checkedText_nanos hprint hm hyear hlow hhigh

/-- The first and the last count of 64 bits. -/
theorem text_faithful_ends :
    let print : (seconds : Int) → (nano : Nat) → Option String := fun seconds nano =>
      some (text (1000000000 * (seconds - secondsTo2001) + nano))
    let first := "1708-09-22T00:12:43.145224192Z"
    let last := "2293-04-11T23:47:16.854775807Z"
    Int64.minValue < Int64.maxValue ∧ Prints print ∧
      text Int64.minValue.toInt = first ∧ text Int64.maxValue.toInt = last ∧ first < last ∧
      checkedText print Int64.minValue.toInt = some first ∧
      checkedText print Int64.maxValue.toInt = some last := by
  intro print first last
  have hlt : Int64.minValue < Int64.maxValue := by decide
  have hprint : Prints print := by
    intro m hm hyear
    have hnanos : 1000000000 * (m.seconds - -secondsTo2001 - secondsTo2001) + (m.nano : Int) =
        m.nanos := by
      rw [Moment.nanos]
      omega
    simp only [print, seconds_1970, hnanos, text_nanos hm hyear]
  have hfirst : text Int64.minValue.toInt = first := by decide +kernel
  have hlast : text Int64.maxValue.toInt = last := by decide +kernel
  obtain ⟨_, hlater, hfirstPrinted⟩ := text_faithful Int64.minValue
  obtain ⟨_, _, hlastPrinted⟩ := text_faithful Int64.maxValue
  have hordered := hlater _ hlt
  have hfirstPrinted := hfirstPrinted print hprint
  have hlastPrinted := hlastPrinted print hprint
  rw [hfirst, hlast] at hordered
  rw [hfirst] at hfirstPrinted
  rw [hlast] at hlastPrinted
  exact ⟨hlt, hprint, hfirst, hlast, hordered, hfirstPrinted, hlastPrinted⟩

end Calendar

end EbmlReport
