import Craq.Lib.Text

/-! # Dates of the Gregorian calendar and times as texts

Days are counted from the first of January of the year 0.  A date names a day by its year, its month
and its day, the last two counted from 0.  A time is written as RFC 3339 has it, in UTC and with as
many digits of the second's fraction as it needs.
-/

namespace Craq.Lib

/-! ## Years and months -/

/-- The days before the year: 365 for every year and one more for each leap year. -/
def daysBeforeYear (year : Nat) : Nat :=
  365 * year + (year + 3) / 4 - (year + 99) / 100 + (year + 399) / 400

def IsLeapYear (year : Nat) : Prop :=
  year % 4 = 0 ∧ (year % 100 ≠ 0 ∨ year % 400 = 0)

instance : DecidablePred IsLeapYear :=
  fun year => inferInstanceAs (Decidable (year % 4 = 0 ∧ (year % 100 ≠ 0 ∨ year % 400 = 0)))

def monthLengths (year : Nat) : List Nat :=
  [31, if IsLeapYear year then 29 else 28, 31, 30, 31, 30, 31, 31, 30, 31, 30, 31]

/-- The year of a day: the mean length of a year gives it up to one year. -/
def yearOf (days : Nat) : Nat :=
  let guess := days * 400 / 146097
  if days < daysBeforeYear guess then guess - 1
  else if daysBeforeYear (guess + 1) ≤ days then guess + 1
  else guess

/-- The leap years are every fourth one, but not every hundredth, but again every fourhundredth. -/
theorem daysBeforeYear_succ (year : Nat) :
    daysBeforeYear (year + 1) = daysBeforeYear year + if IsLeapYear year then 366 else 365 := by
  have hFour : (year + 1 + 3) / 4 = (year + 3) / 4 + if year % 4 = 0 then 1 else 0 := by
    split <;> omega
  have hHundred : (year + 1 + 99) / 100 = (year + 99) / 100 + if year % 100 = 0 then 1 else 0 := by
    split <;> omega
  have hFourHundred :
      (year + 1 + 399) / 400 = (year + 399) / 400 + if year % 400 = 0 then 1 else 0 := by
    split <;> omega
  have hFewer : (year + 99) / 100 ≤ (year + 3) / 4 := by omega
  have hBoth : year % 100 = 0 → year % 4 = 0 := by omega
  have hAll : year % 400 = 0 → year % 100 = 0 := by omega
  simp only [daysBeforeYear, hFour, hHundred, hFourHundred, IsLeapYear]
  generalize (year + 3) / 4 = fours at *
  generalize (year + 99) / 100 = hundreds at *
  by_cases h4 : year % 4 = 0
  · by_cases h100 : year % 100 = 0
    · by_cases h400 : year % 400 = 0 <;> simp [h4, h100, h400] <;> omega
    · have h400 : ¬year % 400 = 0 := fun h => h100 (hAll h)
      simp [h4, h100, h400]
      omega
  · have h100 : ¬year % 100 = 0 := fun h => h4 (hBoth h)
    have h400 : ¬year % 400 = 0 := fun h => h100 (hAll h)
    simp [h4, h100, h400]
    omega

theorem yearOf_spec (days : Nat) :
    daysBeforeYear (yearOf days) ≤ days ∧ days < daysBeforeYear (yearOf days + 1) := by
  obtain ⟨guess, hGuess⟩ : ∃ guess, guess = days * 400 / 146097 := ⟨_, rfl⟩
  have hLow : guess * 146097 ≤ days * 400 := by omega
  have hHigh : days * 400 < (guess + 1) * 146097 := by omega
  rw [yearOf, ← hGuess]
  split
  · rename_i h
    cases guess with
    | zero => exact absurd h (Nat.not_lt_zero _)
    | succ year =>
      refine ⟨?_, h⟩
      rw [Nat.add_sub_cancel, daysBeforeYear]
      omega
  · split
    · rename_i h
      refine ⟨h, ?_⟩
      rw [daysBeforeYear]
      omega
    · omega

theorem sum_monthLengths (year : Nat) :
    daysBeforeYear year + (monthLengths year).sum = daysBeforeYear (year + 1) := by
  rw [daysBeforeYear_succ, monthLengths]
  split <;> rfl

theorem daysBeforeYear_mono : Monotone daysBeforeYear :=
  monotone_nat_of_le_succ fun year => by
    rw [← sum_monthLengths]
    exact Nat.le_add_right _ _

/-- The month in which a day of the year falls, and its day there. -/
def splitMonths : List Nat → Nat → Nat × Nat
  | [], day => (0, day)
  | length :: lengths, day =>
    if day < length then (0, day)
    else
      let later := splitMonths lengths (day - length)
      (later.1 + 1, later.2)

theorem sum_splitMonths (lengths : List Nat) (day : Nat) :
    (lengths.take (splitMonths lengths day).1).sum + (splitMonths lengths day).2 = day := by
  induction lengths generalizing day with
  | nil => exact Nat.zero_add day
  | cons length lengths ih =>
    rw [splitMonths]
    split
    · exact Nat.zero_add day
    · have hLater := ih (day - length)
      simp only [List.take_succ_cons, List.sum_cons]
      omega

theorem splitMonths_lt (lengths : List Nat) (day : Nat) (hDay : day < lengths.sum)
    (hLengths : ∀ length ∈ lengths, length ≤ 31) :
    (splitMonths lengths day).1 < lengths.length ∧ (splitMonths lengths day).2 < 31 := by
  induction lengths generalizing day with
  | nil => exact absurd hDay (Nat.not_lt_zero day)
  | cons length lengths ih =>
    obtain ⟨hFirst, hRest⟩ := List.forall_mem_cons.mp hLengths
    rw [splitMonths]
    split
    · exact ⟨Nat.succ_pos _, by omega⟩
    · rw [List.sum_cons] at hDay
      have hLater := ih (day - length) (by omega) hRest
      exact ⟨Nat.succ_lt_succ hLater.1, hLater.2⟩

/-! ## Dates -/

structure Date where
  year : Nat
  month : Nat
  day : Nat

def Date.days (date : Date) : Nat :=
  daysBeforeYear date.year + ((monthLengths date.year).take date.month).sum + date.day

def dateOf (days : Nat) : Date :=
  let split := splitMonths (monthLengths (yearOf days)) (days - daysBeforeYear (yearOf days))
  ⟨yearOf days, split.1, split.2⟩

theorem days_dateOf (days : Nat) : (dateOf days).days = days := by
  have hYear := (yearOf_spec days).1
  have hSplit := sum_splitMonths (monthLengths (yearOf days)) (days - daysBeforeYear (yearOf days))
  simp only [dateOf, Date.days]
  omega

theorem dateOf_lt (days : Nat) : (dateOf days).month < 12 ∧ (dateOf days).day < 31 := by
  refine splitMonths_lt (monthLengths (yearOf days)) _ ?_ ?_
  · have hSum := sum_monthLengths (yearOf days)
    have hYear := yearOf_spec days
    omega
  · rw [monthLengths]
    split <;> decide

theorem year_dateOf_lt {days year : Nat} (h : days < daysBeforeYear year) :
    (dateOf days).year < year := by
  by_contra hLate
  have := daysBeforeYear_mono (Nat.le_of_not_lt hLate)
  exact absurd ((yearOf_spec days).1.trans_lt h) (Nat.not_lt.mpr this)

/-! ## Times -/

def nanosPerDay : Nat := 86400 * 10 ^ 9

/-- The nanoseconds from the year 0 to the epoch. -/
def epochNanos : Nat := daysBeforeYear 1970 * nanosPerDay

/-- The fraction of a second, without the zeros at its end. -/
def fraction (nanos : Nat) : List Char :=
  if nanos = 0 then [] else '.' :: (digits 9 nanos).rdropWhile (· = '0')

def clockText (nanos : Nat) : List Char :=
  digits 2 (nanos / (3600 * 10 ^ 9)) ++ ([':'] ++ (digits 2 (nanos / (60 * 10 ^ 9) % 60) ++
    ([':'] ++ (digits 2 (nanos / 10 ^ 9 % 60) ++ (fraction (nanos % 10 ^ 9) ++ ['Z'])))))

def dateText (date : Date) : List Char :=
  digits 4 date.year ++ (['-'] ++ (digits 2 (date.month + 1) ++ (['-'] ++ digits 2 (date.day + 1))))

/-- The time falls in a year that four digits can name. -/
def InYears (time : Int) : Prop :=
  0 ≤ time + epochNanos ∧ time + epochNanos < daysBeforeYear 10000 * nanosPerDay

instance : DecidablePred InYears :=
  fun _ => inferInstanceAs (Decidable (_ ∧ _))

/-- The text of a time in nanoseconds since the epoch. -/
def timeText (time : Int) : Option (List Char) :=
  let nanos := (time + epochNanos).toNat
  if InYears time then
    some (dateText (dateOf (nanos / nanosPerDay)) ++ (['T'] ++ clockText (nanos % nanosPerDay)))
  else none

def readDate : Reader Date := do
  let year ← readFixed 4
  expect '-'
  let month ← readFixed 2
  expect '-'
  let day ← readFixed 2
  return ⟨year, month - 1, day - 1⟩

def readFraction : Reader Nat := do
  match ← get with
  | '.' :: rest =>
    set rest
    let text ← takeDigits
    expect 'Z'
    return valueOf (text ++ List.replicate (9 - text.length) '0')
  | _ =>
    expect 'Z'
    return 0

def readClock : Reader Nat := do
  let hour ← readFixed 2
  expect ':'
  let minute ← readFixed 2
  expect ':'
  let second ← readFixed 2
  let nanos ← readFraction
  return ((hour * 60 + minute) * 60 + second) * 10 ^ 9 + nanos

def readTime : Reader Int := do
  let date ← readDate
  expect 'T'
  let nanos ← readClock
  return ((date.days * nanosPerDay + nanos : Nat) : Int) - epochNanos

theorem fraction_padded (nanos : Nat) :
    (digits 9 nanos).rdropWhile (· = '0') ++
        List.replicate (9 - ((digits 9 nanos).rdropWhile (· = '0')).length) '0' =
      digits 9 nanos := by
  have hSplit : (digits 9 nanos).rdropWhile (· = '0') ++ (digits 9 nanos).rtakeWhile (· = '0') =
      digits 9 nanos := List.rdropWhile_append_rtakeWhile
  have hLength : 9 - ((digits 9 nanos).rdropWhile (· = '0')).length =
      ((digits 9 nanos).rtakeWhile (· = '0')).length := by
    have := congrArg List.length hSplit
    rw [List.length_append, length_digits] at this
    omega
  have hZeros : (digits 9 nanos).rtakeWhile (· = '0') =
      List.replicate ((digits 9 nanos).rtakeWhile (· = '0')).length '0' :=
    List.eq_replicate_iff.mpr ⟨rfl, fun c hc => by simpa using List.mem_rtakeWhile_imp hc⟩
  rw [hLength, ← hZeros]
  exact hSplit

theorem takes_readFraction {nanos : Nat} (h : nanos < 10 ^ 9) :
    Takes readFraction (fraction nanos ++ ['Z']) nanos := by
  intro rest
  have hEnd : ∀ value : Nat, Takes (expect 'Z' >>= fun _ => pure value) ['Z'] value :=
    fun value => (takes_expect 'Z').bind (.pure value)
  rw [fraction]
  split
  · rename_i hNone
    rw [hNone]
    exact hEnd 0 rest
  · have hDigits : ∀ c ∈ (digits 9 nanos).rdropWhile (· = '0'), c.isDigit = true :=
      fun c hc => isDigit_of_mem_digits ((List.rdropWhile_prefix _ _).subset hc)
    have hTaken := reads_takeDigits hDigits ('Z' :: rest) (Ends.cons (by decide) rest)
    have hZ : (expect 'Z').run ('Z' :: rest) = some ((), rest) := takes_expect 'Z' rest
    rw [List.cons_append, List.cons_append, List.append_assoc, List.singleton_append, readFraction,
      StateT.run_bind, StateT.run_get]
    simp only [Option.pure_def, Option.bind_eq_bind, Option.bind_some, StateT.run_bind,
      StateT.run_set, hTaken, hZ, StateT.run_pure, fraction_padded, valueOf_digits h]

theorem takes_readClock {nanos : Nat} (h : nanos < nanosPerDay) :
    Takes readClock (clockText nanos) nanos := by
  rw [nanosPerDay] at h
  have hSum : ((nanos / (3600 * 10 ^ 9) * 60 + nanos / (60 * 10 ^ 9) % 60) * 60 +
      nanos / 10 ^ 9 % 60) * 10 ^ 9 + nanos % 10 ^ 9 = nanos := by omega
  have hEnd : Takes (readFraction >>= fun fraction => pure (((nanos / (3600 * 10 ^ 9) * 60 +
      nanos / (60 * 10 ^ 9) % 60) * 60 + nanos / 10 ^ 9 % 60) * 10 ^ 9 + fraction))
      ((fraction (nanos % 10 ^ 9) ++ ['Z']) ++ []) nanos := by
    refine (takes_readFraction (Nat.mod_lt _ (by decide))).bind ?_
    rw [hSum]
    exact .pure nanos
  rw [List.append_nil] at hEnd
  refine (takes_readFixed (by omega)).bind ((takes_expect ':').bind ?_)
  refine (takes_readFixed (by omega)).bind ((takes_expect ':').bind ?_)
  exact (takes_readFixed (by omega)).bind hEnd

theorem takes_readDate {days : Nat} (h : days < daysBeforeYear 10000) :
    Takes readDate (dateText (dateOf days)) (dateOf days) := by
  obtain ⟨hMonth, hDay⟩ := dateOf_lt days
  have hYear := year_dateOf_lt h
  have hEnd : Takes (readFixed 2 >>= fun day => pure (⟨(dateOf days).year,
      (dateOf days).month + 1 - 1, day - 1⟩ : Date)) (digits 2 ((dateOf days).day + 1) ++ [])
      (dateOf days) :=
    (takes_readFixed (by omega)).bind (.pure _)
  rw [List.append_nil] at hEnd
  refine (takes_readFixed (by omega)).bind ((takes_expect '-').bind ?_)
  exact (takes_readFixed (by omega)).bind ((takes_expect '-').bind hEnd)

theorem takes_readTime {time : Int} {text : List Char} (h : timeText time = some text) :
    Takes readTime text time := by
  obtain ⟨⟨hLow, hHigh⟩, hText⟩ := Option.ite_none_right_eq_some.mp h
  cases hText
  generalize hNanos : (time + epochNanos).toNat = nanos
  have hDays : nanos / nanosPerDay < daysBeforeYear 10000 := by
    apply Nat.div_lt_of_lt_mul
    rw [Nat.mul_comm]
    omega
  have hTime : ((((dateOf (nanos / nanosPerDay)).days * nanosPerDay + nanos % nanosPerDay : Nat) :
      Int) - epochNanos) = time := by
    rw [days_dateOf, Nat.div_add_mod']
    omega
  have hEnd : Takes (readClock >>= fun later => pure
      ((((dateOf (nanos / nanosPerDay)).days * nanosPerDay + later : Nat) : Int) - epochNanos))
      (clockText (nanos % nanosPerDay) ++ []) time := by
    refine (takes_readClock (Nat.mod_lt _ (by decide))).bind ?_
    rw [hTime]
    exact .pure time
  rw [List.append_nil] at hEnd
  exact (takes_readDate hDays).bind ((takes_expect 'T').bind hEnd)

end Craq.Lib
