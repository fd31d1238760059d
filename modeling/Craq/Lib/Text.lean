import Mathlib

/-! # Reading texts back

A reader takes a value from the front of a text.  `Takes reader text value` says that it takes
exactly the text, whatever follows it.  A number ends where no digit follows: `Reads` asks only for
what does not start with a digit.
-/

namespace Craq.Lib

abbrev Reader (A : Type) := StateT (List Char) Option A

def Takes {A : Type} (reader : Reader A) (text : List Char) (value : A) : Prop :=
  ∀ rest, reader.run (text ++ rest) = some (value, rest)

/-- No number goes on into the text. -/
def Ends (text : List Char) : Prop :=
  ∀ c ∈ text.head?, c.isDigit = false

def Reads {A : Type} (reader : Reader A) (text : List Char) (value : A) : Prop :=
  ∀ rest, Ends rest → reader.run (text ++ rest) = some (value, rest)

theorem ends_nil : Ends [] := by
  intro c hc
  cases hc

theorem Ends.cons {c : Char} (h : c.isDigit = false) (text : List Char) : Ends (c :: text) := by
  intro head hHead
  cases hHead
  exact h

section Readers

variable {A B : Type} {reader : Reader A} {text more : List Char} {value : A} {next : A → Reader B}
  {result : B}

theorem Takes.pure (value : A) : Takes (Pure.pure value : Reader A) [] value :=
  fun _ => rfl

theorem Takes.bind (h : Takes reader text value) (hNext : Takes (next value) more result) :
    Takes (reader >>= next) (text ++ more) result := by
  intro rest
  rw [StateT.run_bind, List.append_assoc, h]
  exact hNext rest

theorem Takes.map (h : Takes reader text value) (f : A → B) :
    Takes (f <$> reader) text (f value) := by
  intro rest
  rw [StateT.run_map, h rest]
  rfl

/-- What follows a number must end it. -/
theorem Reads.bind (h : Reads reader text value) (hMore : ∀ rest, Ends (more ++ rest))
    (hNext : Takes (next value) more result) : Takes (reader >>= next) (text ++ more) result := by
  intro rest
  rw [StateT.run_bind, List.append_assoc, h _ (hMore rest)]
  exact hNext rest

theorem Reads.map (h : Reads reader text value) (f : A → B) :
    Reads (f <$> reader) text (f value) := by
  intro rest hRest
  rw [StateT.run_map, h rest hRest]
  rfl

def readAll (reader : Reader A) (text : List Char) : Option A :=
  match reader.run text with
  | some (value, []) => some value
  | _ => none

theorem Takes.readAll_eq (h : Takes reader text value) : readAll reader text = some value := by
  have hRun := h []
  rw [List.append_nil] at hRun
  rw [readAll, hRun]

end Readers

def expect (c : Char) : Reader Unit := do
  match ← get with
  | head :: rest => if head = c then set rest else failure
  | [] => failure

theorem takes_expect (c : Char) : Takes (expect c) [c] () := by
  intro rest
  simp [expect, StateT.run_bind, StateT.run_get, StateT.run_set]

/-- Goes on by whether the character comes next, and takes nothing itself. -/
def ifNext {A : Type} (c : Char) (found other : Reader A) : Reader A := do
  if (← get).head? = some c then found else other

section Next

variable {A : Type} {c : Char} {found other : Reader A} {text : List Char}

theorem run_ifNext_found (h : text.head? = some c) :
    (ifNext c found other).run text = found.run text := by
  simp only [ifNext, StateT.run_bind, StateT.run_get, Option.pure_def, Option.bind_eq_bind,
    Option.bind_some, if_pos h]

theorem run_ifNext_other (h : text.head? ≠ some c) :
    (ifNext c found other).run text = other.run text := by
  simp only [ifNext, StateT.run_bind, StateT.run_get, Option.pure_def, Option.bind_eq_bind,
    Option.bind_some, if_neg h]

end Next

/-! ## Numbers -/

def digits : Nat → Nat → List Char
  | 0, _ => []
  | width + 1, value => digits width (value / 10) ++ [Nat.digitChar (value % 10)]

def valueOf (text : List Char) : Nat :=
  Nat.ofDigitChars 10 text 0

theorem digitChar_isDigit {digit : Nat} (h : digit < 10) :
    (Nat.digitChar digit).isDigit = true ∧ (Nat.digitChar digit).toNat - '0'.toNat = digit := by
  interval_cases digit <;> decide

@[simp]
theorem length_digits (width value : Nat) : (digits width value).length = width := by
  induction width generalizing value with
  | zero => rfl
  | succ width ih => rw [digits, List.length_append, ih, List.length_singleton]

variable {width value : Nat}

theorem isDigit_of_mem_digits {c : Char} (h : c ∈ digits width value) : c.isDigit = true := by
  induction width generalizing value with
  | zero => cases h
  | succ width ih =>
    rcases List.mem_append.mp h with hFirst | hLast
    · exact ih hFirst
    · rw [List.mem_singleton.mp hLast]
      exact (digitChar_isDigit (Nat.mod_lt value (by decide))).1

theorem valueOf_digits (h : value < 10 ^ width) : valueOf (digits width value) = value := by
  induction width generalizing value with
  | zero =>
    rw [pow_zero, Nat.lt_one_iff] at h
    rw [h]
    rfl
  | succ width ih =>
    have hFirst : valueOf (digits width (value / 10)) = value / 10 := by
      apply ih
      rw [pow_succ] at h
      omega
    rw [valueOf] at hFirst
    rw [valueOf, digits, Nat.ofDigitChars_append, hFirst, Nat.ofDigitChars_cons,
      (digitChar_isDigit (Nat.mod_lt value (by decide))).2, Nat.ofDigitChars_nil]
    exact Nat.div_add_mod value 10

def readFixed (width : Nat) : Reader Nat := do
  let text ← get
  let front := text.take width
  if front.length = width ∧ front.all (·.isDigit) then
    set (text.drop width)
    return valueOf front
  else failure

theorem takes_readFixed (h : value < 10 ^ width) :
    Takes (readFixed width) (digits width value) value := by
  intro rest
  have hTake : (digits width value ++ rest).take width = digits width value := by
    rw [List.take_append_of_le_length (length_digits width value).ge,
      List.take_of_length_le (length_digits width value).le]
  have hDrop : (digits width value ++ rest).drop width = rest :=
    List.drop_left' (length_digits width value)
  have hDigits : (digits width value).all (·.isDigit) = true :=
    List.all_eq_true.mpr fun c hc => isDigit_of_mem_digits hc
  simp only [readFixed, StateT.run_bind, StateT.run_get, Option.pure_def, Option.bind_eq_bind,
    Option.bind_some, hTake, length_digits, hDigits, and_self, if_true, StateT.run_set, hDrop,
    StateT.run_pure, valueOf_digits h]

def takeDigits : Reader (List Char) := do
  let text ← get
  set (text.dropWhile (·.isDigit))
  return text.takeWhile (·.isDigit)

theorem reads_takeDigits {text : List Char} (h : ∀ c ∈ text, c.isDigit = true) :
    Reads takeDigits text text := by
  intro rest hRest
  have hNone : rest.takeWhile (·.isDigit) = [] ∧ rest.dropWhile (·.isDigit) = rest := by
    cases rest with
    | nil => exact ⟨rfl, rfl⟩
    | cons c rest =>
      have hc : c.isDigit = false := hRest c rfl
      simp [hc]
  simp only [takeDigits, StateT.run_bind, StateT.run_get, StateT.run_set, StateT.run_pure,
    Option.pure_def, Option.bind_eq_bind, Option.bind_some,
    List.takeWhile_append_of_pos h, List.dropWhile_append_of_pos h, hNone, List.append_nil]

def readDecimal : Reader Nat := do
  let text ← takeDigits
  if text = [] then failure else return valueOf text

theorem reads_readDecimal (value : Nat) : Reads readDecimal (Nat.toDigits 10 value) value := by
  intro rest hRest
  have hTaken : Reads takeDigits (Nat.toDigits 10 value) (Nat.toDigits 10 value) :=
    reads_takeDigits fun c hc => Nat.isDigit_of_mem_toDigits (by decide) le_rfl hc
  have hValue : valueOf (Nat.toDigits 10 value) = value :=
    Nat.ofDigitChars_toDigits (by decide) le_rfl
  rw [readDecimal, StateT.run_bind, hTaken rest hRest]
  simp only [Option.bind_eq_bind, Option.bind_some, if_neg Nat.toDigits_ne_nil, hValue]
  rfl

end Craq.Lib
