import LinearProgram.Text.Numeral
import Mathlib.Data.List.TakeDrop
import Mathlib.Data.List.TakeWhile

/-!
# Reading decimal numerals

How the parts of a decimal numeral are read: digits as a natural number, the
digits after a point, an exponent.  `Layout.unsigned?_text` puts the parts
together.
-/

namespace LinearProgram.Text.Numeral

/-- All characters are digits. -/
def Numeric (characters : List Char) : Prop :=
  ∀ character ∈ characters, character.isDigit = true

/-- No digit comes first. -/
def Stops (characters : List Char) : Prop :=
  ∀ character ∈ characters.head?, character.isDigit = false

theorem span_numeric {digits rest : List Char} (numeric : Numeric digits)
    (stops : Stops rest) : (digits ++ rest).span Char.isDigit = (digits, rest) := by
  rw [List.span_eq_takeWhile_dropWhile]
  have taken : (digits ++ rest).takeWhile Char.isDigit = digits := by
    rw [List.takeWhile_append_of_pos numeric]
    cases rest with
    | nil => simp
    | cons character rest =>
        rw [List.takeWhile_cons_of_neg, List.append_nil]
        simp [stops character rfl]
  have dropped : (digits ++ rest).dropWhile Char.isDigit = rest := by
    rw [List.dropWhile_append_of_pos numeric]
    cases rest with
    | nil => rfl
    | cons character rest =>
        rw [List.dropWhile_cons_of_neg]
        simp [stops character rfl]
  rw [taken, dropped]

private theorem digit?_of_isDigit {character : Char}
    (numeric : character.isDigit = true) :
    digit? 10 character = some (character.toNat - '0'.toNat) := by
  have bound : character.toNat - '0'.toNat < 10 := by
    simp only [Char.isDigit, Bool.and_eq_true, decide_eq_true_iff] at numeric
    have most := UInt32.le_iff_toNat_le.mp numeric.2
    change character.toNat ≤ 57 at most
    change character.toNat - 48 < 10
    omega
  simp only [digit?, if_pos numeric, if_pos bound]

private theorem foldlM_digits {digits : List Char} (numeric : Numeric digits)
    (total : Nat) :
    digits.foldlM (fun total digit => (digit? 10 digit).map (total * 10 + ·))
      total = some (Nat.ofDigitChars 10 digits total) := by
  induction digits generalizing total with
  | nil => simp
  | cons digit rest induction =>
      have first := numeric digit List.mem_cons_self
      rw [List.foldlM_cons, digit?_of_isDigit first, Nat.ofDigitChars_cons,
        Nat.mul_comm 10 total]
      apply induction
      intro character membership
      exact numeric character (List.mem_cons_of_mem _ membership)

/-- Digits are read as the number that they write. -/
theorem natural?_numeric {digits : List Char} (nonempty : digits ≠ [])
    (numeric : Numeric digits) :
    natural? 10 digits = some (Nat.ofDigitChars 10 digits 0) := by
  rw [natural?, if_neg (by simpa using nonempty)]
  exact foldlM_digits numeric 0

/-- The digits after a point, with the point. -/
def pointed : List Char → List Char
  | [] => []
  | places => '.' :: places

/-- The parts of a decimal numeral, and the power of ten that the last one
states. -/
structure Layout where
  whole : List Char
  places : List Char
  tail : List Char
  power : Int

namespace Layout

variable {layout : Layout}

def text (layout : Layout) : List Char :=
  layout.whole ++ (pointed layout.places ++ layout.tail)

/-- The digits of the numeral, before and after the point. -/
def count (layout : Layout) : Nat :=
  Nat.ofDigitChars 10 (layout.whole ++ layout.places) 0

/-- The power of ten of the last digit. -/
def exponent (layout : Layout) : Int := layout.power - layout.places.length

/-- The parts are what their names say. -/
structure Proper (layout : Layout) : Prop where
  nonempty : layout.whole ≠ []
  whole : Numeric layout.whole
  places : Numeric layout.places
  tail : exponent? layout.tail = some layout.power

/-- What is read as an exponent is empty or begins with its letter. -/
private theorem letter_of_exponent? {tail : List Char} {power : Int}
    (read : exponent? tail = some power) {character : Char}
    (first : character ∈ tail.head?) : character = 'e' ∨ character = 'E' := by
  cases tail with
  | nil => cases first
  | cons letter rest =>
      cases first
      by_contra neither
      have other : ¬(character = 'e' || character = 'E') = true := by
        simpa using neither
      rw [exponent?.eq_def] at read
      change (if _ then _ else _) = _ at read
      rw [if_neg other] at read
      cases read

private theorem stops_tail {tail : List Char} {power : Int}
    (read : exponent? tail = some power) : Stops tail := by
  intro character first
  rcases letter_of_exponent? read first with rfl | rfl <;> rfl

private theorem stops_pointed {places tail : List Char} {power : Int}
    (read : exponent? tail = some power) : Stops (pointed places ++ tail) := by
  cases places with
  | nil => exact stops_tail read
  | cons place places =>
      intro character first
      cases first
      rfl

private theorem fraction_pointed {places tail : List Char} {power : Int}
    (numeric : Numeric places) (read : exponent? tail = some power) :
    fraction (pointed places ++ tail) = (places, tail) := by
  cases places with
  | cons place places =>
      exact span_numeric numeric (stops_tail read)
  | nil =>
      cases tail with
      | nil => rfl
      | cons letter rest =>
          rcases letter_of_exponent? read rfl with rfl | rfl <;> rfl

private theorem text_ne_infinity (proper : layout.Proper) :
    layout.text ≠ "Infinity".toList := by
  intro same
  obtain ⟨digit, rest, whole⟩ := List.exists_cons_of_ne_nil proper.nonempty
  have numeric := proper.whole digit (by simp [whole])
  have first := congrArg List.head? same
  simp only [text, whole, List.cons_append, List.head?_cons] at first
  cases first
  cases numeric

/-- The parts are read as the digits with their power of ten. -/
theorem unsigned?_text (negative : Bool) (proper : layout.Proper) :
    unsigned? negative layout.text =
      some (decimal negative layout.count layout.exponent) := by
  have digits : Numeric (layout.whole ++ layout.places) := by
    intro character membership
    rcases List.mem_append.mp membership with before | after
    · exact proper.whole character before
    · exact proper.places character after
  have nonempty : layout.whole ++ layout.places ≠ [] := by
    simp [proper.nonempty]
  have read : natural? 10 (layout.whole ++ layout.places) = some layout.count :=
    natural?_numeric nonempty digits
  have whole : layout.text.span Char.isDigit =
      (layout.whole, pointed layout.places ++ layout.tail) :=
    span_numeric proper.whole (stops_pointed proper.tail)
  simp only [unsigned?, if_neg (text_ne_infinity proper), whole,
    fraction_pointed proper.places proper.tail, read, proper.tail]
  rfl

end Layout

end LinearProgram.Text.Numeral
