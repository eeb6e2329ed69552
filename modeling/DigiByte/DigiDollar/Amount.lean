import DigiByte.Consensus.Params
import Mathlib.Data.List.TakeWhile

/-!
Amounts as callers type them (`digidollar/amount.cpp`).

A text is the list of its characters. Every refusal carries its reason.
-/

set_option autoImplicit false
set_option relaxedAutoImplicit false

namespace DigiByte.DigiDollar

open Consensus (INT64_MAX)

inductive DDAmountUnit where
  | unspecified | cents | dollars
  deriving DecidableEq, Repr

inductive DDAmountError where
  | none | notANumber | ambiguousUnit | centsNotIntegral | tooManyDecimals | negative | tooLarge
  deriving DecidableEq, Repr

structure DDAmountParseResult where
  error : DDAmountError := .none
  cents : ℤ := 0
  message : String := ""
  deriving DecidableEq, Repr

def DDAmountParseResult.ok (result : DDAmountParseResult) : Bool := result.error = .none

def refuse (error : DDAmountError) (message : String) : DDAmountParseResult := { error, message }

def DD_AMOUNT_AMBIGUOUS_MESSAGE : String :=
  "ambiguous amount: pass amount_unit=cents or amount_unit=dollars " ++
    "(an amount with a decimal point is not accepted without a unit)"

def isAsciiDigit (c : Char) : Bool := '0' ≤ c && c ≤ '9'

/-- `c - '0'`. -/
def digitOf (c : Char) : ℤ := (c.toNat : ℤ) - '0'.toNat

/-- `%d` of a number that is not negative. -/
def decimalText (n : ℕ) : List Char := Nat.toDigits 10 n

def formatDDAmountDollars (cents : ℤ) : List Char :=
  let magnitude := cents.natAbs
  (if cents < 0 then ['-'] else []) ++ decimalText (magnitude / 100) ++ '.' ::
    (decimalText (magnitude % 100)).leftpad 2 '0'

/-! Syntax. -/

def notPlainMessage : String :=
  "amount is not a plain decimal number (no sign, spaces, exponent, or separators are accepted)"

/-- What follows the integer digits: nothing, or a point and more digits. -/
def fractionPart : List Char → Except DDAmountParseResult (List Char)
  | [] => .ok []
  | c :: rest =>
    if c ≠ '.' then .error (refuse .notANumber notPlainMessage)
    else
      let fraction_part := rest.takeWhile isAsciiDigit
      if fraction_part = [] then
        .error (refuse .notANumber "amount has a decimal point with no digits after it")
      else if rest.dropWhile isAsciiDigit ≠ [] then .error (refuse .notANumber notPlainMessage)
      else .ok fraction_part

/-- The integer digits and the digits after the point. -/
def amountParts (text : List Char) : Except DDAmountParseResult (List Char × List Char) :=
  if text = [] then
    .error (refuse .notANumber "amount is not a plain decimal number (it is empty)")
  else if text.head? = some '-' then .error (refuse .negative "amount must not be negative")
  else
    let integer_part := text.takeWhile isAsciiDigit
    if integer_part = [] then
      .error (refuse .notANumber ("amount is not a plain decimal number " ++
        "(digits, optionally followed by a decimal point and more digits)"))
    else if integer_part.length > 1 ∧ integer_part.head? = some '0' then
      .error (refuse .notANumber "amount must not have leading zeros")
    else (fractionPart (text.dropWhile isAsciiDigit)).map fun fraction_part =>
      (integer_part, fraction_part)

/-- The rules of the unit on the digits after the point. -/
def unitRefusal (unit : DDAmountUnit) (fraction_part : List Char) : Option DDAmountParseResult :=
  match unit with
  | .unspecified =>
    if fraction_part ≠ [] then some (refuse .ambiguousUnit DD_AMOUNT_AMBIGUOUS_MESSAGE) else none
  | .cents =>
    if fraction_part ≠ [] then
      some (refuse .centsNotIntegral
        "amount_unit=cents requires an integer number of cents (no decimal point)")
    else none
  | .dollars =>
    if fraction_part.length > 2 then
      some (refuse .tooManyDecimals
        "amount_unit=dollars allows at most two decimal places (whole cents)")
    else none

/-! Magnitude. -/

def appendDigitChecked (value digit max : ℤ) : Option ℤ :=
  if digit > max then none
  else if value > (max - digit).tdiv 10 then none
  else some (value * 10 + digit)

/-- The loop over the integer digits, from a value. -/
def appendDigits (max : ℤ) : List Char → ℤ → Option ℤ
  | [], value => some value
  | c :: rest, value => (appendDigitChecked value (digitOf c) max).bind (appendDigits max rest)

def fractionCents : List Char → ℤ
  | [] => 0
  | [tenths] => digitOf tenths * 10
  | tenths :: hundredths :: _ => digitOf tenths * 10 + digitOf hundredths

/-- The cents, or `none` above the maximum. -/
def magnitudeCents (unit : DDAmountUnit) (integer_part fraction_part : List Char)
    (max_cents : ℤ) : Option ℤ :=
  match unit with
  | .dollars =>
    (appendDigits (max_cents.tdiv 100) integer_part 0).bind fun whole =>
      let cents := whole * 100
      if fractionCents fraction_part > max_cents - cents then none
      else some (cents + fractionCents fraction_part)
  | _ => appendDigits max_cents integer_part 0

def tooLargeMessage (max_cents : ℤ) : String :=
  "amount exceeds the maximum of " ++ toString max_cents ++ " cents ($" ++
    String.ofList (formatDDAmountDollars max_cents) ++ ")"

def parseDDAmount (text : List Char) (unit : DDAmountUnit) (max_cents : ℤ) : DDAmountParseResult :=
  let max_cents := if max_cents < 0 then 0 else max_cents
  match amountParts text with
  | .error refusal => refusal
  | .ok (integer_part, fraction_part) =>
    match unitRefusal unit fraction_part with
    | some refusal => refusal
    | none =>
      match magnitudeCents unit integer_part fraction_part max_cents with
      | none => refuse .tooLarge (tooLargeMessage max_cents)
      | some cents => { cents }

/-! The signed 64-bit values that the magnitude goes through. -/

def appendDigitValues (value digit max : ℤ) : List ℤ :=
  if digit > max then [digit]
  else if value > (max - digit).tdiv 10 then [digit, max - digit, (max - digit).tdiv 10]
  else [digit, max - digit, (max - digit).tdiv 10, value * 10, value * 10 + digit]

def appendDigitsValues (max : ℤ) : List Char → ℤ → List ℤ
  | [], _ => []
  | c :: rest, value => appendDigitValues value (digitOf c) max ++
      (appendDigitChecked value (digitOf c) max).elim [] (appendDigitsValues max rest)

def fractionValues : List Char → List ℤ
  | [] => [0]
  | [tenths] => [digitOf tenths * 10]
  | tenths :: hundredths :: _ =>
    [digitOf tenths * 10, digitOf hundredths, digitOf tenths * 10 + digitOf hundredths]

/-- Scaling the dollars and adding the cents. -/
def scalingValues (fraction_cents max_cents whole : ℤ) : List ℤ :=
  if fraction_cents > max_cents - whole * 100 then [whole * 100, max_cents - whole * 100]
  else [whole * 100, max_cents - whole * 100, whole * 100 + fraction_cents]

def magnitudeValues (unit : DDAmountUnit) (integer_part fraction_part : List Char)
    (max_cents : ℤ) : List ℤ :=
  match unit with
  | .dollars =>
    max_cents.tdiv 100 :: appendDigitsValues (max_cents.tdiv 100) integer_part 0 ++
      (appendDigits (max_cents.tdiv 100) integer_part 0).elim [] fun whole =>
        fractionValues fraction_part ++ scalingValues (fractionCents fraction_part) max_cents whole
  | _ => appendDigitsValues max_cents integer_part 0

def parseValues (text : List Char) (unit : DDAmountUnit) (max_cents : ℤ) : List ℤ :=
  match amountParts text with
  | .error _ => []
  | .ok (integer_part, fraction_part) =>
    if unitRefusal unit fraction_part = none then
      magnitudeValues unit integer_part fraction_part max_cents else []

/-! What an amount text denotes. -/

/-- Digits without leading zeros, optionally followed by a point and at least one digit. -/
structure PlainDecimal (text integer_part fraction_part : List Char) : Prop where
  digits : ∀ c ∈ integer_part, isAsciiDigit c = true
  nonempty : integer_part ≠ []
  canonical : ¬(integer_part.length > 1 ∧ integer_part.head? = some '0')
  decimals : ∀ c ∈ fraction_part, isAsciiDigit c = true
  written : text = integer_part ++ if fraction_part = [] then [] else '.' :: fraction_part

/-- Cents in one unit. -/
def centsPerUnit : DDAmountUnit → ℕ
  | .dollars => 100
  | _ => 1

/-- The cents are the decimal number times the cents in one unit. -/
def Denotes (unit : DDAmountUnit) (integer_part fraction_part : List Char) (cents : ℕ) : Prop :=
  cents * 10 ^ fraction_part.length =
    Nat.ofDigitChars 10 (integer_part ++ fraction_part) 0 * centsPerUnit unit

section Syntax

private theorem isAsciiDigit_ne {c d : Char} (digit : isAsciiDigit c = true)
    (other : isAsciiDigit d = false) :
    c ≠ d := by
  rintro rfl
  rw [digit] at other
  cases other

private theorem takeWhile_digits {digits rest : List Char}
    (all : ∀ c ∈ digits, isAsciiDigit c = true) (stops : ∀ c ∈ rest.head?, isAsciiDigit c = false) :
    (digits ++ rest).takeWhile isAsciiDigit = digits ∧
    (digits ++ rest).dropWhile isAsciiDigit = rest := by
  have taken : rest.takeWhile isAsciiDigit = [] := by
    cases rest with
    | nil => rfl
    | cons c rest => rw [List.takeWhile_cons_of_neg (by simp [stops c rfl])]
  have whole : (digits ++ rest).takeWhile isAsciiDigit = digits := by
    rw [List.takeWhile_append_of_pos all, taken, List.append_nil]
  have parts := List.takeWhile_append_dropWhile (p := isAsciiDigit) (l := digits ++ rest)
  rw [whole] at parts
  exact ⟨whole, List.append_cancel_left parts⟩

theorem fractionPart_eq_ok {rest fraction_part : List Char} :
    fractionPart rest = .ok fraction_part ↔
      (∀ c ∈ fraction_part, isAsciiDigit c = true) ∧
        rest = if fraction_part = [] then [] else '.' :: fraction_part := by
  cases rest with
  | nil =>
    rw [fractionPart]
    constructor
    · intro accepted
      cases accepted
      simp
    · rintro ⟨-, written⟩
      split at written
      · rename_i empty
        rw [empty]
      · cases written
  | cons c rest =>
    rw [fractionPart]
    constructor
    · intro accepted
      dsimp only at accepted
      split_ifs at accepted with other nonempty more
      cases accepted
      refine ⟨fun d member => List.mem_takeWhile_imp member, ?_⟩
      have parts := List.takeWhile_append_dropWhile (p := isAsciiDigit) (l := rest)
      rw [not_not.mp more, List.append_nil] at parts
      rw [if_neg nonempty, parts, not_not.mp other]
    · rintro ⟨digits, written⟩
      split at written
      · cases written
      · rename_i nonempty
        obtain ⟨rfl, rfl⟩ := List.cons.inj written
        have ended : ∀ c ∈ ([] : List Char).head?, isAsciiDigit c = false := by simp
        obtain ⟨taken, dropped⟩ := takeWhile_digits digits ended
        rw [List.append_nil] at taken dropped
        simp [taken, dropped, nonempty]

theorem amountParts_eq_ok {text integer_part fraction_part : List Char} :
    amountParts text = .ok (integer_part, fraction_part) ↔
      PlainDecimal text integer_part fraction_part := by
  constructor
  · intro accepted
    unfold amountParts at accepted
    dsimp only at accepted
    split_ifs at accepted with empty negative nonempty zeros
    cases fraction : fractionPart (text.dropWhile isAsciiDigit) with
    | error refusal =>
      rw [fraction] at accepted
      cases accepted
    | ok fraction_part =>
      rw [fraction] at accepted
      cases accepted
      obtain ⟨decimals, written⟩ := fractionPart_eq_ok.mp fraction
      refine ⟨fun c member => List.mem_takeWhile_imp member, nonempty, zeros, decimals, ?_⟩
      rw [← written]
      exact List.takeWhile_append_dropWhile.symm
  · rintro ⟨digits, nonempty, canonical, decimals, written⟩
    obtain ⟨rest, following⟩ : ∃ rest, rest = if fraction_part = [] then []
      else '.' :: fraction_part := ⟨_, rfl⟩
    have stops : ∀ c ∈ rest.head?, isAsciiDigit c = false := by
      rw [following]
      split
      · simp
      · intro c first
        cases first
        decide
    obtain ⟨taken, dropped⟩ := takeWhile_digits digits stops
    have fraction := fractionPart_eq_ok.mpr ⟨decimals, following⟩
    rw [← following] at written
    subst written
    obtain ⟨c, more, rfl⟩ := List.exists_cons_of_ne_nil nonempty
    have unsigned : c ≠ '-' := isAsciiDigit_ne (digits c List.mem_cons_self) (by decide)
    unfold amountParts
    dsimp only
    rw [if_neg (by simp), if_neg (by simpa using unsigned), taken, dropped, if_neg nonempty,
      if_neg canonical, fraction]
    rfl

end Syntax

section Magnitude

variable {max : ℤ}

private theorem digitOf_eq {c : Char} (digit : isAsciiDigit c = true) :
    digitOf c = (c.toNat - '0'.toNat : ℕ) ∧ 0 ≤ digitOf c ∧ digitOf c ≤ 9 := by
  simp only [isAsciiDigit, Bool.and_eq_true, decide_eq_true_eq, Char.le_def, UInt32.le_iff_toNat_le]
    at digit
  have low : '0'.toNat ≤ c.toNat := digit.1
  have high : c.toNat ≤ '9'.toNat := digit.2
  have span : '9'.toNat = '0'.toNat + 9 := by decide
  unfold digitOf
  omega

theorem appendDigitChecked_eq {value : ℤ} (nonneg : 0 ≤ value) (digit : ℤ) :
    appendDigitChecked value digit max = if value * 10 + digit ≤ max then some (value * 10 + digit)
      else none := by
  unfold appendDigitChecked
  by_cases large : digit > max
  · rw [if_pos large, if_neg (by omega)]
  · rw [if_neg large, Int.tdiv_eq_ediv_of_nonneg (by omega)]
    by_cases exceeds : value > (max - digit) / 10
    · rw [if_pos exceeds, if_neg (by omega)]
    · rw [if_neg exceeds, if_pos (by omega)]

private theorem le_ofDigitChars (digits : List Char)
    (value : ℕ) : value ≤ Nat.ofDigitChars 10 digits value := by
  induction digits generalizing value with
  | nil => exact Nat.le_refl _
  | cons c digits ih =>
    rw [Nat.ofDigitChars_cons]
    refine Nat.le_trans ?_ (ih _)
    omega

theorem appendDigits_eq {digits : List Char} (all : ∀ c ∈ digits, isAsciiDigit c = true) {value : ℕ}
    (within : (value : ℤ) ≤ max) :
    appendDigits max digits value =
      if (Nat.ofDigitChars 10 digits value : ℤ) ≤ max then
        some (Nat.ofDigitChars 10 digits value : ℤ) else none := by
  induction digits generalizing value with
  | nil => rw [appendDigits, Nat.ofDigitChars_nil, if_pos within]
  | cons c digits ih =>
    obtain ⟨same, -, -⟩ := digitOf_eq (all c List.mem_cons_self)
    have next : (value : ℤ) * 10 + digitOf c = (10 * value + (c.toNat - '0'.toNat) : ℕ) := by
      rw [same]
      omega
    rw [appendDigits, appendDigitChecked_eq (by omega), next, Nat.ofDigitChars_cons]
    by_cases fits : ((10 * value + (c.toNat - '0'.toNat) : ℕ) : ℤ) ≤ max
    · rw [if_pos fits, Option.bind_some]
      exact ih (fun d member => all d (List.mem_cons_of_mem _ member)) fits
    · -- the number only grows with the digits that follow
      have grows := le_ofDigitChars digits (10 * value + (c.toNat - '0'.toNat))
      rw [if_neg fits, if_neg (by omega)]
      rfl

/-- The cents that a text denotes, as the source scales them. -/
def exactCents (unit : DDAmountUnit) (integer_part fraction_part : List Char) : ℤ :=
  match unit with
  | .dollars => (Nat.ofDigitChars 10 integer_part 0 : ℤ) * 100 + fractionCents fraction_part
  | _ => Nat.ofDigitChars 10 integer_part 0

section Parts

variable {integer_part fraction_part : List Char}

private theorem fractionCents_bounds (decimals : ∀ c ∈ fraction_part, isAsciiDigit c = true) :
    0 ≤ fractionCents fraction_part ∧ fractionCents fraction_part ≤ 99 := by
  unfold fractionCents
  split
  · omega
  · rename_i tenths
    obtain ⟨-, low, high⟩ := digitOf_eq (decimals tenths List.mem_cons_self)
    omega
  · rename_i tenths hundredths more
    obtain ⟨-, low, high⟩ := digitOf_eq (decimals tenths List.mem_cons_self)
    obtain ⟨-, low', high'⟩ := digitOf_eq (decimals hundredths (by simp))
    omega

theorem magnitudeCents_eq (unit : DDAmountUnit) {max_cents : ℤ} (nonneg : 0 ≤ max_cents)
    (digits : ∀ c ∈ integer_part, isAsciiDigit c = true)
    (decimals : ∀ c ∈ fraction_part, isAsciiDigit c = true) :
    magnitudeCents unit integer_part fraction_part max_cents =
      if exactCents unit integer_part fraction_part ≤ max_cents then
        some (exactCents unit integer_part fraction_part) else none := by
  cases unit with
  | unspecified => exact appendDigits_eq digits nonneg
  | cents => exact appendDigits_eq digits nonneg
  | dollars =>
    obtain ⟨low, high⟩ := fractionCents_bounds decimals
    have whole : ((0 : ℕ) : ℤ) ≤ max_cents / 100 := by omega
    have read := appendDigits_eq digits whole
    have scaled : exactCents .dollars integer_part fraction_part =
        (Nat.ofDigitChars 10 integer_part 0 : ℤ) * 100 + fractionCents fraction_part := rfl
    rw [Nat.cast_zero] at read
    simp only [magnitudeCents, Int.tdiv_eq_ediv_of_nonneg nonneg]
    rw [read, scaled]
    by_cases fits : (Nat.ofDigitChars 10 integer_part 0 : ℤ) ≤ max_cents / 100
    · rw [if_pos fits, Option.bind_some]
      by_cases exceeds : fractionCents fraction_part >
        max_cents - (Nat.ofDigitChars 10 integer_part 0 : ℤ) * 100
      · rw [if_pos exceeds, if_neg (by omega)]
      · rw [if_neg exceeds, if_pos (by omega)]
    · rw [if_neg fits, if_neg (by omega)]
      rfl

theorem exactCents_eq_iff {unit : DDAmountUnit} {cents : ℕ}
    (decimals : ∀ c ∈ fraction_part, isAsciiDigit c = true) (few : fraction_part.length ≤ 2)
    (point : unit ≠ .dollars → fraction_part = []) :
    exactCents unit integer_part fraction_part = cents ↔
      Denotes unit integer_part fraction_part cents := by
  unfold Denotes
  rw [Nat.ofDigitChars_append]
  obtain ⟨whole, value⟩ : ∃ whole, whole = Nat.ofDigitChars 10 integer_part 0 := ⟨_, rfl⟩
  rw [← value]
  match fraction_part, decimals, few, point with
  | [], _, _, _ =>
    cases unit <;>
      simp only [exactCents, fractionCents, centsPerUnit, ← value, Nat.ofDigitChars_nil,
        List.length_nil, pow_zero] <;>
      omega
  | [tenths], decimals, _, point =>
    obtain ⟨same, -, -⟩ := digitOf_eq (decimals tenths List.mem_cons_self)
    cases unit with
    | unspecified => cases point (by decide)
    | cents => cases point (by decide)
    | dollars =>
      simp only [exactCents, fractionCents, centsPerUnit, ← value, Nat.ofDigitChars_cons,
        Nat.ofDigitChars_nil, List.length_singleton, pow_one, same]
      omega
  | [tenths, hundredths], decimals, _, point =>
    obtain ⟨same, -, -⟩ := digitOf_eq (decimals tenths List.mem_cons_self)
    obtain ⟨same', -, -⟩ := digitOf_eq (decimals hundredths (by simp))
    cases unit with
    | unspecified => cases point (by decide)
    | cents => cases point (by decide)
    | dollars =>
      simp only [exactCents, fractionCents, centsPerUnit, ← value, Nat.ofDigitChars_cons,
        Nat.ofDigitChars_nil, List.length_cons, List.length_nil, same, same']
      omega

end Parts

end Magnitude

section Values

/-- A value that a signed 64-bit amount holds. -/
def FitsAmount (value : ℤ) : Prop := 0 ≤ value ∧ value ≤ INT64_MAX

variable {max : ℤ} (fits : FitsAmount max)

include fits

private theorem appendDigitValues_fit {value digit : ℤ} (nonneg : 0 ≤ value) (low : 0 ≤ digit)
    (high : digit ≤ 9) :
    ∀ v ∈ appendDigitValues value digit max, FitsAmount v := by
  have nine : 9 ≤ INT64_MAX := by decide
  obtain ⟨_, atMost⟩ := fits
  unfold appendDigitValues
  split_ifs with large exceeds
  · simp only [List.forall_mem_singleton, FitsAmount]
    omega
  · rw [Int.tdiv_eq_ediv_of_nonneg (by omega)] at exceeds ⊢
    simp only [List.forall_mem_cons, List.not_mem_nil, false_implies, implies_true, and_true,
      FitsAmount]
    omega
  · rw [Int.tdiv_eq_ediv_of_nonneg (by omega)] at exceeds ⊢
    simp only [List.forall_mem_cons, List.not_mem_nil, false_implies, implies_true, and_true,
      FitsAmount]
    omega

private theorem appendDigitsValues_fit {digits : List Char}
    (all : ∀ c ∈ digits, isAsciiDigit c = true) {value : ℤ}
    (nonneg : 0 ≤ value) : ∀ v ∈ appendDigitsValues max digits value, FitsAmount v := by
  induction digits generalizing value with
  | nil => simp [appendDigitsValues]
  | cons c digits ih =>
    obtain ⟨-, low, high⟩ := digitOf_eq (all c List.mem_cons_self)
    intro v member
    rw [appendDigitsValues, appendDigitChecked_eq nonneg, List.mem_append] at member
    rcases member with here | later
    · exact appendDigitValues_fit fits nonneg low high v here
    · split at later
      · exact ih (fun d listed => all d (List.mem_cons_of_mem _ listed)) (by omega) v later
      · simp at later

omit fits in
private theorem fractionValues_fit {fraction_part : List Char}
    (decimals : ∀ c ∈ fraction_part, isAsciiDigit c = true) :
    ∀ v ∈ fractionValues fraction_part, FitsAmount v := by
  have large : 99 ≤ INT64_MAX := by decide
  unfold fractionValues
  split
  · simp only [List.forall_mem_singleton, FitsAmount]
    omega
  · rename_i tenths
    obtain ⟨-, low, high⟩ := digitOf_eq (decimals tenths List.mem_cons_self)
    simp only [List.forall_mem_singleton, FitsAmount]
    omega
  · rename_i tenths hundredths more
    obtain ⟨-, low, high⟩ := digitOf_eq (decimals tenths List.mem_cons_self)
    obtain ⟨-, low', high'⟩ := digitOf_eq (decimals hundredths (by simp))
    simp only [List.forall_mem_cons, List.not_mem_nil, false_implies, implies_true, and_true,
      FitsAmount]
    omega

private theorem scalingValues_fit {fraction_cents whole : ℤ} (low : 0 ≤ fraction_cents)
    (nonneg : 0 ≤ whole)
    (within : whole ≤ max / 100) : ∀ v ∈ scalingValues fraction_cents max whole, FitsAmount v := by
  obtain ⟨_, atMost⟩ := fits
  unfold scalingValues
  split_ifs with exceeds
  · simp only [List.forall_mem_cons, List.not_mem_nil, false_implies, implies_true, and_true,
      FitsAmount]
    omega
  · simp only [List.forall_mem_cons, List.not_mem_nil, false_implies, implies_true, and_true,
      FitsAmount]
    omega

theorem magnitudeValues_fit (unit : DDAmountUnit) {integer_part fraction_part : List Char}
    (digits : ∀ c ∈ integer_part, isAsciiDigit c = true)
    (decimals : ∀ c ∈ fraction_part, isAsciiDigit c = true) :
    ∀ v ∈ magnitudeValues unit integer_part fraction_part max, FitsAmount v := by
  cases unit with
  | unspecified => exact appendDigitsValues_fit fits digits (Int.le_refl 0)
  | cents => exact appendDigitsValues_fit fits digits (Int.le_refl 0)
  | dollars =>
    have hundredth : FitsAmount (max / 100) := by
      obtain ⟨_, atMost⟩ := fits
      constructor <;> omega
    have read := appendDigits_eq digits (show ((0 : ℕ) : ℤ) ≤ max / 100 from hundredth.1)
    rw [Nat.cast_zero] at read
    intro v member
    simp only [magnitudeValues, Int.tdiv_eq_ediv_of_nonneg fits.1, read, List.cons_append,
      List.mem_cons, List.mem_append] at member
    rcases member with rfl | digit | scaling
    · exact hundredth
    · exact appendDigitsValues_fit hundredth digits (Int.le_refl 0) v digit
    · split at scaling
      · rename_i within
        rcases List.mem_append.mp scaling with fraction | scaled
        · exact fractionValues_fit decimals v fraction
        · exact scalingValues_fit fits (fractionCents_bounds decimals).1 (Int.natCast_nonneg _)
            within v scaled
      · simp at scaling

end Values

/-! The parser as a whole. -/

section Parse

variable {text integer_part fraction_part : List Char} {unit : DDAmountUnit} {max_cents : ℤ}

private theorem fractionPart_error {rest : List Char} {refusal : DDAmountParseResult}
    (refused : fractionPart rest = .error refusal) : refusal.ok = false := by
  cases rest with
  | nil => cases refused
  | cons c rest =>
    rw [fractionPart] at refused
    dsimp only at refused
    split_ifs at refused <;> cases refused <;> rfl

private theorem amountParts_error {refusal : DDAmountParseResult}
    (refused : amountParts text = .error refusal) :
    refusal.ok = false := by
  unfold amountParts at refused
  dsimp only at refused
  split_ifs at refused
  any_goals
    cases refused
    rfl
  cases fraction : fractionPart (text.dropWhile isAsciiDigit) with
  | ok fraction_part =>
    rw [fraction] at refused
    cases refused
  | error inner =>
    rw [fraction] at refused
    cases refused
    exact fractionPart_error fraction

theorem unitRefusal_eq_none :
    unitRefusal unit fraction_part = none ↔
      (unit ≠ .dollars → fraction_part = []) ∧ fraction_part.length ≤ 2 := by
  cases unit <;> cases fraction_part <;> simp [unitRefusal]

private theorem unitRefusal_error {refusal : DDAmountParseResult}
    (refused : unitRefusal unit fraction_part = some refusal) : refusal.ok = false := by
  unfold unitRefusal at refused
  split at refused <;> split_ifs at refused <;> cases refused <;> rfl

theorem parseDDAmount_plain (plain : PlainDecimal text integer_part fraction_part)
    (nonneg : 0 ≤ max_cents) :
    parseDDAmount text unit max_cents =
      (unitRefusal unit fraction_part).getD
        (if exactCents unit integer_part fraction_part ≤ max_cents then
          { cents := exactCents unit integer_part fraction_part }
        else refuse .tooLarge (tooLargeMessage max_cents)) := by
  unfold parseDDAmount
  dsimp only
  rw [if_neg (by omega), amountParts_eq_ok.mpr plain]
  dsimp only
  rw [magnitudeCents_eq unit nonneg plain.digits plain.decimals]
  cases unitRefusal unit fraction_part with
  | some refusal => rfl
  | none =>
    by_cases fits : exactCents unit integer_part fraction_part ≤ max_cents
    · simp only [if_pos fits, Option.getD_none]
    · simp only [if_neg fits, Option.getD_none]

theorem parseDDAmount_ok_plain (accepted : (parseDDAmount text unit max_cents).ok = true) :
    ∃ integer_part fraction_part, PlainDecimal text integer_part fraction_part := by
  unfold parseDDAmount at accepted
  dsimp only at accepted
  cases parts : amountParts text with
  | error refusal =>
    rw [parts] at accepted
    rw [amountParts_error parts] at accepted
    cases accepted
  | ok parts' => exact ⟨parts'.1, parts'.2, amountParts_eq_ok.mp parts⟩

theorem parseDDAmount_ok_iff (plain : PlainDecimal text integer_part fraction_part)
    (nonneg : 0 ≤ max_cents) :
    (parseDDAmount text unit max_cents).ok = true ↔
      ((unit ≠ .dollars → fraction_part = []) ∧ fraction_part.length ≤ 2) ∧
        exactCents unit integer_part fraction_part ≤ max_cents := by
  rw [parseDDAmount_plain plain nonneg, ← unitRefusal_eq_none]
  cases refused : unitRefusal unit fraction_part with
  | some refusal => simp [unitRefusal_error refused]
  | none =>
    rw [Option.getD_none]
    split
    · rename_i fits
      simp [DDAmountParseResult.ok, fits]
    · rename_i exceeds
      simp [DDAmountParseResult.ok, refuse, exceeds]

theorem parseDDAmount_cents (plain : PlainDecimal text integer_part fraction_part)
    (nonneg : 0 ≤ max_cents) (accepted : (parseDDAmount text unit max_cents).ok = true) :
    parseDDAmount text unit max_cents =
      { cents := exactCents unit integer_part fraction_part } := by
  obtain ⟨rules, fits⟩ := (parseDDAmount_ok_iff plain nonneg).mp accepted
  rw [parseDDAmount_plain plain nonneg, unitRefusal_eq_none.mpr rules, Option.getD_none,
    if_pos fits]

private theorem exactCents_nonneg (decimals : ∀ c ∈ fraction_part, isAsciiDigit c = true) :
    0 ≤ exactCents unit integer_part fraction_part := by
  obtain ⟨low, -⟩ := fractionCents_bounds decimals
  cases unit <;> simp only [exactCents] <;> omega

end Parse

/-! The formatter. -/

private theorem isAsciiDigit_eq (c : Char) : isAsciiDigit c = c.isDigit := rfl

private theorem head_toDigits {n : ℕ} (positive : 0 < n) :
    (Nat.toDigits 10 n).head? ≠ some '0' := by
  induction n using Nat.strong_induction_on with
  | _ n ih =>
    rw [Nat.toDigits_eq_if (by decide)]
    split
    · rename_i small
      have digit : ∀ d < 10, 0 < d → [d.digitChar].head? ≠ some '0' := by decide
      exact digit n small positive
    · rename_i large
      obtain ⟨c, rest, first⟩ :=
        List.exists_cons_of_ne_nil (List.length_pos_iff.mp (@Nat.length_toDigits_pos 10 (n / 10)))
      have shorter := ih (n / 10) (by omega) (by omega)
      rw [first] at shorter ⊢
      exact shorter

private theorem twoDigits : ∀ r < 100, ((Nat.toDigits 10 r).leftpad 2 '0').length = 2 ∧
    ((Nat.toDigits 10 r).leftpad 2 '0').all isAsciiDigit = true ∧
    fractionCents ((Nat.toDigits 10 r).leftpad 2 '0') = r := by decide +kernel

theorem plain_formatDDAmountDollars {c : ℤ} (nonneg : 0 ≤ c) :
    PlainDecimal (formatDDAmountDollars c) (decimalText (c.natAbs / 100))
      ((decimalText (c.natAbs % 100)).leftpad 2 '0') := by
  obtain ⟨length, decimals, -⟩ := twoDigits (c.natAbs % 100) (Nat.mod_lt _ (by decide))
  have pointed : (decimalText (c.natAbs % 100)).leftpad 2 '0' ≠ [] := by
    intro empty
    rw [decimalText] at empty
    rw [empty] at length
    cases length
  refine ⟨?_, ?_, ?_, List.all_eq_true.mp decimals, ?_⟩
  · intro d member
    rw [isAsciiDigit_eq]
    exact Nat.isDigit_of_mem_toDigits (by decide) (by decide) member
  · exact List.length_pos_iff.mp Nat.length_toDigits_pos
  · rintro ⟨long, zero⟩
    rcases Nat.eq_zero_or_pos (c.natAbs / 100) with noDollars | positive
    · rw [noDollars] at long
      exact absurd long (by decide)
    · exact head_toDigits positive zero
  · rw [formatDDAmountDollars, if_neg (by omega), if_neg pointed]
    rfl

theorem exactCents_formatDDAmountDollars {c : ℤ} (nonneg : 0 ≤ c) :
    exactCents .dollars (decimalText (c.natAbs / 100))
      ((decimalText (c.natAbs % 100)).leftpad 2 '0') = c := by
  obtain ⟨-, -, value⟩ := twoDigits (c.natAbs % 100) (Nat.mod_lt _ (by decide))
  have whole : Nat.ofDigitChars 10 (decimalText (c.natAbs / 100)) 0 = c.natAbs / 100 :=
    Nat.ofDigitChars_toDigits (by decide) (by decide)
  rw [exactCents, whole, decimalText, value]
  omega

/-- The parser accepts exactly the plain decimals of its unit up to the maximum, at their exact
number of cents, and reads formatted amounts back. -/
theorem amount_parsing_exact (text : List Char) (unit : DDAmountUnit) {max_cents : ℤ}
    (nonneg : 0 ≤ max_cents) (fits : max_cents ≤ INT64_MAX) :
    ((parseDDAmount text unit max_cents).ok = true ↔
      ∃ integer_part fraction_part cents, PlainDecimal text integer_part fraction_part ∧
        (unit ≠ .dollars → fraction_part = []) ∧ fraction_part.length ≤ 2 ∧
        Denotes unit integer_part fraction_part cents ∧ (cents : ℤ) ≤ max_cents) ∧
    (∀ integer_part fraction_part cents, PlainDecimal text integer_part fraction_part →
      Denotes unit integer_part fraction_part cents →
      (parseDDAmount text unit max_cents).ok = true →
      (parseDDAmount text unit max_cents).cents = cents) ∧
    (∀ value ∈ parseValues text unit max_cents, FitsAmount value) ∧
    ∀ c, 0 ≤ c → c ≤ max_cents →
      parseDDAmount (formatDDAmountDollars c) .dollars max_cents = { cents := c } := by
  refine ⟨⟨?_, ?_⟩, ?_, ?_, ?_⟩
  · intro accepted
    obtain ⟨integer_part, fraction_part, plain⟩ := parseDDAmount_ok_plain accepted
    obtain ⟨⟨point, few⟩, atMost⟩ := (parseDDAmount_ok_iff plain nonneg).mp accepted
    obtain ⟨cents, value⟩ := Int.eq_ofNat_of_zero_le (exactCents_nonneg plain.decimals)
    exact ⟨integer_part, fraction_part, cents, plain, point, few,
      (exactCents_eq_iff plain.decimals few point).mp value, value ▸ atMost⟩
  · rintro ⟨integer_part, fraction_part, cents, plain, point, few, denotes, atMost⟩
    apply (parseDDAmount_ok_iff plain nonneg).mpr
    rw [(exactCents_eq_iff plain.decimals few point).mpr denotes]
    exact ⟨⟨point, few⟩, atMost⟩
  · intro integer_part fraction_part cents plain denotes accepted
    obtain ⟨⟨point, few⟩, -⟩ := (parseDDAmount_ok_iff plain nonneg).mp accepted
    rw [parseDDAmount_cents plain nonneg accepted]
    exact (exactCents_eq_iff plain.decimals few point).mpr denotes
  · intro value member
    unfold parseValues at member
    split at member
    · simp at member
    · rename_i integer_part fraction_part parts
      have plain := amountParts_eq_ok.mp parts
      split at member
      · exact magnitudeValues_fit ⟨nonneg, fits⟩ unit plain.digits plain.decimals value member
      · simp at member
  · intro c low high
    have plain := plain_formatDDAmountDollars low
    have value := exactCents_formatDDAmountDollars low
    have two := (twoDigits (c.natAbs % 100) (Nat.mod_lt _ (by decide))).1
    have accepted : (parseDDAmount (formatDDAmountDollars c) .dollars max_cents).ok = true :=
      (parseDDAmount_ok_iff plain nonneg).mpr ⟨⟨fun other => absurd rfl other, two.le⟩,
        value.trans_le high⟩
    rw [parseDDAmount_cents plain nonneg accepted, value]

theorem largest_amount_parsed :
    parseDDAmount (formatDDAmountDollars INT64_MAX) .dollars INT64_MAX = { cents := INT64_MAX } :=
  (amount_parsing_exact [] .dollars (by decide) (Int.le_refl INT64_MAX)).2.2.2 INT64_MAX (by decide)
    (Int.le_refl INT64_MAX)

end DigiByte.DigiDollar
