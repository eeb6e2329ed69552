import DigiByte.Coins.KeyOrder
import DigiByte.Consensus.Params
import Mathlib.Algebra.Order.Ring.Nat

/-!
Compression of amounts (`compressor.cpp`) and their bytes in the coin database (`serialize.h`).

The code of an amount without trailing zeros is about nine times as large as the amount, so that the
codes of the largest amounts do not fit 64 bits. These amounts are numbered, and their numbers take
codes that no amount of money has. A failed assertion of the source is `none`.
-/

set_option autoImplicit false
set_option relaxedAutoImplicit false

namespace DigiByte.Coins

open Script (Bytes)

def U64_MAX : ℕ := 2 ^ 64 - 1

def MAX_MONEY_U : ℕ := Consensus.MAX_MONEY.toNat

/-- The loop that divides by ten, at most `room` more times, with the exponent so far. -/
def stripZeros : ℕ → ℕ → ℕ → ℕ × ℕ
  | 0, n, e => (n, e)
  | room + 1, n, e => if n % 10 = 0 then stripZeros room (n / 10) (e + 1) else (n, e)

/-- The code before it is cut to 64 bits. -/
def legacyCode (n : ℕ) : ℕ :=
  if n = 0 then 0
  else
    let (n, e) := stripZeros 9 n 0
    if e < 9 then 1 + (n / 10 * 9 + n % 10 - 1) * 10 + e else 1 + (n - 1) * 10 + 9

def legacyCompressAmount (n : ℕ) : Option ℕ :=
  if legacyCode n > U64_MAX then none else some (legacyCode n)

def legacyCompressAmountUnchecked (n : ℕ) : ℕ := legacyCode n % 2 ^ 64

/-- The loop that multiplies by ten. -/
def appendZeros : ℕ → ℕ → ℕ
  | 0, n => n
  | e + 1, n => appendZeros e (n * 10 % 2 ^ 64)

def legacyDecompressAmount (x : ℕ) : ℕ :=
  if x = 0 then 0
  else
    let e := (x - 1) % 10
    let x := (x - 1) / 10
    appendZeros e (if e < 9 then x / 9 * 10 + (x % 9 + 1) else x + 1)

/-! Amounts whose code does not fit, by their last digit. -/

def uncompressibleMinAmountForDigit (digit : ℕ) : ℕ :=
  ((U64_MAX - 10 * digit + 9) / 90 + 1) * 10 + digit

def uncompressibleCountForDigit (digit : ℕ) : ℕ :=
  if uncompressibleMinAmountForDigit digit ≤ MAX_MONEY_U then
    (MAX_MONEY_U - uncompressibleMinAmountForDigit digit) / 10 + 1
  else 0

def uncompressibleCountBeforeDigit (digit : ℕ) : ℕ :=
  ((List.range' 1 (digit - 1)).map uncompressibleCountForDigit).sum

def uncompressibleAmountCount : ℕ := ((List.range' 1 9).map uncompressibleCountForDigit).sum

def EXTENDED_AMOUNT_COUNT : ℕ := uncompressibleAmountCount
def EXTENDED_AMOUNT_CODE_BASE : ℕ := 1890000000000000002

def getUncompressibleAmountRank (amount : ℕ) : Option ℕ :=
  let digit := amount % 10
  if digit = 0 ∨ amount < uncompressibleMinAmountForDigit digit then none
  else some (uncompressibleCountBeforeDigit digit +
    (amount - uncompressibleMinAmountForDigit digit) / 10)

/-- The loop over the digits. -/
def amountForRank : List ℕ → ℕ → Option ℕ
  | [], _ => none
  | digit :: rest, rank =>
    if rank < uncompressibleCountForDigit digit then
      some (uncompressibleMinAmountForDigit digit + rank * 10)
    else amountForRank rest (rank - uncompressibleCountForDigit digit)

def getUncompressibleAmountForRank (rank : ℕ) : Option ℕ := amountForRank (List.range' 1 9) rank

/-- The rank that an extended code stands for. -/
def isExtendedAmountCode (x : ℕ) : Option ℕ :=
  if x < EXTENDED_AMOUNT_CODE_BASE then none
  else if (x - EXTENDED_AMOUNT_CODE_BASE) % 10 ≠ 0 then none
  else if (x - EXTENDED_AMOUNT_CODE_BASE) / 10 < EXTENDED_AMOUNT_COUNT then
    some ((x - EXTENDED_AMOUNT_CODE_BASE) / 10)
  else none

def compressAmount (n : ℕ) : Option ℕ :=
  match legacyCompressAmount n with
  | some compressed => some compressed
  | none =>
    if n ≤ MAX_MONEY_U then
      (getUncompressibleAmountRank n).map fun rank => EXTENDED_AMOUNT_CODE_BASE + rank * 10
    else some (legacyCompressAmountUnchecked n)

def decompressAmount (x : ℕ) : Option ℕ :=
  match isExtendedAmountCode x with
  | some rank => getUncompressibleAmountForRank rank
  | none => some (legacyDecompressAmount x)

/-! The bytes of a 64-bit code; `none` is also a stream that ends and a number that is too large. -/

def writeVarInt64 (n : ℕ) : Bytes :=
  if n ≤ 0x7f then [UInt8.ofNat n] else varIntHead 8 (n / 128 - 1) ++ [UInt8.ofNat (n % 128)]

/-- The loop of `ReadVarInt`, with the number so far. -/
def readVarInt : ℕ → Bytes → Option (ℕ × Bytes)
  | _, [] => none
  | n, chData :: stream =>
    if n > U64_MAX / 128 then none
    else if chData.toNat < 128 then some (n * 128 + chData.toNat % 128, stream)
    else if n * 128 + chData.toNat % 128 = U64_MAX then none
    else readVarInt (n * 128 + chData.toNat % 128 + 1) stream

/-- `AmountCompression::Ser`. -/
def serAmount (val : ℕ) : Option Bytes := (compressAmount val).map writeVarInt64

/-- `AmountCompression::Unser`. -/
def unserAmount (stream : Bytes) : Option (ℕ × Bytes) := do
  let (v, stream) ← readVarInt 0 stream
  let val ← decompressAmount v
  return (val, stream)

/-! The codes of the older format. -/

private theorem stripZeros_spec (room n e : ℕ) :
    ∃ zeros ≤ room, (stripZeros room n e).2 = e + zeros ∧ n = (stripZeros room n e).1 * 10 ^ zeros ∧
      (zeros < room → (stripZeros room n e).1 % 10 ≠ 0) := by
  induction room generalizing n e with
  | zero => exact ⟨0, le_rfl, rfl, by simp [stripZeros], fun impossible => by omega⟩
  | succ room ih =>
    unfold stripZeros
    split_ifs with zero
    · obtain ⟨zeros, few, exponent, value, last⟩ := ih (n / 10) (e + 1)
      refine ⟨zeros + 1, by omega, by omega, ?_, fun less => last (by omega)⟩
      rw [pow_succ, ← mul_assoc, ← value]
      omega
    · exact ⟨0, Nat.zero_le _, rfl, by simp, fun _ => zero⟩

private theorem legacyCode_cases {n : ℕ} (positive : n ≠ 0) : ∃ m e, n = m * 10 ^ e ∧ m ≠ 0 ∧
    (e < 9 ∧ m % 10 ≠ 0 ∧ legacyCode n = 1 + (m / 10 * 9 + m % 10 - 1) * 10 + e ∨
      e = 9 ∧ legacyCode n = 1 + (m - 1) * 10 + 9) := by
  obtain ⟨zeros, few, exponent, value, last⟩ := stripZeros_spec 9 n 0
  refine ⟨(stripZeros 9 n 0).1, zeros, value, ?_, ?_⟩
  · intro nothing
    rw [nothing, zero_mul] at value
    exact positive value
  · unfold legacyCode
    rw [if_neg positive]
    dsimp only
    rw [exponent, zero_add]
    split_ifs with short
    · exact .inl ⟨short, last short, rfl⟩
    · exact .inr ⟨by omega, rfl⟩

private theorem appendZeros_eq {e n : ℕ} (small : n * 10 ^ e < 2 ^ 64) :
    appendZeros e n = n * 10 ^ e := by
  induction e generalizing n with
  | zero => simp [appendZeros]
  | succ e ih =>
    rw [pow_succ', ← mul_assoc] at small ⊢
    have fits : n * 10 < 2 ^ 64 :=
      lt_of_le_of_lt (Nat.le_mul_of_pos_right _ (Nat.pow_pos (by decide))) small
    rw [appendZeros, Nat.mod_eq_of_lt fits, ih small]

private theorem legacyDecompress_legacyCode {n : ℕ}
    (small : n < 2 ^ 64) : legacyDecompressAmount (legacyCode n) = n := by
  by_cases positive : n = 0
  · rw [positive]
    rfl
  obtain ⟨m, e, value, nonzero, ⟨short, last, code⟩ | ⟨rfl, code⟩⟩ := legacyCode_cases positive
  · have exponent : (legacyCode n - 1) % 10 = e := by omega
    have number : (legacyCode n - 1) / 10 = m / 10 * 9 + m % 10 - 1 := by omega
    have back : (m / 10 * 9 + m % 10 - 1) / 9 * 10 + ((m / 10 * 9 + m % 10 - 1) % 9 + 1) =
        m := by omega
    unfold legacyDecompressAmount
    dsimp only
    rw [if_neg (by omega), exponent, if_pos short, number, back, appendZeros_eq (value ▸ small),
      ← value]
  · have exponent : (legacyCode n - 1) % 10 = 9 := by omega
    have number : (legacyCode n - 1) / 10 + 1 = m := by omega
    unfold legacyDecompressAmount
    dsimp only
    rw [if_neg (by omega), exponent, if_neg (by omega), number, appendZeros_eq (value ▸ small),
      ← value]

/-! The extended codes. -/

private theorem maxMoney_eq : MAX_MONEY_U = 2100000000000000000 := by decide

private theorem u64Max_eq : U64_MAX = 18446744073709551615 := by decide

private theorem extendedCount_eq : EXTENDED_AMOUNT_COUNT = 45325592629044838 := by decide +kernel

/-- Only the codes of amounts with one zero share the last digit of the extended codes, and those of
amounts of money lie below them. -/
private theorem isExtended_legacyCode {n : ℕ}
    (money : n ≤ MAX_MONEY_U) : isExtendedAmountCode (legacyCode n) = none := by
  by_cases positive : n = 0
  · rw [positive]
    decide +kernel
  rw [maxMoney_eq] at money
  have below : legacyCode n < EXTENDED_AMOUNT_CODE_BASE ∨
      (legacyCode n - EXTENDED_AMOUNT_CODE_BASE) % 10 ≠ 0 := by
    unfold EXTENDED_AMOUNT_CODE_BASE
    obtain ⟨m, e, value, nonzero, ⟨short, last, code⟩ | ⟨rfl, code⟩⟩ := legacyCode_cases positive
    · by_cases one : e = 1
      · rw [one] at value code
        omega
      · omega
    · omega
  unfold isExtendedAmountCode
  rcases below with low | other
  · rw [if_pos low]
  · split_ifs
    · rfl
    · rfl

private theorem uncompressible {n : ℕ} (money : n ≤ MAX_MONEY_U) (large : legacyCode n > U64_MAX) :
    n % 10 ≠ 0 ∧ uncompressibleMinAmountForDigit (n % 10) ≤ n := by
  have positive : n ≠ 0 := by
    rintro rfl
    exact absurd large (by decide +kernel)
  unfold uncompressibleMinAmountForDigit
  rw [maxMoney_eq] at money
  rw [u64Max_eq] at large ⊢
  obtain ⟨m, e, value, nonzero, ⟨short, last, code⟩ | ⟨rfl, code⟩⟩ := legacyCode_cases positive
  · cases e with
    | zero =>
      rw [pow_zero, mul_one] at value
      subst value
      omega
    | succ e =>
      -- a trailing zero already makes the code small enough
      have shorter : m * 10 ≤ n := by
        rw [value, pow_succ', ← mul_assoc]
        exact Nat.le_mul_of_pos_right _ (Nat.pow_pos (by decide))
      omega
  · omega

private theorem amountForRank_append (before after : List ℕ) {digit k : ℕ}
    (within : k < uncompressibleCountForDigit digit) :
    amountForRank (before ++ digit :: after) ((before.map uncompressibleCountForDigit).sum + k) =
      some (uncompressibleMinAmountForDigit digit + k * 10) := by
  induction before with
  | nil => simp [amountForRank, within]
  | cons first rest ih =>
    rw [List.cons_append, amountForRank, List.map_cons, List.sum_cons, if_neg (by omega), ← ih]
    congr 1
    omega

private theorem digits_split {digit : ℕ} (nonzero : digit ≠ 0) (small : digit < 10) :
    List.range' 1 9 = List.range' 1 (digit - 1) ++ digit ::
      List.range' (digit + 1) (9 - digit) := by
  revert nonzero
  revert digit
  decide

private theorem rank_of_large {n : ℕ} (money : n ≤ MAX_MONEY_U) (large : legacyCode n > U64_MAX) :
    ∃ rank < EXTENDED_AMOUNT_COUNT, getUncompressibleAmountRank n = some rank ∧
      getUncompressibleAmountForRank rank = some n := by
  obtain ⟨last, least⟩ := uncompressible money large
  have split := digits_split last (Nat.mod_lt _ (by decide))
  have same_digit : uncompressibleMinAmountForDigit (n % 10) % 10 = n % 10 := by
    unfold uncompressibleMinAmountForDigit
    omega
  have within : (n - uncompressibleMinAmountForDigit (n % 10)) / 10 <
      uncompressibleCountForDigit (n % 10) := by
    unfold uncompressibleCountForDigit
    rw [if_pos (least.trans money)]
    omega
  refine ⟨uncompressibleCountBeforeDigit (n % 10) + (n - uncompressibleMinAmountForDigit (n % 10)) /
    10, ?_, ?_, ?_⟩
  · change _ < ((List.range' 1 9).map uncompressibleCountForDigit).sum
    rw [split, List.map_append, List.sum_append, List.map_cons, List.sum_cons]
    exact Nat.add_lt_add_left (Nat.lt_add_right _ within) _
  · unfold getUncompressibleAmountRank
    exact if_neg (by omega)
  · unfold getUncompressibleAmountForRank uncompressibleCountBeforeDigit
    rw [split, amountForRank_append _ _ within]
    congr 1
    omega

private theorem decompress_compressAmount {n : ℕ} (money : n ≤ MAX_MONEY_U) :
    ∃ x ≤ U64_MAX, compressAmount n = some x ∧ decompressAmount x = some n := by
  unfold compressAmount legacyCompressAmount
  by_cases large : legacyCode n > U64_MAX
  · obtain ⟨rank, counted, ranked, found⟩ := rank_of_large money large
    rw [if_pos large]
    dsimp only
    rw [if_pos money, ranked]
    refine ⟨EXTENDED_AMOUNT_CODE_BASE + rank * 10, ?_, rfl, ?_⟩
    · rw [extendedCount_eq] at counted
      rw [u64Max_eq, EXTENDED_AMOUNT_CODE_BASE]
      omega
    · have extended : isExtendedAmountCode (EXTENDED_AMOUNT_CODE_BASE + rank * 10) = some rank := by
        unfold isExtendedAmountCode
        rw [Nat.add_sub_cancel_left, if_neg (by omega), if_neg (by omega),
          Nat.mul_div_cancel _ (by decide), if_pos counted]
      unfold decompressAmount
      rw [extended]
      exact found
  · have fits : n < 2 ^ 64 := by
      rw [maxMoney_eq] at money
      omega
    rw [if_neg large]
    refine ⟨legacyCode n, not_lt.mp large, rfl, ?_⟩
    unfold decompressAmount
    rw [isExtended_legacyCode money]
    exact congrArg some (legacyDecompress_legacyCode fits)

/-! The bytes of a code. -/

private theorem byte_toNat {k : ℕ} (small : k < 256) : (UInt8.ofNat k).toNat = k :=
  UInt8.toNat_ofNat_of_lt' small

private theorem readVarInt_continued {n : ℕ} (small : n < U64_MAX) (stream : Bytes) :
    readVarInt (n / 128) (UInt8.ofNat (n % 128 + 128) :: stream) = readVarInt (n + 1) stream := by
  have value : n / 128 * 128 + (n % 128 + 128) % 128 = n := by omega
  rw [readVarInt, byte_toNat (by omega), value, if_neg (by omega), if_neg (by omega),
    if_neg (by omega)]

private theorem readVarInt_last {n : ℕ} (fits : n ≤ U64_MAX) (stream : Bytes) :
    readVarInt (n / 128) (UInt8.ofNat (n % 128) :: stream) = some (n, stream) := by
  have value : n / 128 * 128 + n % 128 % 128 = n := by omega
  rw [readVarInt, byte_toNat (by omega), value, if_neg (by omega), if_pos (by omega)]

private theorem readVarInt_head {room n : ℕ} (room_left : n < 128 ^ (room + 1))
    (small : n < U64_MAX) (stream : Bytes) :
    readVarInt 0 (varIntHead room n ++ stream) = readVarInt (n + 1) stream := by
  rw [← readVarInt_continued small]
  induction room generalizing n stream with
  | zero =>
    rw [Nat.div_eq_of_lt (by omega)]
    rfl
  | succ room ih =>
    unfold varIntHead
    split_ifs with last
    · rw [Nat.div_eq_of_lt (by omega)]
      rfl
    · have above : n / 128 - 1 < 128 ^ (room + 1) := by
        rw [pow_succ] at room_left
        omega
      have lower : n / 128 - 1 < U64_MAX := by omega
      have next : n / 128 - 1 + 1 = n / 128 := by omega
      rw [List.append_assoc, ih above lower, readVarInt_continued lower, next]
      rfl

private theorem readVarInt_writeVarInt64 {n : ℕ} (fits : n ≤ U64_MAX) (stream : Bytes) :
    readVarInt 0 (writeVarInt64 n ++ stream) = some (n, stream) := by
  have last := readVarInt_last fits stream
  unfold writeVarInt64
  split_ifs with small
  · rw [Nat.div_eq_of_lt (by omega), Nat.mod_eq_of_lt (by omega)] at last
    exact last
  · have positive : n / 128 - 1 + 1 = n / 128 := by omega
    rw [u64Max_eq] at fits
    rw [List.append_assoc, readVarInt_head (by omega) (by rw [u64Max_eq]; omega), positive]
    exact last

/-- Every amount of money is read back from its bytes, whatever follows them, and no assertion
fails. -/
theorem unser_serAmount (n : ℕ) (money : n ≤ MAX_MONEY_U) (stream : Bytes) :
    ∃ bytes, serAmount n = some bytes ∧ unserAmount (bytes ++ stream) = some (n, stream) := by
  obtain ⟨x, fits, compressed, back⟩ := decompress_compressAmount money
  refine ⟨writeVarInt64 x, ?_, ?_⟩
  · rw [serAmount, compressed]
    rfl
  · rw [unserAmount, readVarInt_writeVarInt64 fits]
    simp [back]

/-- The code of an amount just below the limit does not fit 64 bits in the older format. -/
theorem unser_serAmount_large : legacyCompressAmount (MAX_MONEY_U - 1) = none ∧
    ∃ bytes, serAmount (MAX_MONEY_U - 1) = some bytes ∧
    unserAmount (bytes ++ [0x07]) = some (MAX_MONEY_U - 1, [0x07]) :=
  ⟨by decide +kernel, unser_serAmount _ (Nat.sub_le _ _) _⟩

end DigiByte.Coins
