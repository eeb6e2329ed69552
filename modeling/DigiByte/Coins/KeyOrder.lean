import DigiByte.Library.FixedWidth
import DigiByte.Primitives.Transaction
import Mathlib.Data.List.Lex

/-!
The order of the coin database: transaction hash, then the output number as a `VARINT`,
compared byte by byte (`coins.cpp`, `serialize.h`, `uint256.h`).
-/

set_option autoImplicit false
set_option relaxedAutoImplicit false

namespace DigiByte.Coins

open Script (Bytes)
open Library.FixedWidth (bytesOf length_bytesOf ofBytes_bytesOf)

/-- An outpoint within the widths of its fields. -/
structure CoinKey extends COutPoint where
  hash_lt : hash < 2 ^ 256
  n_lt : n < 2 ^ 32
  deriving DecidableEq, Repr

/-! `WriteVarInt`. -/

/-- The groups of seven bits in front of the last one; the source's buffer has room for four of
them. -/
def varIntHead : ℕ → ℕ → Bytes
  | 0, n => [UInt8.ofNat (n % 128 + 128)]
  | room + 1, n =>
    if n ≤ 0x7f then [UInt8.ofNat (n % 128 + 128)]
    else varIntHead room (n / 128 - 1) ++ [UInt8.ofNat (n % 128 + 128)]

def writeVarInt (n : ℕ) : Bytes :=
  if n ≤ 0x7f then [UInt8.ofNat n] else varIntHead 3 (n / 128 - 1) ++ [UInt8.ofNat (n % 128)]

/-- `std::lexicographical_compare`. -/
def lexicographicalCompare : Bytes → Bytes → Bool
  | _, [] => false
  | [], _ :: _ => true
  | a :: as, b :: bs => if a < b then true else if b < a then false
      else lexicographicalCompare as bs

/-- The bytes of a hash as they are stored. -/
def hashBytes (outpoint : COutPoint) : Bytes := bytesOf 32 outpoint.hash

def coinDatabaseKeyLess (a b : COutPoint) : Bool :=
  if hashBytes a ≠ hashBytes b then lexicographicalCompare (hashBytes a) (hashBytes b)
  else if a.n = b.n then false
  else lexicographicalCompare (writeVarInt a.n) (writeVarInt b.n)

/-- The key of a coin in the database, after the byte that all coin keys begin with. -/
def databaseKey (outpoint : COutPoint) : Bytes := hashBytes outpoint ++ writeVarInt outpoint.n

/-! The keys of different coins differ. -/

/-- What `ReadVarInt` adds up: a byte with its high bit set counts one more. -/
def varIntValue (bytes : Bytes) : ℕ :=
  bytes.foldl (fun n b => n * 128 + b.toNat % 128 + if 128 ≤ b.toNat then 1 else 0) 0

private theorem varIntValue_concat (bytes : Bytes) (b : UInt8) :
    varIntValue (bytes ++ [b]) =
      varIntValue bytes * 128 + b.toNat % 128 + if 128 ≤ b.toNat then 1 else 0 := by
  unfold varIntValue
  rw [List.foldl_append, List.foldl_cons, List.foldl_nil]

private theorem varIntValue_singleton (b : UInt8) :
    varIntValue [b] = b.toNat % 128 + if 128 ≤ b.toNat then 1 else 0 := by
  unfold varIntValue
  rw [List.foldl_cons, List.foldl_nil]
  omega

private theorem continued_byte (n : ℕ) : (UInt8.ofNat (n % 128 + 128)).toNat = n % 128 + 128 := by
  rw [UInt8.toNat_ofNat']
  omega

private theorem varIntValue_head {room n : ℕ}
    (fits : n < 128 ^ (room + 1)) : varIntValue (varIntHead room n) = n + 1 := by
  induction room generalizing n with
  | zero =>
    rw [varIntHead, varIntValue_singleton, continued_byte, if_pos (by omega)]
    omega
  | succ room ih =>
    unfold varIntHead
    split_ifs with small
    · rw [varIntValue_singleton, continued_byte, if_pos (by omega)]
      omega
    · have above : n / 128 - 1 < 128 ^ (room + 1) := by
        rw [pow_succ] at fits
        omega
      rw [varIntValue_concat, ih above, continued_byte, if_pos (by omega)]
      omega

theorem varIntValue_writeVarInt {n : ℕ} (fits : n < 2 ^ 32) : varIntValue (writeVarInt n) = n := by
  unfold writeVarInt
  split_ifs with small
  · have byte : (UInt8.ofNat n).toNat = n := by
      rw [UInt8.toNat_ofNat']
      omega
    rw [varIntValue_singleton, byte, if_neg (by omega)]
    omega
  · have byte : (UInt8.ofNat (n % 128)).toNat = n % 128 := by
      rw [UInt8.toNat_ofNat']
      omega
    rw [varIntValue_concat, varIntValue_head (by omega), byte, if_neg (by omega)]
    omega

theorem databaseKey_injective {a b : CoinKey}
    (same : databaseKey a.toCOutPoint = databaseKey b.toCOutPoint) :
    a = b := by
  have lengths : (hashBytes a.toCOutPoint).length = (hashBytes b.toCOutPoint).length := by
    rw [hashBytes, hashBytes, length_bytesOf, length_bytesOf]
  obtain ⟨hashes, indices⟩ := List.append_inj same lengths
  have hash : a.hash = b.hash := by
    rw [← ofBytes_bytesOf (show a.hash < 256 ^ 32 from a.hash_lt),
      ← ofBytes_bytesOf (show b.hash < 256 ^ 32 from b.hash_lt)]
    exact congrArg _ hashes
  have index : a.n = b.n := by
    rw [← varIntValue_writeVarInt a.n_lt, ← varIntValue_writeVarInt b.n_lt, indices]
  rcases a with ⟨⟨_, _⟩, _, _⟩
  rcases b with ⟨⟨_, _⟩, _, _⟩
  cases hash
  cases index
  rfl

/-! The comparison is the order of the keys. -/

/-- The key as numbers, which have a linear order. -/
def keyValues (key : CoinKey) : List ℕ := (databaseKey key.toCOutPoint).map UInt8.toNat

theorem keyValues_injective : Function.Injective keyValues := by
  intro a b same
  apply databaseKey_injective
  exact List.map_injective_iff.mpr (fun _ _ => UInt8.toNat_inj.mp) same

instance : LinearOrder CoinKey := LinearOrder.lift' keyValues keyValues_injective

theorem lexicographicalCompare_iff {a b : Bytes} :
    lexicographicalCompare a b = true ↔ a.map UInt8.toNat < b.map UInt8.toNat := by
  induction a generalizing b with
  | nil =>
    cases b with
    | nil => simp [lexicographicalCompare]
    | cons y ys => simp [lexicographicalCompare]
  | cons x xs ih =>
    cases b with
    | nil => simp [lexicographicalCompare]
    | cons y ys =>
      rw [lexicographicalCompare, List.map_cons, List.map_cons, List.cons_lt_cons_iff, ← ih]
      simp only [UInt8.lt_iff_toNat_lt]
      split_ifs with less greater
      · simp [less]
      · simp only [false_iff]
        omega
      · have equal : x.toNat = y.toNat := by omega
        simp [equal]

private theorem append_lt_append_of_ne {front front' back back' : List ℕ}
    (length : front.length = front'.length)
    (different : front ≠ front') : front ++ back < front' ++ back' ↔ front < front' := by
  induction front generalizing front' with
  | nil => exact absurd (List.length_eq_zero_iff.mp length.symm).symm different
  | cons x xs ih =>
    cases front' with
    | nil => cases length
    | cons y ys =>
      rw [List.cons_append, List.cons_append, List.cons_lt_cons_iff, List.cons_lt_cons_iff]
      by_cases same : x = y
      · subst same
        have tails : xs ≠ ys := fun equal => different (by rw [equal])
        rw [ih (Nat.succ.inj length) tails]
      · simp [same]

private theorem append_lt_append_left (front : List ℕ) {back back' : List ℕ} :
    front ++ back < front ++ back' ↔ back < back' := by
  induction front with
  | nil => exact Iff.rfl
  | cons x xs ih =>
    rw [List.cons_append, List.cons_append, List.cons_lt_cons_iff, ih]
    simp

theorem coinDatabaseKeyLess_iff {a b : CoinKey} :
    coinDatabaseKeyLess a.toCOutPoint b.toCOutPoint = true ↔ a < b := by
  change _ ↔ keyValues a < keyValues b
  unfold coinDatabaseKeyLess keyValues databaseKey
  rw [List.map_append, List.map_append]
  split_ifs with hashes indices
  · have different : (hashBytes a.toCOutPoint).map UInt8.toNat ≠
        (hashBytes b.toCOutPoint).map UInt8.toNat :=
      fun same => hashes (List.map_injective_iff.mpr (fun _ _ => UInt8.toNat_inj.mp) same)
    rw [append_lt_append_of_ne (by simp [hashBytes]) different]
    exact lexicographicalCompare_iff
  · rw [not_not.mp hashes, indices]
    simp
  · rw [not_not.mp hashes, append_lt_append_left]
    exact lexicographicalCompare_iff

end DigiByte.Coins
