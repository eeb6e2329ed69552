import DigiByte.Library.FixedWidth

/-!
Encodings that end where they say: what follows an encoded value is no part of it. Values
written one after another can then be told apart, whatever their lengths are.
-/

set_option autoImplicit false
set_option relaxedAutoImplicit false

namespace DigiByte.Library.Encodings

open SignMagnitude (ofBytes)
open FixedWidth (bytesOf length_bytesOf ofBytes_bytesOf pattern pattern_lt bmod_pattern)

variable {α : Type}

/-- Two encodings of valid values that start the same bytes are of one value, with the same rest. -/
def Delimited (valid : α → Prop) (encode : α → List UInt8) : Prop :=
  ∀ a b rest rest', valid a → valid b → encode a ++ rest = encode b ++ rest' → a = b ∧ rest = rest'

theorem Delimited.of_read {valid : α → Prop} {encode : α → List UInt8}
    (read : List UInt8 → Option (α × List UInt8))
    (back : ∀ a rest, valid a → read (encode a ++ rest) = some (a, rest)) :
    Delimited valid encode := by
  intro a b rest rest' validA validB same
  have both : some (a, rest) = some (b, rest') := by
    rw [← back a rest validA, same, back b rest' validB]
  exact Prod.mk.inj (Option.some.inj both)

private theorem read_bytesOf {width n : ℕ} (small : n < 256 ^ width) (rest : List UInt8) :
    (ofBytes ((bytesOf width n ++ rest).take width), (bytesOf width n ++ rest).drop width) =
    (n, rest) := by
  have sized := length_bytesOf width n
  rw [List.take_left' sized, List.drop_left' sized, ofBytes_bytesOf small]

theorem delimited_bytesOf (width : ℕ) : Delimited (fun n => n < 256 ^ width) (bytesOf width) := by
  apply Delimited.of_read fun bytes => some (ofBytes (bytes.take width), bytes.drop width)
  intro n rest small
  rw [read_bytesOf small]

theorem delimited_signed (width : ℕ) :
    Delimited (fun value : ℤ => -(256 ^ width / 2 : ℤ) ≤ value ∧
      value < ((256 ^ width : ℤ) + 1) / 2)
      (fun value => bytesOf width (pattern (256 ^ width) value)) := by
  intro a b rest rest' validA validB same
  have positive : 0 < 256 ^ width := Nat.pow_pos (by decide)
  obtain ⟨patterns, rests⟩ :=
    delimited_bytesOf width _ _ rest rest' (pattern_lt positive a) (pattern_lt positive b) same
  refine ⟨?_, rests⟩
  have castPower : ((256 ^ width : ℕ) : ℤ) = 256 ^ width := by push_cast; rfl
  have backA : ((pattern (256 ^ width) a : ℕ) : ℤ).bmod (256 ^ width) = a :=
    bmod_pattern positive (by rw [castPower]; exact validA.1) (by rw [castPower]; exact validA.2)
  have backB : ((pattern (256 ^ width) b : ℕ) : ℤ).bmod (256 ^ width) = b :=
    bmod_pattern positive (by rw [castPower]; exact validB.1) (by rw [castPower]; exact validB.2)
  rw [← backA, patterns, backB]

theorem Delimited.flatMap_inj {valid : α → Prop} {encode : α → List UInt8}
    (each : Delimited valid encode)
    (nonempty : ∀ a, encode a ≠ []) {xs ys : List α} (validX : ∀ x ∈ xs, valid x)
    (validY : ∀ y ∈ ys, valid y) (same : xs.flatMap encode = ys.flatMap encode) : xs = ys := by
  induction xs generalizing ys with
  | nil =>
    cases ys with
    | nil => rfl
    | cons y ys =>
      rw [List.flatMap_nil, List.flatMap_cons] at same
      exact absurd (List.append_eq_nil_iff.mp same.symm).1 (nonempty y)
  | cons x xs ih =>
    cases ys with
    | nil =>
      rw [List.flatMap_nil, List.flatMap_cons] at same
      exact absurd (List.append_eq_nil_iff.mp same).1 (nonempty x)
    | cons y ys =>
      rw [List.flatMap_cons, List.flatMap_cons] at same
      obtain ⟨rfl, behind⟩ :=
        each x y _ _ (validX x List.mem_cons_self) (validY y List.mem_cons_self) same
      rw [ih (fun z member => validX z (List.mem_cons_of_mem _ member))
        (fun z member => validY z (List.mem_cons_of_mem _ member)) behind]

/-! Byte strings with their length in front. -/

/-- A length in one, three, five or nine bytes. -/
def compactSize (n : ℕ) : List UInt8 :=
  if n < 253 then [UInt8.ofNat n]
  else if n ≤ 0xffff then 253 :: bytesOf 2 n
  else if n ≤ 0xffffffff then 254 :: bytesOf 4 n
  else 255 :: bytesOf 8 n

private def readCompactSize : List UInt8 → Option (ℕ × List UInt8)
  | [] => none
  | b :: rest =>
    if b.toNat < 253 then some (b.toNat, rest)
    else if b.toNat = 253 then some (ofBytes (rest.take 2), rest.drop 2)
    else if b.toNat = 254 then some (ofBytes (rest.take 4), rest.drop 4)
    else some (ofBytes (rest.take 8), rest.drop 8)

theorem delimited_compactSize : Delimited (fun n => n < 2 ^ 64) compactSize := by
  apply Delimited.of_read readCompactSize
  intro n rest small
  unfold compactSize
  by_cases one : n < 253
  · have byte : (UInt8.ofNat n).toNat = n := by
      rw [UInt8.toNat_ofNat']
      omega
    rw [if_pos one, List.singleton_append, readCompactSize, byte, if_pos one]
  by_cases two : n ≤ 0xffff
  · rw [if_neg one, if_pos two, List.cons_append]
    exact congrArg some (read_bytesOf (by omega) rest)
  by_cases four : n ≤ 0xffffffff
  · rw [if_neg one, if_neg two, if_pos four, List.cons_append]
    exact congrArg some (read_bytesOf (by omega) rest)
  · rw [if_neg one, if_neg two, if_neg four, List.cons_append]
    exact congrArg some (read_bytesOf (by omega) rest)

/-- A byte string with its length in front. -/
def sized (bytes : List UInt8) : List UInt8 := compactSize bytes.length ++ bytes

theorem delimited_sized : Delimited (fun bytes => bytes.length < 2 ^ 64) sized := by
  intro a b rest rest' smallA smallB same
  simp only [sized, List.append_assoc] at same
  obtain ⟨lengths, behind⟩ := delimited_compactSize _ _ _ _ smallA smallB same
  exact List.append_inj behind lengths

end DigiByte.Library.Encodings
