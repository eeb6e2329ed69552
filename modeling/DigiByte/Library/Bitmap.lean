import Mathlib.Data.Nat.Bitwise

/-!
Sets of small numbers as lists of bytes, least significant bit first.
-/

set_option autoImplicit false
set_option relaxedAutoImplicit false

namespace DigiByte.Library.Bitmap

def testBit (bitmap : List UInt8) (i : ℕ) : Bool := (bitmap.getD (i / 8) 0).toNat.testBit (i % 8)

def setBit (bitmap : List UInt8) (i : ℕ) : List UInt8 :=
  bitmap.modify (i / 8) (· ||| UInt8.ofNat (2 ^ (i % 8)))

def empty (bytes : ℕ) : List UInt8 := List.replicate bytes 0

/-- The bitmap of a list of members. -/
def build (bytes : ℕ) (members : List ℕ) : List UInt8 := members.foldl setBit (empty bytes)

/-- The numbers of the set bits, in increasing order. -/
def members (bitmap : List UInt8) : List ℕ :=
  (List.range (8 * bitmap.length)).filter (testBit bitmap)

theorem testBit_empty (bytes i : ℕ) : testBit (empty bytes) i = false := by
  have zero : (List.replicate bytes (0 : UInt8)).getD (i / 8) 0 = 0 := by
    rw [List.getD_eq_getElem?_getD, List.getElem?_replicate]
    split_ifs <;> rfl
  rw [testBit, empty, zero]
  exact Nat.zero_testBit _

theorem length_setBit (bitmap : List UInt8) (i : ℕ) : (setBit bitmap i).length = bitmap.length :=
  List.length_modify _ _ _

private theorem toNat_bit (i : ℕ) : (UInt8.ofNat (2 ^ (i % 8))).toNat = 2 ^ (i % 8) := by
  have small : 2 ^ (i % 8) < 2 ^ 8 := Nat.pow_lt_pow_right (by decide) (Nat.mod_lt _ (by decide))
  rw [UInt8.toNat_ofNat']
  exact Nat.mod_eq_of_lt small

theorem testBit_setBit {bitmap : List UInt8} {i : ℕ} (within : i / 8 < bitmap.length) (j : ℕ) :
    testBit (setBit bitmap i) j = (decide (j = i) || testBit bitmap j) := by
  unfold testBit setBit
  rw [List.getD_eq_getElem?_getD, List.getD_eq_getElem?_getD, List.getElem?_modify]
  by_cases sameByte : i / 8 = j / 8
  · obtain ⟨b, present⟩ : ∃ b, bitmap[j / 8]? = some b :=
      ⟨_, List.getElem?_eq_getElem (sameByte ▸ within)⟩
    have sameBit : i % 8 = j % 8 ↔ j = i := by omega
    simp only [sameByte, if_true, present, Option.map_eq_map, Option.map_some, Option.getD_some,
      UInt8.toNat_or, toNat_bit, Nat.testBit_or, Nat.testBit_two_pow, sameBit]
    exact Bool.or_comm _ _
  · have other : j ≠ i := by
      rintro rfl
      exact sameByte rfl
    simp [sameByte, other]

private theorem build_step (bitmap : List UInt8) (members : List ℕ)
    (within : ∀ i ∈ members, i / 8 < bitmap.length) (j : ℕ) :
    (members.foldl setBit bitmap).length = bitmap.length ∧
      testBit (members.foldl setBit bitmap) j = (decide (j ∈ members) || testBit bitmap j) := by
  induction members generalizing bitmap with
  | nil => simp
  | cons i rest ih =>
    have here : i / 8 < bitmap.length := within i List.mem_cons_self
    have later : ∀ k ∈ rest, k / 8 < (setBit bitmap i).length := by
      intro k member
      rw [length_setBit]
      exact within k (List.mem_cons_of_mem _ member)
    obtain ⟨length, bits⟩ := ih (setBit bitmap i) later
    refine ⟨length.trans (length_setBit bitmap i), ?_⟩
    rw [List.foldl_cons, bits, testBit_setBit here]
    by_cases same : j = i <;> simp [same]

theorem length_build {bytes : ℕ} {members : List ℕ} (within : ∀ i ∈ members, i / 8 < bytes) :
    (build bytes members).length = bytes := by
  have lengths := (build_step (empty bytes) members (by simpa [empty] using within) 0).1
  simpa [build, empty] using lengths

theorem testBit_build {bytes : ℕ} {members : List ℕ} (within : ∀ i ∈ members, i / 8 < bytes)
    (j : ℕ) :
    testBit (build bytes members) j = decide (j ∈ members) := by
  have bits := (build_step (empty bytes) members (by simpa [empty] using within) j).2
  rw [build, bits, testBit_empty, Bool.or_false]

theorem count_build {bytes : ℕ} {members : List ℕ} (within : ∀ i ∈ members, i / 8 < bytes)
    (nodup : members.Nodup) :
    ((List.range (8 * (build bytes members).length)).filter
      (testBit (build bytes members))).length =
      members.length := by
  rw [length_build within]
  refine List.Perm.length_eq
    ((List.perm_ext_iff_of_nodup (List.nodup_range.filter _) nodup).mpr fun j => ?_)
  rw [List.mem_filter, List.mem_range, testBit_build within, decide_eq_true_eq]
  constructor
  · exact fun both => both.2
  · intro member
    have := within j member
    exact ⟨by omega, member⟩

theorem and_mask_eq_zero {b : UInt8} {k : ℕ}
    (clear : ∀ j, k ≤ j → j < 8 → b.toNat.testBit j = false) :
    b &&& UInt8.ofNat (0xff <<< k) = 0 := by
  apply UInt8.toNat.inj
  rw [UInt8.toNat_and, UInt8.toNat_ofNat', UInt8.toNat_zero]
  apply Nat.eq_of_testBit_eq
  intro j
  rw [Nat.testBit_and, Nat.testBit_mod_two_pow, Nat.testBit_shiftLeft, Nat.zero_testBit]
  by_cases bit : k ≤ j ∧ j < 8
  · rw [clear j bit.1 bit.2, Bool.false_and]
  · by_cases above : k ≤ j
    · simp [show ¬ j < 8 from fun small => bit ⟨above, small⟩]
    · simp [above]

theorem testBit_of_and_mask {b : UInt8} {k j : ℕ} (clear : b &&& UInt8.ofNat (0xff <<< k) = 0)
    (above : k ≤ j) (small : j < 8) : b.toNat.testBit j = false := by
  have bit := congrArg (fun masked => masked.toNat.testBit j) clear
  rw [UInt8.toNat_and, UInt8.toNat_ofNat', UInt8.toNat_zero, Nat.testBit_and,
    Nat.testBit_mod_two_pow, Nat.testBit_shiftLeft, Nat.zero_testBit] at bit
  have ones : Nat.testBit 0xff (j - k) = true := by
    rw [show (0xff : ℕ) = 2 ^ 8 - 1 from rfl, Nat.testBit_two_pow_sub_one]
    exact decide_eq_true (by omega)
  simpa [above, small, ones] using bit

end DigiByte.Library.Bitmap
