import Mathlib.Data.Nat.Bits
import Mathlib.Tactic.Ring

/-!
Signed integers as little-endian byte strings with the sign in the top bit of
the last byte. Zero is the empty string. A string is minimal when no shorter
string denotes the same integer.
-/

set_option autoImplicit false
set_option relaxedAutoImplicit false

namespace DigiByte.Library.SignMagnitude

/-- The natural number with the given bytes, least significant first. -/
def ofBytes : List UInt8 → ℕ
  | [] => 0
  | b :: bs => b.toNat + 256 * ofBytes bs

/-- The bytes of `n` up to its last nonzero byte, at most `fuel` of them. -/
def toBytes : ℕ → ℕ → List UInt8
  | 0, _ => []
  | fuel + 1, n => if n = 0 then [] else UInt8.ofNat (n % 256) :: toBytes fuel (n / 256)

/-- The integer denoted by a byte string. -/
def decode (vch : List UInt8) : ℤ :=
  match vch.getLast? with
  | none => 0
  | some top =>
    if 0x80 ≤ top.toNat then -((ofBytes vch : ℤ) - 0x80 * 256 ^ (vch.length - 1))
    else ofBytes vch

/-- The shortest byte string of an integer below `256 ^ width` in magnitude. -/
def encode (width : ℕ) (value : ℤ) : List UInt8 :=
  let result := toBytes width value.natAbs
  match result.getLast? with
  | none => []
  | some top =>
    if 0x80 ≤ top.toNat then result ++ [if value < 0 then 0x80 else 0]
    else if value < 0 then result.dropLast ++ [top ||| 0x80]
    else result

/-- The top byte is needed: it has a nonzero low part, or it keeps the sign
apart from the set top bit of the byte below it. -/
def minimal (vch : List UInt8) : Bool :=
  match vch.reverse with
  | [] => true
  | top :: below =>
    top &&& 0x7f != 0 ||
      match below with
      | [] => false
      | next :: _ => next &&& 0x80 != 0

/-! Unsigned parts. -/

theorem ofBytes_append (as bs : List UInt8) :
    ofBytes (as ++ bs) = ofBytes as + 256 ^ as.length * ofBytes bs := by
  induction as with
  | nil => simp [ofBytes]
  | cons a as ih =>
    simp only [List.cons_append, ofBytes, ih, List.length_cons]
    ring

theorem ofBytes_lt (bs : List UInt8) : ofBytes bs < 256 ^ bs.length := by
  induction bs with
  | nil => simp [ofBytes]
  | cons b bs ih =>
    have := b.toNat_lt
    simp only [ofBytes, List.length_cons, pow_succ]
    omega

theorem ofBytes_toBytes {fuel n : ℕ} (bound : n < 256 ^ fuel) : ofBytes (toBytes fuel n) = n := by
  induction fuel generalizing n with
  | zero =>
    rw [pow_zero] at bound
    simp [toBytes, ofBytes, show n = 0 by omega]
  | succ fuel ih =>
    unfold toBytes
    split_ifs with zero
    · simp [ofBytes, zero]
    · have inner : n / 256 < 256 ^ fuel := by
        rw [pow_succ] at bound
        omega
      simp only [ofBytes, ih inner, UInt8.toNat_ofNat']
      omega

theorem length_toBytes_le {fuel k n : ℕ} (bound : n < 256 ^ k) : (toBytes fuel n).length ≤ k := by
  induction fuel generalizing k n with
  | zero => simp [toBytes]
  | succ fuel ih =>
    unfold toBytes
    split_ifs with zero
    · simp
    · cases k with
      | zero =>
        rw [pow_zero] at bound
        omega
      | succ k =>
        rw [pow_succ] at bound
        simpa using ih (k := k) (show n / 256 < 256 ^ k by omega)

theorem getLast_toBytes {fuel n : ℕ} {top : UInt8} (bound : n < 256 ^ fuel)
    (last : (toBytes fuel n).getLast? = some top) : top ≠ 0 := by
  induction fuel generalizing n with
  | zero => simp [toBytes] at last
  | succ fuel ih =>
    unfold toBytes at last
    split_ifs at last with zero
    · simp at last
    · have inner : n / 256 < 256 ^ fuel := by
        rw [pow_succ] at bound
        omega
      rw [List.getLast?_cons] at last
      cases rest : (toBytes fuel (n / 256)).getLast? with
      | some byte =>
        simp only [rest, Option.getD_some, Option.some.injEq] at last
        subst last
        exact ih inner rest
      | none =>
        -- no further byte: the quotient is 0, so this byte is the number itself
        have done : n / 256 = 0 := by
          rw [← ofBytes_toBytes inner, List.getLast?_eq_none_iff.mp rest]
          rfl
        simp only [rest, Option.getD_none, Option.some.injEq] at last
        rintro rfl
        have := congrArg UInt8.toNat last
        simp at this
        omega

/-! Signed integers. -/

theorem decode_concat (below : List UInt8) (top : UInt8) :
    decode (below ++ [top]) =
      if 0x80 ≤ top.toNat then
        -((ofBytes below + 256 ^ below.length * (top.toNat - 0x80) : ℕ) : ℤ)
      else (ofBytes below + 256 ^ below.length * top.toNat : ℕ) := by
  have value : ofBytes (below ++ [top]) = ofBytes below + 256 ^ below.length * top.toNat := by
    rw [ofBytes_append]
    simp [ofBytes]
  simp only [decode, List.getLast?_concat, List.length_append, List.length_singleton,
    Nat.add_sub_cancel, value]
  split_ifs with sign
  · push_cast [Nat.cast_sub sign]
    ring
  · rfl

theorem decode_nil : decode [] = 0 := rfl

theorem natAbs_decode_lt {vch : List UInt8} {n : ℕ} (short : vch.length ≤ n + 1) :
    (decode vch).natAbs < 0x80 * 256 ^ n := by
  rcases List.eq_nil_or_concat vch with rfl | ⟨below, top, rfl⟩
  · simp [decode_nil]
  · have len : below.length ≤ n := by simpa using short
    have low := ofBytes_lt below
    have width : 256 ^ below.length ≤ 256 ^ n := Nat.pow_le_pow_right (by norm_num) len
    have byte := top.toNat_lt
    have magnitude : ∀ m < 0x80, ofBytes below + 256 ^ below.length * m < 0x80 * 256 ^ n := by
      intro m small
      calc ofBytes below + 256 ^ below.length * m
          < 256 ^ below.length + 256 ^ below.length * m := by omega
        _ = 256 ^ below.length * (m + 1) := by ring
        _ ≤ 256 ^ n * 0x80 := Nat.mul_le_mul width small
        _ = 0x80 * 256 ^ n := by ring
    rw [List.concat_eq_append, decode_concat]
    split_ifs with sign
    · rw [Int.natAbs_neg, Int.natAbs_natCast]
      exact magnitude _ (by omega)
    · rw [Int.natAbs_natCast]
      exact magnitude _ (by omega)

private theorem topByte_facts (b : UInt8) :
    (0x80 ≤ b.toNat → (b &&& 0x80 != 0) = true) ∧
    (b.toNat < 0x80 → b ≠ 0 → (b &&& 0x7f != 0) = true ∧ ((b ||| 0x80) &&& 0x7f != 0) = true ∧
      (b ||| 0x80).toNat = b.toNat + 0x80) := by
  have all : ∀ n : Fin 256,
      (0x80 ≤ (UInt8.ofFin n).toNat → (UInt8.ofFin n &&& 0x80 != 0) = true) ∧
      ((UInt8.ofFin n).toNat < 0x80 → UInt8.ofFin n ≠ 0 → (UInt8.ofFin n &&& 0x7f != 0) = true ∧
        ((UInt8.ofFin n ||| 0x80) &&& 0x7f != 0) = true ∧
        (UInt8.ofFin n ||| 0x80).toNat = (UInt8.ofFin n).toNat + 0x80) := by
    decide +kernel
  simpa using all b.toFin

/-- The three forms of an encoding: nothing for 0, a further byte for the sign
where the top bit is taken, and otherwise the sign in the top byte. -/
private theorem encode_cases {width : ℕ} {value : ℤ} (bound : value.natAbs < 256 ^ width) :
    (value = 0 ∧ encode width value = []) ∨
    ∃ below top, toBytes width value.natAbs = below ++ [top] ∧ top ≠ 0 ∧
      ((0x80 ≤ top.toNat ∧ encode width value = below ++ [top] ++ [if value < 0 then 0x80 else 0]) ∨
        top.toNat < 0x80 ∧
          encode width value = below ++ [if value < 0 then top ||| 0x80 else top]) := by
  unfold encode
  rcases shape : (toBytes width value.natAbs).getLast? with _ | top
  · have zero : value.natAbs = 0 := by
      rw [← ofBytes_toBytes bound, List.getLast?_eq_none_iff.mp shape]
      rfl
    exact .inl ⟨by omega, by simp [shape]⟩
  · obtain ⟨below, split⟩ := List.getLast?_eq_some_iff.mp shape
    refine .inr ⟨below, top, split, getLast_toBytes bound shape, ?_⟩
    by_cases sign : 0x80 ≤ top.toNat
    · exact .inl ⟨sign, by simp [split, sign]⟩
    · refine .inr ⟨by omega, ?_⟩
      by_cases negative : value < 0 <;> simp [split, sign, negative]

theorem decode_encode {width : ℕ} {value : ℤ} (bound : value.natAbs < 256 ^ width) :
    decode (encode width value) = value := by
  rcases encode_cases bound with ⟨rfl, empty⟩ | ⟨below, top, bytes, nonzero, form⟩
  · rw [empty, decode_nil]
  · have magnitude : ofBytes below + 256 ^ below.length * top.toNat = value.natAbs := by
      rw [← ofBytes_toBytes bound, bytes, ofBytes_append]
      simp [ofBytes]
    rcases form with ⟨_, form⟩ | ⟨low, form⟩
    · have whole : ofBytes (below ++ [top]) = value.natAbs := by
        rw [← bytes, ofBytes_toBytes bound]
      rw [form, decode_concat, whole]
      generalize size : value.natAbs = m
      by_cases negative : value < 0
      · simp [negative]
        omega
      · simp [negative]
        omega
    · rw [form, decode_concat]
      by_cases negative : value < 0
      · simp only [if_pos negative, ((topByte_facts top).2 low nonzero).2.2, Nat.add_sub_cancel,
          magnitude, le_add_iff_nonneg_left, Nat.zero_le, if_true]
        omega
      · simp only [if_neg negative, magnitude, if_neg (not_le.mpr low)]
        omega

theorem minimal_encode {width : ℕ} {value : ℤ} (bound : value.natAbs < 256 ^ width) :
    minimal (encode width value) = true := by
  rcases encode_cases bound with ⟨rfl, empty⟩ |
    ⟨below, top, bytes, nonzero, ⟨high, form⟩ | ⟨low, form⟩⟩
  · rw [empty]
    rfl
  · simp [form, minimal, (topByte_facts top).1 high]
  · obtain ⟨plain, signed, _⟩ := (topByte_facts top).2 low nonzero
    by_cases negative : value < 0
    · simp [form, minimal, negative, signed]
    · simp [form, minimal, negative, plain]

theorem length_encode_le {width n : ℕ} {value : ℤ} (bound : value.natAbs < 256 ^ width)
    (short : value.natAbs < 0x80 * 256 ^ n) : (encode width value).length ≤ n + 1 := by
  rcases encode_cases bound with ⟨rfl, empty⟩ |
    ⟨below, top, bytes, nonzero, ⟨high, form⟩ | ⟨low, form⟩⟩
  · simp [empty]
  · have magnitude : 256 ^ below.length * 0x80 ≤ value.natAbs := by
      rw [← ofBytes_toBytes bound, bytes, ofBytes_append]
      calc 256 ^ below.length * 0x80 ≤ 256 ^ below.length * top.toNat := Nat.mul_le_mul_left _ high
        _ ≤ ofBytes below + 256 ^ below.length * ofBytes [top] := by simp [ofBytes]
    have fewer : 256 ^ below.length < 256 ^ n := by omega
    have := (Nat.pow_lt_pow_iff_right (by norm_num : 1 < 256)).mp fewer
    simp [form]
    omega
  · have wide : value.natAbs < 256 ^ (n + 1) := by
      rw [pow_succ]
      omega
    have fewer := @length_toBytes_le width _ _ wide
    rw [bytes] at fewer
    simpa [form] using fewer

end DigiByte.Library.SignMagnitude
