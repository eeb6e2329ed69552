import Mathlib.Algebra.Order.Group.Nat
import Mathlib.Tactic.Ring

/-!
The greatest number with a property that smaller numbers inherit, found bit by bit from the
highest one.
-/

set_option autoImplicit false
set_option relaxedAutoImplicit false

namespace DigiByte.Library.BitSearch

/-- The search over the bits below `i`. -/
def search (p : ℕ → Bool) : ℕ → ℕ → ℕ
  | 0, found => found
  | i + 1, found => search p i (if p (found + 2 ^ i) then found + 2 ^ i else found)

/-- The numbers that the search tries. -/
def tried (p : ℕ → Bool) : ℕ → ℕ → List ℕ
  | 0, _ => []
  | i + 1, found =>
    (found + 2 ^ i) :: tried p i (if p (found + 2 ^ i) then found + 2 ^ i else found)

section Search

variable {p : ℕ → Bool}

theorem tried_lt : ∀ {i found m : ℕ}, m ∈ tried p i found → m < found + 2 ^ i
  | 0, _, _, member => by simp [tried] at member
  | i + 1, found, m, member => by
    have half : (2 : ℕ) ^ (i + 1) = 2 ^ i + 2 ^ i := by ring
    have positive := Nat.two_pow_pos i
    rcases List.mem_cons.mp member with rfl | later
    · omega
    · have bounded := tried_lt later
      split at bounded <;> omega

theorem search_spec : ∀ (i : ℕ) {found : ℕ}, p found = true →
    p (search p i found) = true ∧ found ≤ search p i found ∧ search p i found < found + 2 ^ i
  | 0, found, holds => ⟨holds, le_rfl, by simp [search]⟩
  | i + 1, found, holds => by
    have half : (2 : ℕ) ^ (i + 1) = 2 ^ i + 2 ^ i := by ring
    rw [search]
    cases upper : p (found + 2 ^ i) with
    | true =>
      obtain ⟨kept, above, below⟩ := search_spec i upper
      rw [if_pos rfl]
      exact ⟨kept, by omega, by omega⟩
    | false =>
      obtain ⟨kept, above, below⟩ := search_spec i holds
      rw [if_neg Bool.false_ne_true]
      exact ⟨kept, above, by omega⟩

theorem search_greatest (inherited : ∀ {a b : ℕ}, a ≤ b → p b = true → p a = true) :
    ∀ (i : ℕ) {found m : ℕ}, search p i found < m → m < found + 2 ^ i → p m = false
  | 0, _, _, above, below => by
    simp only [search] at above
    simp only [pow_zero] at below
    omega
  | i + 1, found, m, above, below => by
    have half : (2 : ℕ) ^ (i + 1) = 2 ^ i + 2 ^ i := by ring
    rw [search] at above
    cases upper : p (found + 2 ^ i) with
    | true =>
      rw [upper, if_pos rfl] at above
      exact search_greatest inherited i above (by omega)
    | false =>
      rw [upper, if_neg Bool.false_ne_true] at above
      rcases Nat.lt_or_ge m (found + 2 ^ i) with low | high
      · exact search_greatest inherited i above low
      · -- the tried number failed, and everything from it on fails with it
        cases holds : p m with
        | false => rfl
        | true => rw [inherited high holds] at upper; cases upper

end Search

end DigiByte.Library.BitSearch
