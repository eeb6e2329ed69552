import Mathlib.Data.List.Pairwise
import Mathlib.Data.List.Sort

/-!
Ranks in sorted lists by counting: how many entries can be below or above the entry at an
index, of the list itself and of the part of it that an interval keeps.
-/

set_option autoImplicit false
set_option relaxedAutoImplicit false

namespace DigiByte.Library.RankBounds

section Sorted

variable {α : Type} [LinearOrder α] {l : List α}

theorem countP_lt_getElem_le (sorted : l.Pairwise (· ≤ ·)) {i : ℕ} (inside : i < l.length) :
    (l.countP fun x => x < l[i]) ≤ i := by
  have behind : ((l.drop i).countP fun x => x < l[i]) = 0 := by
    rw [List.countP_eq_zero]
    intro x member
    obtain ⟨j, within, rfl⟩ := List.getElem_of_mem member
    rw [List.getElem_drop, decide_eq_true_eq, not_lt]
    rw [List.length_drop] at within
    exact sorted.rel_get_of_le (show (⟨i, inside⟩ : Fin l.length) ≤
      ⟨i + j, by omega⟩ from Nat.le_add_right i j)
  calc (l.countP fun x => x < l[i])
      = ((l.take i).countP fun x => x < l[i]) + ((l.drop i).countP fun x => x < l[i]) := by
        rw [← List.countP_append, List.take_append_drop]
    _ ≤ (l.take i).length := by
        rw [behind]
        exact List.countP_le_length
    _ ≤ i := by
        rw [List.length_take]
        exact min_le_left i l.length

theorem countP_gt_getElem_le (sorted : l.Pairwise (· ≤ ·)) {i : ℕ} (inside : i < l.length) :
    (l.countP fun x => l[i] < x) ≤ l.length - 1 - i := by
  have upTo : ((l.take (i + 1)).countP fun x => l[i] < x) = 0 := by
    rw [List.countP_eq_zero]
    intro x member
    obtain ⟨j, within, rfl⟩ := List.getElem_of_mem member
    rw [List.getElem_take, decide_eq_true_eq, not_lt]
    rw [List.length_take] at within
    exact sorted.rel_get_of_le (show (⟨j, by omega⟩ : Fin l.length) ≤
      ⟨i, inside⟩ from by simp; omega)
  calc (l.countP fun x => l[i] < x)
      = ((l.take (i + 1)).countP fun x => l[i] < x) +
        ((l.drop (i + 1)).countP fun x => l[i] < x) := by
        rw [← List.countP_append, List.take_append_drop]
    _ ≤ (l.drop (i + 1)).length := by
        rw [upTo, Nat.zero_add]
        exact List.countP_le_length
    _ = l.length - 1 - i := by
        rw [List.length_drop]
        omega

end Sorted

section Interval

variable {α : Type} [LinearOrder α] {lower upper : α} (l : List α)

/-- The entries in a closed interval. -/
def within (lower upper : α) (l : List α) : List α := l.filter fun x => lower ≤ x ∧ x ≤ upper

def countBelow (lower : α) (l : List α) : ℕ := l.countP fun x => x < lower

def countAbove (upper : α) (l : List α) : ℕ := l.countP fun x => upper < x

theorem length_eq_within (proper : lower ≤ upper) :
    l.length = (within lower upper l).length + countBelow lower l + countAbove upper l := by
  induction l with
  | nil => rfl
  | cons x rest ih =>
    unfold within countBelow countAbove at ih ⊢
    rw [List.length_cons, List.filter_cons, List.countP_cons, List.countP_cons, ih]
    rcases lt_or_ge x lower with low | notLow
    · have notHigh : ¬ upper < x := not_lt.mpr (le_of_lt (lt_of_lt_of_le low proper))
      simp [low, notHigh, not_le.mpr low]
      omega
    · rcases lt_or_ge upper x with high | notHigh
      · simp [high, not_lt.mpr notLow, not_le.mpr high]
        omega
      · simp [notLow, notHigh, not_lt.mpr notLow, not_lt.mpr notHigh]
        omega

private theorem bounds_of_mem_within {x : α} (kept : x ∈ within lower upper l) :
    lower ≤ x ∧ x ≤ upper := by
  simpa using (List.mem_filter.mp kept).2

private theorem countP_le_within {p cut : α → Bool}
    (outside : ∀ x, p x = true → ¬ (lower ≤ x ∧ x ≤ upper) → cut x = true) :
    l.countP p ≤ (within lower upper l).countP p + l.countP cut := by
  rw [List.countP_eq_countP_filter_add l p fun x => decide (lower ≤ x ∧ x ≤ upper)]
  apply Nat.add_le_add_left
  rw [List.countP_filter]
  apply List.countP_mono_left
  intro x _ both
  simp only [Bool.and_eq_true, Bool.not_eq_true', decide_eq_false_iff_not] at both
  exact outside x both.1 both.2

theorem countP_lt_within (sorted : l.Pairwise (· ≤ ·)) {k : ℕ}
    (inside : k < (within lower upper l).length) :
    (l.countP fun x => x < (within lower upper l)[k]) ≤ k + countBelow lower l := by
  have bounds := bounds_of_mem_within l (List.getElem_mem inside)
  refine (countP_le_within l ?_).trans
    (Nat.add_le_add_right (countP_lt_getElem_le (sorted.filter _) inside) _)
  intro x below cutOff
  simp only [decide_eq_true_eq] at below ⊢
  by_contra notLow
  exact cutOff ⟨not_lt.mp notLow, le_of_lt (lt_of_lt_of_le below bounds.2)⟩

theorem countP_gt_within (sorted : l.Pairwise (· ≤ ·)) {k : ℕ}
    (inside : k < (within lower upper l).length) :
    (l.countP fun x => (within lower upper l)[k] < x) ≤
    (within lower upper l).length - 1 - k + countAbove upper l := by
  have bounds := bounds_of_mem_within l (List.getElem_mem inside)
  refine (countP_le_within l ?_).trans
    (Nat.add_le_add_right (countP_gt_getElem_le (sorted.filter _) inside) _)
  intro x above cutOff
  simp only [decide_eq_true_eq] at above ⊢
  by_contra notHigh
  exact cutOff ⟨le_of_lt (lt_of_le_of_lt bounds.1 above), not_lt.mp notHigh⟩

end Interval

section LowerMedian

variable {α : Type} [LinearOrder α] {l : List α} {x lower upper : α}

/-- The value at rank `(k - 1) / 2` of `k` entries: at most that many are below it, and more
than that many are at most it. -/
def IsLowerMedian (x : α) (l : List α) : Prop :=
  (l.countP fun y => y < x) ≤ (l.length - 1) / 2 ∧ (l.length - 1) / 2 < l.countP fun y => y ≤ x

theorem isLowerMedian_insertionSort (some_entry : 0 < l.length) (default : α) :
    IsLowerMedian ((l.insertionSort (· ≤ ·)).getD ((l.length - 1) / 2) default) l := by
  have perm := List.perm_insertionSort (· ≤ ·) l
  have sorted : (l.insertionSort (· ≤ ·)).Pairwise (· ≤ ·) := List.pairwise_insertionSort (· ≤ ·) l
  have length := perm.length_eq
  have inside : (l.length - 1) / 2 < (l.insertionSort (· ≤ ·)).length := by omega
  have below := countP_lt_getElem_le sorted inside
  have above := countP_gt_getElem_le sorted inside
  rw [perm.countP_eq] at below above
  rw [length] at above
  rw [List.getD_eq_getElem?_getD, List.getElem?_eq_getElem inside, Option.getD_some]
  generalize (l.insertionSort (· ≤ ·))[(l.length - 1) / 2] = x at below above ⊢
  have total : l.length = (l.countP fun y => y ≤ x) + l.countP fun y => x < y := by
    rw [List.length_eq_countP_add_countP fun y => decide (y ≤ x)]
    simp only [decide_eq_true_eq, not_le]
  constructor
  · exact below
  · omega

theorem IsLowerMedian.exists_le (median : IsLowerMedian x l) : ∃ y ∈ l, y ≤ x := by
  obtain ⟨y, member, atMost⟩ := List.countP_pos_iff.mp (Nat.zero_lt_of_lt median.2)
  exact ⟨y, member, of_decide_eq_true atMost⟩

theorem IsLowerMedian.mem_interval (median : IsLowerMedian x l)
    (few : (l.countP fun y => ¬ (lower ≤ y ∧ y ≤ upper)) ≤ (l.length - 1) / 2) :
    lower ≤ x ∧ x ≤ upper := by
  obtain ⟨below, upTo⟩ := median
  constructor
  · by_contra low
    have outside : (l.countP fun y => y ≤ x) ≤ l.countP fun y => ¬ (lower ≤ y ∧ y ≤ upper) := by
      apply List.countP_mono_left
      intro y _ small
      rw [decide_eq_true_eq] at small ⊢
      intro inside
      exact low (inside.1.trans small)
    omega
  · by_contra high
    have outside : (l.countP fun y => x ≤ y) ≤ l.countP fun y => ¬ (lower ≤ y ∧ y ≤ upper) := by
      apply List.countP_mono_left
      intro y _ large
      rw [decide_eq_true_eq] at large ⊢
      intro inside
      exact high (large.trans inside.2)
    have total : l.length = (l.countP fun y => y < x) + l.countP fun y => x ≤ y := by
      rw [List.length_eq_countP_add_countP fun y => decide (y < x)]
      simp only [decide_eq_true_eq, not_lt]
    have upToAll : (l.countP fun y => y ≤ x) ≤ l.length := List.countP_le_length
    omega

end LowerMedian

theorem exists_not_of_countP_lt {α : Type} {l : List α} {honest p : α → Bool}
    (fewer : l.countP p < l.countP honest) : ∃ x ∈ l, honest x = true ∧ p x = false := by
  by_contra none
  have all : ∀ x ∈ l, honest x = true → p x = true := by
    intro x member good
    by_contra bad
    exact none ⟨x, member, good, Bool.eq_false_of_not_eq_true bad⟩
  exact absurd (List.countP_mono_left all) (not_le.mpr fewer)

end DigiByte.Library.RankBounds
