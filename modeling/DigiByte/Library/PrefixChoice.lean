import Mathlib.Algebra.Order.BigOperators.Group.List
import Mathlib.Algebra.Order.Ring.Int
import Mathlib.Data.List.Perm.Subperm

/-!
Paying a target with a prefix of a list of amounts, where an excess must not fall into a
forbidden gap. At one target the prefixes can miss an exact choice only, and only where the
sum of all amounts falls into the gap. At all targets the prefixes of a sorted list pay
whatever any choice pays exactly if no amount is smaller than the gap, or if all are equal.
-/

set_option autoImplicit false
set_option relaxedAutoImplicit false

namespace DigiByte.Library.PrefixChoice

/-- The excess of a total over a target is zero or at least the gap. -/
def Pays (gap target total : ℤ) : Prop :=
  target ≤ total ∧ (total - target = 0 ∨ gap ≤ total - target)

instance Pays.decidable (gap target total : ℤ) : Decidable (Pays gap target total) :=
  inferInstanceAs (Decidable (_ ∧ _))

variable {l chosen : List ℤ} {gap target : ℤ}

theorem prefix_pays_iff (positive : ∀ x ∈ l, 0 < x) :
    ((∃ chosen : List ℤ, chosen.Subperm l ∧ Pays gap target chosen.sum) →
      ∃ n, Pays gap target (l.take n).sum) ↔
    ¬(0 < l.sum - target ∧ l.sum - target < gap) ∨
      (∀ chosen : List ℤ, chosen.Subperm l → chosen.sum ≠ target) ∨
      ∃ n, (l.take n).sum = target := by
  have nonneg : ∀ x ∈ l, 0 ≤ x := fun x member => (positive x member).le
  constructor
  · intro complete
    by_contra missed
    push Not at missed
    obtain ⟨⟨above, below⟩, ⟨chosen, sub, matched⟩, no_prefix⟩ := missed
    obtain ⟨n, pays⟩ := complete ⟨chosen, sub, by simp [Pays, matched]⟩
    -- In the gap of the whole sum a prefix could only pay exactly.
    have within : (l.take n).sum ≤ l.sum := (List.take_sublist n l).sum_le_sum nonneg
    have other := no_prefix n
    unfold Pays at pays
    omega
  · rintro condition ⟨chosen, sub, pays⟩
    obtain ⟨inside, same, sublist⟩ := sub
    have within : chosen.sum ≤ l.sum := by
      rw [← same.sum_eq]
      exact sublist.sum_le_sum nonneg
    unfold Pays at pays ⊢
    rcases condition with outside | unmatched | ⟨n, matched⟩
    · refine ⟨l.length, ?_⟩
      rw [List.take_length]
      omega
    · have other := unmatched chosen ⟨inside, same, sublist⟩
      refine ⟨l.length, ?_⟩
      rw [List.take_length]
      omega
    · exact ⟨n, by omega⟩

private theorem sum_add_le_of_subperm (positive : ∀ x ∈ l, 0 < x) (large : ∀ x ∈ l, gap ≤ x)
    (sub : chosen.Subperm l) :
    chosen.sum = l.sum ∨ chosen.sum < l.sum ∧ chosen.sum + gap ≤ l.sum := by
  obtain ⟨inside, same, sublist⟩ := sub
  obtain ⟨rest, perm⟩ := sublist.exists_perm_append
  have total : l.sum = chosen.sum + rest.sum := by rw [perm.sum_eq, List.sum_append, same.sum_eq]
  cases rest with
  | nil => simp_all
  | cons x rest =>
    have member : ∀ y ∈ x :: rest, y ∈ l := by
      intro y listed
      exact perm.mem_iff.mpr (List.mem_append_right _ listed)
    have first := large x (member x (by simp))
    have first' := positive x (member x (by simp))
    have later : 0 ≤ rest.sum := by
      apply List.sum_nonneg
      intro y listed
      exact (positive y (member y (by simp [listed]))).le
    rw [List.sum_cons] at total
    omega

private theorem pays_of_large (positive : ∀ x ∈ l, 0 < x) (large : ∀ x ∈ l, gap ≤ x)
    (sub : chosen.Subperm l) (pays : Pays gap target chosen.sum) : Pays gap target l.sum := by
  unfold Pays at pays ⊢
  rcases sum_add_le_of_subperm positive large sub with same | less
  · rw [← same]
    exact pays
  · omega

private theorem take_of_equal {amount : ℤ} (equal : ∀ x ∈ l, x = amount) (sub : chosen.Subperm l) :
    (l.take chosen.length).sum = chosen.sum := by
  have all : l = List.replicate l.length amount := List.eq_replicate_iff.mpr ⟨rfl, equal⟩
  have chosen_all : chosen = List.replicate chosen.length amount :=
    List.eq_replicate_iff.mpr ⟨rfl, fun x member => equal x (sub.subset member)⟩
  have short := sub.length_le
  conv_lhs => rw [all, List.take_replicate, min_eq_left short]
  conv_rhs => rw [chosen_all]

private theorem equal_of_pays_tail {x : ℤ} {rest : List ℤ} {n : ℕ}
    (positive : ∀ y ∈ x :: rest, 0 < y) (sorted : (x :: rest).Pairwise (· ≤ ·)) (small : x < gap)
    (pays : Pays gap rest.sum ((x :: rest).take n).sum) : ∀ y ∈ x :: rest, y = x := by
  have least : ∀ y ∈ x :: rest, x ≤ y := by
    intro y member
    rcases List.mem_cons.mp member with rfl | member
    · exact le_rfl
    · exact (List.pairwise_cons.mp sorted).1 y member
  have total : ((x :: rest).take n).sum + ((x :: rest).drop n).sum = x + rest.sum := by
    rw [← List.sum_append, List.take_append_drop, List.sum_cons]
  have left_out_nonneg : 0 ≤ ((x :: rest).drop n).sum := by
    apply List.sum_nonneg
    intro y member
    exact (positive y (List.mem_of_mem_drop member)).le
  -- The excess is below the gap, so the prefix leaves out exactly one smallest amount.
  have left_out : ((x :: rest).drop n).sum = x := by
    unfold Pays at pays
    omega
  have parts := List.take_append_drop n (x :: rest)
  cases after : (x :: rest).drop n with
  | nil =>
    have first := positive x (by simp)
    rw [after, List.sum_nil] at left_out
    omega
  | cons y later =>
    rw [after, List.sum_cons] at left_out
    rw [after] at parts
    have listed : ∀ z ∈ y :: later, z ∈ x :: rest := by
      intro z member
      rw [← parts]
      exact List.mem_append_right _ member
    have y_least := least y (listed y (by simp))
    have none_later : later = [] := by
      by_contra more
      have later_pos : 0 < later.sum :=
        List.sum_pos later (fun z member => positive z (listed z (by simp [member]))) more
      omega
    subst none_later
    rw [List.sum_nil] at left_out
    -- The last amount is a smallest one.
    intro z member
    have z_least := least z member
    rw [← parts] at member sorted
    rcases List.mem_append.mp member with member | member
    · have z_most := (List.pairwise_append.mp sorted).2.2 z member y (by simp)
      omega
    · rw [List.mem_singleton] at member
      omega

/-- A sorted list pays by prefixes whatever its choices pay exactly if no amount is
below the gap or all amounts are equal. -/
theorem prefixes_complete_iff (positive : ∀ x ∈ l, 0 < x) (sorted : l.Pairwise (· ≤ ·)) :
    (∀ target, 0 < target → (∃ chosen : List ℤ, chosen.Subperm l ∧ Pays gap target chosen.sum) →
      ∃ n, Pays gap target (l.take n).sum) ↔
    (∀ x ∈ l, gap ≤ x) ∨ ∀ x ∈ l, ∀ y ∈ l, x = y := by
  constructor
  · intro complete
    by_contra neither
    push Not at neither
    obtain ⟨⟨small, small_listed, below⟩, a, a_listed, c, c_listed, differ⟩ := neither
    cases l with
    | nil => cases a_listed
    | cons x rest =>
      have x_small : x < gap := by
        rcases List.mem_cons.mp small_listed with rfl | later
        · exact below
        · have := (List.pairwise_cons.mp sorted).1 small later
          omega
      have more : rest ≠ [] := by
        rintro rfl
        rw [List.mem_singleton] at a_listed c_listed
        exact differ (a_listed.trans c_listed.symm)
      have target_pos : 0 < rest.sum :=
        List.sum_pos rest (fun y member => positive y (by simp [member])) more
      obtain ⟨n, pays⟩ := complete rest.sum target_pos
        ⟨rest, (List.sublist_cons_self x rest).subperm, le_rfl, .inl (sub_self _)⟩
      have equal := equal_of_pays_tail positive sorted x_small pays
      exact differ ((equal a a_listed).trans (equal c c_listed).symm)
  · rintro (large | equal) target _ ⟨chosen, sub, pays⟩
    · refine ⟨l.length, ?_⟩
      rw [List.take_length]
      exact pays_of_large positive large sub pays
    · refine ⟨chosen.length, ?_⟩
      cases l with
      | nil =>
        have nothing : chosen = [] := List.subperm_nil.mp sub
        subst nothing
        exact pays
      | cons x rest =>
        rw [take_of_equal (fun y member => equal y member x (by simp)) sub]
        exact pays

end DigiByte.Library.PrefixChoice
