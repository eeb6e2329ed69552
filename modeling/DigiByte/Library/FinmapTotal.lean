import Mathlib.Data.Finmap
import Mathlib.Algebra.BigOperators.Group.Multiset.Basic
import Mathlib.Algebra.BigOperators.Group.List.Basic

/-!
Totals over finite maps: the sum of a weight over all entries, and how it moves
when keys are removed and fresh entries are added.
-/

set_option autoImplicit false
set_option relaxedAutoImplicit false

namespace DigiByte.Library.FinmapTotal

universe u v w

variable {κ : Type u} {α : Type v} {M : Type w} [DecidableEq κ] [AddCommMonoid M]

/-- The sum of the weights of all entries. -/
def total (weight : κ → α → M) (s : Finmap fun _ : κ => α) : M :=
  (s.entries.map fun e => weight e.1 e.2).sum

/-- The weight held at one key, 0 when the key is absent. -/
def weightAt (weight : κ → α → M) (s : Finmap fun _ : κ => α) (k : κ) : M :=
  match s.lookup k with
  | some a => weight k a
  | none => 0

def eraseAll (s : Finmap fun _ : κ => α) : List κ → Finmap fun _ : κ => α
  | [] => s
  | k :: ks => eraseAll (s.erase k) ks

def insertAll (s : Finmap fun _ : κ => α) : List (κ × α) → Finmap fun _ : κ => α
  | [] => s
  | e :: es => insertAll (s.insert e.1 e.2) es

/-! Lookups. -/

theorem lookup_eraseAll (s : Finmap fun _ : κ => α) (ks : List κ) (k : κ) :
    (eraseAll s ks).lookup k = if k ∈ ks then none else s.lookup k := by
  induction ks generalizing s with
  | nil => rfl
  | cons k' ks ih =>
    rw [eraseAll, ih]
    by_cases here : k = k'
    · subst here
      simp
    · simp [here, Finmap.lookup_erase_ne here]

theorem lookup_insertAll_of_notMem {s : Finmap fun _ : κ => α} {es : List (κ × α)} {k : κ}
    (absent : k ∉ es.map Prod.fst) : (insertAll s es).lookup k = s.lookup k := by
  induction es generalizing s with
  | nil => rfl
  | cons e es ih =>
    simp only [List.map_cons, List.mem_cons, not_or] at absent
    rw [insertAll, ih absent.2, Finmap.lookup_insert_of_ne _ absent.1]

theorem lookup_insertAll_of_mem {s : Finmap fun _ : κ => α} {es : List (κ × α)}
    (distinct : (es.map Prod.fst).Nodup) {k : κ} {a : α} (member : (k, a) ∈ es) :
    (insertAll s es).lookup k = some a := by
  induction es generalizing s with
  | nil => simp at member
  | cons e es ih =>
    simp only [List.map_cons, List.nodup_cons] at distinct
    rcases List.mem_cons.mp member with rfl | later
    · rw [insertAll, lookup_insertAll_of_notMem distinct.1, Finmap.lookup_insert]
    · exact ih distinct.2 later

theorem lookup_insertAll_cases {s : Finmap fun _ : κ => α} {es : List (κ × α)} {k : κ} {a : α}
    (distinct : (es.map Prod.fst).Nodup) (found : (insertAll s es).lookup k = some a) :
    (k, a) ∈ es ∨ s.lookup k = some a := by
  by_cases absent : k ∈ es.map Prod.fst
  · obtain ⟨⟨k', a'⟩, member, rfl⟩ := List.mem_map.mp absent
    rw [lookup_insertAll_of_mem distinct member] at found
    cases found
    exact .inl member
  · rw [lookup_insertAll_of_notMem absent] at found
    exact .inr found

theorem eraseAll_insertAll {s : Finmap fun _ : κ => α} {es : List (κ × α)}
    (fresh : ∀ e ∈ es, s.lookup e.1 = none) : eraseAll (insertAll s es) (es.map Prod.fst) = s := by
  refine Finmap.ext_lookup fun k => ?_
  rw [lookup_eraseAll]
  split_ifs with member
  · obtain ⟨e, listed, rfl⟩ := List.mem_map.mp member
    exact (fresh e listed).symm
  · exact lookup_insertAll_of_notMem member

theorem insertAll_eraseAll {s : Finmap fun _ : κ => α} {ks : List κ} {es : List (κ × α)}
    (distinct : (es.map Prod.fst).Nodup) (same : ∀ k, k ∈ ks ↔ k ∈ es.map Prod.fst)
    (held : ∀ e ∈ es, s.lookup e.1 = some e.2) : insertAll (eraseAll s ks) es = s := by
  refine Finmap.ext_lookup fun k => ?_
  by_cases member : k ∈ es.map Prod.fst
  · obtain ⟨e, listed, rfl⟩ := List.mem_map.mp member
    rw [lookup_insertAll_of_mem distinct listed, held e listed]
  · rw [lookup_insertAll_of_notMem member, lookup_eraseAll,
      if_neg fun k_mem => member ((same k).mp k_mem)]

/-! Totals. -/

theorem total_congr {weight weight' : κ → α → M} {s : Finmap fun _ : κ => α}
    (same : ∀ k a, s.lookup k = some a → weight k a = weight' k a) :
    total weight s = total weight' s := by
  unfold total
  congr 1
  refine Multiset.map_congr rfl ?_
  rintro ⟨k, a⟩ member
  exact same k a (Finmap.lookup_eq_some_iff.mpr member)

theorem total_eq_zero {weight : κ → α → M} {s : Finmap fun _ : κ => α}
    (vanish : ∀ k a, s.lookup k = some a → weight k a = 0) : total weight s = 0 := by
  rw [total_congr vanish]
  simp [total]

theorem total_insert (weight : κ → α → M) {s : Finmap fun _ : κ => α} {k : κ} {a : α}
    (fresh : k ∉ s) : total weight (s.insert k a) = weight k a + total weight s := by
  simp [total, Finmap.entries_insert_of_notMem fresh]

theorem total_erase (weight : κ → α → M) {s : Finmap fun _ : κ => α} {k : κ} {a : α}
    (held : s.lookup k = some a) : total weight s = weight k a + total weight (s.erase k) := by
  have restored : (s.erase k).insert k a = s := by
    refine Finmap.ext_lookup fun k' => ?_
    by_cases here : k' = k
    · subst here
      rw [Finmap.lookup_insert, held]
    · rw [Finmap.lookup_insert_of_ne _ here, Finmap.lookup_erase_ne here]
  rw [← total_insert weight Finmap.notMem_erase_self, restored]

theorem total_eraseAll (weight : κ → α → M) {s : Finmap fun _ : κ => α} {ks : List κ}
    (distinct : ks.Nodup) (present : ∀ k ∈ ks, k ∈ s) :
    total weight s = (ks.map (weightAt weight s)).sum + total weight (eraseAll s ks) := by
  induction ks generalizing s with
  | nil => simp [eraseAll]
  | cons k ks ih =>
    obtain ⟨absent, distinct⟩ := List.nodup_cons.mp distinct
    have apart : ∀ k' ∈ ks, k' ≠ k := fun k' member same => absent (same ▸ member)
    obtain ⟨a, held⟩ := Finmap.mem_iff.mp (present k (by simp))
    have kept : ks.map (weightAt weight s) = ks.map (weightAt weight (s.erase k)) :=
      List.map_congr_left fun k' member => by
        simp only [weightAt, Finmap.lookup_erase_ne (apart k' member)]
    have rest := ih distinct fun k' member =>
      Finmap.mem_erase.mpr ⟨apart k' member, present k' (by simp [member])⟩
    have first : weightAt weight s k = weight k a := by simp [weightAt, held]
    rw [total_erase weight held, rest, eraseAll, List.map_cons, List.sum_cons, first, kept,
      add_assoc]

theorem total_insertAll (weight : κ → α → M) {s : Finmap fun _ : κ => α} {es : List (κ × α)}
    (distinct : (es.map Prod.fst).Nodup) (fresh : ∀ e ∈ es, e.1 ∉ s) :
    total weight (insertAll s es) = (es.map fun e => weight e.1 e.2).sum + total weight s := by
  induction es generalizing s with
  | nil => simp [insertAll]
  | cons e es ih =>
    simp only [List.map_cons, List.nodup_cons] at distinct
    have apart : ∀ e' ∈ es, e'.1 ∉ s.insert e.1 e.2 := by
      intro e' member
      rw [Finmap.mem_insert, not_or]
      refine ⟨fun same => distinct.1 ?_, fresh e' (by simp [member])⟩
      exact same ▸ List.mem_map_of_mem member
    rw [insertAll, ih distinct.2 apart, total_insert weight (fresh e (by simp)), List.map_cons,
      List.sum_cons]
    ac_rfl

end DigiByte.Library.FinmapTotal
