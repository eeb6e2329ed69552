import DigiByte.Library.Arrivals
import DigiByte.Library.Overlay

/-!
A map with ordered keys, as the list of its entries in increasing order.
-/

set_option autoImplicit false
set_option relaxedAutoImplicit false

namespace DigiByte.Library

open Overlay (Increasing)
open Arrivals (Agree lookup_of_mem mem_of_lookup)

structure OrderedMap (κ β : Type) [LinearOrder κ] where
  entries : List (κ × β)
  increasing : Increasing entries

namespace OrderedMap

variable {κ β : Type} [LinearOrder κ]

@[ext] theorem ext {m m' : OrderedMap κ β} (same : m.entries = m'.entries) : m = m' := by
  cases m
  cases m'
  cases same
  rfl

def empty : OrderedMap κ β := ⟨[], .nil⟩

def find (m : OrderedMap κ β) (key : κ) : Option β := m.entries.lookup key

def size (m : OrderedMap κ β) : ℕ := m.entries.length

/-- The entry of the greatest key. -/
def last (m : OrderedMap κ β) : Option (κ × β) := m.entries.getLast?

def filter (m : OrderedMap κ β) (p : κ × β → Bool) : OrderedMap κ β :=
  ⟨m.entries.filter p, m.increasing.filter p⟩

def erase (m : OrderedMap κ β) (key : κ) : OrderedMap κ β := m.filter fun entry => entry.1 ≠ key

def assign (m : OrderedMap κ β) (key : κ) (value : β) : OrderedMap κ β where
  entries := m.entries.filter (fun entry => entry.1 < key) ++
    (key, value) :: m.entries.filter fun entry => key < entry.1
  increasing := by
    refine List.pairwise_append.mpr ⟨m.increasing.filter _,
      List.pairwise_cons.mpr ⟨?_, m.increasing.filter _⟩, ?_⟩
    · intro entry member
      simpa using (List.mem_filter.mp member).2
    · intro a memberA b memberB
      have below : a.1 < key := by simpa using (List.mem_filter.mp memberA).2
      rcases List.mem_cons.mp memberB with rfl | above
      · exact below
      · have above : key < b.1 := by simpa using (List.mem_filter.mp above).2
        exact below.trans above

section Find

variable (m : OrderedMap κ β) {key other : κ} {value : β}

theorem agree : Agree m.entries := fun _ _ _ first second => m.increasing.value_eq first second

theorem find_eq_some_iff : m.find key = some value ↔ (key, value) ∈ m.entries :=
  ⟨mem_of_lookup, lookup_of_mem m.agree⟩

theorem ext_find {m' : OrderedMap κ β} (same : ∀ key, m.find key = m'.find key) : m = m' := by
  apply ext
  apply m.increasing.ext m'.increasing
  intro key value
  rw [← find_eq_some_iff, ← find_eq_some_iff, same]

theorem find_filter {p : κ × β → Bool} : (m.filter p).find key = (m.find key).filter fun value =>
    p (key, value) := by
  apply Option.ext
  intro found
  rw [find_eq_some_iff, Option.filter_eq_some_iff, find_eq_some_iff]
  exact List.mem_filter

theorem find_assign : (m.assign key value).find other = if other = key then some value
    else m.find other := by
  apply Option.ext
  intro found
  rw [find_eq_some_iff]
  by_cases same : other = key
  · subst same
    simp [assign, eq_comm]
  · rw [if_neg same, find_eq_some_iff]
    simp only [assign, List.mem_append, List.mem_cons, List.mem_filter, decide_eq_true_eq,
      Prod.mk.injEq, same, false_and, false_or]
    rw [← and_or_left]
    exact and_iff_left (lt_or_gt_of_ne same)

end Find

/-! A key above all others. -/

section Above

variable {m : OrderedMap κ β} {key : κ} (above : ∀ entry ∈ m.entries, entry.1 < key)

include above

theorem entries_assign_above
    (value : β) : (m.assign key value).entries = m.entries ++ [(key, value)] := by
  have lower : m.entries.filter (fun entry => entry.1 < key) = m.entries :=
    List.filter_eq_self.mpr fun entry member => decide_eq_true (above entry member)
  have upper : m.entries.filter (fun entry => key < entry.1) = [] :=
    List.filter_eq_nil_iff.mpr fun entry member => by simpa using (above entry member).le
  simp only [assign, lower, upper]

theorem size_assign_above (value : β) : (m.assign key value).size = m.size + 1 := by
  rw [size, entries_assign_above above, List.length_append]
  rfl

theorem last_assign_above (value : β) : (m.assign key value).last = some (key, value) := by
  rw [last, entries_assign_above above, List.getLast?_append]
  rfl

theorem assign_below (value : β) {bound : κ} (higher : key < bound) :
    ∀ entry ∈ (m.assign key value).entries, entry.1 < bound := by
  intro entry member
  rw [entries_assign_above above, List.mem_append, List.mem_singleton] at member
  rcases member with old | rfl
  · exact (above entry old).trans higher
  · exact higher

theorem find_above : m.find key = none := by
  cases found : m.find key with
  | none => rfl
  | some value => exact absurd (above _ ((find_eq_some_iff m).mp found)) (lt_irrefl key)

theorem erase_assign_above (value : β) : (m.assign key value).erase key = m := by
  apply ext
  simp only [erase, filter, entries_assign_above above, List.filter_append]
  rw [List.filter_eq_self.mpr fun entry member => by simpa using (above entry member).ne]
  simp

end Above

end OrderedMap

end DigiByte.Library
