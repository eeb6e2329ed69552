import Mathlib.Data.List.Sort
import Mathlib.Order.Basic

/-!
Sorted changes laid over a sorted base.

The base maps keys to values. A change gives its key a new value or takes the key away.
-/

set_option autoImplicit false
set_option relaxedAutoImplicit false

namespace DigiByte.Library.Overlay

variable {κ β : Type} [LinearOrder κ]

/-- Strictly increasing keys. -/
def Increasing {γ : Type} (entries : List (κ × γ)) : Prop := entries.Pairwise fun a b => a.1 < b.1

/-- The base with the changes laid over it, in increasing order of the keys. -/
structure Merged (base : List (κ × β)) (changes : List (κ × Option β))
    (result : List (κ × β)) : Prop where
  increasing : Increasing result
  mem_iff : ∀ key value, (key, value) ∈ result ↔
    (key, some value) ∈ changes ∨ (key, value) ∈ base ∧ ∀ change, (key, change) ∉ changes

section Increasing

variable {γ : Type} {entries entries' : List (κ × γ)} {key : κ} {value : γ}

theorem increasing_cons : Increasing ((key, value) :: entries) ↔
    (∀ entry ∈ entries, key < entry.1) ∧ Increasing entries := List.pairwise_cons

theorem Increasing.value_eq {value' : γ} (increasing : Increasing entries)
    (member : (key, value) ∈ entries) (member' : (key, value') ∈ entries) : value = value' := by
  induction entries with
  | nil => cases member
  | cons entry rest ih =>
    obtain ⟨above, increasing'⟩ := increasing_cons.mp increasing
    rcases List.mem_cons.mp member with rfl | later
    · rcases List.mem_cons.mp member' with same | later'
      · exact (Prod.mk.inj same).2.symm
      · exact absurd (above _ later') (lt_irrefl key)
    · rcases List.mem_cons.mp member' with rfl | later'
      · exact absurd (above _ later) (lt_irrefl key)
      · exact ih increasing' later later'

theorem Increasing.ext (increasing : Increasing entries) (increasing' : Increasing entries')
    (same : ∀ key value, (key, value) ∈ entries ↔ (key, value) ∈ entries') :
    entries = entries' := by
  have irreflexive : Std.Irrefl fun a b : κ × γ => a.1 < b.1 := ⟨fun a => lt_irrefl a.1⟩
  have antisymmetric : Std.Antisymm fun a b : κ × γ => a.1 < b.1 :=
    ⟨fun a b less greater => absurd (less.trans greater) (lt_irrefl a.1)⟩
  exact List.Pairwise.eq_of_mem_iff increasing increasing' fun entry => same entry.1 entry.2

end Increasing

section Rules

variable {base result : List (κ × β)} {changes : List (κ × Option β)} {key : κ} {value : β}

theorem Merged.nil (increasing : Increasing base) : Merged base [] base where
  increasing := increasing
  mem_iff key value := by simp

private theorem Merged.increasing_of_first (merged : Merged base changes result)
    (before : ∀ entry ∈ base, key < entry.1) (first : ∀ entry ∈ changes, key < entry.1) :
    Increasing ((key, value) :: result) := by
  refine increasing_cons.mpr ⟨?_, merged.increasing⟩
  rintro ⟨other, found⟩ member
  rcases (merged.mem_iff other found).mp member with changed | ⟨inside, _⟩
  · exact first _ changed
  · exact before _ inside

theorem Merged.keep (merged : Merged base changes result) (before : ∀ entry ∈ base, key < entry.1)
    (first : ∀ entry ∈ changes, key < entry.1) :
    Merged ((key, value) :: base) changes ((key, value) :: result) where
  increasing := merged.increasing_of_first before first
  mem_iff other found := by
    have absent : ∀ change, (key, change) ∉ changes :=
      fun change member => lt_irrefl key (first _ member)
    rw [List.mem_cons, merged.mem_iff, List.mem_cons]
    constructor
    · rintro (same | changed | inside)
      · cases same
        exact .inr ⟨.inl rfl, absent⟩
      · exact .inl changed
      · exact .inr ⟨.inr inside.1, inside.2⟩
    · rintro (changed | ⟨same | inside, unchanged⟩)
      · exact .inr (.inl changed)
      · exact .inl same
      · exact .inr (.inr ⟨inside, unchanged⟩)

private theorem unchanged_cons_iff {change : Option β} {other : κ} {found : β}
    (before : ∀ entry ∈ base, key < entry.1) (inside : (other, found) ∈ base) :
    (∀ c, (other, c) ∉ (key, change) :: changes) ↔ ∀ c, (other, c) ∉ changes := by
  constructor
  · intro unchanged c later
    exact unchanged c (List.mem_cons_of_mem _ later)
  · intro unchanged c member
    rcases List.mem_cons.mp member with same | later
    · cases same
      exact lt_irrefl key (before _ inside)
    · exact unchanged c later

theorem Merged.set (merged : Merged base changes result) (before : ∀ entry ∈ base, key < entry.1)
    (first : ∀ entry ∈ changes, key < entry.1) :
    Merged base ((key, some value) :: changes) ((key, value) :: result) where
  increasing := merged.increasing_of_first before first
  mem_iff other found := by
    rw [List.mem_cons, merged.mem_iff, List.mem_cons]
    constructor
    · rintro (same | changed | ⟨inside, unchanged⟩)
      · cases same
        exact .inl (.inl rfl)
      · exact .inl (.inr changed)
      · exact .inr ⟨inside, (unchanged_cons_iff before inside).mpr unchanged⟩
    · rintro ((same | changed) | ⟨inside, unchanged⟩)
      · cases same
        exact .inl rfl
      · exact .inr (.inl changed)
      · exact .inr (.inr ⟨inside, (unchanged_cons_iff before inside).mp unchanged⟩)

theorem Merged.remove (merged : Merged base changes result)
    (before : ∀ entry ∈ base, key < entry.1) :
    Merged base ((key, none) :: changes) result where
  increasing := merged.increasing
  mem_iff other found := by
    rw [merged.mem_iff, List.mem_cons]
    constructor
    · rintro (changed | ⟨inside, unchanged⟩)
      · exact .inl (.inr changed)
      · exact .inr ⟨inside, (unchanged_cons_iff before inside).mpr unchanged⟩
    · rintro ((same | changed) | ⟨inside, unchanged⟩)
      · cases same
      · exact .inl changed
      · exact .inr ⟨inside, (unchanged_cons_iff before inside).mp unchanged⟩

theorem Merged.hide {change : Option β} (merged : Merged base ((key, change) :: changes) result) :
    Merged ((key, value) :: base) ((key, change) :: changes) result where
  increasing := merged.increasing
  mem_iff other found := by
    rw [merged.mem_iff, List.mem_cons]
    constructor
    · rintro (changed | ⟨inside, unchanged⟩)
      · exact .inl changed
      · exact .inr ⟨List.mem_cons_of_mem _ inside, unchanged⟩
    · rintro (changed | ⟨member, unchanged⟩)
      · exact .inl changed
      · rcases List.mem_cons.mp member with same | inside
        · cases same
          exact absurd List.mem_cons_self (unchanged change)
        · exact .inr ⟨inside, unchanged⟩

end Rules

end DigiByte.Library.Overlay
