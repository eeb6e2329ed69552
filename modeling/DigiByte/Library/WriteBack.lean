import Mathlib.Data.List.AList

/-!
Entries of a write-back cache.

An entry without a value hides what the store below has under the key. A dirty entry may differ
from the store below, and a fresh one says that the store below has nothing there, so that it can
be dropped instead of being written back.
-/

set_option autoImplicit false
set_option relaxedAutoImplicit false

namespace DigiByte.Library.WriteBack

universe u v

structure Entry (β : Type u) where
  value : Option β
  dirty : Bool
  fresh : Bool
  deriving DecidableEq, Repr

section Cell

variable {β : Type u} {below : Option β} {cell : Option (Entry β)} {entry : Entry β}

/-- What a cache answers under a key, over the answer of the store below. -/
def read (below : Option β) : Option (Entry β) → Option β
  | none => below
  | some entry => entry.value

/-- The flags of an entry are true of the store below. Of the entries without a value, a dirty one
has to be written back and a fresh one does not. -/
structure Sound (below : Option β) (entry : Entry β) : Prop where
  clean : entry.dirty = false → entry.value = below
  absent : entry.fresh = true → below = none
  marked : entry.value = none → entry.dirty ≠ entry.fresh

def SoundCell (below : Option β) (cell : Option (Entry β)) : Prop :=
  ∀ entry ∈ cell, Sound below entry

theorem soundCell_none : SoundCell below none := by
  intro entry member
  cases member

theorem soundCell_some : SoundCell below (some entry) ↔ Sound below entry := by
  simp [SoundCell]

theorem sound_fetched (below : Option β) : Sound below ⟨below, false, below.isNone⟩ where
  clean _ := rfl
  absent fresh := Option.isNone_iff_eq_none.mp fresh
  marked none := by
    dsimp only at none
    simp [none]

theorem sound_set (sound : SoundCell below cell) (value : β) :
    Sound below ⟨some value, true, cell.any Entry.fresh⟩ where
  clean clean := by cases clean
  absent fresh := by
    obtain ⟨entry, found, fresh⟩ := Option.any_eq_true _ _ |>.mp fresh
    exact (sound entry found).absent fresh
  marked none := by cases none

theorem sound_add (sound : SoundCell below cell) (nothing : read below cell = none) (value : β) :
    Sound below ⟨some value, true, cell.any Entry.fresh || !cell.any Entry.dirty⟩ where
  clean clean := by cases clean
  absent fresh := by
    cases cell with
    | none => exact nothing
    | some entry =>
      have sound := soundCell_some.mp sound
      rcases Bool.or_eq_true _ _ |>.mp fresh with fresh | clean
      · exact sound.absent (by simpa using fresh)
      · rw [← sound.clean (by simpa using clean)]
        exact nothing
  marked none := by cases none

theorem sound_erase (below : Option β) : Sound below ⟨none, true, false⟩ where
  clean clean := by cases clean
  absent fresh := by cases fresh
  marked _ := by simp

/-- The cell of a cache after an entry of the cache above is written back to it. -/
def merge (child : Entry β) (parent : Option (Entry β)) : Option (Entry β) :=
  if child.dirty = false then parent
  else
    match parent with
    | none => if child.fresh && child.value.isNone then none
        else some ⟨child.value, true, child.fresh⟩
    | some entry =>
      if entry.fresh && child.value.isNone then none
      else some { entry with value := child.value, dirty := true }

theorem value_of_fresh_above {child : Entry β} (above : Sound (read below (some entry)) child)
    (fresh : child.fresh = true) : entry.value = none := above.absent fresh

theorem read_merge {parent : Option (Entry β)} {child : Entry β} (sound : SoundCell below parent)
    (above : Sound (read below parent) child) : read below (merge child parent) = child.value := by
  cases parent with
  | none =>
    simp only [merge]
    split_ifs with clean dropped
    · exact (above.clean clean).symm
    · rw [Bool.and_eq_true, Option.isNone_iff_eq_none] at dropped
      rw [dropped.2]
      exact above.absent dropped.1
    · rfl
  | some entry =>
    simp only [merge]
    split_ifs with clean dropped
    · exact (above.clean clean).symm
    · rw [Bool.and_eq_true, Option.isNone_iff_eq_none] at dropped
      rw [dropped.2]
      exact (soundCell_some.mp sound).absent dropped.1
    · rfl

private theorem sound_merged {value : Option β} {fresh : Bool}
    (absent : fresh = true → below = none)
    (kept : ¬ (fresh && value.isNone) = true) : Sound below ⟨value, true, fresh⟩ where
  clean clean := by cases clean
  absent := absent
  marked erased same := by
    dsimp only at erased same
    exact kept (by rw [erased, ← same]; rfl)

theorem soundCell_merge {parent : Option (Entry β)} {child : Entry β}
    (sound : SoundCell below parent)
    (above : Sound (read below parent) child) : SoundCell below (merge child parent) := by
  cases parent with
  | none =>
    simp only [merge]
    split_ifs with clean dropped
    · exact soundCell_none
    · exact soundCell_none
    · exact soundCell_some.mpr (sound_merged above.absent dropped)
  | some entry =>
    simp only [merge]
    split_ifs with clean dropped
    · exact sound
    · exact soundCell_none
    · exact soundCell_some.mpr (sound_merged (soundCell_some.mp sound).absent dropped)

theorem sound_written (value : β) : Sound (some value) ⟨some value, false, false⟩ where
  clean _ := rfl
  absent fresh := by cases fresh
  marked none := by cases none

end Cell

/-! Maps of cells, changed one key at a time. -/

section Maps

variable {κ : Type u} [DecidableEq κ] {ε : Type v}

theorem lookup_insert_eq (m : AList fun _ : κ => ε) (key other : κ) (entry : ε) :
    (m.insert key entry).lookup other = if other = key then some entry else m.lookup other := by
  by_cases same : other = key
  · subst same
    rw [if_pos rfl, AList.lookup_insert]
  · rw [if_neg same, AList.lookup_insert_ne same]

theorem lookup_erase_eq (m : AList fun _ : κ => ε) (key other : κ) :
    (m.erase key).lookup other = if other = key then none else m.lookup other := by
  by_cases same : other = key
  · subst same
    rw [if_pos rfl, AList.lookup_erase]
  · rw [if_neg same, AList.lookup_erase_ne same]

/-- A loop over entries with different keys, each of which changes the cell of its own key only:
every cell ends as its own step leaves it. -/
theorem lookup_foldlM {σ : Type}
    {step : (AList fun _ : κ => ε) → (Sigma fun _ : κ => ε) → Except σ (AList fun _ : κ => ε)}
    (target : ε → Option ε → Option ε) {entries : List (Sigma fun _ : κ => ε)}
    (distinct : entries.NodupKeys) (start : AList fun _ : κ => ε)
    (writes : ∀ m key entry, ⟨key, entry⟩ ∈ entries → m.lookup key = start.lookup key →
      ∃ m', step m ⟨key, entry⟩ = .ok m' ∧
      ∀ other, m'.lookup other = if other = key then target entry (m.lookup other)
        else m.lookup other) :
    ∃ m', entries.foldlM step start = .ok m' ∧
      (∀ key ∉ entries.keys, m'.lookup key = start.lookup key) ∧
      ∀ key entry, ⟨key, entry⟩ ∈ entries → m'.lookup key = target entry (start.lookup key) := by
  induction entries generalizing start with
  | nil => exact ⟨start, rfl, fun _ _ => rfl, by simp⟩
  | cons first rest ih =>
    obtain ⟨fresh, distinct⟩ := List.nodupKeys_cons.mp distinct
    obtain ⟨m, stepped, cells⟩ := writes start first.1 first.2 List.mem_cons_self rfl
    have later : ∀ key ∈ rest.keys, m.lookup key = start.lookup key := by
      intro key member
      rw [cells, if_neg]
      rintro rfl
      exact fresh member
    obtain ⟨m', folded, kept, written⟩ := ih distinct m (by
      intro n key entry member untouched
      refine writes n key entry (List.mem_cons_of_mem _ member) ?_
      rw [untouched, later key (List.mem_keys_of_mem member)])
    refine ⟨m', ?_, ?_, ?_⟩
    · rw [List.foldlM_cons, stepped]
      exact folded
    · intro key absent
      rw [List.keys_cons, List.mem_cons, not_or] at absent
      rw [kept key absent.2, cells, if_neg absent.1]
    · intro key entry member
      rcases List.mem_cons.mp member with rfl | member
      · rw [kept key fresh, cells, if_pos rfl]
      · rw [written key entry member, later key (List.mem_keys_of_mem member)]

end Maps

end DigiByte.Library.WriteBack
