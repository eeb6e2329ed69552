import Mathlib.Data.List.Basic
import Mathlib.Data.List.Perm.Basic
import Mathlib.Order.Lattice

/-!
Items that arrive one after another and are kept under a key.

Where the first value under a key stays, values that agree under each key can arrive in
any order. Where the last item under a key replaces the one before it, any item that shares
its key can be displaced, and an item that is alone under its key stays in every order.
-/

set_option autoImplicit false
set_option relaxedAutoImplicit false

namespace DigiByte.Library.Arrivals

/-! The first value under a key stays. -/

section FirstStays

variable {κ β : Type} [DecidableEq κ] {kept : κ → Option β} {arrived arrived' : List (κ × β)}

/-- What is kept when a value is taken under a key that has none. -/
def firstStays (kept : κ → Option β) (arrived : List (κ × β)) : κ → Option β := fun key =>
  (kept key).or (arrived.lookup key)

/-- At most one value under each key. -/
def Agree (arrived : List (κ × β)) : Prop :=
  ∀ key a b, (key, a) ∈ arrived → (key, b) ∈ arrived → a = b

@[simp] theorem firstStays_nil (kept : κ → Option β) : firstStays kept [] = kept := by
  funext key
  simp [firstStays]

theorem firstStays_append (kept : κ → Option β) (arrived arrived' : List (κ × β)) :
    firstStays kept (arrived ++ arrived') = firstStays (firstStays kept arrived) arrived' := by
  funext key
  simp only [firstStays, List.lookup_append, Option.or_assoc]

private theorem lookup_other {key other : κ} (different : other ≠ key) (value : β) :
    [(key, value)].lookup other = none := by
  rw [List.lookup_cons, beq_false_of_ne different]
  rfl

theorem firstStays_of_held {key : κ} (held : (kept key).isSome) (value : β) :
    firstStays kept [(key, value)] = kept := by
  funext other
  unfold firstStays
  by_cases same : other = key
  · subst same
    obtain ⟨old, found⟩ := Option.isSome_iff_exists.mp held
    rw [found, Option.some_or]
  · rw [lookup_other same, Option.or_none]

theorem firstStays_of_absent {key : κ} (absent : kept key = none) (value : β) :
    firstStays kept [(key, value)] = Function.update kept key (some value) := by
  funext other
  unfold firstStays
  by_cases same : other = key
  · subst same
    simp [absent]
  · rw [lookup_other same, Option.or_none, Function.update_of_ne same]

theorem mem_of_lookup {key : κ} {value : β} (found : arrived.lookup key = some value) :
    (key, value) ∈ arrived := by
  obtain ⟨before, after, rfl, _⟩ := List.lookup_eq_some_iff.mp found
  simp

theorem lookup_of_mem (agree : Agree arrived) {key : κ} {value : β}
    (member : (key, value) ∈ arrived) :
    arrived.lookup key = some value := by
  have found : (arrived.lookup key).isSome := by
    rw [List.lookup_isSome_iff]
    exact ⟨(key, value), member, by simp⟩
  obtain ⟨other, found⟩ := Option.isSome_iff_exists.mp found
  rw [found, agree key other value (mem_of_lookup found) member]

theorem firstStays_perm (agree : Agree arrived) (perm : arrived.Perm arrived') :
    firstStays kept arrived = firstStays kept arrived' := by
  have agree' : Agree arrived' := by
    intro key a b memberA memberB
    exact agree key a b (perm.mem_iff.mpr memberA) (perm.mem_iff.mpr memberB)
  funext key
  unfold firstStays
  congr 1
  cases found : arrived.lookup key with
  | some value => exact (lookup_of_mem agree' (perm.mem_iff.mp (mem_of_lookup found))).symm
  | none =>
    cases found' : arrived'.lookup key with
    | none => rfl
    | some value =>
      rw [lookup_of_mem agree (perm.mem_iff.mpr (mem_of_lookup found'))] at found
      cases found

end FirstStays

/-! The last item under a key stays. -/

section LastStays

variable {α κ : Type} [DecidableEq κ] {key : α → κ} {arrived : List α} {x : α}

/-- The item under a key when each one replaces the one before it. -/
def latest (key : α → κ) (arrived : List α) (under : κ) : Option α :=
  arrived.reverse.find? fun x => key x = under

@[simp] theorem latest_nil (under : κ) : latest key [] under = none := rfl

theorem latest_concat (arrived : List α) (x : α) (under : κ) :
    latest key (arrived ++ [x]) under = if key x = under then some x
      else latest key arrived under := by
  unfold latest
  rw [List.reverse_append, List.reverse_singleton, List.singleton_append, List.find?_cons]
  by_cases same : key x = under <;> simp [same]

theorem latest_cons (x : α) (rest : List α) (under : κ) :
    latest key (x :: rest) under =
      (latest key rest under).or (if key x = under then some x else none) := by
  unfold latest
  rw [List.reverse_cons, List.find?_append, List.find?_singleton]
  simp only [decide_eq_true_eq]

theorem latest_eq_some {under : κ} (stays : latest key arrived under = some x) :
    x ∈ arrived ∧ key x = under := by
  refine ⟨?_, by simpa using List.find?_some stays⟩
  exact List.mem_reverse.mp (List.mem_of_find?_eq_some stays)

theorem latest_eq_none_iff {under : κ} : latest key arrived under = none ↔
    ∀ x ∈ arrived, key x ≠ under := by
  unfold latest
  rw [List.find?_eq_none]
  simp only [List.mem_reverse, decide_eq_true_eq, ne_eq]

theorem latest_of_alone (member : x ∈ arrived) (alone : ∀ y ∈ arrived, key y = key x → y = x) :
    latest key arrived (key x) = some x := by
  have found : (latest key arrived (key x)).isSome := by
    unfold latest
    rw [List.find?_isSome]
    exact ⟨x, List.mem_reverse.mpr member, by simp⟩
  obtain ⟨y, found⟩ := Option.isSome_iff_exists.mp found
  obtain ⟨memberY, same⟩ := latest_eq_some found
  rw [found, alone y memberY same]

theorem exists_perm_concat (member : x ∈ arrived) : ∃ rest, (rest ++ [x]).Perm arrived := by
  obtain ⟨before, after, rfl⟩ := List.append_of_mem member
  refine ⟨before ++ after, ?_⟩
  rw [List.append_assoc]
  exact (List.perm_append_singleton x after).append_left before

end LastStays

/-! Keeping the better of two items. -/

section Best

variable {α : Type} {better : Option α → α → Bool} {first : α}

def keepBetter (better : Option α → α → Bool) (best : Option α) (x : α) : Option α :=
  if better best x then some x else best

/-- Replaced by the first item, and no replacement for it. -/
def Behind (better : Option α → α → Bool) (first x : α) : Prop :=
  better (some x) first = true ∧ better (some first) x = false

private theorem foldl_keepBetter_of_found {items : List α}
    (others : ∀ x ∈ items, x = first ∨ Behind better first x) :
    items.foldl (keepBetter better) (some first) = some first := by
  induction items with
  | nil => rfl
  | cons x rest ih =>
    have kept : keepBetter better (some first) x = some first := by
      unfold keepBetter
      rcases others x List.mem_cons_self with rfl | behind
      · exact ite_self _
      · rw [behind.2]
        rfl
    rw [List.foldl_cons, kept]
    exact ih fun y member => others y (List.mem_cons_of_mem _ member)

theorem foldl_keepBetter_eq {items : List α} (start : ∀ x, better none x = true)
    (others : ∀ x ∈ items, x = first ∨ Behind better first x) (member : first ∈ items) :
    items.foldl (keepBetter better) none = some first := by
  -- over any best item so far that is behind the first
  suffices general : ∀ best : Option α, (∀ x ∈ best, x = first ∨ Behind better first x) →
      items.foldl (keepBetter better) best = some first from general none (by simp)
  induction items with
  | nil => cases member
  | cons x rest ih =>
    intro best behind
    have laterOthers : ∀ y ∈ rest, y = first ∨ Behind better first y :=
      fun y later => others y (List.mem_cons_of_mem _ later)
    rw [List.foldl_cons]
    by_cases here : x = first
    · subst here
      have taken : keepBetter better best x = some x := by
        unfold keepBetter
        cases best with
        | none => simp [start]
        | some y =>
          rcases behind y rfl with rfl | behind
          · exact ite_self _
          · simp [behind.1]
      rw [taken]
      exact foldl_keepBetter_of_found laterOthers
    · apply ih laterOthers ((List.mem_cons.mp member).resolve_left (Ne.symm here))
      intro y kept
      unfold keepBetter at kept
      split_ifs at kept
      · cases kept
        exact others x List.mem_cons_self
      · exact behind y kept

end Best

/-! The newest item under a key stays. -/

section NewestStays

variable {α κ σ : Type} [LinearOrder σ] {key : α → κ} {stamp : α → σ} {arrived : List α}
  {kept : κ → Option α}

/-- An arrived item under a key that no other one there is newer than. -/
def IsNewest (key : α → κ) (stamp : α → σ) (arrived : List α) (under : κ) (x : α) : Prop :=
  x ∈ arrived ∧ key x = under ∧ ∀ y ∈ arrived, key y = under → stamp y ≤ stamp x

theorem isNewest_congr {arrived' : List α} (same : ∀ x, x ∈ arrived ↔ x ∈ arrived') {under : κ}
    {x : α} :
    IsNewest key stamp arrived under x ↔ IsNewest key stamp arrived' under x := by
  simp only [IsNewest, same]

/-- What is kept has arrived under its key, and is as new as everything that has. -/
structure HoldsNewest (key : α → κ) (stamp : α → σ) (arrived : List α)
    (kept : κ → Option α) : Prop where
  listed : ∀ under x, kept under = some x → x ∈ arrived ∧ key x = under
  covers : ∀ x ∈ arrived, ∃ held, kept (key x) = some held ∧ stamp x ≤ stamp held

theorem HoldsNewest.start : HoldsNewest key stamp [] fun _ => none where
  listed _ _ held := by cases held
  covers _ member := by cases member

theorem HoldsNewest.covered (newest : HoldsNewest key stamp arrived kept) {x held : α}
    (found : kept (key x) = some held) (older : stamp x ≤ stamp held) :
    HoldsNewest key stamp (arrived ++ [x]) kept where
  listed under y holds :=
    ⟨List.mem_append_left _ (newest.listed under y holds).1, (newest.listed under y holds).2⟩
  covers y member := by
    rcases List.mem_append.mp member with early | last
    · exact newest.covers y early
    · rw [List.mem_singleton.mp last]
      exact ⟨held, found, older⟩

theorem HoldsNewest.stored [DecidableEq κ] (newest : HoldsNewest key stamp arrived kept) {x : α}
    (newer : ∀ held ∈ kept (key x), stamp held ≤ stamp x) :
    HoldsNewest key stamp (arrived ++ [x]) (Function.update kept (key x) (some x)) where
  listed under y holds := by
    by_cases same : under = key x
    · subst same
      rw [Function.update_self] at holds
      cases holds
      simp
    · rw [Function.update_of_ne same] at holds
      exact ⟨List.mem_append_left _ (newest.listed under y holds).1,
        (newest.listed under y holds).2⟩
  covers y member := by
    by_cases same : key y = key x
    · rw [same, Function.update_self]
      refine ⟨x, rfl, ?_⟩
      rcases List.mem_append.mp member with early | last
      · obtain ⟨held, found, older⟩ := newest.covers y early
        rw [same] at found
        exact older.trans (newer held found)
      · rw [List.mem_singleton.mp last]
    · rw [Function.update_of_ne same]
      rcases List.mem_append.mp member with early | last
      · exact newest.covers y early
      · exact absurd (congrArg key (List.mem_singleton.mp last)) same

theorem HoldsNewest.eq_some_iff (newest : HoldsNewest key stamp arrived kept)
    (distinct : ∀ x ∈ arrived, ∀ y ∈ arrived, key x = key y → stamp x = stamp y → x = y) {under : κ}
    {x : α} :
    kept under = some x ↔ IsNewest key stamp arrived under x := by
  have newestOf : ∀ {x}, kept under = some x → IsNewest key stamp arrived under x := by
    intro x holds
    obtain ⟨member, placed⟩ := newest.listed under x holds
    refine ⟨member, placed, fun y member' same => ?_⟩
    obtain ⟨held, found, older⟩ := newest.covers y member'
    rw [same, holds] at found
    cases found
    exact older
  refine ⟨newestOf, ?_⟩
  rintro ⟨member, rfl, greatest⟩
  obtain ⟨held, found, older⟩ := newest.covers x member
  obtain ⟨listed, same, -⟩ := newestOf found
  rw [found, distinct x member held listed same.symm
    (le_antisymm older (greatest held listed same))]

theorem HoldsNewest.stamp_le {later : List α} {kept' : κ → Option α}
    (newest : HoldsNewest key stamp arrived kept)
    (newest' : HoldsNewest key stamp (arrived ++ later) kept') {under : κ} {x : α}
    (holds : kept under = some x) :
    ∃ x', kept' under = some x' ∧ stamp x ≤ stamp x' := by
  obtain ⟨member, rfl⟩ := newest.listed under x holds
  exact newest'.covers x (List.mem_append_left _ member)

end NewestStays

end DigiByte.Library.Arrivals
