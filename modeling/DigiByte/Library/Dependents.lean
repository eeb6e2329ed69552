import Mathlib.Data.List.Basic
import Mathlib.Logic.Relation

/-!
Removing the bad items of a list together with everything that depends on them, in one
pass from the front.

An item has a name and names its parents. The pass drops an item that is bad or has a
dropped parent. Where names are distinct and parents come first, what is left are the
items that are not bad and have no bad ancestor.
-/

set_option autoImplicit false
set_option relaxedAutoImplicit false

namespace DigiByte.Library.Dependents

variable {α ι : Type} (name : α → ι) (parents : α → List ι) (bad : α → Bool)

/-- Whether the pass drops an item when it has dropped these names. -/
def drops [DecidableEq ι] (dropped : List ι) (x : α) : Bool :=
  bad x || (parents x).any (· ∈ dropped)

/-- What is left of a list after the pass, from the names dropped before. -/
def survivors [DecidableEq ι] : List ι → List α → List α
  | _, [] => []
  | dropped, x :: rest =>
    if drops parents bad dropped x then survivors (name x :: dropped) rest
    else x :: survivors dropped rest

/-- One item is a listed parent of another. -/
def Parent (items : List α) (a b : α) : Prop := a ∈ items ∧ name a ∈ parents b

abbrev Ancestor (items : List α) : α → α → Prop := Relation.TransGen (Parent name parents items)

/-- Bad, or with a bad ancestor. -/
def Tainted (items : List α) (x : α) : Prop :=
  bad x = true ∨ ∃ a, Ancestor name parents items a x ∧ bad a = true

/-- No item has a parent behind it. -/
def ParentsFirst (items : List α) : Prop := items.Pairwise fun earlier later =>
  name later ∉ parents earlier

variable {name parents bad} {items : List α}

theorem Tainted.of_parent {a x : α} (parent : Parent name parents items a x)
    (tainted : Tainted name parents bad items a) : Tainted name parents bad items x := by
  rcases tainted with bad | ⟨b, above, bad⟩
  · exact .inr ⟨a, .single parent, bad⟩
  · exact .inr ⟨b, above.tail parent, bad⟩

theorem Tainted.cases {x : α} (tainted : Tainted name parents bad items x) :
    bad x = true ∨ ∃ a, a ≠ x ∧ Parent name parents items a x ∧
      Tainted name parents bad items a := by
  rcases tainted with bad | ⟨b, above, bad⟩
  · exact .inl bad
  · induction above with
    | @single x parent =>
      by_cases same : b = x
      · exact .inl (same ▸ bad)
      · exact .inr ⟨b, same, parent, .inl bad⟩
    | @tail a x above parent ih =>
      by_cases same : a = x
      · exact same ▸ ih
      · exact .inr ⟨a, same, parent, .inr ⟨b, above, bad⟩⟩

variable (name parents bad) in
/-- What the pass knows after the items of `done`: the dropped names are the names of the
tainted ones. -/
structure Swept (items done : List α) (dropped : List ι) : Prop where
  complete : ∀ a ∈ done, Tainted name parents bad items a → name a ∈ dropped
  sound : ∀ n ∈ dropped, ∃ a ∈ done, name a = n ∧ Tainted name parents bad items a

variable {done rest : List α} {dropped : List ι} {x : α}

theorem Swept.drop (swept : Swept name parents bad items done dropped)
    (tainted : Tainted name parents bad items x) :
    Swept name parents bad items (done ++ [x]) (name x :: dropped) where
  complete a member taintedA := by
    rcases List.mem_append.mp member with earlier | last
    · exact List.mem_cons_of_mem _ (swept.complete a earlier taintedA)
    · rw [List.mem_singleton.mp last]
      exact List.mem_cons_self
  sound n member := by
    rcases List.mem_cons.mp member with rfl | earlier
    · exact ⟨x, by simp, rfl, tainted⟩
    · obtain ⟨a, listed, named, taintedA⟩ := swept.sound n earlier
      exact ⟨a, List.mem_append_left _ listed, named, taintedA⟩

theorem Swept.keep (swept : Swept name parents bad items done dropped)
    (clean : ¬ Tainted name parents bad items x) :
    Swept name parents bad items (done ++ [x]) dropped where
  complete a member taintedA := by
    rcases List.mem_append.mp member with earlier | last
    · exact swept.complete a earlier taintedA
    · rw [List.mem_singleton.mp last] at taintedA
      exact absurd taintedA clean
  sound n member := by
    obtain ⟨a, listed, named, taintedA⟩ := swept.sound n member
    exact ⟨a, List.mem_append_left _ listed, named, taintedA⟩

section Pass

variable [DecidableEq ι]

theorem survivors_sublist (dropped : List ι) (items : List α) :
    (survivors name parents bad dropped items).Sublist items := by
  induction items generalizing dropped with
  | nil => exact List.Sublist.refl _
  | cons x rest ih =>
    rw [survivors]
    split
    · exact (ih _).cons x
    · exact (ih _).cons_cons x

theorem survivors_map {β : Type} (f : β → α) (dropped : List ι) (items : List β) :
    survivors name parents bad dropped (items.map f) =
      (survivors (name ∘ f) (parents ∘ f) (bad ∘ f) dropped items).map f := by
  induction items generalizing dropped with
  | nil => rfl
  | cons x rest ih =>
    have same : drops (parents ∘ f) (bad ∘ f) dropped x = drops parents bad dropped (f x) := rfl
    rw [List.map_cons, survivors, survivors, same]
    split
    · exact ih _
    · rw [ih, List.map_cons]

theorem Swept.drops_iff (swept : Swept name parents bad items done dropped)
    (order : items = done ++ x :: rest) (first : ParentsFirst name parents items) :
    drops parents bad dropped x = true ↔ Tainted name parents bad items x := by
  simp only [drops, Bool.or_eq_true, List.any_eq_true, decide_eq_true_eq]
  constructor
  · rintro (bad | ⟨n, named, gone⟩)
    · exact .inl bad
    · obtain ⟨a, earlier, rfl, tainted⟩ := swept.sound n gone
      have listed : a ∈ items := order ▸ List.mem_append_left _ earlier
      exact tainted.of_parent ⟨listed, named⟩
  · intro tainted
    rcases tainted.cases with bad | ⟨a, other, ⟨listed, named⟩, tainted⟩
    · exact .inl bad
    · rw [order, List.mem_append, List.mem_cons] at listed
      rcases listed with earlier | same | later
      · exact .inr ⟨name a, named, swept.complete a earlier tainted⟩
      · exact absurd same other
      · -- a parent behind `x` is excluded by the order
        unfold ParentsFirst at first
        rw [order, List.pairwise_append, List.pairwise_cons] at first
        exact absurd named (first.2.1.1 a later)

theorem Swept.mem_survivors (swept : Swept name parents bad items done dropped)
    (order : items = done ++ rest)
    (nodup : items.Nodup) (first : ParentsFirst name parents items) (listed : x ∈ rest) :
    x ∈ survivors name parents bad dropped rest ↔ ¬ Tainted name parents bad items x := by
  induction rest generalizing done dropped with
  | nil => cases listed
  | cons y rest ih =>
    have decision := swept.drops_iff order first
    have shifted : items = (done ++ [y]) ++ rest := by
      rw [order, List.append_assoc, List.singleton_append]
    have absent : y ∉ rest := by
      rw [order, List.nodup_append] at nodup
      exact (List.nodup_cons.mp nodup.2.1).1
    rw [survivors]
    by_cases tainted : Tainted name parents bad items y
    · rw [if_pos (decision.mpr tainted)]
      rcases List.mem_cons.mp listed with rfl | later
      · exact ⟨fun kept => absurd ((survivors_sublist _ _).subset kept) absent,
          fun clean => absurd tainted clean⟩
      · exact ih (swept.drop tainted) shifted later
    · rw [if_neg (fun dropped => tainted (decision.mp dropped)), List.mem_cons]
      rcases List.mem_cons.mp listed with rfl | later
      · exact ⟨fun _ => tainted, fun _ => .inl rfl⟩
      · have other : x ≠ y := by
          rintro rfl
          exact absent later
        rw [or_iff_right other]
        exact ih (swept.keep tainted) shifted later

theorem mem_survivors_iff (nodup : items.Nodup) (first : ParentsFirst name parents items)
    (listed : x ∈ items) :
    x ∈ survivors name parents bad [] items ↔ ¬ Tainted name parents bad items x := by
  have start : Swept name parents bad items [] [] := ⟨by simp, by simp⟩
  exact start.mem_survivors rfl nodup first listed

end Pass

end DigiByte.Library.Dependents
