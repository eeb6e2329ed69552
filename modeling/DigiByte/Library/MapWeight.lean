import Mathlib.Algebra.BigOperators.Group.List.Basic
import Mathlib.Algebra.GroupWithZero.Nat

/-!
The total weight of the values of an ordered map.
-/

set_option autoImplicit false
set_option relaxedAutoImplicit false

namespace DigiByte.Library.MapWeight

variable {κ β : Type} {cmp : κ → κ → Ordering}

def weight (f : β → ℕ) (m : Std.TreeMap κ β cmp) : ℕ := (m.values.map f).sum

theorem values_eq_map_toList (m : Std.TreeMap κ β cmp) : m.values = m.toList.map Prod.snd := by
  have unfolded : m.values = m.foldr (fun _ v l => v :: l) [] := rfl
  rw [unfolded, Std.TreeMap.foldr_eq_foldr_toList, List.map_eq_foldr]

variable [Std.TransCmp cmp] [Std.LawfulEqCmp cmp] {f : β → ℕ} {m m' : Std.TreeMap κ β cmp} {key : κ}
  {value old : β}

theorem mem_values : value ∈ m.values ↔ ∃ key : κ, m[key]? = some value := by
  rw [values_eq_map_toList, List.mem_map]
  constructor
  · rintro ⟨⟨key, _⟩, member, rfl⟩
    exact ⟨key, Std.TreeMap.mem_toList_iff_getElem?_eq_some.mp member⟩
  · rintro ⟨key, found⟩
    exact ⟨(key, value), Std.TreeMap.mem_toList_iff_getElem?_eq_some.mpr found, rfl⟩

theorem find_insert [DecidableEq κ] {other : κ} :
    (m.insert key value)[other]? = if key = other then some value else m[other]? := by
  simp only [Std.TreeMap.getElem?_insert, Std.LawfulEqCmp.compare_eq_iff_eq]

theorem find_erase [DecidableEq κ] {other : κ} : (m.erase key)[other]? = if key = other then none
    else m[other]? := by
  simp only [Std.TreeMap.getElem?_erase, Std.LawfulEqCmp.compare_eq_iff_eq]

theorem insert_equiv (found : m[key]? = some value) : (m.insert key value).Equiv m := by
  classical
  apply Std.TreeMap.Equiv.of_forall_constGet?_eq
  intro other
  rw [find_insert]
  split
  · rename_i same
    rw [← same, found]
  · rfl

theorem weight_congr (same : ∀ key : κ, m[key]? = m'[key]?) : weight f m = weight f m' := by
  have equivalent : m.Equiv m' := Std.TreeMap.Equiv.of_forall_constGet?_eq same
  rw [weight, weight, equivalent.values_eq]

theorem weight_insert_of_absent (absent : m[key]? = none) :
    weight f (m.insert key value) = f value + weight f m := by
  classical
  have perm :=
    @Std.TreeMap.toList_insert_perm κ β cmp m instBEqOfDecidableEq _ inferInstance key value
  have untouched : m.toList.filter (fun entry => ¬(key == entry.1) = true) = m.toList := by
    apply List.filter_eq_self.mpr
    intro entry member
    have found := Std.TreeMap.mem_toList_iff_getElem?_eq_some.mp member
    have different : key ≠ entry.1 := by
      rintro rfl
      rw [absent] at found
      cases found
    simpa using different
  rw [untouched] at perm
  have sums := (perm.map (f ∘ Prod.snd)).sum_eq
  simpa only [weight, values_eq_map_toList, List.map_map, List.map_cons, List.sum_cons,
    Function.comp_apply] using sums

theorem weight_eq_add_erase (found : m[key]? = some old) :
    weight f m = f old + weight f (m.erase key) := by
  have back : ∀ other : κ, m[other]? = ((m.erase key).insert key old)[other]? := by
    intro other
    rw [Std.TreeMap.getElem?_insert, Std.TreeMap.getElem?_erase]
    split
    · rename_i same
      rw [← Std.LawfulEqCmp.eq_of_compare same, found]
    · rfl
  rw [weight_congr back, weight_insert_of_absent Std.TreeMap.getElem?_erase_self]

theorem weight_insert : weight f (m.insert key value) = f value + weight f (m.erase key) := by
  have fresh : ∀ other : κ, (m.insert key value)[other]? =
      ((m.erase key).insert key value)[other]? := by
    intro other
    rw [Std.TreeMap.getElem?_insert, Std.TreeMap.getElem?_insert, Std.TreeMap.getElem?_erase]
    split <;> rfl
  rw [weight_congr fresh, weight_insert_of_absent Std.TreeMap.getElem?_erase_self]

theorem weight_erase_le : weight f (m.erase key) ≤ weight f m := by
  cases found : m[key]? with
  | some old =>
    rw [weight_eq_add_erase found]
    exact Nat.le_add_left _ _
  | none =>
    apply Nat.le_of_eq
    apply weight_congr
    intro other
    rw [Std.TreeMap.getElem?_erase]
    split
    · rename_i same
      rw [← Std.LawfulEqCmp.eq_of_compare same, found]
    · rfl

end DigiByte.Library.MapWeight
