import Mathlib.Data.List.TakeDrop
import Mathlib.Logic.Function.Basic

/-!
Histories that grow at one end, read through bounded memory.

A history is a list with its newest entry first. A reader that needs its newest
entries keeps a window of them; a reader that needs the newest entry of a kind,
however old, keeps one cached answer per kind. The cache is filled lazily: a kind
that has not been asked for may still be looked up in the history the reader
started from, as long as no later entry is of that kind.

Where entries expire, the list has its oldest entry first and loses entries there.
-/

set_option autoImplicit false
set_option relaxedAutoImplicit false

namespace DigiByte.Library.BoundedHistory

universe u v

variable {α : Type u} {κ : Type v}

/-! Windows. -/

theorem take_cons_take (x : α) (history : List α) (n : ℕ) :
    (x :: history.take n).take n = (x :: history).take n := by
  cases n with
  | zero => rfl
  | succ n => simp [List.take_take]

theorem take_drop_take (history : List α) {skip count n : ℕ} (within : skip + count ≤ n) :
    ((history.take n).drop skip).take count = (history.drop skip).take count := by
  rw [List.drop_take, List.take_take]
  congr 1
  omega

theorem drop_take_eq_nil_iff (history : List α) {skip n : ℕ} (within : skip < n) :
    (history.take n).drop skip = [] ↔ history.drop skip = [] := by
  simp only [List.drop_eq_nil_iff, List.length_take]
  omega

/-! The newest entry of a kind. -/

/-- The history from its newest entry on that passes the test, which sees the
entry and the entries before it. -/
def latest (test : α → List α → Bool) : List α → List α
  | [] => []
  | x :: older => if test x older then x :: older else latest test older

/-- The cached answer for each kind, `none` where the kind was not asked for yet. -/
abbrev Cache (κ : Type v) (α : Type u) := κ → Option (Option α)

/-- Known answers are those of the present history, unknown ones those of its start. -/
def Tracks (test : κ → α → List α → Bool) (start history : List α) (cache : Cache κ α) : Prop :=
  ∀ k, (latest (test k) history).head? = (cache k).getD (latest (test k) start).head?

variable {test : κ → α → List α → Bool} {start history : List α} {cache cache' : Cache κ α}

theorem tracks_start : Tracks test start start fun _ => none :=
  fun _ => rfl

theorem Tracks.seed (tracks : Tracks test start history cache)
    (seeded : ∀ k, cache' k = cache k ∨
      cache k = none ∧ cache' k = some (latest (test k) start).head?) :
    Tracks test start history cache' := by
  intro k
  rcases seeded k with same | ⟨unknown, looked⟩
  · rw [same]
    exact tracks k
  · rw [tracks k, unknown, looked]
    rfl

theorem Tracks.push (tracks : Tracks test start history cache) {x : α}
    (pushed : ∀ k, cache' k = if test k x history then some (some x) else cache k) :
    Tracks test start (x :: history) cache' := by
  intro k
  rw [pushed k, latest]
  split_ifs with passes
  · rfl
  · exact tracks k

/-! Expiry, with the oldest entry first. -/

/-- Entries leave at the front until what remains may be kept. -/
def expire (keep : List α → Bool) : List α → List α
  | [] => []
  | x :: rest => if keep (x :: rest) then x :: rest else expire keep rest

theorem expire_of_keep {keep : List α → Bool} {entries : List α} (kept : keep entries) :
    expire keep entries = entries := by
  cases entries with
  | nil => rfl
  | cons x rest => rw [expire, if_pos kept]

theorem expire_suffix (keep : List α → Bool) (entries : List α) :
    expire keep entries <:+ entries := by
  induction entries with
  | nil => exact List.suffix_refl []
  | cons x rest ih =>
    rw [expire]
    split_ifs
    · exact List.suffix_refl _
    · exact ih.trans (List.suffix_cons x rest)

theorem keep_expire (keep : List α → Bool) {entries : List α} (left : expire keep entries ≠ []) :
    keep (expire keep entries) := by
  induction entries with
  | nil => exact absurd rfl left
  | cons x rest ih =>
    rw [expire] at left ⊢
    split_ifs at left ⊢ with kept
    · exact kept
    · exact ih left

theorem expire_expire {early late : List α → Bool}
    (implied : ∀ entries, late entries → early entries)
    (entries : List α) : expire late (expire early entries) = expire late entries := by
  induction entries with
  | nil => rfl
  | cons x rest ih =>
    rw [expire]
    split_ifs with kept
    · rfl
    · rw [ih, expire, if_neg]
      exact fun later => kept (implied _ later)

theorem expire_append_singleton {keep before : List α → Bool} {x : α} (alone : keep [x])
    (same : ∀ entries, entries ≠ [] → keep (entries ++ [x]) = before entries) (entries : List α) :
    expire keep (entries ++ [x]) = expire before entries ++ [x] := by
  induction entries with
  | nil => exact expire_of_keep alone
  | cons y rest ih =>
    have step := same (y :: rest) (List.cons_ne_nil y rest)
    rw [List.cons_append] at step ⊢
    rw [expire, expire, step, ih]
    split_ifs
    · rfl
    · rfl

/-- Dropping the old entries and then those above the limit, where every entry after one
that is young enough is so too. -/
theorem drop_dropWhile_eq_expire {old : α → Bool} {entries : List α}
    (ordered : entries.Pairwise fun x y => old y → old x) (limit : ℕ) :
    (entries.dropWhile old).drop ((entries.dropWhile old).length - limit) =
      expire (fun kept => !kept.head?.any old && decide (kept.length ≤ limit)) entries := by
  induction entries with
  | nil => simp [expire]
  | cons x rest ih =>
    obtain ⟨first, ordered⟩ := List.pairwise_cons.mp ordered
    have tail := ih ordered
    rw [expire]
    by_cases aged : old x
    · rw [List.dropWhile_cons_of_pos aged, if_neg (by simp [aged]), tail]
    · have young : rest.dropWhile old = rest := by
        cases rest with
        | nil => rfl
        | cons y rest =>
          exact List.dropWhile_cons_of_neg fun aged' => aged (first y (List.mem_cons_self ..) aged')
      rw [young] at tail
      rw [List.dropWhile_cons_of_neg aged]
      split_ifs with kept
      · have short : rest.length + 1 ≤ limit := by simpa [aged] using kept
        rw [List.length_cons, Nat.sub_eq_zero_of_le short, List.drop_zero]
      · have long : limit < rest.length + 1 := by simpa [aged] using kept
        rw [List.length_cons, Nat.sub_add_comm (by omega), List.drop_succ_cons, tail]

end DigiByte.Library.BoundedHistory
