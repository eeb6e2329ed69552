import Mathlib.Tactic.Common

/-!
A loop over a list that stops at the first element it does not accept. A step may also be
undefined.
-/

set_option autoImplicit false
set_option relaxedAutoImplicit false

namespace DigiByte.Library.AcceptAll

universe u v

variable {σ : Type u} {α : Type v} (step : σ → α → Option (Bool × σ))

def acceptAll (s : σ) : List α → Option (Bool × σ)
  | [] => some (true, s)
  | a :: rest =>
    match step s a with
    | none => none
    | some (false, s) => some (false, s)
    | some (true, s) => acceptAll s rest

variable {step} {P : σ → List α → Prop} {s s' : σ} {before received : List α}

theorem acceptAll_keeps (keeps : ∀ {s s' before a}, P s before → step s a = some (true, s') →
      P s' (before ++ [a]))
    (start : P s before) (accepted : acceptAll step s received = some (true, s')) :
    P s' (before ++ received) := by
  induction received generalizing s before with
  | nil =>
    cases accepted
    rwa [List.append_nil]
  | cons a rest ih =>
    unfold acceptAll at accepted
    split at accepted
    · cases accepted
    · cases accepted
    · next stepped =>
      rw [List.append_cons]
      exact ih (keeps start stepped) accepted

end DigiByte.Library.AcceptAll
