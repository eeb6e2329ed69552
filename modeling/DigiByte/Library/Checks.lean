import Mathlib.Tactic.Common

/-!
Sequential checks: a validator is a chain of guarded rejections in `Except`.
An accepted run is taken apart check by check with the two bind rules.
-/

set_option autoImplicit false
set_option relaxedAutoImplicit false

namespace DigiByte.Library.Checks

universe u v

variable {ε : Type u} {α β : Type v}

/-- Stop with `e` when the bad condition holds. -/
def rejectIf (bad : Prop) [Decidable bad] (e : ε) : Except ε Unit :=
  if bad then .error e else .ok ()

theorem bind_eq_ok {x : Except ε α} {f : α → Except ε β} {b : β} :
    (x >>= f) = .ok b ↔ ∃ a, x = .ok a ∧ f a = .ok b := by
  cases x with
  | error e => simp [bind, Except.bind]
  | ok a => simp [bind, Except.bind]

theorem rejectIf_eq_ok {bad : Prop} [Decidable bad] {e : ε} {u : Unit} :
    rejectIf bad e = .ok u ↔ ¬ bad := by
  unfold rejectIf
  split <;> simp_all

theorem rejectIf_bind_eq_ok {bad : Prop} [Decidable bad] {e : ε} {f : Unit → Except ε Unit}
    {b : Unit} : (rejectIf bad e >>= f) = .ok b ↔ ¬ bad ∧ f () = .ok b := by
  rw [bind_eq_ok]
  constructor
  · rintro ⟨u, h, hf⟩
    exact ⟨rejectIf_eq_ok.mp h, hf⟩
  · rintro ⟨h, hf⟩
    exact ⟨(), rejectIf_eq_ok.mpr h, hf⟩

theorem rejectIf_bind_of_not {γ : Type} {bad : Prop} [Decidable bad] {e : ε} {f : Unit → Except ε γ}
    (good : ¬ bad) : (rejectIf bad e >>= f) = f () := by
  rw [rejectIf, if_neg good]
  rfl

theorem toOption_eq_some {x : Except ε α} {a : α} : x.toOption = some a ↔ x = .ok a := by
  cases x with
  | error e => simp [Except.toOption]
  | ok b => simp [Except.toOption]

theorem ok_bind {a : α} {f : α → Except ε β} : ((.ok a : Except ε α) >>= f) = f a := rfl

/-- Every error that a computation reports satisfies `P`. -/
def ErrorsIn (P : ε → Prop) (x : Except ε α) : Prop := ∀ e, x = .error e → P e

theorem ErrorsIn.ok {P : ε → Prop} (a : α) : ErrorsIn P (.ok a : Except ε α) := nofun

theorem ErrorsIn.error {P : ε → Prop} {e : ε}
    (allowed : P e) : ErrorsIn P (.error e : Except ε α) := by
  rintro _ ⟨⟩
  exact allowed

theorem ErrorsIn.rejectIf {P : ε → Prop} {bad : Prop} [Decidable bad] {e : ε} (allowed : P e) :
    ErrorsIn P (rejectIf bad e) := by
  unfold Checks.rejectIf
  split
  · exact .error allowed
  · exact .ok ()

theorem ErrorsIn.bind {P : ε → Prop} {x : Except ε α} {f : α → Except ε β} (first : ErrorsIn P x)
    (later : ∀ a, x = .ok a → ErrorsIn P (f a)) : ErrorsIn P (x >>= f) := by
  cases x with
  | error e => exact .error (first e rfl)
  | ok a => exact later a rfl

end DigiByte.Library.Checks
