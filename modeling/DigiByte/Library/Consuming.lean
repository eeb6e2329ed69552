import DigiByte.Library.Checks

/-!
Loops that consume their input: a step shrinks a size, and the loop ends when
the size is 0. The size is fuel enough, so that the loop unfolds without fuel.
-/

set_option autoImplicit false
set_option relaxedAutoImplicit false

namespace DigiByte.Library.Consuming

universe u v

variable {σ : Type u} {ε : Type v}

/-- The loop with explicit fuel. -/
def runUpTo (size : σ → ℕ) (step : σ → Except ε σ) : ℕ → σ → Except ε σ
  | 0, s => .ok s
  | fuel + 1, s => if size s = 0 then .ok s else step s >>= runUpTo size step fuel

/-- The loop until the size is 0. -/
def run (size : σ → ℕ) (step : σ → Except ε σ) (s : σ) : Except ε σ := runUpTo size step (size s) s

/-- Every step of the loop that succeeds shrinks the size. -/
def Shrinking (size : σ → ℕ) (step : σ → Except ε σ) : Prop :=
  ∀ s s', size s ≠ 0 → step s = .ok s' → size s' < size s

variable {size : σ → ℕ} {step : σ → Except ε σ}

theorem runUpTo_congr (shrinking : Shrinking size step) {fuel fuel' : ℕ} {s : σ}
    (enough : size s ≤ fuel) (enough' : size s ≤ fuel') :
    runUpTo size step fuel s = runUpTo size step fuel' s := by
  induction fuel generalizing fuel' s with
  | zero =>
    cases fuel' with
    | zero => rfl
    | succ fuel' => simp [runUpTo, Nat.le_zero.mp enough]
  | succ fuel ih =>
    cases fuel' with
    | zero => simp [runUpTo, Nat.le_zero.mp enough']
    | succ fuel' =>
      unfold runUpTo
      split_ifs with ended
      · rfl
      · cases next : step s with
        | error e => rfl
        | ok s' =>
          have less := shrinking s s' ended next
          exact ih (by omega) (by omega)

theorem run_of_size_eq_zero {s : σ} (ended : size s = 0) : run size step s = .ok s := by
  rw [run, ended, runUpTo]

theorem run_step (shrinking : Shrinking size step) {s : σ} (running : size s ≠ 0) :
    run size step s = step s >>= run size step := by
  obtain ⟨n, same⟩ := Nat.exists_eq_succ_of_ne_zero running
  rw [run, same, runUpTo, if_neg running]
  cases next : step s with
  | error e => rfl
  | ok s' =>
    have less := shrinking s s' running next
    exact runUpTo_congr shrinking (by omega) (Nat.le_refl _)

end DigiByte.Library.Consuming
