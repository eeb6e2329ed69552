import DigiByte.Library.Checks
import DigiByte.Library.PrefixChoice
import DigiByte.Primitives.Transaction
import Mathlib.Data.List.Sort

/-!
Token coin selection of the wallet (`wallet/digidollarwallet.cpp`).

The wallet's records are the list of spendable coins. `std::sort` leaves the order of
equal amounts open, so the sort is a parameter. The two output vectors are one list of
coins.
-/

set_option autoImplicit false
set_option relaxedAutoImplicit false

namespace DigiByte.Wallet

open Consensus
open Library.Checks (rejectIf bind_eq_ok rejectIf_eq_ok rejectIf_bind_of_not ok_bind)
open Library.PrefixChoice (Pays prefix_pays_iff prefixes_complete_iff)

structure DDUtxo where
  outpoint : COutPoint
  dd_amount : ℤ
  deriving DecidableEq, Repr

structure DDSelection where
  selected_utxos : List DDUtxo := []
  selected_total : ℤ := 0
  deriving DecidableEq, Repr

/-- `DDChangeIsStandard`, the condition on which the loop stops. -/
def ddChangeIsStandard (minOutputAmount selected_total target_amount : ℤ) : Bool :=
  target_amount ≤ selected_total &&
    (selected_total - target_amount = 0 || minOutputAmount ≤ selected_total - target_amount)

def ddChangePolicyError (minOutputAmount selected_total target_amount : ℤ) : String :=
  if selected_total < target_amount then
    s!"Insufficient selected DD input amount. Selected: {selected_total} cents, " ++
      s!"Required: {target_amount} cents"
  else
    let change := selected_total - target_amount
    "Selected DD input change is below minimum DigiDollar output. " ++
      s!"Change: {change} cents, Minimum: {minOutputAmount} cents"

/-- The loop of `SelectDDCoins`. -/
def selectFrom (minOutputAmount target_amount : ℤ) :
    List DDUtxo → DDSelection → Except String DDSelection
  | [], s => .ok s
  | utxo :: rest, s =>
    if ddChangeIsStandard minOutputAmount s.selected_total target_amount then .ok s
    -- A tracked amount of zero or less cannot pay for anything.
    else if utxo.dd_amount ≤ 0 then selectFrom minOutputAmount target_amount rest s
    else if s.selected_total > INT64_MAX - utxo.dd_amount then
      .error "Tracked DD input amount overflow"
    else selectFrom minOutputAmount target_amount rest
      ⟨s.selected_utxos ++ [utxo], s.selected_total + utxo.dd_amount⟩

def selectDDCoins (sort : List DDUtxo → List DDUtxo) (minOutputAmount : ℤ)
    (available_utxos : List DDUtxo) (target_amount : ℤ) : Except String DDSelection := do
  rejectIf (target_amount ≤ 0) "Amount must be positive"
  rejectIf (available_utxos = []) ("No spendable confirmed DD UTXOs found. " ++
    "Please wait for prior DigiDollar transfer confirmation " ++
    "or confirm a mint before sending again.")
  let s ← selectFrom minOutputAmount target_amount (sort available_utxos) {}
  let selected_total := s.selected_total
  rejectIf (ddChangeIsStandard minOutputAmount selected_total target_amount = false)
    (if target_amount ≤ selected_total then
      ddChangePolicyError minOutputAmount selected_total target_amount
    else s!"Insufficient confirmed DD balance. Available: {selected_total} cents, " ++
      s!"Required: {target_amount} cents")
  .ok s

/-- What `std::sort` guarantees. -/
def Sorts (sort : List DDUtxo → List DDUtxo) : Prop :=
  ∀ utxos, (sort utxos).Perm utxos ∧ (sort utxos).Pairwise fun a b => a.dd_amount ≤ b.dd_amount

def total (utxos : List DDUtxo) : ℤ := (utxos.map DDUtxo.dd_amount).sum

variable {sort : List DDUtxo → List DDUtxo} {minOutputAmount target_amount : ℤ}
  {available : List DDUtxo}

theorem ddChangeIsStandard_iff {selected_total : ℤ} :
    ddChangeIsStandard minOutputAmount selected_total target_amount = true ↔
      Pays minOutputAmount target_amount selected_total := by
  simp [ddChangeIsStandard, Pays]

@[simp]
theorem total_nil : total [] = 0 := rfl

theorem total_cons (utxo : DDUtxo) (rest : List DDUtxo) :
    total (utxo :: rest) = utxo.dd_amount + total rest := by simp [total]

theorem total_nonneg {utxos : List DDUtxo} (positive : ∀ utxo ∈ utxos, 0 < utxo.dd_amount) :
    0 ≤ total utxos := by
  apply List.sum_nonneg
  intro amount member
  obtain ⟨utxo, listed, rfl⟩ := List.mem_map.mp member
  exact (positive utxo listed).le

private theorem selectFrom_eq (utxos : List DDUtxo) (s : DDSelection)
    (positive : ∀ utxo ∈ utxos, 0 < utxo.dd_amount)
    (fits : s.selected_total + total utxos ≤ INT64_MAX) :
    ∃ n, selectFrom minOutputAmount target_amount utxos s =
        .ok ⟨s.selected_utxos ++ utxos.take n, s.selected_total + total (utxos.take n)⟩ ∧
      ((∃ m, Pays minOutputAmount target_amount (s.selected_total + total (utxos.take m))) →
        Pays minOutputAmount target_amount (s.selected_total + total (utxos.take n))) := by
  induction utxos generalizing s with
  | nil => exact ⟨0, by simp [selectFrom, total], by simp⟩
  | cons utxo rest ih =>
    by_cases standard : Pays minOutputAmount target_amount s.selected_total
    · refine ⟨0, ?_, ?_⟩
      · rw [selectFrom, if_pos (ddChangeIsStandard_iff.mpr standard)]
        simp [total]
      · intro _
        simpa [total] using standard
    · have amount := positive utxo (by simp)
      have later : ∀ utxo ∈ rest, 0 < utxo.dd_amount :=
        fun utxo member => positive utxo (by simp [member])
      have nonneg := total_nonneg later
      rw [total_cons] at fits
      obtain ⟨n, run, best⟩ := ih ⟨s.selected_utxos ++ [utxo],
        s.selected_total + utxo.dd_amount⟩ later
        (by dsimp only; omega)
      refine ⟨n + 1, ?_, ?_⟩
      · rw [selectFrom, if_neg (by rwa [ddChangeIsStandard_iff]), if_neg (by omega),
          if_neg (by omega), run]
        simp [total_cons, add_assoc]
      · rintro ⟨m, pays⟩
        rw [List.take_succ_cons, total_cons, ← add_assoc]
        apply best
        cases m with
        | zero =>
          rw [List.take_zero, total_nil, add_zero] at pays
          exact absurd pays standard
        | succ m =>
          refine ⟨m, ?_⟩
          rw [List.take_succ_cons, total_cons, ← add_assoc] at pays
          exact pays

section Selection

variable (sorts : Sorts sort) (positive : ∀ utxo ∈ available, 0 < utxo.dd_amount)
  (fits : total available ≤ INT64_MAX)

include sorts positive fits

private theorem selectDDCoins_eq_ok {s : DDSelection}
    (selected : selectDDCoins sort minOutputAmount available target_amount = .ok s) :
    (∃ n, s.selected_utxos = (sort available).take n) ∧ s.selected_total = total s.selected_utxos ∧
      Pays minOutputAmount target_amount s.selected_total := by
  obtain ⟨perm, _⟩ := sorts available
  have same : total (sort available) = total available := (perm.map _).sum_eq
  obtain ⟨n, run, _⟩ := @selectFrom_eq minOutputAmount target_amount (sort available) {}
    (fun utxo member => positive utxo (perm.mem_iff.mp member)) (by simpa [same] using fits)
  simp only [selectDDCoins, run, bind_eq_ok, rejectIf_eq_ok, List.nil_append, zero_add,
    Except.ok.injEq, exists_eq_left'] at selected
  obtain ⟨_, _, _, _, _, standard, rfl⟩ := selected
  exact ⟨⟨n, rfl⟩, rfl, ddChangeIsStandard_iff.mp (by simpa using standard)⟩

private theorem selectDDCoins_of_pays {m : ℕ} (asked : 0 < target_amount)
    (pays : Pays minOutputAmount target_amount (total ((sort available).take m))) :
    ∃ s, selectDDCoins sort minOutputAmount available target_amount = .ok s := by
  obtain ⟨perm, _⟩ := sorts available
  have same : total (sort available) = total available := (perm.map _).sum_eq
  obtain ⟨n, run, best⟩ := @selectFrom_eq minOutputAmount target_amount (sort available) {}
    (fun utxo member => positive utxo (perm.mem_iff.mp member)) (by simpa [same] using fits)
  have standard := best ⟨m, by simpa using pays⟩
  have some_coin : available ≠ [] := by
    rintro rfl
    have nothing : sort [] = [] := List.perm_nil.mp perm
    have reached := pays.1
    rw [nothing, List.take_nil, total_nil] at reached
    omega
  rw [← ddChangeIsStandard_iff] at standard
  refine ⟨⟨[] ++ (sort available).take n, 0 + total ((sort available).take n)⟩, ?_⟩
  rw [selectDDCoins, rejectIf_bind_of_not (by omega), rejectIf_bind_of_not some_coin, run, ok_bind,
    rejectIf_bind_of_not (by simpa using standard)]

end Selection

private theorem map_subperm {α : Type} (f : DDUtxo → α) {chosen utxos : List DDUtxo}
    (sub : chosen.Subperm utxos) : (chosen.map f).Subperm (utxos.map f) := by
  obtain ⟨inside, same, sublist⟩ := sub
  exact ⟨inside.map f, same.map f, sublist.map f⟩

private theorem exists_chosen_iff {utxos : List DDUtxo} {P : ℤ → Prop} :
    (∃ chosen : List DDUtxo, chosen.Subperm utxos ∧ P (total chosen)) ↔
      ∃ amounts : List ℤ, amounts.Subperm (utxos.map DDUtxo.dd_amount) ∧ P amounts.sum := by
  constructor
  · rintro ⟨chosen, sub, holds⟩
    exact ⟨chosen.map DDUtxo.dd_amount, map_subperm _ sub, holds⟩
  · rintro ⟨amounts, ⟨inside, same, sublist⟩, holds⟩
    obtain ⟨chosen, listed, rfl⟩ := List.sublist_map_iff.mp sublist
    refine ⟨chosen, listed.subperm, ?_⟩
    rw [total, same.sum_eq]
    exact holds

private theorem complete_iff_prefixes (sorts : Sorts sort) (minimum : 0 ≤ minOutputAmount)
    (positive : ∀ utxo ∈ available, 0 < utxo.dd_amount) (fits : total available ≤ INT64_MAX)
    (asked : 0 < target_amount) :
    ((∃ chosen : List DDUtxo, chosen.Subperm available ∧
        (total chosen = target_amount ∨ target_amount + minOutputAmount ≤ total chosen)) →
      ∃ s, selectDDCoins sort minOutputAmount available target_amount = .ok s) ↔
    ((∃ chosen : List ℤ, chosen.Subperm ((sort available).map DDUtxo.dd_amount) ∧
        Pays minOutputAmount target_amount chosen.sum) →
      ∃ n, Pays minOutputAmount target_amount
        (((sort available).map DDUtxo.dd_amount).take n).sum) := by
  obtain ⟨perm, _⟩ := sorts available
  refine imp_congr ?_ ?_
  · rw [← @exists_chosen_iff (sort available)]
    refine exists_congr fun chosen => and_congr perm.symm.subperm_left ?_
    unfold Pays
    omega
  · simp only [← List.map_take]
    constructor
    · rintro ⟨s, selected⟩
      obtain ⟨⟨n, taken⟩, sum, pays⟩ := selectDDCoins_eq_ok sorts positive fits selected
      rw [sum, taken] at pays
      exact ⟨n, pays⟩
    · rintro ⟨n, pays⟩
      exact selectDDCoins_of_pays sorts positive fits asked pays

private theorem amounts_pos (sorts : Sorts sort)
    (positive : ∀ utxo ∈ available, 0 < utxo.dd_amount) :
    ∀ amount ∈ (sort available).map DDUtxo.dd_amount, 0 < amount := by
  intro amount member
  obtain ⟨utxo, listed, rfl⟩ := List.mem_map.mp member
  exact positive utxo ((sorts available).1.mem_iff.mp listed)

/-- A selection is sound. At a target the wallet finds one whenever there is one, except
where taking all coins leaves too little change, some coins add up to the target, and no
smallest ones do. -/
theorem selectDDCoins_sound_and_complete_iff (sorts : Sorts sort)
    (minimum : 0 ≤ minOutputAmount) (distinct : (available.map DDUtxo.outpoint).Nodup)
    (positive : ∀ utxo ∈ available, 0 < utxo.dd_amount) (fits : total available < 2 ^ 63)
    (asked : 0 < target_amount) :
    (∀ s, selectDDCoins sort minOutputAmount available target_amount = .ok s →
      s.selected_utxos.Subperm available ∧ (s.selected_utxos.map DDUtxo.outpoint).Nodup ∧
        s.selected_total = total s.selected_utxos ∧ target_amount ≤ s.selected_total ∧
        (s.selected_total = target_amount ∨
          minOutputAmount ≤ s.selected_total - target_amount)) ∧
    (((∃ chosen : List DDUtxo, chosen.Subperm available ∧
        (total chosen = target_amount ∨ target_amount + minOutputAmount ≤ total chosen)) →
      ∃ s, selectDDCoins sort minOutputAmount available target_amount = .ok s) ↔
    ¬(0 < total available - target_amount ∧
        total available - target_amount < minOutputAmount) ∨
      (∀ chosen : List DDUtxo, chosen.Subperm available → total chosen ≠ target_amount) ∨
      ∃ k, total ((sort available).take k) = target_amount) := by
  have fits : total available ≤ INT64_MAX := by
    unfold INT64_MAX
    omega
  obtain ⟨perm, _⟩ := sorts available
  refine ⟨?_, ?_⟩
  · intro s selected
    obtain ⟨⟨n, taken⟩, sum, reached, excess⟩ := selectDDCoins_eq_ok sorts positive fits selected
    have sub : s.selected_utxos.Subperm available := by
      rw [taken]
      exact (List.take_sublist n _).subperm.trans perm.subperm
    obtain ⟨inside, same, sublist⟩ := map_subperm DDUtxo.outpoint sub
    exact ⟨sub, same.nodup_iff.mp (distinct.sublist sublist), sum, reached, by omega⟩
  · rw [complete_iff_prefixes sorts minimum positive fits asked,
      prefix_pays_iff (amounts_pos sorts positive), (perm.map DDUtxo.dd_amount).sum_eq]
    have unmatched : (∀ chosen : List ℤ, chosen.Subperm ((sort available).map DDUtxo.dd_amount) →
        chosen.sum ≠ target_amount) ↔
        ∀ chosen : List DDUtxo, chosen.Subperm available → total chosen ≠ target_amount := by
      rw [← not_iff_not]
      push Not
      rw [← @exists_chosen_iff (sort available) (· = target_amount)]
      exact exists_congr fun chosen => and_congr perm.subperm_left Iff.rfl
    rw [unmatched]
    simp only [← List.map_take]
    exact Iff.rfl

theorem complete_at_all_targets_iff (sorts : Sorts sort) (minimum : 0 ≤ minOutputAmount)
    (positive : ∀ utxo ∈ available, 0 < utxo.dd_amount) (fits : total available < 2 ^ 63) :
    (∀ target_amount, 0 < target_amount →
      (∃ chosen : List DDUtxo, chosen.Subperm available ∧
        (total chosen = target_amount ∨ target_amount + minOutputAmount ≤ total chosen)) →
      ∃ s, selectDDCoins sort minOutputAmount available target_amount = .ok s) ↔
    (∀ utxo ∈ available, minOutputAmount ≤ utxo.dd_amount) ∨
      ∀ a ∈ available, ∀ b ∈ available, a.dd_amount = b.dd_amount := by
  have fits : total available ≤ INT64_MAX := by
    unfold INT64_MAX
    omega
  obtain ⟨perm, ordered⟩ := sorts available
  have complete := @prefixes_complete_iff ((sort available).map DDUtxo.dd_amount) minOutputAmount
    (amounts_pos sorts positive) (List.pairwise_map.mpr ordered)
  simp only [List.forall_mem_map, perm.mem_iff] at complete
  rw [← complete]
  exact forall_congr' fun target_amount => forall_congr' fun asked =>
    complete_iff_prefixes sorts minimum positive fits asked

namespace Sample

/-- One of the sorts that `std::sort` may be. -/
def byAmount (utxos : List DDUtxo) : List DDUtxo :=
  utxos.insertionSort fun a b => a.dd_amount ≤ b.dd_amount

theorem byAmount_sorts : Sorts byAmount := by
  intro utxos
  have total : Std.Total fun a b : DDUtxo => a.dd_amount ≤ b.dd_amount := ⟨fun _ _ => le_total _ _⟩
  have trans : IsTrans DDUtxo fun a b => a.dd_amount ≤ b.dd_amount := ⟨fun _ _ _ => le_trans⟩
  exact ⟨List.perm_insertionSort _ _, List.pairwise_insertionSort _ _⟩

def coins (first second : ℤ) : List DDUtxo := [⟨⟨4, 1⟩, first⟩, ⟨⟨5, 1⟩, second⟩]

/-- A coin of 200 cents pays 200 cents, but is not found beside one of 50 cents. -/
theorem exact_coin_missed :
    (coins 50 200 |>.drop 1).Subperm (coins 50 200) ∧ total (coins 50 200 |>.drop 1) = 200 ∧
      selectDDCoins byAmount 100 (coins 50 200) 200 =
        .error ("Selected DD input change is below minimum DigiDollar output. " ++
          "Change: 50 cents, Minimum: 100 cents") :=
  ⟨(List.drop_sublist _ _).subperm, by decide, by decide +kernel⟩

/-- Out of the same coins 120 cents are paid with change, and beside a coin of 60 cents the
smaller coin is found, though all coins together leave too little change. -/
theorem coins_found :
    (∃ s, selectDDCoins byAmount 100 (coins 50 200) 120 = .ok s) ∧
      ∃ s, selectDDCoins byAmount 100 (coins 50 60) 50 = .ok s := by
  have with_change := @selectDDCoins_sound_and_complete_iff byAmount 100 120 (coins 50 200)
    byAmount_sorts (by decide) (by decide) (by decide) (by decide) (by decide)
  have exactly := @selectDDCoins_sound_and_complete_iff byAmount 100 50 (coins 50 60)
    byAmount_sorts (by decide) (by decide) (by decide) (by decide) (by decide)
  refine ⟨with_change.2.mpr (.inl (by decide)) ?_, exactly.2.mpr (.inr (.inr ⟨1, ?_⟩)) ?_⟩
  · exact ⟨coins 50 200, .refl _, .inr (by decide)⟩
  · decide +kernel
  · exact ⟨(coins 50 60).take 1, (List.take_sublist _ _).subperm, .inl (by decide)⟩

end Sample

end DigiByte.Wallet
