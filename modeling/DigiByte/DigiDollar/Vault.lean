import DigiByte.DigiDollar.Metadata
import DigiByte.DigiDollar.State

/-!
Canonical vault identity and the health accounting (`digidollar/health.cpp`).

The coin set walked by the rebuild is the list of its entries; the totals do
not depend on the order, and `Accounting` proves so.
-/

set_option autoImplicit false
set_option relaxedAutoImplicit false

namespace DigiByte.DigiDollar

open Consensus Script

/-- A lookup of creating transactions by identifier and height. -/
abbrev CanonicalTxLookup := ℕ → ℕ → Option CTransaction

def coinMayContainDigiDollar (coin : Coin) (params : Params) : Bool :=
  !coin.isSpent && !coin.fCoinBase && params.DigiDollarHeight ≠ INT_MAX &&
    toUint32 params.DigiDollarHeight ≤ coin.nHeight && isCanonicalP2TROutput coin.out.scriptPubKey

structure CanonicalVault where
  outpoint : COutPoint
  principal : ℤ
  collateral : ℤ
  deriving DecidableEq, Repr

inductive VaultLookupResult
  | notVault
  | notReady (error : String)
  | vault (v : CanonicalVault)
  deriving DecidableEq, Repr

/-- The creating transaction is found, has the identifier and holds the coin. -/
def creatingTransaction (lookup : CanonicalTxLookup) (outpoint : COutPoint) (coin : Coin) :
    Option CTransaction :=
  match lookup outpoint.hash coin.nHeight with
  | some creating =>
    if creating.hash = outpoint.hash ∧ creating.vout[outpoint.n]? = some coin.out then some creating
    else none
  | none => none

theorem creatingTransaction_eq_some {lookup : CanonicalTxLookup} {outpoint : COutPoint}
    {coin : Coin}
    {creating : CTransaction} (h : creatingTransaction lookup outpoint coin = some creating) :
    lookup outpoint.hash coin.nHeight = some creating ∧ creating.hash = outpoint.hash ∧
      creating.vout[outpoint.n]? = some coin.out := by
  unfold creatingTransaction at h
  split at h
  · rename_i found
    split_ifs at h with holds
    cases h
    exact ⟨found, holds⟩
  · cases h

/-- Text of `ToString` on hashes: the number stands for the hexadecimal digits. -/
def notReadyMessage (outpoint : COutPoint) (coin : Coin) : String :=
  s!"DigiDollar state not ready: restore the creating block at height {coin.nHeight} for " ++
    s!"{outpoint.hash}:{outpoint.n}"

def lookupCanonicalVault (outpoint : COutPoint) (coin : Coin) (params : Params)
    (lookup : CanonicalTxLookup) : VaultLookupResult :=
  if coinMayContainDigiDollar coin params = false ∨ coin.out.nValue ≤ 0 then .notVault
  else match creatingTransaction lookup outpoint coin with
    | none => .notReady (notReadyMessage outpoint coin)
    | some creating =>
      if hasDigiDollarMarker creating = false ∨ creating.isCoinBase ∨
          getDigiDollarTxType creating ≠ .mint then .notVault
      else match extractMintAccountingAmounts (fun _ => none) creating false with
        | none => .notVault
        | some (principal, collateral) =>
          if collateral ≠ coin.out.nValue then .notVault
          else .vault ⟨outpoint, principal, collateral⟩

def calculateChainstateHealth (state : ChainstateHealth) (price_micro_usd : ℤ) : Option ℤ :=
  if state.isValid = false ∨ price_micro_usd ≤ 0 then none
  else some (calculateSystemHealth state.collateral state.open_vault_principal
    (price_micro_usd / 10))

/-- The coin loop of `ReconstructChainstateHealth` from a partial record. -/
def rebuildFrom (params : Params) (lookup : CanonicalTxLookup) :
    List (COutPoint × Coin) → ChainstateHealth → Option ChainstateHealth
  | [], rebuilt => some rebuilt
  | (outpoint, coin) :: rest, rebuilt =>
    match lookupCanonicalVault outpoint coin params lookup with
    | .notReady _ => none
    | .notVault => rebuildFrom params lookup rest rebuilt
    | .vault v =>
      match rebuilt.addVault v.principal v.collateral with
      | none => none
      | some rebuilt => rebuildFrom params lookup rest rebuilt

/-- `ReconstructChainstateHealth` on a consistent view of the given best block.
The supply figure, the progress reports and the interruption are left out. -/
def reconstructChainstateHealth (coins : List (COutPoint × Coin)) (best_block : ℕ)
    (params : Params) (lookup : CanonicalTxLookup) : Option ChainstateHealth :=
  let rebuilt : ChainstateHealth :=
    { genesis_hash := params.hashGenesisBlock
      activation_height := params.nDDThawDayHeight
      digidollar_height := params.DigiDollarHeight
      best_block := best_block }
  if best_block = 0 then none
  else match rebuildFrom params lookup coins rebuilt with
    | none => none
    | some rebuilt => if rebuilt.isValid then some rebuilt else none

/-- The `mint` step of `UpdateChainstateHealth`. -/
def updateMint (tx : CTransaction) (params : Params) (undo : Bool) (creating_height : ℕ)
    (next : ChainstateHealth) : Option ChainstateHealth :=
  if params.DigiDollarHeight = INT_MAX ∨ creating_height < toUint32 params.DigiDollarHeight then
    some next
  else if hasDigiDollarMarker tx = false ∨ getDigiDollarTxType tx ≠ .mint then some next
  else match extractMintAccountingAmounts (fun _ => none) tx false with
    | none => none
    | some (principal, collateral) =>
      if undo then next.removeVault principal collateral else next.addVault principal collateral

/-- The input loop of `UpdateChainstateHealth`. -/
def updateInputs (params : Params) (lookup : CanonicalTxLookup) (undo : Bool) :
    List (CTxIn × Coin) → ChainstateHealth → Option ChainstateHealth
  | [], next => some next
  | (input, coin) :: rest, next =>
    match lookupCanonicalVault input.prevout coin params lookup with
    | .notReady _ => none
    | .notVault => updateInputs params lookup undo rest next
    | .vault v =>
      match (if undo then next.addVault v.principal v.collateral
        else next.removeVault v.principal v.collateral) with
      | none => none
      | some next => updateInputs params lookup undo rest next

/-- The new record and whether the call returned true. -/
def updateChainstateHealth (tx : CTransaction) (inputs : List Coin) (params : Params)
    (lookup : CanonicalTxLookup) (health : ChainstateHealth) (undo : Bool)
    (creating_height : ℕ) : ChainstateHealth × Bool :=
  if tx.isCoinBase then (health, true)
  else if inputs.length ≠ tx.vin.length then (health, false)
  else
    -- Reverse output creation before input restoration, matching the coin undo.
    let next :=
      if undo then
        (updateMint tx params undo creating_height health).bind
          (updateInputs params lookup undo (tx.vin.zip inputs))
      else
        (updateInputs params lookup undo (tx.vin.zip inputs) health).bind
          (updateMint tx params undo creating_height)
    match next with
    | none => (health, false)
    | some next => (next, true)

end DigiByte.DigiDollar
