import DigiByte.DigiDollar.SupplyTotals
import Mathlib.Logic.Function.Basic

/-!
The DigiDollar statistics index (`index/digidollarstatsindex.cpp`).

A block index entry is its ancestry: the blocks above genesis, the newest first, so
that its height is a length and its parent a tail. Blocks come with their undo data
as they are on disk. Log lines, progress reports and the interruption are left out;
a failed call returns `none` and changes nothing.
-/

set_option autoImplicit false
set_option relaxedAutoImplicit false

namespace DigiByte.Index

open Consensus DigiDollar

structure StoredBlock where
  hash : ℕ
  vtx : List CTransaction
  vtxundo : List (List Coin)
  deriving DecidableEq, Repr

abbrev Branch := List StoredBlock

/-- The hash of the newest block. -/
def Branch.hash (genesis : StoredBlock) : Branch → ℕ
  | [] => genesis.hash
  | block :: _ => block.hash

/-- No DigiDollar state: genesis and the blocks below the DigiDollar height. -/
def Branch.Below (params : Params) (index : Branch) : Prop :=
  index.length = 0 ∨ (index.length : ℤ) < params.DigiDollarHeight

instance (params : Params) (index : Branch) : Decidable (index.Below params) :=
  inferInstanceAs (Decidable (_ ∨ _))

/-- `LastCommonAncestor` from equal heights on. -/
def commonAncestor : Branch → Branch → Branch
  | a :: pa, b :: pb => if a :: pa = b :: pb then a :: pa else commonAncestor pa pb
  | _, _ => []

def lastCommonAncestor (pa pb : Branch) : Branch :=
  commonAncestor (pa.drop (pa.length - pb.length)) (pb.drop (pb.length - pa.length))

structure DigiDollarDBVal where
  total_dd_supply : ℤ
  total_collateral : ℤ
  vault_count : ℕ
  supply_known : Bool := true
  deriving DecidableEq, Repr

/-- The members of the index with its rows by height and by hash. -/
structure StatsIndex where
  m_total_dd_supply : ℤ
  m_supply_known : Bool
  m_supply_verified : Bool
  m_total_collateral : ℤ
  m_vault_count : ℕ
  heightRows : ℕ → Option (ℕ × DigiDollarDBVal)
  hashRows : ℕ → Option DigiDollarDBVal

/-- The chainstate at the time of a call: the active chain, the coins in cursor order
and their best block. -/
structure NodeView where
  active : Branch
  coins : List (COutPoint × Coin)
  bestBlock : ℕ

section Model

variable (params : Params) (genesis : StoredBlock)

/-- The creating transactions on a branch, as every lookup of the index finds them. -/
def branchLookup : Branch → CanonicalTxLookup
  | [], txid, height =>
    if height = 0 then genesis.vtx.find? fun tx => tx.hash = txid else none
  | block :: parent, txid, height =>
    if height = parent.length + 1 then block.vtx.find? fun tx => tx.hash = txid
    else branchLookup parent txid height

namespace SupplyVerification

/-- The transaction loop of `ApplyBlock` on `change` and `known`. -/
def changeLoop (lookup : CanonicalTxLookup) (height : ℕ) :
    List (CTransaction × List Coin) → ℤ × Bool → Option (ℤ × Bool)
  | [], state => some state
  | (tx, inputs) :: rest, (change, known) =>
    match getCirculatingSupplyChange tx inputs height params lookup with
    | .failure _ => none
    | .unknownMetadata _ => changeLoop lookup height rest (change, false)
    | .known delta => changeLoop lookup height rest (change + delta, known)

def applyBlock (index : Branch) (undo : Bool) : ℤ × Bool → Option (ℤ × Bool)
  | (supply, known) =>
    if index.Below params then some (supply, known)
    else match index with
      | [] => none
      | block :: parent =>
        if block.vtxundo.length + 1 ≠ block.vtx.length then none
        else match changeLoop params (branchLookup genesis (block :: parent)) (parent.length + 1)
            (block.vtx.tail.zip block.vtxundo) (0, known) with
          | none => none
          | some (change, known) =>
            if known = false then some (supply, known)
            else
              let next := supply + if undo then -change else change
              if next < 0 ∨ next > INT64_MAX then none else some (next, known)

/-- The first loop of `Move`, down to the fork. -/
def undoBlocks (fork : Branch) : Branch → ℤ × Bool → Option (ℤ × Bool)
  | [], state => some state
  | block :: parent, state =>
    if block :: parent = fork then some state
    else (applyBlock params genesis (block :: parent) true state).bind (undoBlocks fork parent)

/-- The second loop of `Move`, up from the fork. -/
def applyBlocks (fork : Branch) : Branch → ℤ × Bool → Option (ℤ × Bool)
  | [], state => some state
  | block :: parent, state =>
    if block :: parent = fork then some state
    else (applyBlocks fork parent state).bind (applyBlock params genesis (block :: parent) false)

def move (source target : Branch) (state : ℤ × Bool) : Option (ℤ × Bool) :=
  let fork := lastCommonAncestor source target
  (undoBlocks params genesis fork source state).bind (applyBlocks params genesis fork target)

/-- `At`. The caller's supply stays where the rebuild does not know one. -/
def supplyAt (node : NodeView) (target : Branch) (supply : ℤ) : Option (ℤ × Bool) :=
  if target.Below params then some (0, true)
  else if node.bestBlock ≠ node.active.hash genesis then none
  else match reconstructSupply node.coins node.bestBlock params
    (branchLookup genesis node.active) with
    | none => none
    | some (_, counted) =>
      move params genesis node.active target (counted.getD supply, counted.isSome)

end SupplyVerification

open SupplyVerification

/-- The vaults among the inputs leave `collateral` and `vaults`. -/
def appendInputs (lookup : CanonicalTxLookup) : List (CTxIn × Coin) → ℤ × ℕ → Option (ℤ × ℕ)
  | [], state => some state
  | (txin, coin) :: rest, (collateral, vaults) =>
    match lookupCanonicalVault txin.prevout coin params lookup with
    | .notReady _ => none
    | .notVault => appendInputs lookup rest (collateral, vaults)
    | .vault vault =>
      if collateral < vault.collateral ∨ vaults = 0 then none
      else appendInputs lookup rest (collateral - vault.collateral, vaults - 1)

/-- The vault of a mint enters them. -/
def appendMint (tx : CTransaction) : ℤ × ℕ → Option (ℤ × ℕ)
  | (collateral, vaults) =>
    if hasDigiDollarMarker tx = true ∧ getDigiDollarTxType tx = .mint then
      match extractMintAccountingAmounts (fun _ => none) tx false with
      | none => none
      | some (_, value) =>
        if value > MAX_MONEY - collateral ∨ vaults = UINT64_MAX then none
        else some (collateral + value, vaults + 1)
    else some (collateral, vaults)

/-- The supply after a transaction with the given report. -/
def appendSupply : SupplyChangeResult → ℤ × Bool → Option (ℤ × Bool)
  | .failure _, _ => none
  | .unknownMetadata _, (supply, _) => some (supply, false)
  | .known delta, (supply, supply_known) =>
    if supply_known then
      if supply + delta < 0 ∨ supply + delta > INT64_MAX then none else some (supply + delta, true)
    else some (supply, false)

/-- The transaction loop of `CustomAppend`. -/
def appendTxs (lookup : CanonicalTxLookup) (height : ℕ) :
    List (CTransaction × List Coin) → (ℤ × Bool) × ℤ × ℕ → Option ((ℤ × Bool) × ℤ × ℕ)
  | [], state => some state
  | (tx, inputs) :: rest, (supply, vaults) => do
    let supply ← appendSupply (getCirculatingSupplyChange tx inputs height params lookup) supply
    let vaults ← appendInputs params lookup (tx.vin.zip inputs) vaults
    let vaults ← appendMint tx vaults
    appendTxs lookup height rest (supply, vaults)

/-- The check of an index that has not been verified, in front of the first block with
Thaw Day active: the supply, whether it is known and whether it is verified. -/
def verifyParent (node : NodeView) (parent : Branch)
    (s : StatsIndex) : Option ((ℤ × Bool) × Bool) :=
  if s.m_supply_verified = false ∧ isThawDayActive params (parent.length + 1) = true then
    match supplyAt params genesis node parent 0 with
    | none => none
    | some (verified, known) =>
      some ((if known then verified else s.m_total_dd_supply, known), true)
  else some ((s.m_total_dd_supply, s.m_supply_known), s.m_supply_verified)

def StatsIndex.writeHeight (s : StatsIndex) (height hash : ℕ)
    (value : DigiDollarDBVal) : StatsIndex :=
  { s with heightRows := Function.update s.heightRows height (some (hash, value)) }

/-- The members take the values of a row. -/
def StatsIndex.restore (s : StatsIndex) (value : DigiDollarDBVal) : StatsIndex :=
  { s with
    m_total_dd_supply := value.total_dd_supply
    m_supply_known := value.supply_known
    m_total_collateral := value.total_collateral
    m_vault_count := value.vault_count }

def customAppend (node : NodeView) (pindex : Branch) (s : StatsIndex) : Option StatsIndex :=
  if pindex.Below params then
    some (s.writeHeight pindex.length (pindex.hash genesis) ⟨0, 0, 0, true⟩)
  else match pindex with
    | [] => none
    | block :: parent =>
      if block.vtxundo.length + 1 ≠ block.vtx.length then none
      else match verifyParent params genesis node parent s with
        | none => none
        | some (supply, supply_verified) =>
          match appendTxs params (branchLookup genesis (block :: parent)) (parent.length + 1)
              (block.vtx.tail.zip block.vtxundo) (supply, s.m_total_collateral,
                s.m_vault_count) with
          | none => none
          | some ((supply, supply_known), collateral, vaults) =>
            let value : DigiDollarDBVal := ⟨supply, collateral, vaults, supply_known⟩
            some ({ s with m_supply_verified := supply_verified }.restore value
              |>.writeHeight (parent.length + 1) block.hash value)

/-- The copy loop of `CustomRewind`: the rows of `count` heights go to the hash rows. -/
def copyRows (heightRows : ℕ → Option (ℕ × DigiDollarDBVal)) :
    ℕ → ℕ → (ℕ → Option DigiDollarDBVal) → Option (ℕ → Option DigiDollarDBVal)
  | 0, _, hashRows => some hashRows
  | count + 1, height, hashRows =>
    match heightRows height with
    | none => none
    | some (hash, value) =>
      copyRows heightRows count (height + 1) (Function.update hashRows hash (some value))

/-- `new_tip_state`: the row of the new tip's height, with the value of its hash row
where the height row is another block's. -/
def newTipState (new_tip : Branch) (s : StatsIndex) : Option (ℕ × DigiDollarDBVal) :=
  let row :=
    if (new_tip.length : ℤ) < params.DigiDollarHeight then
      some (new_tip.hash genesis, ⟨0, 0, 0, true⟩)
    else s.heightRows new_tip.length
  row.bind fun (hash, value) =>
    if hash ≠ new_tip.hash genesis then
      (s.hashRows (new_tip.hash genesis)).map fun value => (hash, value)
    else some (hash, value)

def customRewind (node : NodeView) (current_tip new_tip : Branch) (s : StatsIndex) :
    Option StatsIndex :=
  let first := max new_tip.length params.DigiDollarHeight.toNat
  match copyRows s.heightRows (current_tip.length + 1 - first) first s.hashRows with
  | none => none
  | some hashRows =>
    match newTipState params genesis new_tip s with
    | none => none
    | some (hash, value) =>
      if s.m_supply_verified then
        let moved :=
          if s.m_supply_known then
            move params genesis current_tip new_tip (s.m_total_dd_supply, s.m_supply_known)
          else supplyAt params genesis node new_tip s.m_total_dd_supply
        match moved with
        | none => none
        | some (verified, known) =>
          let value : DigiDollarDBVal :=
            { value with
              total_dd_supply := if known then verified else value.total_dd_supply
              supply_known := known }
          let copied := { s with hashRows }.restore value
          if hash = new_tip.hash genesis then some (copied.writeHeight new_tip.length hash value)
          else some { copied with
            hashRows := Function.update hashRows (new_tip.hash genesis) (some value) }
      else some ({ s with hashRows }.restore value)

end Model

end DigiByte.Index
