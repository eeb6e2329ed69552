import DigiByte.DigiDollar.Context
import DigiByte.Script.VaultLeaves

/-!
`ValidateMintTransaction` of `digidollar/validation.cpp`.

The output loop runs over a record of the function's local variables. The
fields read from the metadata output are assigned together, after the last of
them is read: every failure before that ends the call.
-/

set_option autoImplicit false
set_option relaxedAutoImplicit false

namespace DigiByte.DigiDollar

open Consensus Script
open Library.Checks (rejectIf)

def COLLATERAL_NUMS_POINT_BYTES : Bytes :=
  [0x50, 0x92, 0x9b, 0x74, 0xc1, 0xa0, 0x49, 0x54, 0xb7, 0x8b, 0x4b, 0x60, 0x35, 0xe9, 0x7a, 0x5e,
    0x07, 0x8a, 0x5a, 0x0f, 0x28, 0xec, 0x96, 0xd5, 0x47, 0xbf, 0xee, 0x9a, 0xce, 0x80, 0x3a, 0xc0]

/-- The local variables of the output loop. -/
structure MintScan where
  totalDD : ℤ := 0
  totalCollateral : ℤ := 0
  hasCollateralOutput : Bool := false
  hasDDOutput : Bool := false
  ddOutputCount : ℕ := 0
  collateralOutputCount : ℕ := 0
  ddOpReturnCount : ℕ := 0
  lockTime : ℤ := 0
  claimedLockTier : ℤ := -1
  claimedTierLockBlocks : ℤ := -1
  ownerXOnlyPubKeyData : Bytes := []
  hasOwnerPubKey : Bool := false
  actualCollateralScript : Bytes := []
  deriving DecidableEq, Repr

def DUST_THRESHOLD : ℤ := 546

def validateCollateralOutput (output : CTxOut) : Except Failure Unit := do
  rejectIf (isCanonicalP2TROutput output.scriptPubKey = false) (.invalid "bad-collateral-script")
  rejectIf (output.nValue < DUST_THRESHOLD) (.invalid "collateral-dust")

def validateDDOutput (output : CTxOut) : Except Failure Unit := do
  rejectIf (output.nValue ≠ 0) (.invalid "dd-output-value")
  rejectIf (isCanonicalP2TROutput output.scriptPubKey = false) (.invalid "bad-dd-script")

/-- The first loop: a readable amount of a zero-value output obeys both limits. -/
def checkEarlyAmounts (registry : ScriptRegistry) (ctx : ValidationContext) :
    List CTxOut → Except Failure Unit
  | [] => .ok ()
  | output :: rest => do
    rejectIf (output.nValue = 0 ∧ ∃ ddAmt ∈ extractDDAmount registry output.scriptPubKey false,
        (validateMintAmount ddAmt ctx.params ctx.nHeight && validateOutputAmount ddAmt ctx.params) =
          false)
      (.invalid "bad-dd-mint-amount")
    checkEarlyAmounts registry ctx rest

/-- The Thaw Day price rule against the ancestor reference. -/
def checkMintReference (ctx : ValidationContext) : Except Failure Unit := do
  rejectIf (¬ ∃ parent ∈ ctx.candidateParent, parent.nHeight = ctx.nHeight - 1 ∧
      ctx.mintReference.candidate_height = ctx.nHeight ∧
      ctx.mintReference.parent_hash = parent.hash ∧
      ctx.mintReference.genesis_hash = ctx.params.consensus.hashGenesisBlock)
    (.error
      "DigiDollar volatility state not ready: candidate reference is unavailable or mismatched")
  let status := evaluateMintPrice ctx.oraclePriceMicroUSD ctx.mintReference
  rejectIf (status.ready = false)
    (.error (if ctx.mintReference.error = "" then "DigiDollar volatility state not ready"
      else ctx.mintReference.error))
  rejectIf (status.restricted = true)
    (.invalid "minting-volatility-pause"
      "Candidate oracle price differs by at least 20% from the ancestor reference")

/-! The fields of the metadata output. -/

/-- An unreadable type counts as 0; the position advances all the same. -/
def readMintType (pc : Bytes) : ℤ × Bytes :=
  match getScriptOp pc with
  | (some (_, data), pc) => (((scriptNum data true 4).map getint).getD 0, pc)
  | (none, pc) => (0, pc)

/-- A nonempty push of at most eight bytes, minimally encoded. -/
def readMintNumber (pc : Bytes) (reason missing malformed : String) : Except Failure (ℤ × Bytes) :=
  match getScriptOp pc with
  | (none, _) => .error (.invalid reason missing)
  | (some (_, data), pc) =>
    if data = [] then .error (.invalid reason missing)
    else match scriptNum data true 8 with
      | none => .error (.invalid reason malformed)
      | some value => .ok (value, pc)

def readMintAmount (pc : Bytes) : Except Failure (ℤ × Bytes) :=
  readMintNumber pc "bad-mint-opreturn-amount" "Mint OP_RETURN must include a DD amount"
    "Mint OP_RETURN DD amount must be minimally encoded"

def readMintLockHeight (pc : Bytes) : Except Failure (ℤ × Bytes) :=
  readMintNumber pc "bad-mint-lock-height" "Mint OP_RETURN must include a positive lock height"
    "Mint OP_RETURN lock height must be minimally encoded"

/-- The claimed tier with its length in blocks. A failed read is no claim, and
a lock that is already over is not compared with its tier here. -/
def readMintTier (ctx : ValidationContext) (lockTime : ℤ) (pc : Bytes) :
    Except Failure (Option (ℤ × ℤ) × Bytes) :=
  match getScriptOp pc with
  | (none, pc) => .ok (none, pc)
  | (some (_, data), pc) =>
    match scriptNum data true 4 with
    | none => .error (.invalid "bad-mint-lock-tier-parse")
    | some lockTierNum => do
      let lockTier := getint lockTierNum
      rejectIf (lockTier < 0 ∨ lockTier > 9) (.invalid "bad-mint-lock-tier" "Lock tier must be 0-9")
      let expectedLockBlocks := lockDaysToBlocks (TIER_LOCK_DAYS.getD lockTier.toNat 0)
      rejectIf (¬ lockTime ≤ ctx.nHeight ∧ (lockTime - ctx.nHeight < expectedLockBlocks ∨
          lockTime - ctx.nHeight > expectedLockBlocks + MINT_LOCK_CONFIRMATION_BUFFER_BLOCKS))
        (.invalid "bad-mint-lock-tier-duration"
          "Lock height must be within the canonical confirmation window for the claimed tier")
      .ok (some (lockTier, expectedLockBlocks), pc)

def readMintOwner (pc : Bytes) : Except Failure Bytes :=
  match getScriptOp pc with
  | (some (_, data), _) =>
    if data.length = 32 then .ok data
    else .error (.invalid "bad-mint-owner-pubkey" "Owner x-only pubkey must be 32 bytes")
  | (none, _) => .error (.invalid "bad-mint-missing-owner-pubkey"
      "Mint OP_RETURN must include owner x-only pubkey for NUMS verification")

/-- The metadata output of a mint from the position after the tag. -/
def scanMintPayload (ctx : ValidationContext) (pc : Bytes) (s : MintScan) :
    Except Failure MintScan := do
  rejectIf (s.ddOpReturnCount + 1 > 1) (.invalid "bad-mint-multiple-dd-opreturn"
    "Mint transactions must have exactly 1 DD OP_RETURN to prevent owner key confusion")
  let type := readMintType pc
  rejectIf (type.1 ≠ DigiDollarTxType.mint.toInt) (.invalid "bad-mint-opreturn-type"
    "Mint transaction OP_RETURN type must match nVersion type")
  let amount ← readMintAmount type.2
  rejectIf (amount.1 ≤ 0 ∨ amount.1 > MAX_DIGIDOLLAR) (.invalid "bad-mint-opreturn-amount"
    "Mint OP_RETURN DD amount is outside serialization bounds")
  let lock ← readMintLockHeight amount.2
  rejectIf (lock.1 ≤ 0)
    (.invalid "bad-mint-lock-height" "Mint OP_RETURN lock height must be positive")
  let tier ← readMintTier ctx lock.1 lock.2
  let owner ← readMintOwner tier.2
  .ok { s with
    ddOpReturnCount := s.ddOpReturnCount + 1
    totalDD := amount.1
    lockTime := lock.1
    claimedLockTier := (tier.1.map Prod.fst).getD s.claimedLockTier
    claimedTierLockBlocks := (tier.1.map Prod.snd).getD s.claimedTierLockBlocks
    ownerXOnlyPubKeyData := owner
    hasOwnerPubKey := true }

/-! The three kinds of outputs. -/

def scanCollateral (output : CTxOut) (s : MintScan) : Except Failure MintScan := do
  validateCollateralOutput output
  rejectIf (s.collateralOutputCount + 1 > 1) (.invalid "bad-mint-multiple-collateral-outputs"
    "Mint transactions must have exactly 1 collateral output to prevent NUMS bypass")
  .ok { s with
    collateralOutputCount := s.collateralOutputCount + 1
    totalCollateral := s.totalCollateral + output.nValue
    hasCollateralOutput := true
    actualCollateralScript := output.scriptPubKey }

/-- A readable amount on the token output itself must agree with the metadata. -/
def scanToken (registry : ScriptRegistry) (output : CTxOut) (s : MintScan) :
    Except Failure MintScan := do
  validateDDOutput output
  rejectIf (s.ddOutputCount + 1 > 1) (.invalid "bad-mint-multiple-dd-outputs"
    "Mint transactions must have exactly 1 DD token output")
  let s := { s with ddOutputCount := s.ddOutputCount + 1, hasDDOutput := true }
  match extractDDAmount registry output.scriptPubKey false with
  | none => .ok s
  | some ddAmount =>
    rejectIf (ddAmount ≤ 0) (.invalid "bad-dd-amount")
    if 0 < s.totalDD then
      rejectIf (ddAmount ≠ s.totalDD) (.invalid "bad-dd-amount-mismatch"
        "DD token output amount does not match OP_RETURN amount")
      .ok s
    else .ok { s with totalDD := s.totalDD + ddAmount }

/-- One output. Change outputs of other script types are passed over. -/
def scanMintOutput (ctx : ValidationContext) (registry : ScriptRegistry) (output : CTxOut)
    (s : MintScan) : Except Failure MintScan :=
  let isP2TR := isCanonicalP2TROutput output.scriptPubKey
  let opReturn := isOpReturn output.scriptPubKey
  if 0 < output.nValue ∧ opReturn = false ∧ isP2TR = false then .ok s
  else do
    let s ← if 0 < output.nValue ∧ opReturn = false then scanCollateral output s else .ok s
    let s ← match ddPayload output.scriptPubKey with
      | some pc => scanMintPayload ctx pc s
      | none => .ok s
    if isP2TR = true ∧ output.nValue = 0 then scanToken registry output s else .ok s

def scanMintOutputs (ctx : ValidationContext) (registry : ScriptRegistry) :
    List CTxOut → MintScan → Except Failure MintScan
  | [], s => .ok s
  | output :: rest, s => do
    let s ← scanMintOutput ctx registry output s
    scanMintOutputs ctx registry rest s

/-! The checks after the loop. -/

/-- The amount, estimated from the collateral when no output states one. -/
def mintTotalDD (ctx : ValidationContext) (s : MintScan) : Except Failure ℤ :=
  if oracleChecksSkipped ctx = false ∧ s.hasDDOutput = true ∧ s.totalDD = 0 ∧
      0 < s.totalCollateral then do
    rejectIf (ctx.oraclePriceMicroUSD ≤ 0) (.invalid "invalid-oracle-price")
    let estimate := (s.totalCollateral * ctx.oraclePriceMicroUSD) / (200 * COIN)
    .ok (if estimate < 0 ∨ estimate > INT64_MAX then 0 else estimate)
  else .ok s.totalDD

/-- The collateral output is the vault that the metadata describes, with an
internal key nobody knows the secret of. -/
def verifyNUMS (curve : TaprootCurve) (totalDD : ℤ) (s : MintScan) : Except Failure Unit :=
  if s.hasOwnerPubKey = true ∧ s.hasCollateralOutput = true ∧ 0 < s.lockTime ∧ 0 < totalDD then do
    rejectIf (curve.isFullyValid s.ownerXOnlyPubKeyData = false)
      (.invalid "bad-mint-owner-pubkey-invalid" "Owner x-only pubkey is not a valid curve point")
    let expectedCollateral := createCollateralP2TR curve
      { ddAmount := totalDD
        lockHeight := s.lockTime
        ownerKey := s.ownerXOnlyPubKeyData
        internalKey := COLLATERAL_NUMS_POINT_BYTES }
    rejectIf (expectedCollateral = []) (.invalid "bad-collateral-reconstruction"
      "Failed to reconstruct expected P2TR collateral output")
    rejectIf (s.actualCollateralScript ≠ expectedCollateral)
      (.invalid "bad-collateral-nums-mismatch"
      ("Collateral P2TR output does not match NUMS-key reconstruction. " ++
        "Internal key must be the NUMS point to prevent key-path spending."))
  else .ok ()

/-- The tier that prices the collateral: the claimed one, else the remaining lock. -/
def mintLockPeriod (ctx : ValidationContext) (s : MintScan) : Except Failure ℤ := do
  let lockPeriod := s.lockTime - ctx.nHeight
  rejectIf (lockPeriod ≤ 0) (.invalid "bad-lock-period")
  if 0 ≤ s.claimedLockTier then .ok s.claimedTierLockBlocks
  else do
    rejectIf (isCanonicalLockTier lockPeriod ctx.params.digidollarParams = false)
      (.invalid "bad-mint-lock-period" "Mint lock period must be one of the canonical lock tiers")
    .ok lockPeriod

def mintHealth (ctx : ValidationContext) (node : NodeState) : Except Failure ℤ :=
  match resolveCanonicalHealth ctx node with
  | some health => .ok health
  | none =>
    if ctx.canonical then .error (.error "DigiDollar state not ready: canonical health unavailable")
    else .error (.invalid "bad-system-health"
      "Missing deterministic system health for mint validation")

def checkMintCollateral (ctx : ValidationContext) (node : NodeState) (totalDD : ℤ) (s : MintScan) :
    Except Failure Unit := do
  let health ← mintHealth ctx node
  let collateralCtx := { ctx with systemCollateral := health }
  let lockPeriod ← mintLockPeriod ctx s
  let requiredCollateral := calculateRequiredCollateral totalDD lockPeriod collateralCtx node
  rejectIf (requiredCollateral ≤ 0) (.invalid "collateral-calculation-failed")
  rejectIf (s.totalCollateral < requiredCollateral) (.invalid "insufficient-collateral")
  rejectIf (validateCollateralRatio s.totalCollateral totalDD lockPeriod collateralCtx node = false)
    (.invalid "bad-collateral-ratio")

/-- Everything after the output loop. -/
def checkMintScan (curve : TaprootCurve) (ctx : ValidationContext) (node : NodeState)
    (s : MintScan) : Except Failure Unit := do
  let totalDD ← mintTotalDD ctx s
  rejectIf (s.hasCollateralOutput = false) (.invalid "missing-collateral-output")
  rejectIf (s.hasDDOutput = false) (.invalid "missing-dd-output")
  rejectIf (s.lockTime ≤ 0) (.invalid "bad-mint-lock-height"
    "Mint transaction must include a positive OP_RETURN lock height")
  rejectIf (s.hasCollateralOutput = true ∧ s.hasOwnerPubKey = false)
    (.invalid "bad-mint-missing-dd-opreturn"
      "Mint transaction must include DD OP_RETURN with owner pubkey for NUMS verification")
  verifyNUMS curve totalDD s
  rejectIf (validateMintAmount totalDD ctx.params ctx.nHeight = false)
    (.invalid "bad-dd-mint-amount")
  checkMintCollateral ctx node totalDD s

def validateMintTransaction (curve : TaprootCurve) (tx : CTransaction) (ctx : ValidationContext)
    (node : NodeState) : Except Failure Unit := do
  rejectIf (tx.vin = []) (.invalid "bad-mint-no-inputs")
  checkEarlyAmounts node.registry ctx tx.vout
  rejectIf (tx.vout.length < 2) (.invalid "bad-mint-outputs")
  rejectIf (ctx.oraclePriceMicroUSD ≤ 0) (.invalid "bad-oracle-price")
  rejectIf (ctx.canonical = false ∧ node.volatility.mintingFrozen = true)
    (.invalid "minting-frozen-volatility")
  rejectIf (ctx.canonical = false ∧ node.volatility.allOperationsFrozen = true)
    (.invalid "all-operations-frozen")
  (if ctx.canonical then checkMintReference ctx else .ok ())
  let s ← scanMintOutputs ctx node.registry tx.vout {}
  checkMintScan curve ctx node s

end DigiByte.DigiDollar
