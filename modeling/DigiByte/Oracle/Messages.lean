import DigiByte.Consensus.Params
import DigiByte.Library.FixedWidth
import DigiByte.Script.Script
import Mathlib.Data.List.Nodup

/-!
Messages, keys and configuration of the price oracles.

The elliptic-curve library and the hash function come from outside the repository
and are parameters. A hashed value is the structured input that the source writes
into its hasher, with one constructor for each domain tag. The opaque structures
of the library are byte strings, as in C.
-/

set_option autoImplicit false
set_option relaxedAutoImplicit false

namespace DigiByte.Oracle

open Consensus (Params)
open Library.FixedWidth (bytesOf length_bytesOf ofBytes_bytesOf_eq_mod eq_of_ofBytes_eq)
open Library.SignMagnitude (ofBytes ofBytes_lt)
open Script (Bytes)

/-- A `uint256`; 0 is the null value. -/
abbrev Hash := ℕ

/-- The place of a hash in the order of `memcmp`, in which the first byte counts most. A hash has
32 bytes; what a number has above them counts first, so that no two places are equal. -/
def memcmpKey (hash : Hash) : ℕ :=
  256 ^ 32 * (hash / 256 ^ 32) + ofBytes (bytesOf 32 hash).reverse

theorem memcmpKey_injective : Function.Injective memcmpKey := by
  intro a b same
  have below : ∀ hash, ofBytes (bytesOf 32 hash).reverse < 256 ^ 32 := by
    intro hash
    simpa using ofBytes_lt (bytesOf 32 hash).reverse
  have high : ∀ hash, memcmpKey hash / 256 ^ 32 = hash / 256 ^ 32 := by
    intro hash
    rw [memcmpKey, Nat.mul_add_div (by decide), Nat.div_eq_of_lt (below hash), add_zero]
  have low : ∀ hash, memcmpKey hash % 256 ^ 32 = ofBytes (bytesOf 32 hash).reverse := by
    intro hash
    rw [memcmpKey, Nat.mul_add_mod, Nat.mod_eq_of_lt (below hash)]
  have bytes : bytesOf 32 a = bytesOf 32 b :=
    List.reverse_injective (eq_of_ofBytes_eq (by simp) (by rw [← low, ← low, same]))
  rw [← Nat.div_add_mod a (256 ^ 32), ← high, same, high, ← ofBytes_bytesOf_eq_mod, bytes,
    ofBytes_bytesOf_eq_mod, Nat.div_add_mod]

/-- An oracle number in a MuSig2 message, a `uint8_t`. -/
abbrev OracleId := Fin 256

instance oracleId_lawfulBEq : LawfulBEq OracleId := inferInstance

instance oracleIds_neZero : NeZero (256 : ℕ) := ⟨by decide⟩

/-! Messages. -/

structure COraclePriceMessage where
  oracle_id : ℕ
  price_micro_usd : ℕ
  timestamp : ℤ
  block_height : ℤ
  nonce : ℕ
  oracle_pubkey : Bytes
  schnorr_sig : Bytes
  deriving DecidableEq, Repr

structure OracleMusigNonceMsg where
  epoch : ℤ
  attempt_id : ℕ
  oracle_id : OracleId
  pubnonce : Bytes
  signature : Bytes
  deriving DecidableEq, Repr

structure OracleMusigPartialSigMsg where
  epoch : ℤ
  attempt_id : ℕ
  context_version : ℕ
  session_context_id : Hash
  oracle_id : OracleId
  partial_sig : Bytes
  signature : Bytes
  deriving DecidableEq, Repr

structure OracleMusigContextMsg where
  epoch : ℤ
  attempt_id : ℕ
  context_version : ℕ
  epoch_selection_seed : Hash
  proposer_id : OracleId
  participant_ids : List OracleId
  nonce_set_hash : Hash
  quote_set_hash : Hash
  consensus_price : ℕ
  consensus_timestamp : ℤ
  session_context_id : Hash
  nonce_evidence : List OracleMusigNonceMsg
  price_evidence : List COraclePriceMessage
  signature : Bytes
  deriving DecidableEq, Repr

/-- What the source hashes, by domain. -/
inductive HashInput where
  | priceAttestation (oracle_id price_micro_usd : ℕ) (timestamp : ℤ)
  | nonceMsg (chain : Hash) (epoch : ℤ) (attempt_id : ℕ) (oracle_id : OracleId) (pubnonce : Bytes)
  | partialSigMsg (chain : Hash) (epoch : ℤ) (attempt_id context_version : ℕ)
      (session_context_id : Hash)
      (oracle_id : OracleId) (partial_sig : Bytes)
  | contextProposal (chain : Hash) (unsigned : OracleMusigContextMsg)
  | quoteSet (chain : Hash) (epoch : ℤ)
      (quotes : List (ℕ × ℕ × ℤ × Bytes × Bytes))
  | nonceSet (chain : Hash) (epoch : ℤ) (attempt_id : ℕ) (nonces : List (OracleId × Bytes))
  | sessionContext (chain : Hash) (epoch : ℤ) (attempt_id : ℕ) (seed : Hash) (version : ℕ)
      (message : Hash) (bitmap : Bytes) (nonce_set_hash : Hash)
  | oracleBundle (chain : Hash) (epoch : ℤ) (price : ℕ) (timestamp : ℤ)
  | epochSelection (chain : Hash) (seed : Hash) (epoch : ℤ) (oracle_id : OracleId)
  deriving DecidableEq, Repr

/-! The curve library. -/

/-- Keys, Schnorr signatures and the MuSig2 operations; `none` where a call fails. -/
structure Secp256k1 where
  keyIsValid : (key : Bytes) → Bool
  getPubKey : (key : Bytes) → Bytes
  signSchnorr : (key : Bytes) → Hash → Option Bytes
  isFullyValid : (xonly : Bytes) → Bool
  verifySchnorr : (xonly : Bytes) → Hash → (sig : Bytes) → Bool
  pubkeyParse : (compressed : Bytes) → Option Bytes
  pubkeyAgg : (pubkeys : List Bytes) → Option (Bytes × Bytes)
  nonceGen : (secrand key pubkey cache : Bytes) → Option (Bytes × Bytes)
  pubnonceParse : (serialized : Bytes) → Option Bytes
  pubnonceSerialize : (pubnonce : Bytes) → Option Bytes
  nonceAgg : (pubnonces : List Bytes) → Option Bytes
  nonceProcess : (aggnonce : Bytes) → (msg32 : Hash) → (cache : Bytes) → Option Bytes
  partialSign : (secnonce key cache session : Bytes) → Option Bytes
  partialSigSerialize : (sig : Bytes) → Option Bytes
  partialSigParse : (serialized : Bytes) → Option Bytes
  partialSigVerify : (sig pubnonce pubkey cache session : Bytes) → Bool
  partialSigAgg : (session : Bytes) → (sigs : List Bytes) → Option Bytes
  schnorrsigVerify : (sig : Bytes) → (msg : Hash) → (agg_pk : Bytes) → Bool

/-- A library without secrets, from which the samples start: a nonce is its own public nonce and a
partial signature is the nonce. -/
def Secp256k1.transparent : Secp256k1 where
  keyIsValid key := key ≠ []
  getPubKey key := key
  signSchnorr _ _ := none
  isFullyValid _ := true
  verifySchnorr _ _ _ := true
  pubkeyParse compressed := some compressed
  pubkeyAgg pubkeys := some (pubkeys.flatten, pubkeys.flatten)
  nonceGen secrand _ _ _ := some (secrand, secrand)
  pubnonceParse serialized := some serialized
  pubnonceSerialize pubnonce := some pubnonce
  nonceAgg pubnonces := some pubnonces.flatten
  nonceProcess aggnonce _ _ := some aggnonce
  partialSign secnonce _ _ _ := some secnonce
  partialSigSerialize sig := some sig
  partialSigParse serialized := some serialized
  partialSigVerify sig pubnonce _ _ _ := sig = pubnonce
  partialSigAgg _ sigs := some sigs.flatten
  schnorrsigVerify _ _ _ := true

/-! Configuration. -/

structure OracleNodeInfo where
  id : ℕ
  pubkey : Bytes
  is_active : Bool
  deriving DecidableEq, Repr

structure CChainParams where
  consensus : Params
  vOracleNodes : List OracleNodeInfo

/-- `XOnlyPubKey(CPubKey)`. -/
def xonly (pubkey : Bytes) : Bytes := pubkey.drop 1

def CChainParams.getOracleNode (chain : CChainParams) (id : ℕ) : Option OracleNodeInfo :=
  chain.vOracleNodes.find? fun oracle => oracle.id = id

/-- `ValidateOracleConfiguration`, with the keys parsed from their 64 hexadecimal digits. -/
def validateOracleConfiguration (params : Params) : Bool :=
  0 ≤ params.nOracleTotalOracles && 0 ≤ params.nOraclePubkeyCount &&
    0 ≤ params.nOracleConsensusRequired &&
    (params.vOraclePublicKeys.length : ℤ) = params.nOraclePubkeyCount &&
    params.nOraclePubkeyCount ≤ params.nOracleTotalOracles &&
    !(params.nOraclePubkeyCount > 0 && params.nOracleConsensusRequired = 0) &&
    params.nOracleConsensusRequired ≤ params.nOraclePubkeyCount &&
    params.vOraclePublicKeys.Nodup &&
    params.vOraclePublicKeys.all fun pk => pk.length = 32

/-- One slot of `ValidateOracleNodeAlignment`. -/
def slotAligned (chain : CChainParams) (slot : ℕ) : Bool :=
  match chain.vOracleNodes[slot]?, chain.consensus.vOraclePublicKeys[slot]? with
  | some oracle, some key =>
    oracle.id = slot && oracle.pubkey.length = 33 && oracle.pubkey.drop 1 = key
  | _, _ => false

def validateOracleNodeAlignment (chain : CChainParams) : Bool :=
  0 ≤ chain.consensus.nOraclePubkeyCount &&
    (List.range chain.consensus.nOraclePubkeyCount.toNat).all (slotAligned chain)

/-- The parameters of a node that has started: both startup checks passed, and the key
table was filled from the oracle nodes. -/
structure OracleChainParams extends CChainParams where
  configured : validateOracleConfiguration consensus = true
  aligned : validateOracleNodeAlignment toCChainParams = true
  compressed : consensus.vOracleCompressedPublicKeys = vOracleNodes.map OracleNodeInfo.pubkey

/-- What the oracle code computes with. -/
structure OracleEnv where
  chain : OracleChainParams
  secp : Secp256k1
  sha : HashInput → Hash

namespace OracleEnv

variable (env : OracleEnv)

abbrev params : Params := env.chain.consensus

def genesis : Hash := env.params.hashGenesisBlock

def isAuthorizedMuSig2OracleIdForRelay (oracle_id : ℕ) : Bool :=
  if env.params.nOraclePubkeyCount ≤ 0 then false
  else if (oracle_id : ℤ) ≥ env.params.nOraclePubkeyCount then false
  else if (env.params.vOraclePublicKeys.length : ℤ) < env.params.nOraclePubkeyCount then false
  else
    match env.chain.getOracleNode oracle_id with
    | none => false
    | some oracle_config => oracle_config.is_active

/-- The check of a message's Schnorr signature. -/
def verifySigned (pubkey : Bytes) (hash : Hash) (signature : Bytes) : Bool :=
  signature.length = 64 && env.secp.isFullyValid pubkey &&
    env.secp.verifySchnorr pubkey hash signature

def nonceSignatureHash (msg : OracleMusigNonceMsg) : Hash :=
  env.sha (.nonceMsg env.genesis msg.epoch msg.attempt_id msg.oracle_id msg.pubnonce)

def verifyNonce (msg : OracleMusigNonceMsg) (pubkey : Bytes) : Bool :=
  env.verifySigned pubkey (env.nonceSignatureHash msg) msg.signature

def partialSigSignatureHash (msg : OracleMusigPartialSigMsg) : Hash :=
  env.sha (.partialSigMsg env.genesis msg.epoch msg.attempt_id msg.context_version
    msg.session_context_id msg.oracle_id msg.partial_sig)

def contextSignatureHash (msg : OracleMusigContextMsg) : Hash :=
  env.sha (.contextProposal env.genesis { msg with signature := [] })

def verifyContext (msg : OracleMusigContextMsg) (pubkey : Bytes) : Bool :=
  env.verifySigned pubkey (env.contextSignatureHash msg) msg.signature

/-- `Sign`: a signature of 64 bytes, or failure. -/
def sign (key : Bytes) (hash : Hash) : Option Bytes := env.secp.signSchnorr key hash

end OracleEnv

def OracleMusigNonceMsg.isValid (msg : OracleMusigNonceMsg) : Bool :=
  msg.pubnonce.length = 66 && msg.oracle_id.val < 255 && msg.signature.length = 64

def ORACLE_MUSIG2_SESSION_CONTEXT_VERSION : ℕ := 2

def OracleMusigContextMsg.isValid (msg : OracleMusigContextMsg) : Bool :=
  msg.context_version = ORACLE_MUSIG2_SESSION_CONTEXT_VERSION && msg.epoch_selection_seed ≠ 0 &&
    msg.proposer_id.val < 255 && msg.participant_ids ≠ [] && msg.participant_ids.length ≤ 32 &&
    msg.nonce_evidence.length ≤ 32 && msg.price_evidence.length ≤ 32 &&
    msg.session_context_id ≠ 0 && msg.signature.length = 64

/-! What the startup checks give. -/

namespace OracleChainParams

variable (chain : OracleChainParams)

theorem config_bounds : 0 ≤ chain.consensus.nOraclePubkeyCount ∧
    (chain.consensus.vOraclePublicKeys.length : ℤ) = chain.consensus.nOraclePubkeyCount ∧
    chain.consensus.nOraclePubkeyCount ≤ chain.consensus.nOracleTotalOracles ∧
    chain.consensus.nOracleConsensusRequired ≤ chain.consensus.nOraclePubkeyCount := by
  have configured := chain.configured
  simp only [validateOracleConfiguration, Bool.and_eq_true, decide_eq_true_eq] at configured
  obtain ⟨⟨⟨⟨⟨⟨⟨⟨_, count⟩, _⟩, keys⟩, total⟩, _⟩, required⟩, _⟩, _⟩ := configured
  exact ⟨count, keys, total, required⟩

theorem slot_aligned {slot : ℕ} (active : (slot : ℤ) < chain.consensus.nOraclePubkeyCount) :
    ∃ oracle, chain.vOracleNodes[slot]? = some oracle ∧ oracle.id = slot ∧
      oracle.pubkey.length = 33 ∧
      chain.consensus.vOraclePublicKeys[slot]? = some (xonly oracle.pubkey) := by
  have aligned := chain.aligned
  simp only [validateOracleNodeAlignment, Bool.and_eq_true, List.all_eq_true, List.mem_range]
    at aligned
  have here := aligned.2 slot (by omega)
  unfold slotAligned at here
  split at here
  · next oracle key found keyed =>
    simp only [Bool.and_eq_true, decide_eq_true_eq] at here
    obtain ⟨⟨number, length⟩, same⟩ := here
    exact ⟨oracle, found, number, length, by rw [keyed, ← same, xonly]⟩
  · cases here

theorem getOracleNode_active {id : ℕ} (active : (id : ℤ) < chain.consensus.nOraclePubkeyCount) :
    ∃ oracle, chain.getOracleNode id = some oracle ∧ oracle.pubkey.length = 33 ∧
      chain.consensus.vOracleCompressedPublicKeys[id]? = some oracle.pubkey ∧
      chain.consensus.vOraclePublicKeys[id]? = some (xonly oracle.pubkey) := by
  obtain ⟨oracle, found, number, length, key⟩ := chain.slot_aligned active
  refine ⟨oracle, ?_, length, ?_, key⟩
  · obtain ⟨inside, here⟩ := List.getElem?_eq_some_iff.mp found
    refine List.find?_eq_some_iff_getElem.mpr ⟨by simp [number], id, inside, here, ?_⟩
    intro j before
    obtain ⟨other, foundOther, numberOther, _⟩ := chain.slot_aligned (show (j : ℤ) < _ by omega)
    obtain ⟨insideOther, hereOther⟩ := List.getElem?_eq_some_iff.mp foundOther
    simp only [hereOther, numberOther, decide_eq_false_iff_not, Bool.not_eq_true']
    omega
  · rw [chain.compressed, List.getElem?_map, found]
    rfl

end OracleChainParams

theorem OracleEnv.active_of_authorized {env : OracleEnv} {id : ℕ}
    (authorized : env.isAuthorizedMuSig2OracleIdForRelay id = true) :
    (id : ℤ) < env.params.nOraclePubkeyCount := by
  unfold OracleEnv.isAuthorizedMuSig2OracleIdForRelay at authorized
  split_ifs at authorized
  omega

end DigiByte.Oracle
