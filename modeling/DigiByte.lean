import DigiByte.Arith.ArithUint256
import DigiByte.Arith.Compact
import DigiByte.Arith.Root
import DigiByte.Coins.Cache
import DigiByte.Coins.CacheReads
import DigiByte.Coins.CacheRefinement
import DigiByte.Coins.CacheViews
import DigiByte.Coins.CacheWrites
import DigiByte.Coins.Compressor
import DigiByte.Coins.Cursor
import DigiByte.Coins.Database
import DigiByte.Coins.KeyOrder
import DigiByte.Consensus.Params
import DigiByte.Consensus.Subsidy
import DigiByte.DigiDollar.AcceptedKinds
import DigiByte.DigiDollar.AcceptedMint
import DigiByte.DigiDollar.AcceptedRedemption
import DigiByte.DigiDollar.AcceptedTransfer
import DigiByte.DigiDollar.Accounting
import DigiByte.DigiDollar.Amount
import DigiByte.DigiDollar.Backing
import DigiByte.DigiDollar.BuiltMint
import DigiByte.DigiDollar.BuiltRedemption
import DigiByte.DigiDollar.BuiltScripts
import DigiByte.DigiDollar.BuiltTransfer
import DigiByte.DigiDollar.Chain
import DigiByte.DigiDollar.Collateral
import DigiByte.DigiDollar.Context
import DigiByte.DigiDollar.Determinism
import DigiByte.DigiDollar.Deviation
import DigiByte.DigiDollar.Dispatch
import DigiByte.DigiDollar.Economics
import DigiByte.DigiDollar.Metadata
import DigiByte.DigiDollar.Mint
import DigiByte.DigiDollar.MintHealth
import DigiByte.DigiDollar.MintReaders
import DigiByte.DigiDollar.MintReference
import DigiByte.DigiDollar.Params
import DigiByte.DigiDollar.Readers
import DigiByte.DigiDollar.RedeemBuilder
import DigiByte.DigiDollar.RedeemFees
import DigiByte.DigiDollar.Redemption
import DigiByte.DigiDollar.RedemptionLaw
import DigiByte.DigiDollar.State
import DigiByte.DigiDollar.Supply
import DigiByte.DigiDollar.SupplyTotals
import DigiByte.DigiDollar.Transfer
import DigiByte.DigiDollar.TransferBuilder
import DigiByte.DigiDollar.TxBuilder
import DigiByte.DigiDollar.Vault
import DigiByte.DigiDollar.VaultTotals
import DigiByte.DigiDollar.Volatility
import DigiByte.DigiDollar.VolatilityReplay
import DigiByte.Index.BranchCounts
import DigiByte.Index.StatsIndex
import DigiByte.Index.StatsIndexRun
import DigiByte.Library.AcceptAll
import DigiByte.Library.Arrivals
import DigiByte.Library.Bisection
import DigiByte.Library.BitSearch
import DigiByte.Library.Bitmap
import DigiByte.Library.BoundedHistory
import DigiByte.Library.Checks
import DigiByte.Library.Consuming
import DigiByte.Library.Dependents
import DigiByte.Library.Encodings
import DigiByte.Library.FinmapTotal
import DigiByte.Library.FixedWidth
import DigiByte.Library.LeadingBits
import DigiByte.Library.MapWeight
import DigiByte.Library.OrderedMap
import DigiByte.Library.Overlay
import DigiByte.Library.PrefixChoice
import DigiByte.Library.RankBounds
import DigiByte.Library.SignMagnitude
import DigiByte.Library.StepSchedule
import DigiByte.Library.WriteBack
import DigiByte.Node.Miner
import DigiByte.Oracle.BlockData
import DigiByte.Oracle.Bundle
import DigiByte.Oracle.BundleScript
import DigiByte.Oracle.Ceremony
import DigiByte.Oracle.CeremonyRun
import DigiByte.Oracle.ContextBinding
import DigiByte.Oracle.Convergence
import DigiByte.Oracle.EvidenceRuns
import DigiByte.Oracle.Messages
import DigiByte.Oracle.NodeSteps
import DigiByte.Oracle.NonceEvidence
import DigiByte.Oracle.NonceIntake
import DigiByte.Oracle.Orchestrator
import DigiByte.Oracle.PendingMessages
import DigiByte.Oracle.PendingPartialSigs
import DigiByte.Oracle.Price
import DigiByte.Oracle.PriceCache
import DigiByte.Oracle.PriceRobustness
import DigiByte.Oracle.Session
import DigiByte.Oracle.SingleUse
import DigiByte.Pow.Difficulty
import DigiByte.Pow.GeometricWork
import DigiByte.Pow.HeadersSync
import DigiByte.Pow.HeadersSyncSafety
import DigiByte.Pow.HeadersWork
import DigiByte.Pow.Retarget
import DigiByte.Primitives.Transaction
import DigiByte.Script.Interpreter
import DigiByte.Script.Script
import DigiByte.Script.VaultLeaves
import DigiByte.Script.VaultSpend
import DigiByte.Wallet.CoinSelection
