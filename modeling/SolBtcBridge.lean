import SolBtcBridge.Foundation.Word
import SolBtcBridge.Foundation.Borsh
import SolBtcBridge.Foundation.Fallible
import SolBtcBridge.Foundation.Run
import SolBtcBridge.Foundation.Simulation
import SolBtcBridge.Foundation.Bank
import SolBtcBridge.Foundation.Lists
import SolBtcBridge.Foundation.Scan
import SolBtcBridge.Foundation.Tickets
import SolBtcBridge.Foundation.Slices
import SolBtcBridge.Foundation.Schedules
import SolBtcBridge.Foundation.Schema
import SolBtcBridge.Foundation.Rounding
import SolBtcBridge.Foundation.Tagged
import SolBtcBridge.Runtime.Footprint
import SolBtcBridge.Runtime.Ledger
import SolBtcBridge.Runtime.Anchor
import SolBtcBridge.Runtime.Storage
import SolBtcBridge.Runtime.Transaction
import SolBtcBridge.Runtime.Token
import SolBtcBridge.Runtime.Placement
import SolBtcBridge.Runtime.Rent
import SolBtcBridge.Runtime.Locality
import SolBtcBridge.Runtime.Bank
import SolBtcBridge.Runtime.Success
import SolBtcBridge.Program.State
import SolBtcBridge.Program.Message
import SolBtcBridge.Program.Seeds
import SolBtcBridge.Program.Ed25519
import SolBtcBridge.Program.Verify
import SolBtcBridge.Program.Limiter
import SolBtcBridge.Program.EchoBridge
import SolBtcBridge.Program.Config
import SolBtcBridge.Program.Committee
import SolBtcBridge.Program.Step
import SolBtcBridge.Program.Sdk
import SolBtcBridge.Program.Transactions
import SolBtcBridge.Effects.Verify
import SolBtcBridge.Effects.Accounts
import SolBtcBridge.Effects.Lookup
import SolBtcBridge.Effects.Records
import SolBtcBridge.Effects.Slots
import SolBtcBridge.Effects.Mint
import SolBtcBridge.Effects.Withdraw
import SolBtcBridge.Effects.Footprints
import SolBtcBridge.Effects.Limiter
import SolBtcBridge.Effects.Admin
import SolBtcBridge.Effects.Step
import SolBtcBridge.Effects.Ed25519
import SolBtcBridge.Effects.Batch
import SolBtcBridge.Effects.Locality
import SolBtcBridge.Effects.Tokens
import SolBtcBridge.Effects.Custody
import SolBtcBridge.Effects.Bridges
import SolBtcBridge.Properties.Nonces
import SolBtcBridge.Properties.Stake
import SolBtcBridge.Properties.MintTotals
import SolBtcBridge.Properties.Backing
import SolBtcBridge.Properties.Revocation
import SolBtcBridge.Properties.LimiterRuns
import SolBtcBridge.Properties.RollingCap
import SolBtcBridge.Properties.HourVolume
import SolBtcBridge.Properties.Schedules
import SolBtcBridge.Properties.SignatureBinding
import SolBtcBridge.Properties.Restrictions
import SolBtcBridge.Properties.BridgeHistory
import SolBtcBridge.Properties.ChainTotals
import SolBtcBridge.Properties.SignedFormat
import SolBtcBridge.Properties.WithdrawAccounts
import SolBtcBridge.Properties.WithdrawArithmetic
import SolBtcBridge.Properties.LegalTransfers
import SolBtcBridge.Properties.VerifyCompleteness
import SolBtcBridge.Properties.BatchCreation
import SolBtcBridge.Properties.BatchEquivalence
import SolBtcBridge.Properties.Confinement
import SolBtcBridge.Properties.VerifyOrder
import SolBtcBridge.Properties.FeeRounding
import SolBtcBridge.Properties.RecordKeys
import SolBtcBridge.Properties.Thresholds
import SolBtcBridge.Properties.RawRecords
import SolBtcBridge.Properties.Solvency
import SolBtcBridge.Properties.TotalsBound
import SolBtcBridge.Properties.Acceptance
import SolBtcBridge.Properties.MintAcceptance
import SolBtcBridge.Properties.WithdrawAcceptance
import SolBtcBridge.Properties.LimitAcceptance
import SolBtcBridge.Properties.ClientSignatures
import SolBtcBridge.Properties.ClientTransactions
import SolBtcBridge.Properties.Exits
import SolBtcBridge.Properties.Funding
import SolBtcBridge.Properties.AdminAcceptance
import SolBtcBridge.Properties.Brakes
import SolBtcBridge.Properties.Deployment
import SolBtcBridge.Properties.Authority
import SolBtcBridge.Properties.EventJournal
import SolBtcBridge.Properties.HourlyRoom
