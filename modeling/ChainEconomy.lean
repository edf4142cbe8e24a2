import ChainEconomy.Address
import ChainEconomy.Attempt
import ChainEconomy.Bank
import ChainEconomy.Binary64
import ChainEconomy.Binary64.Extended
import ChainEconomy.Binary64.Shortest
import ChainEconomy.Blake3
import ChainEconomy.BlockTime
import ChainEconomy.Chain.Block
import ChainEconomy.Chain.Counters
import ChainEconomy.Chain.Genesis
import ChainEconomy.Chain.Run
import ChainEconomy.Chain.Schedule
import ChainEconomy.Cli.Arguments
import ChainEconomy.Cli.Failure
import ChainEconomy.Cli.Program
import ChainEconomy.Coin
import ChainEconomy.CoinSet.Basic
import ChainEconomy.CoinSet.Text
import ChainEconomy.ConsensusFault
import ChainEconomy.Denom
import ChainEconomy.Event
import ChainEconomy.Fee.Assessment
import ChainEconomy.Fee.Exclusions
import ChainEconomy.Fee.NameRegistry
import ChainEconomy.Fee.Params
import ChainEconomy.Fee.Schedule
import ChainEconomy.Fixed
import ChainEconomy.Governance.Error
import ChainEconomy.Governance.Genesis
import ChainEconomy.Governance.MessageType
import ChainEconomy.Governance.ParamChange
import ChainEconomy.Governance.Proposal
import ChainEconomy.Json.Basic
import ChainEconomy.Json.Defect
import ChainEconomy.Json.Document
import ChainEconomy.Json.Fault
import ChainEconomy.Json.Number
import ChainEconomy.Json.Reader
import ChainEconomy.Json.Record
import ChainEconomy.Json.Writer
import ChainEconomy.KeyOrder
import ChainEconomy.Ledger.Apply
import ChainEconomy.Ledger.Balances
import ChainEconomy.Ledger.Basic
import ChainEconomy.Main
import ChainEconomy.Message.Basic
import ChainEconomy.Message.Json
import ChainEconomy.Mint.Accrual
import ChainEconomy.Mint.Block
import ChainEconomy.Mint.Distribution
import ChainEconomy.Mint.Params
import ChainEconomy.Mint.State
import ChainEconomy.OrderedMap
import ChainEconomy.Proofs.AccrualGrowth
import ChainEconomy.Proofs.AccruedValue
import ChainEconomy.Proofs.AddressText
import ChainEconomy.Proofs.AdmissionCoverage
import ChainEconomy.Proofs.AdmissionEffects
import ChainEconomy.Proofs.AdmissionSteps
import ChainEconomy.Proofs.AttemptRules
import ChainEconomy.Proofs.BalancesTotal
import ChainEconomy.Proofs.BlockAccounting
import ChainEconomy.Proofs.BlockFaults
import ChainEconomy.Proofs.BlockSpacing
import ChainEconomy.Proofs.BlockStart
import ChainEconomy.Proofs.BlockSteps
import ChainEconomy.Proofs.ByteOrder
import ChainEconomy.Proofs.CanonicalEntries
import ChainEconomy.Proofs.ChangeComposition
import ChainEconomy.Proofs.CoinAcceptance
import ChainEconomy.Proofs.CoinDifference
import ChainEconomy.Proofs.CoinSetAlgebra
import ChainEconomy.Proofs.CoinSetOrder
import ChainEconomy.Proofs.CoinSetText
import ChainEconomy.Proofs.CreditOwnership
import ChainEconomy.Proofs.EconomyRecords
import ChainEconomy.Proofs.EconomySoundness
import ChainEconomy.Proofs.ExclusionHistory
import ChainEconomy.Proofs.ExclusionPricing
import ChainEconomy.Proofs.FaultAtomicity
import ChainEconomy.Proofs.FixedText
import ChainEconomy.Proofs.GenesisExport
import ChainEconomy.Proofs.GenesisRecovery
import ChainEconomy.Proofs.JsonRoundTrip
import ChainEconomy.Proofs.JsonTokens
import ChainEconomy.Proofs.LedgerEffects
import ChainEconomy.Proofs.LeftoverAccounting
import ChainEconomy.Proofs.MessageHistory
import ChainEconomy.Proofs.MessageRoundTrip
import ChainEconomy.Proofs.ModuleAccounts
import ChainEconomy.Proofs.NameCredits
import ChainEconomy.Proofs.ParamChanges
import ChainEconomy.Proofs.ParamsRoundTrip
import ChainEconomy.Proofs.PayerCharge
import ChainEconomy.Proofs.PayerTracking
import ChainEconomy.Proofs.Payments
import ChainEconomy.Proofs.PoolPayout
import ChainEconomy.Proofs.PrefixScan
import ChainEconomy.Proofs.PriceItems
import ChainEconomy.Proofs.PriceOrder
import ChainEconomy.Proofs.RateConversion
import ChainEconomy.Proofs.Reachable
import ChainEconomy.Proofs.RecordRoundTrip
import ChainEconomy.Proofs.RefusalEffects
import ChainEconomy.Proofs.RejectionTraceless
import ChainEconomy.Proofs.RunFaults
import ChainEconomy.Proofs.SaleListings
import ChainEconomy.Proofs.ScheduledRuns
import ChainEconomy.Proofs.ShareTotals
import ChainEconomy.Proofs.StableOrder
import ChainEconomy.Proofs.StartFaults
import ChainEconomy.Proofs.StoreHistory
import ChainEconomy.Proofs.SupplyConservation
import ChainEconomy.Proofs.SurchargeBounds
import ChainEconomy.Proofs.SurchargeCases
import ChainEconomy.Proofs.TextRoundTrip
import ChainEconomy.Proofs.TransferTotals
import ChainEconomy.Proofs.TypeExemption
import ChainEconomy.Proofs.ValueRoundTrip
import ChainEconomy.Rate
import ChainEconomy.Session
import ChainEconomy.Settings.Basic
import ChainEconomy.Settings.Format
import ChainEconomy.Settings.Ini
import ChainEconomy.Settings.Json5
import ChainEconomy.Settings.Layers
import ChainEconomy.Settings.Path
import ChainEconomy.Settings.Ron
import ChainEconomy.Settings.Value
import ChainEconomy.Settings.Yaml
import ChainEconomy.Store.Basic
import ChainEconomy.Store.Record
import ChainEconomy.Text.Blank
import ChainEconomy.Text.Digits
import ChainEconomy.Text.Hex
import ChainEconomy.Text.Printable
import ChainEconomy.Text.Quoted
import ChainEconomy.Text.Ranges
import ChainEconomy.Text.Split
import ChainEconomy.Text.Utf8
import ChainEconomy.Toml.Basic
import ChainEconomy.Toml.Moment
import ChainEconomy.Toml.Quoted
import ChainEconomy.Toml.Reader
import ChainEconomy.Toml.Scalar
import ChainEconomy.Toml.Tree
import ChainEconomy.Toml.Writer
import ChainEconomy.Transaction
