import LedgerExec.Account
import LedgerExec.Block
import LedgerExec.BlockExecution
import LedgerExec.BuiltIn
import LedgerExec.Bytes
import LedgerExec.ChainConfig
import LedgerExec.CommandError
import LedgerExec.CommandLine.Arguments
import LedgerExec.CommandLine.Run
import LedgerExec.Crypto.Blake3
import LedgerExec.Crypto.Ed25519
import LedgerExec.Crypto.Sha512
import LedgerExec.Execution.Context
import LedgerExec.Execution.Run
import LedgerExec.Execution.State
import LedgerExec.Execution.Validation
import LedgerExec.Gas
import LedgerExec.Genesis
import LedgerExec.Hex
import LedgerExec.Json.Codec
import LedgerExec.Json.Render
import LedgerExec.Json.Scan
import LedgerExec.Json.Tree
import LedgerExec.KeyFile
import LedgerExec.LocalCall
import LedgerExec.Main
import LedgerExec.Merkle
import LedgerExec.Octets
import LedgerExec.Program
import LedgerExec.Proofs.Block.Ancestry
import LedgerExec.Proofs.Block.AssignedNonces
import LedgerExec.Proofs.Block.Bystanders
import LedgerExec.Proofs.Block.Coherence
import LedgerExec.Proofs.Block.Progress
import LedgerExec.Proofs.Block.Rejection
import LedgerExec.Proofs.Block.Replay
import LedgerExec.Proofs.Block.Traces
import LedgerExec.Proofs.Block.Transparency
import LedgerExec.Proofs.Calls.Estimates
import LedgerExec.Proofs.Calls.RevertReasons
import LedgerExec.Proofs.Calls.Succeeding
import LedgerExec.Proofs.Execution.Accepted
import LedgerExec.Proofs.Execution.Arithmetic
import LedgerExec.Proofs.Execution.Bystanders
import LedgerExec.Proofs.Execution.Charged
import LedgerExec.Proofs.Execution.Conservation
import LedgerExec.Proofs.Execution.Contained
import LedgerExec.Proofs.Execution.Counted
import LedgerExec.Proofs.Execution.Covered
import LedgerExec.Proofs.Execution.Deployments
import LedgerExec.Proofs.Execution.Deposits
import LedgerExec.Proofs.Execution.Failure
import LedgerExec.Proofs.Execution.GasAccount
import LedgerExec.Proofs.Execution.InitFailures
import LedgerExec.Proofs.Execution.Inner
import LedgerExec.Proofs.Execution.Invoked
import LedgerExec.Proofs.Execution.LocalCalls
import LedgerExec.Proofs.Execution.Metering
import LedgerExec.Proofs.Execution.Overspending
import LedgerExec.Proofs.Execution.Played
import LedgerExec.Proofs.Execution.Postings
import LedgerExec.Proofs.Execution.Prefunding
import LedgerExec.Proofs.Execution.Prepared
import LedgerExec.Proofs.Execution.RentTable
import LedgerExec.Proofs.Execution.Senders
import LedgerExec.Proofs.Execution.Settled
import LedgerExec.Proofs.Execution.Solvency
import LedgerExec.Proofs.Execution.Touches
import LedgerExec.Proofs.Execution.Transfers
import LedgerExec.Proofs.Execution.Unfailing
import LedgerExec.Proofs.Execution.Validity
import LedgerExec.Proofs.Json.AddressTexts
import LedgerExec.Proofs.Json.Configuration
import LedgerExec.Proofs.Json.Hexadecimal
import LedgerExec.Proofs.Json.Numerals
import LedgerExec.Proofs.Json.ReadBack
import LedgerExec.Proofs.Json.Reports
import LedgerExec.Proofs.Json.Scanning
import LedgerExec.Proofs.Json.SecretKeys
import LedgerExec.Proofs.Json.Traces
import LedgerExec.Proofs.Merkle.Binding
import LedgerExec.Proofs.State.Canonical
import LedgerExec.Proofs.State.Effects
import LedgerExec.Proofs.State.Nonces
import LedgerExec.Proofs.State.Reading
import LedgerExec.Proofs.State.Snapshot
import LedgerExec.Proofs.State.Wealth
import LedgerExec.Proofs.Wire.Accounts
import LedgerExec.Proofs.Wire.Consensus
import LedgerExec.Proofs.Wire.ReadBack
import LedgerExec.Receipt
import LedgerExec.RunResult
import LedgerExec.Scenario
import LedgerExec.Script
import LedgerExec.SenderCache
import LedgerExec.Settlement
import LedgerExec.State.Layer
import LedgerExec.State.Node
import LedgerExec.State.Tree
import LedgerExec.State.View
import LedgerExec.Store
import LedgerExec.Text
import LedgerExec.Trace
import LedgerExec.Transaction
import LedgerExec.Unsigned
import LedgerExec.Upgrade
import LedgerExec.Wire
