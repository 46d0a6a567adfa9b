import LedgerWire.Account.Address
import LedgerWire.Account.Error
import LedgerWire.Account.Key
import LedgerWire.Account.Seed
import LedgerWire.Account.Transaction
import LedgerWire.Account.Vectors
import LedgerWire.Base58.Basic
import LedgerWire.Base58.Checked
import LedgerWire.Base58.Error
import LedgerWire.Bytes.Basic
import LedgerWire.Bytes.Hex
import LedgerWire.Bytes.Limbs
import LedgerWire.Client.Error
import LedgerWire.Client.Session
import LedgerWire.Curve.Ed25519
import LedgerWire.Curve.Field
import LedgerWire.Curve.Point
import LedgerWire.Decimal.Basic
import LedgerWire.Decimal.Binary64
import LedgerWire.Decimal.Shortest
import LedgerWire.Digest.Sha2
import LedgerWire.Digest.Sha256
import LedgerWire.Digest.Sha512
import LedgerWire.Json.Basic
import LedgerWire.Json.Escape
import LedgerWire.Json.Parser
import LedgerWire.Json.Writer
import LedgerWire.Ledger.Server
import LedgerWire.Link.Basic
import LedgerWire.Link.Call
import LedgerWire.Link.Config
import LedgerWire.Link.Connection
import LedgerWire.Link.Duplex
import LedgerWire.Link.Error
import LedgerWire.Link.Frame
import LedgerWire.Link.Pending
import LedgerWire.Stream.Hub
import LedgerWire.Stream.Kind
import LedgerWire.Stream.Names
import LedgerWire.Text.Duration
import LedgerWire.Text.GraphemeExtend
import LedgerWire.Text.Quoted
import LedgerWire.Text.Ranges
import LedgerWire.Text.Unprintable
import LedgerWire.WebSocket.Arrival
import LedgerWire.WebSocket.Endpoint
import LedgerWire.WebSocket.Frame
import LedgerWire.WebSocket.Message
import LedgerWire.WebSocket.Pair
import LedgerWire.Proofs.Account.Addresses
import LedgerWire.Proofs.Account.Coverage
import LedgerWire.Proofs.Account.Resigning
import LedgerWire.Proofs.Account.Seeds
import LedgerWire.Proofs.Account.Signing
import LedgerWire.Proofs.Base58.Bijection
import LedgerWire.Proofs.Base58.Capacity
import LedgerWire.Proofs.Base58.Framing
import LedgerWire.Proofs.Base58.Leading
import LedgerWire.Proofs.Base58.Length
import LedgerWire.Proofs.Base58.Spelling
import LedgerWire.Proofs.Base58.Substitution
import LedgerWire.Proofs.Bytes.Numeral
import LedgerWire.Proofs.Bytes.Overflow
import LedgerWire.Proofs.Bytes.Text
import LedgerWire.Proofs.Client.Agreement
import LedgerWire.Proofs.Client.Echoes
import LedgerWire.Proofs.Client.Pushes
import LedgerWire.Proofs.Client.Rest
import LedgerWire.Proofs.Client.Settled
import LedgerWire.Proofs.Client.Spared
import LedgerWire.Proofs.Client.Submission
import LedgerWire.Proofs.Client.Subscriptions
import LedgerWire.Proofs.Client.Unsigned
import LedgerWire.Proofs.Json.Canonical
import LedgerWire.Proofs.Json.Lookup
import LedgerWire.Proofs.Json.Numbers
import LedgerWire.Proofs.Json.Order
import LedgerWire.Proofs.Json.Paths
import LedgerWire.Proofs.Json.Reading
import LedgerWire.Proofs.Json.Strings
import LedgerWire.Proofs.Json.Taking
import LedgerWire.Proofs.Json.Writing
import LedgerWire.Proofs.Link.Accounts
import LedgerWire.Proofs.Link.Alike
import LedgerWire.Proofs.Link.Arrivals
import LedgerWire.Proofs.Link.Balance
import LedgerWire.Proofs.Link.Bursts
import LedgerWire.Proofs.Link.Closed
import LedgerWire.Proofs.Link.Closure
import LedgerWire.Proofs.Link.Consumers
import LedgerWire.Proofs.Link.Effects
import LedgerWire.Proofs.Link.Failures
import LedgerWire.Proofs.Link.Fates
import LedgerWire.Proofs.Link.History
import LedgerWire.Proofs.Link.Isolation
import LedgerWire.Proofs.Link.Late
import LedgerWire.Proofs.Link.Live
import LedgerWire.Proofs.Link.Losses
import LedgerWire.Proofs.Link.Numbering
import LedgerWire.Proofs.Link.Overdue
import LedgerWire.Proofs.Link.Prompt
import LedgerWire.Proofs.Link.Pushes
import LedgerWire.Proofs.Link.Ready
import LedgerWire.Proofs.Link.Recipients
import LedgerWire.Proofs.Link.Registry
import LedgerWire.Proofs.Link.Reliable
import LedgerWire.Proofs.Link.Replies
import LedgerWire.Proofs.Link.Retire
import LedgerWire.Proofs.Link.Settled
import LedgerWire.Proofs.Link.Timeouts
import LedgerWire.Proofs.Link.Wire
import LedgerWire.Proofs.Stream.Closing
import LedgerWire.Proofs.Stream.Delivery
import LedgerWire.Proofs.WebSocket.Feeding
import LedgerWire.Proofs.WebSocket.Turns
