import DriveMarket.Bus.Basic
import DriveMarket.Bus.Dispatcher
import DriveMarket.Bus.Event
import DriveMarket.Bus.Handlers
import DriveMarket.Bus.Ring
import DriveMarket.Bytes.Basic
import DriveMarket.Bytes.Endian
import DriveMarket.Bytes.Hex
import DriveMarket.Bytes.Text
import DriveMarket.Cosigning.Draft
import DriveMarket.Cosigning.Error
import DriveMarket.Cosigning.Pending
import DriveMarket.Crypto.Bls
import DriveMarket.Crypto.Bls12381.Curve
import DriveMarket.Crypto.Bls12381.Encoding
import DriveMarket.Crypto.Bls12381.Field
import DriveMarket.Crypto.Bls12381.HashToCurve
import DriveMarket.Crypto.Bls12381.Pairing
import DriveMarket.Crypto.Ed25519
import DriveMarket.Crypto.Repeated
import DriveMarket.Crypto.Scheme
import DriveMarket.Crypto.Sha256
import DriveMarket.Crypto.Sha3
import DriveMarket.Crypto.Sha512
import DriveMarket.Deadline
import DriveMarket.Drive.Basic
import DriveMarket.Drive.Modification
import DriveMarket.Json.Catalog
import DriveMarket.Json.Drives
import DriveMarket.Json.Form
import DriveMarket.Json.Quantities
import DriveMarket.Json.Record
import DriveMarket.Json.Snapshots
import DriveMarket.Json.Transactions
import DriveMarket.Json.Value
import DriveMarket.Lifecycle.Event
import DriveMarket.Lifecycle.Publishing
import DriveMarket.Lifecycle.Snapshot
import DriveMarket.Lifecycle.Status
import DriveMarket.Lifecycle.Tracker
import DriveMarket.ModelError
import DriveMarket.Network
import DriveMarket.Ordered.Map
import DriveMarket.Proofs.Bus.Delivery
import DriveMarket.Proofs.Bus.Forwarding
import DriveMarket.Proofs.Bus.Handling
import DriveMarket.Proofs.Bus.Receiving
import DriveMarket.Proofs.Bus.Registry
import DriveMarket.Proofs.Bus.Runs
import DriveMarket.Proofs.Cosigning.Collecting
import DriveMarket.Proofs.Cosigning.Merging
import DriveMarket.Proofs.Cosigning.Pending
import DriveMarket.Proofs.Cosigning.Relay
import DriveMarket.Proofs.Drive.Modifications
import DriveMarket.Proofs.Drive.Restoring
import DriveMarket.Proofs.Json.Restoring
import DriveMarket.Proofs.Lifecycle.Modifications
import DriveMarket.Proofs.Lifecycle.Publishing
import DriveMarket.Proofs.Lifecycle.Runs
import DriveMarket.Proofs.Lifecycle.Standing
import DriveMarket.Proofs.Lifecycle.Steps
import DriveMarket.Proofs.Ordered.FirstWins
import DriveMarket.Proofs.Ordered.Keys
import DriveMarket.Proofs.Replicator.Joining
import DriveMarket.Proofs.Results
import DriveMarket.Proofs.Table.Bounds
import DriveMarket.Proofs.Table.Canonical
import DriveMarket.Proofs.Table.Evolution
import DriveMarket.Proofs.Table.Fitting
import DriveMarket.Proofs.Table.Guarded
import DriveMarket.Proofs.Table.Lengths
import DriveMarket.Proofs.Table.Leniency
import DriveMarket.Proofs.Table.Offsets
import DriveMarket.Proofs.Table.Presence
import DriveMarket.Proofs.Table.Reading
import DriveMarket.Proofs.Table.RoundTrip
import DriveMarket.Proofs.Table.Truncation
import DriveMarket.Proofs.Table.Typing
import DriveMarket.Proofs.Table.Writing
import DriveMarket.Proofs.Table.ZeroWidth
import DriveMarket.Proofs.Transaction.Decoding
import DriveMarket.Proofs.Transaction.Embedded
import DriveMarket.Proofs.Transaction.Lengths
import DriveMarket.Proofs.Transaction.Received
import DriveMarket.Proofs.Transaction.Refusals
import DriveMarket.Proofs.Transaction.Restoring
import DriveMarket.Proofs.Transaction.RoundTrip
import DriveMarket.Proofs.Transaction.SignedPart
import DriveMarket.Proofs.Transaction.Signing
import DriveMarket.Proofs.Transaction.Values
import DriveMarket.Proofs.Verification.Aggregate
import DriveMarket.Proofs.Verification.Collecting
import DriveMarket.Proofs.Verification.Messages
import DriveMarket.Proofs.Verification.Packaging
import DriveMarket.Proofs.Verification.Pairing
import DriveMarket.Proofs.Verification.Session
import DriveMarket.Proofs.Verification.Shapes
import DriveMarket.Proofs.Verification.SignedRounds
import DriveMarket.Proofs.Verification.Wire
import DriveMarket.Quantity
import DriveMarket.Refusal
import DriveMarket.Replicator
import DriveMarket.Table.Error
import DriveMarket.Table.Reader
import DriveMarket.Table.Record
import DriveMarket.Table.Schema
import DriveMarket.Table.Value
import DriveMarket.Table.Writer
import DriveMarket.Transaction.Body
import DriveMarket.Transaction.Decode
import DriveMarket.Transaction.Encode
import DriveMarket.Transaction.Error
import DriveMarket.Transaction.Factory
import DriveMarket.Transaction.Kind
import DriveMarket.Transaction.Layout
import DriveMarket.Transaction.Settings
import DriveMarket.Transaction.Signing
import DriveMarket.Verification.Error
import DriveMarket.Verification.Message
import DriveMarket.Verification.Opinion
import DriveMarket.Verification.Session
