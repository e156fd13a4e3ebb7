import SecureInbox.Bytes.Base64
import SecureInbox.Bytes.Basic
import SecureInbox.Bytes.Hex
import SecureInbox.CommandLine.Arguments
import SecureInbox.CommandLine.Command
import SecureInbox.Crypto.ChaCha
import SecureInbox.Crypto.Error
import SecureInbox.Crypto.Sha256
import SecureInbox.Crypto.Suite
import SecureInbox.Crypto.X25519
import SecureInbox.Identity
import SecureInbox.Instant
import SecureInbox.Intake.Application
import SecureInbox.Intake.Batch
import SecureInbox.Intake.Endpoint
import SecureInbox.Intake.Error
import SecureInbox.Intake.Network
import SecureInbox.Intake.Opening
import SecureInbox.Intake.PeerLocks
import SecureInbox.Intake.Processor
import SecureInbox.Intake.Script
import SecureInbox.Intake.World
import SecureInbox.Json.Basic
import SecureInbox.Json.Node
import SecureInbox.Json.Number
import SecureInbox.Json.Parser
import SecureInbox.Json.Printer
import SecureInbox.Main
import SecureInbox.Message.Basic
import SecureInbox.Message.Body
import SecureInbox.Message.Call
import SecureInbox.Message.Content
import SecureInbox.Message.Flags
import SecureInbox.Message.Json
import SecureInbox.Message.Kind
import SecureInbox.Number.Binary64
import SecureInbox.Number.Digits
import SecureInbox.Number.Reading
import SecureInbox.Number.Shortest
import SecureInbox.Proofs.Bytes.Base64
import SecureInbox.Proofs.Crypto.Aead
import SecureInbox.Proofs.Instant.Calendar
import SecureInbox.Proofs.Instant.Text
import SecureInbox.Proofs.Intake.Admitted
import SecureInbox.Proofs.Intake.Arrival
import SecureInbox.Proofs.Intake.Batch
import SecureInbox.Proofs.Intake.Bindings
import SecureInbox.Proofs.Intake.Blobs
import SecureInbox.Proofs.Intake.CallProgress
import SecureInbox.Proofs.Intake.Calls
import SecureInbox.Proofs.Intake.Clearing
import SecureInbox.Proofs.Intake.Conduct
import SecureInbox.Proofs.Intake.Crossing
import SecureInbox.Proofs.Intake.Delivery
import SecureInbox.Proofs.Intake.Downgrade
import SecureInbox.Proofs.Intake.EndpointState
import SecureInbox.Proofs.Intake.FiledSessions
import SecureInbox.Proofs.Intake.Flight
import SecureInbox.Proofs.Intake.Handling
import SecureInbox.Proofs.Intake.Handshake
import SecureInbox.Proofs.Intake.Lanes
import SecureInbox.Proofs.Intake.Locks
import SecureInbox.Proofs.Intake.LogIndependence
import SecureInbox.Proofs.Intake.Mirror
import SecureInbox.Proofs.Intake.Negotiation
import SecureInbox.Proofs.Intake.Neighbours
import SecureInbox.Proofs.Intake.Nested
import SecureInbox.Proofs.Intake.Outgoing
import SecureInbox.Proofs.Intake.PeerScope
import SecureInbox.Proofs.Intake.Recovery
import SecureInbox.Proofs.Intake.Redelivery
import SecureInbox.Proofs.Intake.Refusals
import SecureInbox.Proofs.Intake.Rejections
import SecureInbox.Proofs.Intake.Reply
import SecureInbox.Proofs.Intake.Requests
import SecureInbox.Proofs.Intake.Retry
import SecureInbox.Proofs.Intake.Routes
import SecureInbox.Proofs.Intake.SessionLink
import SecureInbox.Proofs.Intake.Setting
import SecureInbox.Proofs.Intake.Settled
import SecureInbox.Proofs.Intake.StoreView
import SecureInbox.Proofs.Intake.Talk
import SecureInbox.Proofs.Intake.Traffic
import SecureInbox.Proofs.Intake.Trail
import SecureInbox.Proofs.Intake.Transit
import SecureInbox.Proofs.Json.Front
import SecureInbox.Proofs.Json.Line
import SecureInbox.Proofs.Json.Order
import SecureInbox.Proofs.Json.Reading
import SecureInbox.Proofs.Json.Record
import SecureInbox.Proofs.Message.Call
import SecureInbox.Proofs.Message.Members
import SecureInbox.Proofs.Message.Payload
import SecureInbox.Proofs.Message.Restored
import SecureInbox.Proofs.Rejection.Chain
import SecureInbox.Proofs.Rejection.Found
import SecureInbox.Proofs.Rejection.Log
import SecureInbox.Proofs.Rejection.Record
import SecureInbox.Proofs.Rejection.Rotation
import SecureInbox.Proofs.Script.History
import SecureInbox.Proofs.Script.Refinement
import SecureInbox.Proofs.Script.Rules
import SecureInbox.Proofs.Session.Chains
import SecureInbox.Proofs.Session.Derivation
import SecureInbox.Proofs.Session.FastForward
import SecureInbox.Proofs.Session.InPlace
import SecureInbox.Proofs.Session.Json
import SecureInbox.Proofs.Session.Lifetime
import SecureInbox.Proofs.Session.Ratchet
import SecureInbox.Proofs.Session.Shape
import SecureInbox.Proofs.Session.Spending
import SecureInbox.Proofs.Session.Version
import SecureInbox.Proofs.Store.Agreement
import SecureInbox.Proofs.Store.Gating
import SecureInbox.Proofs.Store.Ledger
import SecureInbox.Proofs.Store.Pairs
import SecureInbox.Proofs.Store.Seal
import SecureInbox.Proofs.Store.Table
import SecureInbox.Proofs.Text.Lines
import SecureInbox.Proofs.Text.Utf8
import SecureInbox.Proofs.Wire.Acceptance
import SecureInbox.Proofs.Wire.Body
import SecureInbox.Proofs.Wire.Boxed
import SecureInbox.Proofs.Wire.Content
import SecureInbox.Proofs.Wire.Envelope
import SecureInbox.Proofs.Wire.Framing
import SecureInbox.Proofs.Wire.Padding
import SecureInbox.Proofs.Wire.Place
import SecureInbox.Proofs.Wire.Reader
import SecureInbox.Rejection.Log
import SecureInbox.Rejection.LogFile
import SecureInbox.Rejection.Record
import SecureInbox.Report.Error
import SecureInbox.Report.Event
import SecureInbox.Report.Form
import SecureInbox.Report.Settings
import SecureInbox.Session.Basic
import SecureInbox.Session.Envelope
import SecureInbox.Session.Json
import SecureInbox.Session.Ratchet
import SecureInbox.Session.Version
import SecureInbox.Settings
import SecureInbox.Store.Directory
import SecureInbox.Store.Error
import SecureInbox.Store.Machine
import SecureInbox.Store.Nonces
import SecureInbox.Store.Path
import SecureInbox.Store.Sessions
import SecureInbox.Store.Vault
import SecureInbox.Text.Blank
import SecureInbox.Text.Hidden
import SecureInbox.Text.Quoted
import SecureInbox.Text.Utf8
import SecureInbox.Wire.Body
import SecureInbox.Wire.Boxed
import SecureInbox.Wire.Envelope
import SecureInbox.Wire.Error
import SecureInbox.Wire.Location
import SecureInbox.Wire.Padding
import SecureInbox.Wire.Reader
