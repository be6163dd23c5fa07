import SmsGateway.Api.AtFilter
import SmsGateway.Api.MessageUri
import SmsGateway.Api.Paging
import SmsGateway.Api.RateLimiter
import SmsGateway.At.Callers
import SmsGateway.At.Continuation
import SmsGateway.At.Engine
import SmsGateway.At.Exchange
import SmsGateway.At.Overflow
import SmsGateway.At.Parser
import SmsGateway.At.Prompt
import SmsGateway.At.Protocol
import SmsGateway.At.Retry
import SmsGateway.At.Runs
import SmsGateway.At.Tokens
import SmsGateway.Base
import SmsGateway.Board.Cutoff
import SmsGateway.Board.Power
import SmsGateway.Codec.Acceptance
import SmsGateway.Codec.Address
import SmsGateway.Codec.Alphabet
import SmsGateway.Codec.Bounds
import SmsGateway.Codec.Characters
import SmsGateway.Codec.Checked
import SmsGateway.Codec.Deliver
import SmsGateway.Codec.Gsm7
import SmsGateway.Codec.Inverse
import SmsGateway.Codec.Octets
import SmsGateway.Codec.Packing
import SmsGateway.Codec.Preflight
import SmsGateway.Codec.RoundTrip
import SmsGateway.Codec.Septets
import SmsGateway.Codec.Submit
import SmsGateway.Codec.Timestamp
import SmsGateway.Codec.TooLong
import SmsGateway.Codec.Unicode
import SmsGateway.Codec.UserData
import SmsGateway.Codec.Utf8
import SmsGateway.Ledger.Effects
import SmsGateway.Ledger.Eviction
import SmsGateway.Ledger.Idempotency
import SmsGateway.Ledger.Ingress
import SmsGateway.Ledger.Origins
import SmsGateway.Ledger.Queueing
import SmsGateway.Ledger.Requests
import SmsGateway.Lib.Bits
import SmsGateway.Lib.Blocks
import SmsGateway.Lib.BoundedMap
import SmsGateway.Lib.Concurrent
import SmsGateway.Lib.Decimal
import SmsGateway.Lib.Dns
import SmsGateway.Lib.Expansion
import SmsGateway.Lib.Faults
import SmsGateway.Lib.History
import SmsGateway.Lib.Interference
import SmsGateway.Lib.Memory
import SmsGateway.Lib.Numerals
import SmsGateway.Lib.Outcomes
import SmsGateway.Lib.Parallel
import SmsGateway.Lib.Potential
import SmsGateway.Lib.Prefix
import SmsGateway.Lib.Program
import SmsGateway.Lib.Runs
import SmsGateway.Lib.Slots
import SmsGateway.Lib.Staged
import SmsGateway.Lib.Typestate
import SmsGateway.Lib.Window
import SmsGateway.Modem.Manager
import SmsGateway.Modem.Ready
import SmsGateway.Modem.Registration
import SmsGateway.Modem.Status
import SmsGateway.Mqtt.AtLeastOnce
import SmsGateway.Mqtt.Commands
import SmsGateway.Mqtt.Fragments
import SmsGateway.Mqtt.Lifetimes
import SmsGateway.Mqtt.Ownership
import SmsGateway.Mqtt.Protection
import SmsGateway.Mqtt.Published
import SmsGateway.Mqtt.Replay
import SmsGateway.Mqtt.Runtime
import SmsGateway.Mqtt.Tenure
import SmsGateway.Network.Attended
import SmsGateway.Network.Dns
import SmsGateway.Network.Task
import SmsGateway.Ota.Grammar
import SmsGateway.Ota.Precedence
import SmsGateway.Ota.Session
import SmsGateway.Ota.Sessions
import SmsGateway.Ota.Staging
import SmsGateway.Ota.Uploads
import SmsGateway.Ota.Version
import SmsGateway.Service.Acceptance
import SmsGateway.Service.Announcements
import SmsGateway.Service.Arrivals
import SmsGateway.Service.Assembly
import SmsGateway.Service.AtMostOnce
import SmsGateway.Service.Calls
import SmsGateway.Service.Correlation
import SmsGateway.Service.Custody
import SmsGateway.Service.Deliveries
import SmsGateway.Service.DeliveryFacts
import SmsGateway.Service.Drain
import SmsGateway.Service.Drained
import SmsGateway.Service.Gateway
import SmsGateway.Service.Inbound
import SmsGateway.Service.Isolation
import SmsGateway.Service.Lifecycle
import SmsGateway.Service.Outbound
import SmsGateway.Service.Pairing
import SmsGateway.Service.PersistBeforeDelete
import SmsGateway.Service.Processing
import SmsGateway.Service.Quarantine
import SmsGateway.Service.Races
import SmsGateway.Service.Reassembly
import SmsGateway.Service.Reencoding
import SmsGateway.Service.Replay
import SmsGateway.Service.Scan
import SmsGateway.Service.Serial
import SmsGateway.Service.Setup
import SmsGateway.Service.Steps
import SmsGateway.Service.Submission
import SmsGateway.Service.Task
import SmsGateway.Settings.Config
import SmsGateway.Settings.Forms
import SmsGateway.Settings.Portal
import SmsGateway.Settings.Storage
import SmsGateway.Store.Atomic
import SmsGateway.Store.Effects
import SmsGateway.Store.Holds
import SmsGateway.Store.Journal
import SmsGateway.Store.Listing
import SmsGateway.Store.Map
import SmsGateway.Store.Numbering
import SmsGateway.Store.Oldest
import SmsGateway.Store.Queries
import SmsGateway.Store.Record
import SmsGateway.Store.View
import SmsGateway.Usb.Candidates
import SmsGateway.Usb.Descriptor
import SmsGateway.Usb.Handles
import SmsGateway.Usb.Probe
import SmsGateway.Usb.Ready
import SmsGateway.Usb.Transport
import SmsGateway.Usb.Worker
