import Amqp091.Shared.BigEndian
import Amqp091.Shared.BufferedWriter
import Amqp091.Shared.Chan
import Amqp091.Shared.Codec
import Amqp091.Shared.Decimal
import Amqp091.Shared.Extent
import Amqp091.Shared.Fallible
import Amqp091.Shared.Fuel
import Amqp091.Shared.KeyMap
import Amqp091.Shared.Listeners
import Amqp091.Shared.LockOrder
import Amqp091.Shared.Netip
import Amqp091.Shared.Outcome
import Amqp091.Shared.Output
import Amqp091.Shared.Positions
import Amqp091.Shared.Reader
import Amqp091.Shared.RoundRobin
import Amqp091.Shared.Source
import Amqp091.Shared.SourceReader
import Amqp091.Shared.Ticker
import Amqp091.Shared.Transition
import Amqp091.Shared.Url
import Amqp091.Shared.Url.Authority
import Amqp091.Shared.Url.Escape
import Amqp091.Shared.Url.Host
import Amqp091.Shared.Url.Parse
import Amqp091.Shared.Url.Query
import Amqp091.Shared.WaitFor
import Amqp091.Model.Config
import Amqp091.Model.Content
import Amqp091.Model.Error
import Amqp091.Model.Field
import Amqp091.Model.Frame
import Amqp091.Model.Method
import Amqp091.Model.Uri
import Amqp091.Algorithm.Allocator
import Amqp091.Algorithm.Auth
import Amqp091.Algorithm.CallChannel
import Amqp091.Algorithm.CallConnection
import Amqp091.Algorithm.Channel
import Amqp091.Algorithm.ChannelListeners
import Amqp091.Algorithm.ChannelState
import Amqp091.Algorithm.Confirming
import Amqp091.Algorithm.Confirms
import Amqp091.Algorithm.ConnectionListeners
import Amqp091.Algorithm.ConsumerTag
import Amqp091.Algorithm.Consumers
import Amqp091.Algorithm.Contexts
import Amqp091.Algorithm.Crossing
import Amqp091.Algorithm.DeferredWait
import Amqp091.Algorithm.Delivery
import Amqp091.Algorithm.Demux
import Amqp091.Algorithm.DialConfig
import Amqp091.Algorithm.Generator
import Amqp091.Algorithm.GracefulClose
import Amqp091.Algorithm.Handshake
import Amqp091.Algorithm.Heartbeater
import Amqp091.Algorithm.IntAllocator
import Amqp091.Algorithm.Locking
import Amqp091.Algorithm.Method
import Amqp091.Algorithm.NotifyConfirm
import Amqp091.Algorithm.OpenTune
import Amqp091.Algorithm.Opening
import Amqp091.Algorithm.ReadField
import Amqp091.Algorithm.ReadFrame
import Amqp091.Algorithm.ReadSource
import Amqp091.Algorithm.Reassembly
import Amqp091.Algorithm.Receive
import Amqp091.Algorithm.Registry
import Amqp091.Algorithm.Requests
import Amqp091.Algorithm.Rpc
import Amqp091.Algorithm.SendOpen
import Amqp091.Algorithm.Sender
import Amqp091.Algorithm.Shutdown
import Amqp091.Algorithm.Specification
import Amqp091.Algorithm.Tune
import Amqp091.Algorithm.Uri
import Amqp091.Algorithm.ValidateField
import Amqp091.Algorithm.WriteField
import Amqp091.Algorithm.WriteFrame
import Amqp091.Verification.Calls.Channel
import Amqp091.Verification.Calls.Connection
import Amqp091.Verification.Calls.Release
import Amqp091.Verification.Calls.Shelter
import Amqp091.Verification.Calls.Stranded
import Amqp091.Verification.Calls.Truthful
import Amqp091.Verification.Channel.CloseOk
import Amqp091.Verification.Channel.Counters
import Amqp091.Verification.Channel.Interleaving
import Amqp091.Verification.Channel.Machine
import Amqp091.Verification.Channel.Numbering
import Amqp091.Verification.Channel.Resolution
import Amqp091.Verification.Channel.Send
import Amqp091.Verification.Channel.Waiting
import Amqp091.Verification.Channel.Wire
import Amqp091.Verification.Confirms.Agreement
import Amqp091.Verification.Confirms.Counters
import Amqp091.Verification.Confirms.Deferred
import Amqp091.Verification.Confirms.Equations
import Amqp091.Verification.Confirms.Machine
import Amqp091.Verification.Confirms.Notify
import Amqp091.Verification.Confirms.Resequencing
import Amqp091.Verification.Confirms.Switching
import Amqp091.Verification.Confirms.Tags
import Amqp091.Verification.Confirms.Tracking
import Amqp091.Verification.Confirms.Wrapping
import Amqp091.Verification.Consumers.Closing
import Amqp091.Verification.Consumers.Delivery
import Amqp091.Verification.Consumers.Feed
import Amqp091.Verification.Consumers.History
import Amqp091.Verification.Consumers.Registration
import Amqp091.Verification.Consumers.Tags
import Amqp091.Verification.Content.BodySize
import Amqp091.Verification.Content.Chunking
import Amqp091.Verification.Content.Crash
import Amqp091.Verification.Content.Delivery
import Amqp091.Verification.Content.Equations
import Amqp091.Verification.Content.FrameSize
import Amqp091.Verification.Content.Mixing
import Amqp091.Verification.Content.Reassembly
import Amqp091.Verification.Content.Refinement
import Amqp091.Verification.Content.Sequences
import Amqp091.Verification.Content.Settlement
import Amqp091.Verification.Content.Transport
import Amqp091.Verification.Contexts.Calls
import Amqp091.Verification.Contexts.Scope
import Amqp091.Verification.Crossing.Invariant
import Amqp091.Verification.Crossing.Opening
import Amqp091.Verification.Crossing.Reader
import Amqp091.Verification.Crossing.Reuse
import Amqp091.Verification.Field.Arrays
import Amqp091.Verification.Field.Calls
import Amqp091.Verification.Field.Decoded
import Amqp091.Verification.Field.Equations
import Amqp091.Verification.Field.Failure
import Amqp091.Verification.Field.Grammar
import Amqp091.Verification.Field.Lengths
import Amqp091.Verification.Field.Progress
import Amqp091.Verification.Field.RoundTrip
import Amqp091.Verification.Field.Validate
import Amqp091.Verification.Frame.CrashFreedom
import Amqp091.Verification.Frame.Equations
import Amqp091.Verification.Frame.Methods
import Amqp091.Verification.Frame.Reencode
import Amqp091.Verification.Frame.Rejection
import Amqp091.Verification.Frame.RoundTrip
import Amqp091.Verification.Frame.Size
import Amqp091.Verification.Generator.Codec
import Amqp091.Verification.Generator.Grouping
import Amqp091.Verification.Generator.Refinement
import Amqp091.Verification.Handshake.Credentials
import Amqp091.Verification.Handshake.Heartbeat
import Amqp091.Verification.Handshake.Machine
import Amqp091.Verification.Handshake.Release
import Amqp091.Verification.Handshake.Tuning
import Amqp091.Verification.Heartbeat.Deadline
import Amqp091.Verification.Heartbeat.Machine
import Amqp091.Verification.Heartbeat.Pacing
import Amqp091.Verification.Listeners.ChannelSafety
import Amqp091.Verification.Listeners.ConnectionSafety
import Amqp091.Verification.Listeners.Silence
import Amqp091.Verification.Locking.Order
import Amqp091.Verification.Registry.Allocator
import Amqp091.Verification.Registry.Cycle
import Amqp091.Verification.Registry.Invariant
import Amqp091.Verification.Registry.Lookup
import Amqp091.Verification.Requests.Narrowing
import Amqp091.Verification.Requests.Pairing
import Amqp091.Verification.Requests.Wire
import Amqp091.Verification.Rpc.Link
import Amqp091.Verification.Rpc.Shutdown
import Amqp091.Verification.Rpc.Truthful
import Amqp091.Verification.Sender.Unflushed
import Amqp091.Verification.Shutdown.Deadlock
import Amqp091.Verification.Uri.Printing
import Amqp091.Verification.Uri.Reading
import Amqp091.Verification.Uri.RoundTrip
