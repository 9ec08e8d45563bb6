import Playout.Bytes.BigEndian
import Playout.Time.Span
import Playout.Time.Checked
import Playout.Sequence.Number
import Playout.Sequence.Extender
import Playout.Reorder.Buffer
import Playout.Rtp.Packet
import Playout.Rtcp.Nack
import Playout.Rtcp.SourceDescription
import Playout.Rtcp.ReceiverReport
import Playout.Ntp.Timestamp
import Playout.Ntp.Packet
import Playout.Clock.Estimate
import Playout.Clock.Client
import Playout.Text.Decimal
import Playout.Text.Readable
import Playout.Text.Reader
import Playout.Toml.Value
import Playout.Toml.Quoted
import Playout.Toml.Literal
import Playout.Toml.Document
import Playout.Net.Address
import Playout.Settings.Basic
import Playout.Settings.File
import Playout.Receiver.Statistics
import Playout.Receiver.Basic
import Playout.Fault
import Playout.Timer.Queue
import Playout.Decode.Device
import Playout.Decode.Slots
import Playout.Decode.Pipeline
import Playout.Audio.Pacer
import Playout.Video.Scheduler
import Playout.Session.Message
import Playout.Session.Platform
import Playout.Session.Basic
import Playout.Session.Run
import Playout.Platform.Scripted
import Playout.Platform.Simulated
import Playout.Proofs.Action
import Playout.Proofs.Bytes.BigEndian
import Playout.Proofs.Reorder.Turns
import Playout.Proofs.Reorder.Delivery
import Playout.Proofs.Reorder.Tiling
import Playout.Proofs.Reorder.Requests
import Playout.Proofs.Timer.Queue
import Playout.Proofs.Audio.Pacer
import Playout.Proofs.Video.Scheduler
import Playout.Proofs.Decode.Ownership
import Playout.Proofs.Session.Basic
import Playout.Proofs.Session.Due
import Playout.Proofs.Session.Firing
import Playout.Proofs.Session.Recording
import Playout.Proofs.Session.Holding
import Playout.Proofs.Session.Teardown
import Playout.Proofs.Sequence.Extender
import Playout.Proofs.Decode.Misuse
import Playout.Proofs.Session.Handling
import Playout.Proofs.Session.Slots
import Playout.Proofs.Decode.Retry
import Playout.Proofs.Session.Awaited
import Playout.Proofs.Session.WakeUps
import Playout.Proofs.Reorder.Waiting
import Playout.Proofs.Rtp.Frame
import Playout.Proofs.Rtp.Indexed
import Playout.Proofs.Sequence.Reach
import Playout.Proofs.Receiver.Calls
import Playout.Proofs.Receiver.Recovery
import Playout.Proofs.Receiver.Order
import Playout.Proofs.Audio.Stream
import Playout.Proofs.Audio.Room
import Playout.Proofs.Decode.Returns
import Playout.Proofs.Session.Frames
import Playout.Proofs.Session.Outcome
import Playout.Proofs.Session.Playback
import Playout.Proofs.Ntp.Units
import Playout.Proofs.Clock.Exchange
import Playout.Proofs.Session.Alarm
import Playout.Proofs.Decode.Calls
import Playout.Proofs.Session.Punctual
import Playout.Proofs.Sequence.Number
import Playout.Proofs.Session.Messages
import Playout.Proofs.Session.Standing
import Playout.Proofs.Session.Renderers
import Playout.Proofs.Platform.Flow
import Playout.Proofs.Platform.Echo
import Playout.Proofs.Reorder.Inquiry
import Playout.Proofs.Reorder.Stock
import Playout.Proofs.Audio.Run
import Playout.Proofs.Video.Order
import Playout.Proofs.Platform.Decoding
import Playout.Proofs.Platform.Ring
import Playout.Proofs.Session.Staging
import Playout.Proofs.Session.Rehearsal
import Playout.Proofs.Decode.Parts
import Playout.Proofs.Decode.Trace
import Playout.Proofs.Decode.Upkeep
import Playout.Proofs.Decode.Offers
import Playout.Proofs.Decode.Lending
import Playout.Proofs.Decode.Feeding
import Playout.Proofs.Session.Orderly
import Playout.Proofs.Session.Inert
import Playout.Proofs.Session.Settled
import Playout.Proofs.Session.Rejection
import Playout.Proofs.Reorder.Contents
import Playout.Proofs.Receiver.Accounts
import Playout.Proofs.Lockstep
import Playout.Proofs.Platform.Lockstep
import Playout.Proofs.Session.Shares
import Playout.Proofs.Session.Isolation
import Playout.Proofs.Receiver.Feedback
import Playout.Proofs.Clock.Client
import Playout.Proofs.Ntp.Packet
import Playout.Proofs.Clock.Replies
import Playout.Proofs.Sequence.Reports
import Playout.Proofs.Clock.Batch
import Playout.Proofs.Ntp.Micros
import Playout.Proofs.Video.Showing
import Playout.Proofs.Decode.Queues
import Playout.Proofs.Ntp.Spans
import Playout.Proofs.Reorder.Deadline
import Playout.Proofs.Time.Readings
import Playout.Proofs.Reorder.Readings
import Playout.Proofs.Video.Readings
import Playout.Proofs.Settings.Range
import Playout.Proofs.Reorder.Arrival
import Playout.Proofs.Sequence.Intervals
import Playout.Proofs.Rtcp.Header
import Playout.Proofs.Rtcp.ReceiverReport
import Playout.Proofs.Rtcp.Nack
import Playout.Proofs.Rtcp.SourceDescription
import Playout.Proofs.Timer.Ledger
