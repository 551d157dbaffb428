import Qusb.Base.Runs
import Qusb.Base.Tables
import Qusb.Base.Ledger
import Qusb.Base.Backlog
import Qusb.Base.Settling
import Qusb.Base.Text
import Qusb.Base.Reuse
import Qusb.Base.Rankings
import Qusb.Proto.Data
import Qusb.Proto.Records
import Qusb.Proto.DeviceInfo
import Qusb.Proto.Recv
import Qusb.Proto.Hostile
import Qusb.Proto.Outcomes
import Qusb.Proto.Accepted
import Qusb.Proto.SliceLen
import Qusb.Proto.Truncation
import Qusb.Proto.Drain
import Qusb.Proto.FillUntil
import Qusb.Proto.Framing
import Qusb.Borrow.Send
import Qusb.Borrow.Resets
import Qusb.Borrow.Slices
import Qusb.Lend.Send
import Qusb.Lend.Cancel
import Qusb.Frames
import Qusb.Borrow.Recv
import Qusb.Borrow.Receiver
import Qusb.Borrow.Numbering
import Qusb.Lend.Pool
import Qusb.Lend.Recv
import Qusb.Lend.Allocator
import Qusb.Lend.Metrics
import Qusb.Lend.Interfaces
import Qusb.Lend.Open
import Qusb.Lend.Configuring
import Qusb.SendLoop.Loops
import Qusb.SendLoop.Abort
import Qusb.SendLoop.AddrSetter
import Qusb.RoundTrip.Reply
import Qusb.RoundTrip.Shape
import Qusb.RoundTrip.Request
import Qusb.RoundTrip.Control
import Qusb.RoundTrip.Failure
import Qusb.RoundTrip.IsoLength
import Qusb.RoundTrip.Transfer
import Qusb.Session.Ticket
import Qusb.Session.Lender
import Qusb.Session.Peers
import Qusb.Session.Delivery
import Qusb.Session.Traffic
import Qusb.Session.Transparency
import Qusb.Session.Link
import Qusb.Session.Streams
import Qusb.Session.Refinement
import Qusb.Session.Lending
import Qusb.Session.Faultless
import Qusb.Session.Caches
import Qusb.Session.Statistics
import Qusb.Session.Requests
import Qusb.Session.Handshake
import Qusb.Session.Exchange
import Qusb.Session.Server
import Qusb.Session.DeviceList
import Qusb.Session.DeviceRecords
import Qusb.Session.Tasks
import Qusb.Session.Teardown
import Qusb.Session.Ending
import Qusb.Session.Cancellation
import Qusb.Session.LoopTasks
import Qusb.Stub.ThreeKeyMap
import Qusb.Stub.KeySpaces
import Qusb.Stub.Effects
import Qusb.Stub.Counts
import Qusb.Stub.Overwrite
import Qusb.Stub.Aliasing
import Qusb.Stub.Routes
import Qusb.Stub.Demuxer
import Qusb.Stub.Dispatch
import Qusb.Stub.Holders
import Qusb.Stub.Ownership
import Qusb.Stub.Addressing
import Qusb.Stub.Enumeration
import Qusb.Stub.Handles
import Qusb.Stub.Registry
import Qusb.Stub.Blocking
import Qusb.Stub.Deadlock
import Qusb.UsbIds.Parse
import Qusb.UsbIds.Document
import Qusb.UsbIds.Attribution
