import AioLibDataChannel.Transition.Run
import AioLibDataChannel.Ledger.Basic
import AioLibDataChannel.Watermark.Basic
import AioLibDataChannel.IntEnum.Basic
import AioLibDataChannel.Mailbox.Basic
import AioLibDataChannel.Mailbox.Conveyor
import AioLibDataChannel.Asyncio.Consumers
import AioLibDataChannel.Asyncio.Executor
import AioLibDataChannel.Asyncio.Relay
import AioLibDataChannel.Asyncio.Marker
import AioLibDataChannel.Asyncio.Latch
import AioLibDataChannel.Native.CString
import AioLibDataChannel.Url.Percent
import AioLibDataChannel.Native.Bindings
import AioLibDataChannel.Config.IceServer
import AioLibDataChannel.Config.Options
import AioLibDataChannel.Wrapper.Registry
import AioLibDataChannel.Wrapper.Dispatch
import AioLibDataChannel.Native.Trampoline
import AioLibDataChannel.Native.Gil
import AioLibDataChannel.Native.Inversion
import AioLibDataChannel.DataChannel.Link
import AioLibDataChannel.DataChannel.Custody
import AioLibDataChannel.DataChannel.Readers
import AioLibDataChannel.DataChannel.Senders
import AioLibDataChannel.DataChannel.Isolation
import AioLibDataChannel.DataChannel.Opening
import AioLibDataChannel.DataChannel.Barrier
import AioLibDataChannel.DataChannel.Refusal
import AioLibDataChannel.DataChannel.Backpressure
import AioLibDataChannel.DataChannel.Producers
import AioLibDataChannel.DataChannel.RoundTrip
import AioLibDataChannel.DataChannel.Delivery
import AioLibDataChannel.DataChannel.Finality
import AioLibDataChannel.PeerConnection.Remote
import AioLibDataChannel.PeerConnection.Gate
import AioLibDataChannel.PeerConnection.Conservation
import AioLibDataChannel.PeerConnection.Cancellation
import AioLibDataChannel.PeerConnection.Order
import AioLibDataChannel.PeerConnection.Machine
import AioLibDataChannel.PeerConnection.Tasks
import AioLibDataChannel.PeerConnection.Shutdown
import AioLibDataChannel.PeerConnection.Hanging
import AioLibDataChannel.PeerConnection.Barrier
import AioLibDataChannel.PeerConnection.Channels
import AioLibDataChannel.PeerConnection.Results
import AioLibDataChannel.PeerConnection.Offers
import AioLibDataChannel.PeerConnection.Origins
import AioLibDataChannel.PeerConnection.Streams
import AioLibDataChannel.PeerConnection.StateWaits
import AioLibDataChannel.PeerConnection.RemoteClose
import AioLibDataChannel.PeerConnection.Cycles
import AioLibDataChannel.PeerConnection.Gathering
import AioLibDataChannel.PeerConnection.Snapshot
import AioLibDataChannel.PeerConnection.Callbacks
import AioLibDataChannel.DataChannel.Callbacks
import AioLibDataChannel.Native.Upcalls
import AioLibDataChannel.Asyncio.Posting
import AioLibDataChannel.PeerConnection.Reports
import AioLibDataChannel.PeerConnection.Trickle
import AioLibDataChannel.Carrier.Basic
import AioLibDataChannel.DataChannel.Peers
import AioLibDataChannel.PeerConnection.Aborts
import AioLibDataChannel.Logging.Basic
import AioLibDataChannel.Logging.Filter
import AioLibDataChannel.Logging.Installs
import AioLibDataChannel.PeerConnection.Signals
import AioLibDataChannel.Wrapper.Retrieval
import AioLibDataChannel.Native.Dispatcher
import AioLibDataChannel.DataChannel.Causes
import AioLibDataChannel.PeerConnection.Endings
import AioLibDataChannel.DataChannel.Iteration
