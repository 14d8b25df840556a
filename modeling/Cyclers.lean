import Cyclers.Async.Combinator
import Cyclers.Async.Machine
import Cyclers.Async.Mpsc
import Cyclers.Run.Proxy
import Cyclers.Run.Setup
import Cyclers.Run.Invariant
import Cyclers.Run.Delivery
import Cyclers.Run.Outcome
import Cyclers.Run.Exit
import Cyclers.WebTransport.Command
import Cyclers.WebTransport.SendBytes
import Cyclers.WebTransport.StreamMap
import Cyclers.Async.RwLock
import Cyclers.WebTransport.Terminate
import Cyclers.Driver
import Cyclers.WebTransport.Session
import Cyclers.Http.Driver
import Cyclers.Http.Invariant
import Cyclers.Http.Client
import Cyclers.Http.Responses
import Cyclers.WebTransport.Handlers
import Cyclers.WebTransport.Order
import Cyclers.WebTransport.Pace
import Cyclers.WebTransport.BytesReceived
import Cyclers.Http.Exit
import Cyclers.Terminal.Reads
import Cyclers.Async.Subscriber
import Cyclers.Http.Streams
import Cyclers.Async.Registry
import Cyclers.WebTransport.Source
import Cyclers.WebTransport.SessionIds
import Cyclers.WebTransport.StreamIds
import Cyclers.WebTransport.Effects
import Cyclers.Effects
import Cyclers.Async.Mutex
import Cyclers.Async.Oneshot
import Cyclers.WebRtc.Driver
import Cyclers.WebRtc.Oneshots
import Cyclers.WebRtc.Receive
import Cyclers.WebRtc.Send
import Cyclers.Collection.IndexMap
import Cyclers.WebRtc.Peers
import Cyclers.Http.Panics
import Cyclers.WebTransport.Configure
import Cyclers.WebTransport.SendOrder
import Cyclers.WebTransport.Panics
import Cyclers.Async.Unfold
import Cyclers.WebTransport.Received
import Cyclers.WebRtc.ConnectedPeers
import Cyclers.Terminal.Interpreter
import Cyclers.Terminal.Driver
import Cyclers.Async.Progress
import Cyclers.Terminal.Application
import Cyclers.Terminal.Echo
import Cyclers.Terminal.EchoEnds
import Cyclers.Async.Readiness
import Cyclers.Terminal.AsyncStdin
import Cyclers.Async.Link
import Cyclers.WebRtc.Room
import Cyclers.WebTransport.Exchange
import Cyclers.Async.Deal
import Cyclers.WebRtc.Dealt
import Cyclers.Http.Failure
import Cyclers.WebRtc.Exit
