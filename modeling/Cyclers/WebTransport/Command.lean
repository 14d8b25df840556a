import Cyclers.Driver

/-!
# Commands of the WebTransport driver
-/

namespace Cyclers

namespace WebTransport

/-- A session is known by the stable id of its connection. -/
structure SessionId where
  stableId : ℕ
  deriving DecidableEq

/-- A stream is known by its QUIC id. -/
structure StreamId where
  quicId : ℕ
  deriving DecidableEq

abbrev Url := String

structure EstablishSessionCommand where
  url : Url
  deriving DecidableEq

structure TerminateSessionCommand where
  sessionId : SessionId
  code : UInt32
  reason : String
  deriving DecidableEq

/-- The command to create a stream, unidirectional or bidirectional. -/
structure CreateStreamCommand where
  sessionId : SessionId
  sendOrder : UInt32
  deriving DecidableEq

/-- The command to add bytes into the send buffer of a stream, after which no more data will
be sent when it is `finished`. -/
structure SendBytesCommand where
  streamId : StreamId
  bytes : List UInt8
  finished : Bool
  deriving DecidableEq

/-- A command of the WebTransport driver.  A client is configured by a function that stands
in a cell of type `F`. -/
inductive WebTransportCommand (F : Type*) where
  | configureClient : F → WebTransportCommand F
  | establishSession : EstablishSessionCommand → WebTransportCommand F
  | terminateSession : TerminateSessionCommand → WebTransportCommand F
  | createUniStream : CreateStreamCommand → WebTransportCommand F
  | createBiStream : CreateStreamCommand → WebTransportCommand F
  | sendBytes : SendBytesCommand → WebTransportCommand F
  deriving DecidableEq

end WebTransport

end Cyclers
