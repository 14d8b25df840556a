import Cyclers.WebTransport.Command
import Mathlib.Logic.Function.Basic

/-!
# WebTransport streams

The streams of all sessions are kept in one map, `StreamMap`, under their ids.  A stream has
a sending side, a receiving side, or both; each side tells to which stream of which session
it belongs.
-/

namespace Cyclers

namespace WebTransport

/-- A stream of a connection: the session and the QUIC id it has there. -/
structure Origin where
  session : SessionId
  quicId : ℕ
  deriving DecidableEq

/-- The sending side of a stream: what has been written to it, and whether it is finished. -/
structure SendStream where
  origin : Origin
  written : List UInt8
  finished : Bool
  deriving DecidableEq

/-- The receiving side of a stream. -/
structure RecvStream where
  origin : Origin
  deriving DecidableEq

namespace SendStream

/-- Write bytes to a stream. -/
def write (tx : SendStream) (bytes : List UInt8) : SendStream :=
  { tx with written := tx.written ++ bytes }

/-- Tell the peer that no more data will be written to a stream. -/
def finish (tx : SendStream) : SendStream :=
  { tx with finished := true }

end SendStream

/-- A stream, by who opened it and in which directions data flow. -/
inductive Stream where
  | outgoingUni : SendStream → Stream
  | outgoingBi : SendStream → RecvStream → Stream
  | incomingUni : RecvStream → Stream
  | incomingBi : SendStream → RecvStream → Stream
  deriving DecidableEq

namespace Stream

/-- The sending side of a writable stream. -/
def tx : Stream → Option SendStream
  | .outgoingUni tx => some tx
  | .outgoingBi tx _ => some tx
  | .incomingUni _ => none
  | .incomingBi tx _ => some tx

/-- The receiving side of a readable stream. -/
def rx : Stream → Option RecvStream
  | .outgoingUni _ => none
  | .outgoingBi _ rx => some rx
  | .incomingUni rx => some rx
  | .incomingBi _ rx => some rx

/-- Replace the sending side of a writable stream. -/
def setTx (tx : SendStream) : Stream → Stream
  | .outgoingUni _ => .outgoingUni tx
  | .outgoingBi _ rx => .outgoingBi tx rx
  | .incomingUni rx => .incomingUni rx
  | .incomingBi _ rx => .incomingBi tx rx

theorem tx_setTx {stream : Stream} {tx : SendStream} (h : stream.tx = some tx)
    (tx' : SendStream) :
  (stream.setTx tx').tx = some tx'
  := by
  cases stream with
  | incomingUni rx => cases h
  | _ => rfl

/-- The sides of a stream all belong to the stream `origin` of a connection. -/
def Of (stream : Stream) (origin : Origin) : Prop :=
  (∀ tx, stream.tx = some tx → tx.origin = origin) ∧
    ∀ rx, stream.rx = some rx → rx.origin = origin

@[simp]
theorem rx_setTx (stream : Stream) (tx : SendStream) :
  (stream.setTx tx).rx = stream.rx
  := by
  cases stream <;> rfl

/-- Writing to a stream leaves it the stream it was. -/
theorem Of.setTx {stream : Stream} {origin : Origin} (h : stream.Of origin) {tx tx' : SendStream}
    (htx : stream.tx = some tx) (htx' : tx'.origin = tx.origin) :
  (stream.setTx tx').Of origin
  := by
  constructor
  · intro tx'' htx''
    rw [tx_setTx htx] at htx''
    obtain rfl := Option.some.inj htx''
    rw [htx', h.1 tx htx]
  · intro rx hrx
    rw [rx_setTx] at hrx
    apply h.2 rx hrx

end Stream

/-- The streams of all sessions, under their ids. -/
abbrev StreamMap := StreamId → Option Stream

/-- The sending side registered under an id. -/
def StreamMap.tx (streams : StreamMap) (s : StreamId) : Option SendStream :=
  (streams s).bind Stream.tx

/-- Replacing the sending side registered under an id changes that of no other id. -/
theorem StreamMap.tx_update {streams : StreamMap} {s : StreamId} {stream : Stream}
    (h : streams s = some stream) {tx : SendStream} (htx : stream.tx = some tx)
    (tx' : SendStream) :
  StreamMap.tx (Function.update streams s (some (stream.setTx tx'))) =
    Function.update (StreamMap.tx streams) s (some tx')
  := by
  funext s'
  by_cases hs : s' = s
  · subst hs
    rw [Function.update_self, StreamMap.tx, Function.update_self, Option.bind_some,
      Stream.tx_setTx htx]
  · rw [Function.update_of_ne hs, StreamMap.tx, Function.update_of_ne hs, StreamMap.tx]

end WebTransport

end Cyclers
