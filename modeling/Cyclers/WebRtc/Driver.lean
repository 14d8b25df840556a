import Cyclers.Async.Mutex
import Cyclers.Async.Oneshot
import Cyclers.Async.Subscriber
import Cyclers.Driver
import Mathlib.Logic.Function.Basic

/-!
# The WebRTC driver

The driver joins three futures: one handles the commands to send, one the first command to
disconnect, and one the first command to connect, after which it is the loop of messages of the
socket.  The last one gives the socket, and the sender and the receiver of the data channel, away
through three oneshot channels.  The first two, and the streams that are obtained from the source,
hold clones of what comes out of these channels, and wait for it before they do anything else.

The futures are polled in that order.  The first one to poll the sink is the handler of the commands
to send, which has it yield commands as far as the first message.  The handler of the command to
disconnect subscribes to the sink only when it is polled for the first time, after that, and so it
may miss the command.

Of the streams of peers there is only how they wait for the socket here.
-/

open Async

namespace Cyclers

namespace WebRtc

/-- A peer is known by its id. -/
structure PeerId where
  uuid : BitVec 128
  deriving DecidableEq

abbrev Packet := List UInt8

/-- A message of the data channel: the peer, and the packet that is sent to it or received from
it. -/
abbrev Message := PeerId × Packet

/-- A command of the WebRTC driver. -/
inductive WebRtcCommand where
  | connect : String → WebRtcCommand
  | disconnect
  | send : Packet → PeerId → WebRtcCommand
  deriving DecidableEq

/-- What goes through the three oneshot channels. -/
inductive Oneshots where
  | socket
  | channelSender
  | channelReceiver
  deriving DecidableEq

/-- The message of the panic when the receiver of a oneshot channel has been dropped. -/
def Oneshots.disconnected : Oneshots → String
  | .socket => "socket_rx should not be disconnected"
  | .channelSender => "channel_sender_rx should not be disconnected"
  | .channelReceiver => "channel_receiver_rx should not be disconnected"

/-- The message of the panic when the sender of a oneshot channel has been dropped. -/
def Oneshots.withoutSending : Oneshots → String
  | .socket => "socket_tx dropped without sending"
  | .channelSender => "channel_sender_tx dropped without sending"
  | .channelReceiver => "channel_receiver_tx dropped without sending"

/-- Those who hold what comes out of the oneshot channels. -/
inductive Party where
  | source
  | sendHandler
  | disconnectHandler
  | stream : ℕ → Party
  deriving DecidableEq

/-- The handler of the commands to send: it goes on from a position in the sink, and zips the
sender of the data channel with the messages, of each of which it may have one already; or it has
ended. -/
inductive SendHandler where
  | zip : ℕ → Bool → Option Message → SendHandler
  | ended
  deriving DecidableEq

/-- The handler of the first command to disconnect: it goes on from a position in the sink, once it
has subscribed to it, and zips the sender and the receiver of the data channel with the command, of
each of which it may have one already; it has disconnected, and is to ask for the lock of the
receiver; it awaits the lock, or holds it; or it has ended. -/
inductive DisconnectHandler where
  | zip : ℕ → Bool → Bool → Bool → DisconnectHandler
  | disconnected
  | lock
  | ended
  deriving DecidableEq

/-- The handler of the first command to connect: it goes on from a position in the sink; it has
connected, and gives something away; it is the loop of messages; or it has ended, after it has
connected or not. -/
inductive MessageLoop where
  | next : ℕ → MessageLoop
  | send : Oneshots → MessageLoop
  | running
  | ended : Bool → MessageLoop
  deriving DecidableEq

/-- What the handler does when it has given something away. -/
def Oneshots.next : Oneshots → MessageLoop
  | .socket => .send .channelSender
  | .channelSender => .send .channelReceiver
  | .channelReceiver => .running

/-- The handler has given away all that comes from connecting. -/
def MessageLoop.connected : MessageLoop → Bool
  | .running => true
  | .ended connected => connected
  | _ => false

/-- The methods of the source. -/
inductive SourceMethod where
  | peerChanges
  | connectedPeers
  | receive
  deriving DecidableEq

/-- What a stream obtained from the source does: it awaits the socket, or has it; it awaits the
receiver of the data channel; it awaits the lock of the receiver, or holds it and awaits a message;
it has ended; it has been dropped. -/
inductive StreamTask where
  | socket
  | peers
  | receiver
  | lock
  | ended
  | dropped
  deriving DecidableEq

/-- What a stream does when it is obtained. -/
def SourceMethod.task : SourceMethod → StreamTask
  | .peerChanges => .socket
  | .connectedPeers => .socket
  | .receive => .receiver

/-- The oneshot channel of which a stream holds the receiver. -/
def StreamTask.oneshot : StreamTask → Option Oneshots
  | .socket => some .socket
  | .peers => some .socket
  | .receiver => some .channelReceiver
  | .lock => some .channelReceiver
  | _ => none

/-- The driver and the source: the commands that the sink has yielded, and whether it has ended;
whether the source is held, the number of streams obtained, and what they do; the three oneshot
channels; the three futures, and how many commands the sink had yielded when the handler of the
command to disconnect subscribed to it, if it has; whether the token is cancelled, and the sender
and the receiver of the data channel are closed; the lock of the receiver, and the messages that
have come in; the messages that have been forwarded to the data channel, and those that have been
received, each with the stream; how the run has ended, and the message of the panic, if there has
been one. -/
structure WebRtcState where
  sink : List WebRtcCommand
  sinkEnded : Bool
  source : Bool
  count : ℕ
  streams : ℕ → StreamTask
  oneshots : Oneshots → Oneshot Party
  send : SendHandler
  disconnect : DisconnectHandler
  messageLoop : MessageLoop
  subscribed : Option ℕ
  cancelled : Bool
  senderClosed : Bool
  receiverClosed : Bool
  receiver : Mutex Party
  incoming : List Message
  forwarded : List Message
  received : List (ℕ × Message)
  outcome : Option (Except BoxError Unit)
  panicked : Option String

/-- What happens: the sink yields a command, or ends; the source is dropped; a stream is obtained,
or dropped; a message comes in; the loop of messages ends.  The handler of the commands to send
polls for the next one, or for the sender; it forwards a message; it ends as the token is cancelled.
The handler of the command to disconnect subscribes to the sink; it polls for the command, for the
sender, or for the receiver; it disconnects; it asks for the lock of the receiver; it closes the
receiver.  The handler of the command to connect polls for it; it gives something away.  The run
returns.  A stream polls for the socket, or the receiver; it receives a message, or the end of the
messages, or ends as the token is cancelled. -/
inductive WebRtcEvent where
  | sink : WebRtcCommand → WebRtcEvent
  | sinkEnd
  | dropSource
  | obtain : SourceMethod → WebRtcEvent
  | drop : ℕ → WebRtcEvent
  | message : Message → WebRtcEvent
  | loopEnd : Except BoxError Unit → WebRtcEvent
  | pollSend
  | pollSendSender
  | forward
  | cancelSend
  | subscribe
  | pollDisconnect
  | pollDisconnectSender
  | pollDisconnectReceiver
  | disconnect
  | lock
  | close
  | pollConnect
  | giveAway
  | finish
  | poll : ℕ → WebRtcEvent
  | receive : ℕ → WebRtcEvent
  | receiveEnd : ℕ → WebRtcEvent
  | cancelReceive : ℕ → WebRtcEvent
  deriving DecidableEq

/-- The events of the run, which do not happen when it has ended. -/
def WebRtcEvent.ofRun : WebRtcEvent → Bool
  | .loopEnd _ => true
  | .pollSend => true
  | .pollSendSender => true
  | .forward => true
  | .cancelSend => true
  | .subscribe => true
  | .pollDisconnect => true
  | .pollDisconnectSender => true
  | .pollDisconnectReceiver => true
  | .disconnect => true
  | .lock => true
  | .close => true
  | .pollConnect => true
  | .giveAway => true
  | .finish => true
  | _ => false

namespace WebRtcState

/-- The source has been made, and nothing has happened. -/
def init : WebRtcState where
  sink := []
  sinkEnded := false
  source := true
  count := 0
  streams _ := .dropped
  oneshots
    | .socket => ⟨.held, [.source]⟩
    | .channelSender => ⟨.held, [.sendHandler, .disconnectHandler]⟩
    | .channelReceiver => ⟨.held, [.source, .disconnectHandler]⟩
  send := .zip 0 false none
  disconnect := .zip 0 false false false
  messageLoop := .next 0
  subscribed := none
  cancelled := false
  senderClosed := false
  receiverClosed := false
  receiver := Mutex.new Party
  incoming := []
  forwarded := []
  received := []
  outcome := none
  panicked := none

/-- A party drops all that it holds. -/
def release (s : WebRtcState) (p : Party) : WebRtcState :=
  { s with
    oneshots := fun c => (s.oneshots c).drop p
    receiver := s.receiver.leave p }

/-- Change what the stream `j` does. -/
def setTask (s : WebRtcState) (j : ℕ) (task : StreamTask) : WebRtcState :=
  { s with streams := Function.update s.streams j task }

/-- The stream `j` ends, or is dropped, as `task` tells. -/
def endStream (s : WebRtcState) (j : ℕ) (task : StreamTask) : WebRtcState :=
  (s.release (.stream j)).setTask j task

/-- The handler of the commands to send ends. -/
def endSend (s : WebRtcState) : WebRtcState :=
  { s.release .sendHandler with send := .ended }

/-- The handler of the command to disconnect ends. -/
def endDisconnect (s : WebRtcState) : WebRtcState :=
  { s.release .disconnectHandler with disconnect := .ended }

/-- The handler of the command to connect ends, and drops the senders that it has not used. -/
def endConnect (s : WebRtcState) : WebRtcState :=
  { s with
    oneshots := fun c => (s.oneshots c).dropSender
    messageLoop := .ended s.messageLoop.connected }

/-- The run fails, and all three futures are dropped. -/
def fail (s : WebRtcState) (err : BoxError) : WebRtcState :=
  { s with
    oneshots := fun c =>
      (((s.oneshots c).drop .sendHandler).drop .disconnectHandler).dropSender
    send := .ended
    disconnect := .ended
    messageLoop := .ended s.messageLoop.connected
    receiver := s.receiver.leave .disconnectHandler
    outcome := some (.error err) }

/-- Someone panics. -/
def panic (s : WebRtcState) (message : String) : WebRtcState :=
  { s with panicked := some message }

/-- Poll for what comes out of a oneshot channel, and go on as `k` tells when it has come. -/
def recv (s : WebRtcState) (c : Oneshots) (k : WebRtcState) : Option WebRtcState :=
  match (s.oneshots c).recv with
  | .ready true => some k
  | .ready false => some (s.panic c.withoutSending)
  | .pending => none

/-- The next item of the sink, from the position `next` on, when it has come: `some` of a command,
or `none` at the end. -/
def nextCommand (s : WebRtcState) (next : ℕ) : Option (Option WebRtcCommand) :=
  match s.sink[next]? with
  | some command => some (some command)
  | none => if s.sinkEnded then some none else none

/-- The sink may yield something: it has not ended, and someone polls it, which only the handler of
the commands to send does until that of the command to disconnect has subscribed. -/
def yields (s : WebRtcState) : Bool :=
  !s.sinkEnded && (s.subscribed.isSome || s.send == .zip s.sink.length false none)

/-- The handler of the commands to send has been polled as far as it goes: it has a message, waits
for the sink, or has ended. -/
def sendWaits (s : WebRtcState) : Bool :=
  match s.send with
  | .zip next _ none => (s.nextCommand next).isNone
  | _ => true

/-- One event of the run, or of the rest, when it may happen. -/
def act (s : WebRtcState) : WebRtcEvent → Option WebRtcState
  | .sink command =>
      if s.yields then some { s with sink := s.sink ++ [command] } else none
  | .sinkEnd => if s.yields then some { s with sinkEnded := true } else none
  | .dropSource =>
      if s.source then some { s.release .source with source := false } else none
  | .obtain method =>
      if s.source then
        some ({ s with
          count := s.count + 1
          oneshots := fun c =>
            if method.task.oneshot = some c then (s.oneshots c).clone (.stream s.count)
            else s.oneshots c }.setTask s.count method.task)
      else none
  | .drop j => if j < s.count then some (s.endStream j .dropped) else none
  | .message message =>
      if s.messageLoop = .running ∧ s.receiverClosed = false then
        some { s with incoming := s.incoming ++ [message] }
      else none
  | .loopEnd result =>
      match s.messageLoop, result with
      | .running, .ok () => some s.endConnect
      | .running, .error err => some (s.fail err)
      | _, _ => none
  | .pollSend =>
      match s.send with
      | .zip next sender none =>
          match s.nextCommand next with
          | some (some (.send packet peerId)) =>
              some { s with send := .zip (next + 1) sender (some (peerId, packet)) }
          | some (some _) => some { s with send := .zip (next + 1) sender none }
          | some none => some s.endSend
          | none => none
      | _ => none
  | .pollSendSender =>
      match s.send with
      | .zip next false message =>
          s.recv .channelSender { s with send := .zip next true message }
      | _ => none
  | .forward =>
      match s.send with
      | .zip next true (some message) =>
          if s.senderClosed ∨ s.messageLoop = .ended true then
            some (s.fail "send failed because receiver is gone")
          else
            some { s with
              forwarded := s.forwarded ++ [message]
              send := .zip next false none }
      | _ => none
  | .cancelSend =>
      match s.send with
      | .zip _ _ _ => if s.cancelled then some s.endSend else none
      | .ended => none
  | .subscribe =>
      match s.subscribed, s.disconnect with
      | none, .zip _ sender receiver command =>
          if s.sendWaits then
            some { s with
              subscribed := some s.sink.length
              disconnect := .zip s.sink.length sender receiver command }
          else none
      | _, _ => none
  | .pollDisconnect =>
      match s.subscribed, s.disconnect with
      | some _, .zip next sender receiver false =>
          match s.nextCommand next with
          | some (some .disconnect) =>
              some { s with disconnect := .zip (next + 1) sender receiver true }
          | some (some _) => some { s with disconnect := .zip (next + 1) sender receiver false }
          | some none => some s.endDisconnect
          | none => none
      | _, _ => none
  | .pollDisconnectSender =>
      match s.disconnect with
      | .zip next false receiver command =>
          s.recv .channelSender { s with disconnect := .zip next true receiver command }
      | _ => none
  | .pollDisconnectReceiver =>
      match s.disconnect with
      | .zip next sender false command =>
          s.recv .channelReceiver { s with disconnect := .zip next sender true command }
      | _ => none
  | .disconnect =>
      match s.disconnect with
      | .zip _ true true true =>
          some { s with disconnect := .disconnected, cancelled := true, senderClosed := true }
      | _ => none
  | .lock =>
      match s.disconnect with
      | .disconnected =>
          some { s with disconnect := .lock, receiver := s.receiver.lock .disconnectHandler }
      | _ => none
  | .close =>
      if s.disconnect = .lock ∧ s.receiver.holder = some .disconnectHandler then
        some { s.endDisconnect with receiverClosed := true }
      else none
  | .pollConnect =>
      match s.subscribed, s.messageLoop with
      | some _, .next next =>
          match s.nextCommand next with
          | some (some (.connect _)) => some { s with messageLoop := .send .socket }
          | some (some _) => some { s with messageLoop := .next (next + 1) }
          | some none => some s.endConnect
          | none => none
      | _, _ => none
  | .giveAway =>
      match s.messageLoop with
      | .send c =>
          match (s.oneshots c).send with
          | some oneshot =>
              some { s with
                oneshots := Function.update s.oneshots c oneshot
                messageLoop := c.next }
          | none => some (s.panic c.disconnected)
      | _ => none
  | .finish =>
      match s.send, s.disconnect, s.messageLoop with
      | .ended, .ended, .ended _ => some { s with outcome := some (.ok ()) }
      | _, _, _ => none
  | .poll j =>
      match s.streams j with
      | .socket => s.recv .socket (s.setTask j .peers)
      | .receiver =>
          s.recv .channelReceiver
            ({ s with receiver := s.receiver.lock (.stream j) }.setTask j .lock)
      | _ => none
  | .receive j =>
      match s.streams j, s.incoming with
      | .lock, message :: incoming =>
          if s.receiver.holder = some (.stream j) then
            some ({ s with
              receiver := s.receiver.leave (.stream j)
              incoming := incoming
              received := s.received ++ [(j, message)] }.setTask j .receiver)
          else none
      | _, _ => none
  | .receiveEnd j =>
      if s.streams j = .lock ∧ s.receiver.holder = some (.stream j) ∧ s.incoming = [] ∧
          (s.receiverClosed = true ∨ s.messageLoop = .ended true) then
        some (s.endStream j .ended)
      else none
  | .cancelReceive j =>
      if s.streams j = .lock ∧ s.receiver.holder = some (.stream j) ∧ s.cancelled = true then
        some (s.endStream j .ended)
      else none

/-- One event.  Nothing happens once someone has panicked, and nothing of the run once it has
ended. -/
def step (s : WebRtcState) (e : WebRtcEvent) : Option WebRtcState :=
  if s.panicked = none ∧ (e.ofRun = true → s.outcome = none) then s.act e else none

/-- The driver and the source as a machine. -/
def machine : Machine WebRtcState WebRtcEvent where
  step := step

/-- The events that need nothing but the driver and the streams, which are polled when they are
woken. -/
def internal : WebRtcEvent → Prop
  | .sink _ => False
  | .sinkEnd => False
  | .dropSource => False
  | .obtain _ => False
  | .drop _ => False
  | .message _ => False
  | .loopEnd _ => False
  | _ => True

/-! ### The events -/

/-- What is polled for, by an event that polls for what comes out of a oneshot channel. -/
def polled (s : WebRtcState) : WebRtcEvent → Option Oneshots
  | .pollSendSender => some .channelSender
  | .pollDisconnectSender => some .channelSender
  | .pollDisconnectReceiver => some .channelReceiver
  | .poll j => (s.streams j).oneshot
  | _ => none

/-- The events, one case for each way one can happen. -/
inductive Step (s : WebRtcState) : WebRtcEvent → WebRtcState → Prop where
  | sink (command : WebRtcCommand) : s.sinkEnded = false →
      Step s (.sink command) { s with sink := s.sink ++ [command] }
  | sinkEnd : s.sinkEnded = false → Step s .sinkEnd { s with sinkEnded := true }
  | dropSource : s.source = true →
      Step s .dropSource { s.release .source with source := false }
  | obtain (method : SourceMethod) : s.source = true →
      Step s (.obtain method) ({ s with
        count := s.count + 1
        oneshots := fun c =>
          if method.task.oneshot = some c then (s.oneshots c).clone (.stream s.count)
          else s.oneshots c }.setTask s.count method.task)
  | drop (j : ℕ) : j < s.count → Step s (.drop j) (s.endStream j .dropped)
  | message (message : Message) : s.messageLoop = .running → s.receiverClosed = false →
      Step s (.message message) { s with incoming := s.incoming ++ [message] }
  | loopEnd : s.messageLoop = .running → Step s (.loopEnd (.ok ())) s.endConnect
  | loopFail (err : BoxError) : s.messageLoop = .running →
      Step s (.loopEnd (.error err)) (s.fail err)
  | takeSend (next : ℕ) (sender : Bool) (packet : Packet) (peerId : PeerId) :
      s.send = .zip next sender none → s.sink[next]? = some (.send packet peerId) →
      Step s .pollSend { s with send := .zip (next + 1) sender (some (peerId, packet)) }
  | skipSend (next : ℕ) (sender : Bool) (command : WebRtcCommand) :
      s.send = .zip next sender none → s.sink[next]? = some command →
      (∀ packet peerId, command ≠ .send packet peerId) →
      Step s .pollSend { s with send := .zip (next + 1) sender none }
  | sendEnd (next : ℕ) (sender : Bool) : s.send = .zip next sender none →
      s.sink.length ≤ next → s.sinkEnded = true → Step s .pollSend s.endSend
  | sendSender (next : ℕ) (message : Option Message) : s.send = .zip next false message →
      (s.oneshots .channelSender).sender = .sent →
      Step s .pollSendSender { s with send := .zip next true message }
  | forward (next : ℕ) (message : Message) : s.send = .zip next true (some message) →
      s.senderClosed = false → s.messageLoop ≠ .ended true →
      Step s .forward { s with
        forwarded := s.forwarded ++ [message]
        send := .zip next false none }
  | forwardFail (next : ℕ) (message : Message) : s.send = .zip next true (some message) →
      s.senderClosed = true ∨ s.messageLoop = .ended true →
      Step s .forward (s.fail "send failed because receiver is gone")
  | cancelSend : s.send ≠ .ended → s.cancelled = true → Step s .cancelSend s.endSend
  | subscribe (next : ℕ) (sender receiver command : Bool) : s.subscribed = none →
      s.disconnect = .zip next sender receiver command →
      Step s .subscribe { s with
        subscribed := some s.sink.length
        disconnect := .zip s.sink.length sender receiver command }
  | takeDisconnect (i next : ℕ) (sender receiver : Bool) : s.subscribed = some i →
      s.disconnect = .zip next sender receiver false → s.sink[next]? = some .disconnect →
      Step s .pollDisconnect { s with disconnect := .zip (next + 1) sender receiver true }
  | skipDisconnect (next : ℕ) (sender receiver : Bool) (command : WebRtcCommand) :
      s.disconnect = .zip next sender receiver false → s.sink[next]? = some command →
      command ≠ .disconnect →
      Step s .pollDisconnect { s with disconnect := .zip (next + 1) sender receiver false }
  | disconnectEnd (i next : ℕ) (sender receiver : Bool) : s.subscribed = some i →
      s.disconnect = .zip next sender receiver false → s.sink.length ≤ next →
      s.sinkEnded = true → Step s .pollDisconnect s.endDisconnect
  | disconnectSender (next : ℕ) (receiver command : Bool) :
      s.disconnect = .zip next false receiver command →
      (s.oneshots .channelSender).sender = .sent →
      Step s .pollDisconnectSender { s with disconnect := .zip next true receiver command }
  | disconnectReceiver (next : ℕ) (sender command : Bool) :
      s.disconnect = .zip next sender false command →
      (s.oneshots .channelReceiver).sender = .sent →
      Step s .pollDisconnectReceiver { s with disconnect := .zip next sender true command }
  | disconnect (next : ℕ) : s.disconnect = .zip next true true true →
      Step s .disconnect { s with
        disconnect := .disconnected
        cancelled := true
        senderClosed := true }
  | lock : s.disconnect = .disconnected →
      Step s .lock { s with
        disconnect := .lock
        receiver := s.receiver.lock .disconnectHandler }
  | close : s.disconnect = .lock → s.receiver.holder = some .disconnectHandler →
      Step s .close { s.endDisconnect with receiverClosed := true }
  | takeConnect (i next : ℕ) (roomUrl : String) : s.subscribed = some i →
      s.messageLoop = .next next →
      s.sink[next]? = some (.connect roomUrl) →
      Step s .pollConnect { s with messageLoop := .send .socket }
  | skipConnect (next : ℕ) (command : WebRtcCommand) : s.messageLoop = .next next →
      s.sink[next]? = some command → (∀ roomUrl, command ≠ .connect roomUrl) →
      Step s .pollConnect { s with messageLoop := .next (next + 1) }
  | connectEnd (i next : ℕ) : s.subscribed = some i → s.messageLoop = .next next →
      s.sink.length ≤ next → s.sinkEnded = true → Step s .pollConnect s.endConnect
  | giveAway (c : Oneshots) : s.messageLoop = .send c → (s.oneshots c).holders ≠ [] →
      Step s .giveAway { s with
        oneshots := Function.update s.oneshots c { s.oneshots c with sender := .sent }
        messageLoop := c.next }
  | disconnected (c : Oneshots) : s.messageLoop = .send c → (s.oneshots c).holders = [] →
      Step s .giveAway (s.panic c.disconnected)
  | finish (connected : Bool) : s.send = .ended → s.disconnect = .ended →
      s.messageLoop = .ended connected → Step s .finish { s with outcome := some (.ok ()) }
  | withoutSending (e : WebRtcEvent) (c : Oneshots) : s.polled e = some c →
      (s.oneshots c).sender = .dropped → Step s e (s.panic c.withoutSending)
  | pollSocket (j : ℕ) : s.streams j = .socket → (s.oneshots .socket).sender = .sent →
      Step s (.poll j) (s.setTask j .peers)
  | pollReceiver (j : ℕ) : s.streams j = .receiver →
      (s.oneshots .channelReceiver).sender = .sent →
      Step s (.poll j) ({ s with receiver := s.receiver.lock (.stream j) }.setTask j .lock)
  | receive (j : ℕ) (message : Message) (incoming : List Message) : s.streams j = .lock →
      s.incoming = message :: incoming → s.receiver.holder = some (.stream j) →
      Step s (.receive j) ({ s with
        receiver := s.receiver.leave (.stream j)
        incoming := incoming
        received := s.received ++ [(j, message)] }.setTask j .receiver)
  | receiveEnd (j : ℕ) : s.streams j = .lock → s.receiver.holder = some (.stream j) →
      s.incoming = [] → s.receiverClosed = true ∨ s.messageLoop = .ended true →
      Step s (.receiveEnd j) (s.endStream j .ended)
  | cancelReceive (j : ℕ) : s.streams j = .lock → s.receiver.holder = some (.stream j) →
      s.cancelled = true → Step s (.cancelReceive j) (s.endStream j .ended)

/-- Polling for what comes out of a oneshot channel gives it, or panics. -/
theorem step_of_recv {s t k : WebRtcState} {e : WebRtcEvent} {c : Oneshots}
    (hp : s.polled e = some c) (hk : (s.oneshots c).sender = .sent → Step s e k)
    (h : s.recv c k = some t) :
  Step s e t
  := by
  rw [recv] at h
  split at h <;> cases h
  · apply hk (Oneshot.recv_eq_ready_true.mp ‹_›)
  · apply Step.withoutSending e c hp (Oneshot.recv_eq_ready_false.mp ‹_›)

/-- Polling gives what has been sent. -/
theorem recv_of_sent {s k : WebRtcState} {c : Oneshots} (h : (s.oneshots c).sender = .sent) :
  s.recv c k = some k
  := by
  rw [recv, Oneshot.recv_eq_ready_true.mpr h]

theorem nextCommand_eq_some {s : WebRtcState} {next : ℕ} {command : WebRtcCommand} :
  s.nextCommand next = some (some command) ↔ s.sink[next]? = some command
  := by
  rw [nextCommand]
  split
  · simp [*]
  · simp [*]

theorem nextCommand_eq_end {s : WebRtcState} {next : ℕ} :
  s.nextCommand next = some none ↔ s.sink.length ≤ next ∧ s.sinkEnded = true
  := by
  rw [nextCommand]
  split
  · rename_i command hget
    simp [Nat.not_le.mpr (List.getElem?_eq_some_iff.mp hget).1]
  · rename_i hget
    simp [List.getElem?_eq_none_iff.mp hget]

theorem sinkEnded_of_yields {s : WebRtcState} (h : s.yields = true) :
  s.sinkEnded = false
  := by
  rw [yields, Bool.and_eq_true] at h
  exact Bool.not_eq_true' _ ▸ h.1

/-- What happens is one of the steps of `Step`. -/
theorem step_of_act {s t : WebRtcState} {e : WebRtcEvent} (h : s.act e = some t) :
  Step s e t
  := by
  cases e with
  | sink command =>
      simp only [act] at h
      split at h <;> cases h
      apply Step.sink command (sinkEnded_of_yields ‹_›)
  | sinkEnd =>
      simp only [act] at h
      split at h <;> cases h
      apply Step.sinkEnd (sinkEnded_of_yields ‹_›)
  | dropSource =>
      simp only [act] at h
      split at h <;> cases h
      apply Step.dropSource ‹_›
  | obtain method =>
      simp only [act] at h
      split at h <;> cases h
      apply Step.obtain method ‹_›
  | drop j =>
      simp only [act] at h
      split at h <;> cases h
      apply Step.drop j ‹_›
  | message message =>
      simp only [act] at h
      split at h <;> cases h
      obtain ⟨hl, hr⟩ := ‹_ ∧ _›
      apply Step.message message hl hr
  | loopEnd result =>
      simp only [act] at h
      split at h <;> cases h
      · apply Step.loopEnd ‹_›
      · apply Step.loopFail _ ‹_›
  | pollSend =>
      simp only [act] at h
      split at h
      · split at h <;> cases h
        · apply Step.takeSend _ _ _ _ ‹_› (nextCommand_eq_some.mp ‹_›)
        · rename_i hn hget
          refine Step.skipSend _ _ _ ‹_› (nextCommand_eq_some.mp hget) ?_
          intro packet peerId heq
          exact hn packet peerId (heq ▸ rfl)
        · obtain ⟨hle, he⟩ := nextCommand_eq_end.mp ‹_›
          apply Step.sendEnd _ _ ‹_› hle he
      · cases h
  | pollSendSender =>
      simp only [act] at h
      split at h
      · apply step_of_recv rfl _ h
        intro hs
        apply Step.sendSender _ _ ‹_› hs
      · cases h
  | forward =>
      simp only [act] at h
      split at h
      · split at h <;> cases h
        · apply Step.forwardFail _ _ ‹_› ‹_›
        · obtain ⟨hc, hl⟩ := not_or.mp ‹_›
          apply Step.forward _ _ ‹_› ((Bool.not_eq_true _).mp hc) hl
      · cases h
  | cancelSend =>
      simp only [act] at h
      split at h
      · rename_i hz
        split at h <;> cases h
        refine Step.cancelSend ?_ ‹_›
        rw [hz]
        exact nofun
      · cases h
  | subscribe =>
      simp only [act] at h
      split at h
      · split at h <;> cases h
        apply Step.subscribe _ _ _ _ ‹_› ‹_›
      · cases h
  | pollDisconnect =>
      simp only [act] at h
      split at h
      · split at h <;> cases h
        · apply Step.takeDisconnect _ _ _ _ ‹_› ‹_› (nextCommand_eq_some.mp ‹_›)
        · rename_i hn hget
          refine Step.skipDisconnect _ _ _ _ ‹_› (nextCommand_eq_some.mp hget) ?_
          intro heq
          exact hn (heq ▸ rfl)
        · obtain ⟨hle, he⟩ := nextCommand_eq_end.mp ‹_›
          apply Step.disconnectEnd _ _ _ _ ‹_› ‹_› hle he
      · cases h
  | pollDisconnectSender =>
      simp only [act] at h
      split at h
      · apply step_of_recv rfl _ h
        intro hs
        apply Step.disconnectSender _ _ _ ‹_› hs
      · cases h
  | pollDisconnectReceiver =>
      simp only [act] at h
      split at h
      · apply step_of_recv rfl _ h
        intro hs
        apply Step.disconnectReceiver _ _ _ ‹_› hs
      · cases h
  | disconnect =>
      simp only [act] at h
      split at h <;> cases h
      apply Step.disconnect _ ‹_›
  | lock =>
      simp only [act] at h
      split at h <;> cases h
      apply Step.lock ‹_›
  | close =>
      simp only [act] at h
      split at h <;> cases h
      obtain ⟨hd, hh⟩ := ‹_ ∧ _›
      apply Step.close hd hh
  | pollConnect =>
      simp only [act] at h
      split at h
      · split at h <;> cases h
        · apply Step.takeConnect _ _ _ ‹_› ‹_› (nextCommand_eq_some.mp ‹_›)
        · rename_i hn hget
          refine Step.skipConnect _ _ ‹_› (nextCommand_eq_some.mp hget) ?_
          intro roomUrl heq
          exact hn roomUrl (heq ▸ rfl)
        · obtain ⟨hle, he⟩ := nextCommand_eq_end.mp ‹_›
          apply Step.connectEnd _ _ ‹_› ‹_› hle he
      · cases h
  | giveAway =>
      simp only [act] at h
      split at h
      · split at h <;> cases h
        · rename_i oneshot hsend
          have ht := Oneshot.of_send_eq_some hsend
          subst ht
          apply Step.giveAway _ ‹_›
          intro hnil
          rw [Oneshot.send, if_pos hnil] at hsend
          cases hsend
        · rename_i hsend
          apply Step.disconnected _ ‹_›
          apply List.eq_nil_iff_forall_not_mem.mpr (Oneshot.send_eq_none_iff.mp hsend)
      · cases h
  | finish =>
      simp only [act] at h
      split at h <;> cases h
      apply Step.finish _ ‹_› ‹_› ‹_›
  | poll j =>
      simp only [act] at h
      split at h
      · refine step_of_recv ?_ ?_ h
        · simp [polled, StreamTask.oneshot, *]
        · intro hs
          apply Step.pollSocket j ‹_› hs
      · refine step_of_recv ?_ ?_ h
        · simp [polled, StreamTask.oneshot, *]
        · intro hs
          apply Step.pollReceiver j ‹_› hs
      · cases h
  | receive j =>
      simp only [act] at h
      split at h
      · split at h <;> cases h
        apply Step.receive j _ _ ‹_› ‹_› ‹_›
      · cases h
  | receiveEnd j =>
      simp only [act] at h
      split at h <;> cases h
      obtain ⟨hl, hh, hi, hc⟩ := ‹_ ∧ _›
      apply Step.receiveEnd j hl hh hi hc
  | cancelReceive j =>
      simp only [act] at h
      split at h <;> cases h
      obtain ⟨hl, hh, hc⟩ := ‹_ ∧ _›
      apply Step.cancelReceive j hl hh hc

/-- When the machine makes a step, no one has panicked, and the run has not ended if the step is
its. -/
theorem step_of_machine {s t : WebRtcState} {e : WebRtcEvent} (h : machine.step s e = some t) :
  s.panicked = none ∧ (e.ofRun = true → s.outcome = none) ∧ Step s e t
  := by
  change s.step e = some t at h
  rw [step] at h
  split at h
  · obtain ⟨hp, ho⟩ := ‹_ ∧ _›
    exact ⟨hp, ho, step_of_act h⟩
  · cases h

/-- What may happen when no one has panicked does. -/
theorem machine_step {s : WebRtcState} {e : WebRtcEvent} (hp : s.panicked = none)
    (ho : e.ofRun = true → s.outcome = none) :
  machine.step s e = s.act e
  := if_pos ⟨hp, ho⟩

/-- The events that need nothing but the three futures of the run. -/
def internalRun (e : WebRtcEvent) : Prop :=
  internal e ∧ e.ofRun = true

/-- Nothing is left to do for the futures of the run when nothing is left to do at all. -/
theorem quiescent_run {s : WebRtcState} (h : machine.Quiescent internal s) :
  machine.Quiescent internalRun s
  := fun e he => h e he.1

/-- What may not happen when nothing is left to do for the futures of the run. -/
theorem act_of_quiescent {s : WebRtcState} (hq : machine.Quiescent internalRun s)
    (hp : s.panicked = none) (ho : s.outcome = none) (e : WebRtcEvent) (he : internalRun e) :
  s.act e = none
  := (machine_step hp fun _ => ho).symm.trans (hq e he)

/-- What a stream may not do in a quiescent state. -/
theorem act_of_quiescent_stream {s : WebRtcState} (hq : machine.Quiescent internal s)
    (hp : s.panicked = none) (e : WebRtcEvent) (he : internal e) (hr : e.ofRun = false) :
  s.act e = none
  := (machine_step hp fun h => absurd (hr.symm.trans h) Bool.false_ne_true).symm.trans (hq e he)

end WebRtcState

end WebRtc

end Cyclers
