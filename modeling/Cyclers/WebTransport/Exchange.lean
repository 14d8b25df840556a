import Cyclers.Async.Link
import Cyclers.WebTransport.BytesReceived
import Cyclers.WebTransport.Order

/-!
# Exchanges with a peer

An exchange is made of the handlers of the driver, of the streams of received bytes, which are those
of the native build, of a peer that writes back on each stream what it reads from it, and of a link
in each direction for each stream.  The bytes go from the commands over the driver, one link, the
peer and the other link to the streams of received bytes; each of these takes them in pieces of any
sizes.
-/

open Async

namespace Cyclers

namespace WebTransport

universe u

variable {F : Type u}

/-- The stream that the bytes of a command are written on. -/
def Writing.origin (w : Writing) : Origin :=
  ⟨w.session, w.command.streamId.quicId⟩

/-- The bytes of the command of some number in the sink, if they are for the stream: it is of the
session that was found for the command. -/
def bytesFor (sink : List (WebTransportCommand F)) (o : Origin) (found : ℕ × SessionId) :
    List UInt8 :=
  match sink[found.1]? with
  | some (.sendBytes command) =>
      if (⟨found.2, command.streamId.quicId⟩ : Origin) = o then command.bytes else []
  | _ => []

/-! ### What the handler writes -/

namespace HandlersState

/-- The bytes of the commands for which the stream was found, in the order of the sink. -/
def addressed (s : HandlersState F) (o : Origin) : List UInt8 :=
  s.found.flatMap (bytesFor s.sink o)

/-- The bytes of the command that the handler is busy with that are left to write on a stream. -/
def pending (s : HandlersState F) (o : Origin) : List UInt8 :=
  match s.send with
  | .busy w => if w.origin = o then w.left else []
  | _ => []

/-- The bytes that an event writes on a stream. -/
def written (s : HandlersState F) (e : HandlersEvent F) (o : Origin) : List UInt8 :=
  match e, s.send with
  | .write n, .busy w => if w.origin = o then w.left.take n else []
  | _, _ => []

theorem pending_of_busy {s : HandlersState F} {w : Writing} (h : s.send = .busy w) (o : Origin) :
  s.pending o = if w.origin = o then w.left else []
  := by
  unfold pending
  rw [h]

theorem pending_of_not_busy {s : HandlersState F} (h : ∀ w, s.send ≠ .busy w) (o : Origin) :
  s.pending o = []
  := by
  unfold pending
  split
  · cases h _ ‹_›
  · rfl

theorem written_of_busy {s : HandlersState F} {w : Writing} (h : s.send = .busy w) (n : ℕ)
    (o : Origin) :
  s.written (.write n) o = if w.origin = o then w.left.take n else []
  := by
  unfold written
  rw [h]

theorem written_of_not_busy {s : HandlersState F} (h : ∀ w, s.send ≠ .busy w)
    (e : HandlersEvent F) (o : Origin) :
  s.written e o = []
  := by
  unfold written
  split
  · cases h _ ‹_›
  · rfl

/-- What is written on each stream accounts for the commands: as long as the handler has not failed,
what is written, and what is left of the command it is busy with, are the bytes of the commands. -/
structure Accounts (s : HandlersState F) (sent : Origin → List UInt8) : Prop where
  isPrefix : ∀ o, sent o <+: s.addressed o
  all : (∀ err, s.send ≠ .returned (.error err)) → ∀ o, sent o ++ s.pending o = s.addressed o

theorem Accounts.init :
  Accounts (init F) fun _ => []
  := ⟨fun _ => List.prefix_rfl, fun _ _ => rfl⟩

/-- What the handler is busy with, and what it has found, stays the same. -/
theorem Accounts.congr {s t : HandlersState F} {sent : Origin → List UInt8}
    (h : s.Accounts sent) (haddressed : ∀ o, t.addressed o = s.addressed o)
    (hpending : ∀ o, t.pending o = s.pending o)
    (hfailed : (∀ err, t.send ≠ .returned (.error err)) →
      ∀ err, s.send ≠ .returned (.error err)) :
  t.Accounts sent
  := by
  constructor
  · intro o
    rw [haddressed]
    apply h.isPrefix
  · intro hn o
    rw [haddressed, hpending]
    apply h.all (hfailed hn)

/-- The handler has failed. -/
theorem Accounts.of_failed {s t : HandlersState F} {sent : Origin → List UInt8}
    (h : s.Accounts sent) (haddressed : ∀ o, t.addressed o = s.addressed o) {err : BoxError}
    (hsend : t.send = .returned (.error err)) :
  t.Accounts sent
  := by
  constructor
  · intro o
    rw [haddressed]
    apply h.isPrefix
  · intro hn
    cases hn err hsend

/-- One more command in the sink does not change those for which a stream was found. -/
theorem addressed_sink {s : HandlersState F} (h : SendInv s) (command : WebTransportCommand F)
    (o : Origin) :
  addressed { s with sink := s.sink ++ [command] } o = s.addressed o
  := by
  apply List.flatMap_congr
  intro p hp
  obtain ⟨hlt, -⟩ := h.found p.1 p.2 hp
  rw [bytesFor, bytesFor, List.getElem?_append_left (Nat.lt_of_lt_of_le hlt h.sent_le)]

/-- An event keeps the account, with what it writes. -/
theorem Accounts.step {s t : HandlersState F} {e : HandlersEvent F} {sent : Origin → List UInt8}
    (h : s.Accounts sent) (hinv : SendInv s) (hs : Step s e t) :
  t.Accounts fun o => sent o ++ s.written e o
  := by
  have hkeep : (∀ o, s.written e o = []) → t.Accounts sent →
      t.Accounts fun o => sent o ++ s.written e o := by
    intro hnil ht
    simp only [hnil, List.append_nil]
    exact ht
  cases hs with
  | sink command he =>
      apply hkeep (fun _ => rfl)
      exact h.congr (addressed_sink hinv command) (fun _ => rfl) id
  | takeSend command tx hr hn hget htx =>
      apply hkeep (fun _ => rfl)
      have hall := h.all fun err herr => by
        rw [hn] at herr
        cases herr
      have hpending : ∀ o, s.pending o = [] := by
        intro o
        rw [pending, hn]
      have hadded : ∀ o, addressed { s with
          sent := s.sent + 1
          send := .busy ⟨s.sent, command, tx.origin.session, command.bytes⟩
          found := s.found ++ [(s.sent, tx.origin.session)] } o =
            sent o ++ if (⟨tx.origin.session, command.streamId.quicId⟩ : Origin) = o then
              command.bytes else [] := by
        intro o
        have hold := hall o
        rw [hpending, List.append_nil, addressed] at hold
        rw [addressed, List.flatMap_append, List.flatMap_singleton, bytesFor]
        dsimp only
        rw [hget, ← hold]
      constructor
      · intro o
        rw [hadded]
        apply List.prefix_append
      · intro _ o
        rw [hadded]
        rfl
  | invalidStream command err hr hn hget herr =>
      apply hkeep (fun _ => rfl)
      exact h.of_failed (fun _ => rfl) rfl
  | skipSend command hr hn hget hne =>
      apply hkeep (fun _ => rfl)
      exact h.congr (fun _ => rfl) (fun _ => rfl) id
  | endSend hr hn =>
      apply hkeep (fun _ => rfl)
      refine h.congr (fun _ => rfl) ?_ ?_
      · intro o
        rw [pending, pending, hn]
      · intro _ err herr
        rw [hn] at herr
        cases herr
  | write w n hr hw hc =>
      have hall := h.all fun err herr => by
        rw [hw] at herr
        cases herr
      have hsplit : ∀ o, (sent o ++ s.written (.write n) o) ++ (if w.origin = o then w.left.drop n
          else []) = s.addressed o := by
        intro o
        rw [← hall o, written_of_busy hw, pending_of_busy hw]
        by_cases ho : w.origin = o
        · simp only [if_pos ho]
          rw [List.append_assoc, List.take_append_drop]
        · simp only [if_neg ho, List.append_nil]
      constructor
      · intro o
        exact ⟨_, hsplit o⟩
      · intro _ o
        exact hsplit o
  | writeFails w err hr hw =>
      apply hkeep (fun _ => rfl)
      exact h.of_failed (fun _ => rfl) rfl
  | written w send hr hw hl hsend =>
      apply hkeep (fun _ => rfl)
      refine h.congr (fun _ => rfl) ?_ ?_
      · intro o
        have hpending : s.pending o = [] := by
          rw [pending_of_busy hw, hl, ite_self]
        rw [hpending]
        rcases hsend with ⟨-, rfl⟩ | rfl <;> rfl
      · intro _ err herr
        rw [hw] at herr
        cases herr
  | _ =>
      apply hkeep (fun _ => rfl)
      exact h.congr (fun _ => rfl) (fun _ => rfl) id

/-- A handler that has returned does nothing more. -/
theorem returned_step {s t : HandlersState F} {e : HandlersEvent F} {result : Except BoxError Unit}
    (h : s.send = .returned result) (hs : Step s e t) :
  t.send = .returned result
  := by
  cases hs with
  | takeSend command tx hr hn hget htx =>
      rw [h] at hn
      cases hn
  | invalidStream command err hr hn hget herr =>
      rw [h] at hn
      cases hn
  | endSend hr hn =>
      rw [h] at hn
      cases hn
  | write w n hr hw hc =>
      rw [h] at hw
      cases hw
  | writeFails w err hr hw =>
      rw [h] at hw
      cases hw
  | written w send hr hw hl hsend =>
      rw [h] at hw
      cases hw
  | _ => exact h

/-- The handler is through with a command once its bytes are written, and returns if the command
finishes its stream. -/
theorem send_of_written {s t : HandlersState F} {w : Writing} (hw : s.send = .busy w)
    (h : (machine F).step s .written = some t) :
  t.send = if w.command.finished then .returned (.ok ()) else .next
  := by
  change s.step .written = some t at h
  simp only [HandlersState.step, handle, hw] at h
  split at h
  · split at h <;> cases h
    rfl
  · cases h

end HandlersState

/-- An exchange: the handlers of the driver; for each stream the link to the peer, whether the
driver has finished it, what the peer has read from it and not written back, the link from the peer,
and whether the peer has finished it.  What follows is kept for the statements only: the items that
the streams of received bytes have yielded, each with the stream that was read, and the streams
whose end has been read. -/
structure Exchange (F : Type u) where
  handlers : HandlersState F
  outbound : Origin → Transfer UInt8
  finished : Origin → Bool
  held : Origin → List UInt8
  inbound : Origin → Transfer UInt8
  ended : Origin → Bool
  items : List (Origin × Except ReceiveBytesError (List UInt8))
  ends : List Origin

/-- What happens: an event of the handlers; a stream is lost, in both directions; the peer reads at
most `n` bytes, writes back at most `n` bytes, or finishes a stream once it has written back all of
it; a stream of received bytes is polled, when the transport gives it at most `n` bytes, and fails
with `lost` if the stream is lost. -/
inductive ExchangeEvent (F : Type u) where
  | handlers : HandlersEvent F → ExchangeEvent F
  | cut : Origin → ExchangeEvent F
  | peerRead : Origin → ℕ → ExchangeEvent F
  | peerWrite : Origin → ℕ → ExchangeEvent F
  | peerFinish : Origin → ExchangeEvent F
  | read : StreamId → ℕ → BoxError → ExchangeEvent F

/-- A read that fails gives an error. -/
theorem bytesReceivedUnfold_error {target : Target} {streams : StreamMap} {id : StreamId}
    (h : streams.rx id ≠ none) (err : BoxError) :
  bytesReceivedUnfold target streams id (.error err) = some (.error ⟨.read, err⟩)
  := by
  obtain ⟨rx, hrx⟩ := Option.ne_none_iff_exists'.mp h
  obtain ⟨stream, hs, hrx⟩ := Option.bind_eq_some_iff.mp hrx
  simp only [bytesReceivedUnfold, hs, hrx]

namespace Exchange

/-- Nothing has happened. -/
def init (F : Type u) : Exchange F where
  handlers := HandlersState.init F
  outbound _ := Transfer.opened
  finished _ := false
  held _ := []
  inbound _ := Transfer.opened
  ended _ := false
  items := []
  ends := []

/-- Something happens to the link to the peer. -/
def actOut (x : Exchange F) (o : Origin) (e : LinkEvent UInt8) : Exchange F :=
  { x with outbound := Function.update x.outbound o ((x.outbound o).act e) }

/-- Something happens to the link from the peer. -/
def actIn (x : Exchange F) (o : Origin) (e : LinkEvent UInt8) : Exchange F :=
  { x with inbound := Function.update x.inbound o ((x.inbound o).act e) }

/-- The handlers go on to `h` with an event: bytes that are written go on the link, and a stream is
finished once all bytes of a command that finishes it are written. -/
def handle (x : Exchange F) (e : HandlersEvent F) (h : HandlersState F) : Exchange F :=
  match e, x.handlers.send with
  | .write n, .busy w => { x.actOut w.origin (.put (w.left.take n)) with handlers := h }
  | .written, .busy w =>
      { x with
        handlers := h
        finished := if w.command.finished then Function.update x.finished w.origin true
          else x.finished }
  | _, _ => { x with handlers := h }

/-- What a read of a stream gives, when it is ready: bytes if there are some, the end when the peer
has finished the stream, and an error when the stream is lost. -/
def readOutcome (x : Exchange F) (o : Origin) (n : ℕ) (lost : BoxError) : Option ReadOutcome :=
  if ((x.inbound o).link.deliver n).1 ≠ [] then some (.data ((x.inbound o).link.deliver n).1)
  else if (x.inbound o).link.up then if x.ended o then some .finished else none
  else some (.error lost)

/-- One event, when it may happen.  A stream of received bytes is polled for a readable stream. -/
def step (x : Exchange F) : ExchangeEvent F → Option (Exchange F)
  | .handlers e => (x.handlers.step e).map (x.handle e)
  | .cut o => some ((x.actOut o .cut).actIn o .cut)
  | .peerRead o n =>
      if 0 < n ∧ (x.outbound o).link.inFlight ≠ [] then
        some { x.actOut o (.deliver n) with
          held := Function.update x.held o (x.held o ++ ((x.outbound o).link.deliver n).1) }
      else none
  | .peerWrite o n =>
      if 0 < n ∧ x.held o ≠ [] ∧ x.ended o = false then
        some { x.actIn o (.put ((x.held o).take n)) with
          held := Function.update x.held o ((x.held o).drop n) }
      else none
  | .peerFinish o =>
      if x.finished o = true ∧ x.ended o = false ∧ (x.outbound o).link.up = true ∧
          (x.outbound o).link.inFlight = [] ∧ x.held o = [] then
        some { x with ended := Function.update x.ended o true }
      else none
  | .read id n lost =>
      match x.handlers.streams.rx id with
      | none => none
      | some rx =>
          if 0 < n ∧ n ≤ chunkSize then
            match x.readOutcome rx.origin n lost with
            | none => none
            | some outcome =>
                match bytesReceivedUnfold .native x.handlers.streams id outcome with
                | some item =>
                    some { x.actIn rx.origin (.deliver n) with
                      items := x.items ++ [(rx.origin, item)] }
                | none => some { x with ends := x.ends ++ [rx.origin] }
          else none

/-- The exchange as a machine. -/
def machine (F : Type u) : Machine (Exchange F) (ExchangeEvent F) where
  step := step

/-- The events that need neither the program nor the transport.  A stream of received bytes is read
as long as the stream is not lost and its end has not been read. -/
def internal (x : Exchange F) : ExchangeEvent F → Prop
  | .handlers .start => True
  | .handlers .pollSend => True
  | .handlers (.write _) => True
  | .handlers .written => True
  | .handlers _ => False
  | .cut _ => False
  | .read id _ _ => ∀ rx, x.handlers.streams.rx id = some rx →
      (x.inbound rx.origin).link.up = true ∧ rx.origin ∉ x.ends
  | _ => True

/-- The bytes that the streams of received bytes have yielded for a stream. -/
def receivedOn (x : Exchange F) (o : Origin) : List UInt8 :=
  receivedBytes ((x.items.filter fun item => item.1 = o).map Prod.snd)

/-! ### The events -/

/-- The events, one case for each way one can happen. -/
inductive Step (x : Exchange F) : ExchangeEvent F → Exchange F → Prop where
  | handlers (e : HandlersEvent F) (h : HandlersState F) :
      (HandlersState.machine F).step x.handlers e = some h →
      Step x (.handlers e) (x.handle e h)
  | cut (o : Origin) : Step x (.cut o) ((x.actOut o .cut).actIn o .cut)
  | peerRead (o : Origin) (n : ℕ) : (x.outbound o).link.inFlight ≠ [] →
      Step x (.peerRead o n) { x.actOut o (.deliver n) with
        held := Function.update x.held o (x.held o ++ ((x.outbound o).link.deliver n).1) }
  | peerWrite (o : Origin) (n : ℕ) : x.held o ≠ [] → x.ended o = false →
      Step x (.peerWrite o n) { x.actIn o (.put ((x.held o).take n)) with
        held := Function.update x.held o ((x.held o).drop n) }
  | peerFinish (o : Origin) : x.finished o = true → (x.outbound o).link.inFlight = [] →
      x.held o = [] → Step x (.peerFinish o) { x with ended := Function.update x.ended o true }
  | read (id : StreamId) (n : ℕ) (lost : BoxError) (o : Origin)
      (item : Except ReceiveBytesError (List UInt8)) :
      item = .ok ((x.inbound o).link.deliver n).1 ∨
        (∃ err, item = .error err) ∧ (x.inbound o).link.inFlight = [] →
      Step x (.read id n lost) { x.actIn o (.deliver n) with items := x.items ++ [(o, item)] }
  | finished (id : StreamId) (n : ℕ) (lost : BoxError) (o : Origin) : x.ended o = true →
      (x.inbound o).link.inFlight = [] →
      Step x (.read id n lost) { x with ends := x.ends ++ [o] }

/-- What happens is one of the steps of `Step`. -/
theorem step_of_machine {x y : Exchange F} {e : ExchangeEvent F}
    (h : (machine F).step x e = some y) :
  Step x e y
  := by
  change x.step e = some y at h
  cases e with
  | handlers e =>
      obtain ⟨s, hs, rfl⟩ := Option.map_eq_some_iff.mp h
      apply Step.handlers e s hs
  | cut o =>
      cases h
      apply Step.cut
  | peerRead o n =>
      rw [step] at h
      split at h <;> cases h
      obtain ⟨-, hne⟩ := ‹_ ∧ _›
      apply Step.peerRead o n hne
  | peerWrite o n =>
      rw [step] at h
      split at h <;> cases h
      obtain ⟨-, hne, hend⟩ := ‹_ ∧ _›
      apply Step.peerWrite o n hne hend
  | peerFinish o =>
      rw [step] at h
      split at h <;> cases h
      obtain ⟨hfin, -, -, hnil, hheld⟩ := ‹_ ∧ _›
      apply Step.peerFinish o hfin hnil hheld
  | read id n lost =>
      rw [step] at h
      split at h
      · cases h
      · rename_i rx hrx
        split at h
        · obtain ⟨hpos, hle⟩ := ‹_ ∧ _›
          split at h
          · cases h
          · rename_i outcome hout
            have hreadable : x.handlers.streams.rx id ≠ none := by
              rw [hrx]
              exact Option.some_ne_none rx
            rw [readOutcome] at hout
            split at hout
            · obtain rfl := Option.some.inj hout
              rw [bytesReceivedUnfold_data hreadable, chunk_native] at h
              · cases h
                apply Step.read _ _ _ _ _ (Or.inl rfl)
              · exact Nat.le_trans (List.length_take_le _ _) hle
            · rename_i hchunk
              have hnil : (x.inbound rx.origin).link.inFlight = [] := by
                rw [not_not, Link.deliver, List.take_eq_nil_iff] at hchunk
                exact hchunk.resolve_left (Nat.ne_of_gt hpos)
              split at hout
              · split at hout <;> cases hout
                rw [bytesReceivedUnfold_finished hreadable] at h
                cases h
                apply Step.finished _ _ _ _ ‹_› hnil
              · obtain rfl := Option.some.inj hout
                rw [bytesReceivedUnfold_error hreadable] at h
                cases h
                apply Step.read _ _ _ _ _ (Or.inr ⟨⟨_, rfl⟩, hnil⟩)
        · cases h

/-- What the handlers write goes on the links to the peer. -/
theorem handle_outbound (x : Exchange F) (e : HandlersEvent F) (h : HandlersState F) (o : Origin) :
  (x.handle e h).outbound o = (x.outbound o).act (.put (x.handlers.written e o))
  := by
  cases e with
  | write n =>
      cases hw : x.handlers.send with
      | busy w =>
          rw [HandlersState.written_of_busy hw]
          unfold handle
          rw [hw]
          change Function.update x.outbound w.origin _ o = _
          by_cases ho : w.origin = o
          · subst ho
            rw [Function.update_self, if_pos rfl]
          · rw [Function.update_of_ne (Ne.symm ho), if_neg ho, Transfer.act_put_nil]
      | _ =>
          have hnot : ∀ w, x.handlers.send ≠ .busy w := by
            rw [hw]
            intro w h
            cases h
          rw [HandlersState.written_of_not_busy hnot, Transfer.act_put_nil]
          unfold handle
          rw [hw]
  | written =>
      have hnil : x.handlers.written .written o = [] := rfl
      rw [hnil, Transfer.act_put_nil]
      unfold handle
      split <;> first | rfl | cases ‹HandlersEvent.written = _›
  | _ => exact (Transfer.act_put_nil _).symm

/-- The handlers change nothing but their own state and the links to the peer. -/
theorem handle_frame (x : Exchange F) (e : HandlersEvent F) (h : HandlersState F) :
  (x.handle e h).handlers = h ∧ (x.handle e h).held = x.held ∧
    (x.handle e h).inbound = x.inbound ∧ (x.handle e h).ended = x.ended ∧
    (x.handle e h).items = x.items ∧ (x.handle e h).ends = x.ends
  := by
  unfold handle
  split <;> exact ⟨rfl, rfl, rfl, rfl, rfl, rfl⟩

/-- A stream is finished only when the handler that sends bytes returns. -/
theorem handle_finished {x : Exchange F} {e : HandlersEvent F} {h : HandlersState F}
    (hs : (HandlersState.machine F).step x.handlers e = some h) {o : Origin}
    (ho : (x.handle e h).finished o = true) :
  x.finished o = true ∨ h.send = .returned (.ok ())
  := by
  unfold handle at ho
  split at ho
  · exact Or.inl ho
  · rename_i w hw
    cases hf : w.command.finished with
    | true =>
        right
        rw [HandlersState.send_of_written hw hs, hf]
        rfl
    | false =>
        rw [hf] at ho
        exact Or.inl ho
  · exact Or.inl ho

/-- What happens to the link of one stream happens to no other one. -/
theorem actOut_outbound (x : Exchange F) (o : Origin) (e : LinkEvent UInt8) (o' : Origin) :
  (x.actOut o e).outbound o' = x.outbound o' ∨
    o' = o ∧ (x.actOut o e).outbound o' = (x.outbound o').act e
  := by
  by_cases ho : o' = o
  · subst ho
    exact Or.inr ⟨rfl, Function.update_self ..⟩
  · exact Or.inl (Function.update_of_ne ho ..)

theorem actIn_inbound (x : Exchange F) (o : Origin) (e : LinkEvent UInt8) (o' : Origin) :
  (x.actIn o e).inbound o' = x.inbound o' ∨
    o' = o ∧ (x.actIn o e).inbound o' = (x.inbound o').act e
  := by
  by_cases ho : o' = o
  · subst ho
    exact Or.inr ⟨rfl, Function.update_self ..⟩
  · exact Or.inl (Function.update_of_ne ho ..)

/-! ### What is kept -/

/-- The invariant of an exchange.  The bytes written on a stream account for the commands; the peer
has written back what it has read, but for what it holds; the streams of received bytes have yielded
what has come over the link.  A stream is finished when the handler has returned, the peer finishes
it when it holds nothing of it any more and nothing comes, and its end is read when nothing comes
any more. -/
structure Inv (x : Exchange F) : Prop where
  handlers : x.handlers.SendInv
  accounts : x.handlers.Accounts fun o => (x.outbound o).sent
  outbound : ∀ o, (x.outbound o).Steady
  inbound : ∀ o, (x.inbound o).Steady
  relayed : ∀ o, (x.inbound o).sent ++ x.held o = (x.outbound o).got
  items : ∀ o, x.receivedOn o = (x.inbound o).got
  finished : ∀ o, x.finished o = true → x.handlers.send = .returned (.ok ())
  ended : ∀ o, x.ended o = true → x.finished o = true ∧ x.held o = [] ∧
    (x.outbound o).link.inFlight = []
  ends : ∀ o ∈ x.ends, x.ended o = true ∧ (x.inbound o).link.inFlight = []

theorem Inv.init :
  Inv (init F)
  := by
  refine ⟨HandlersState.SendInv.init, HandlersState.Accounts.init, fun _ => Transfer.Steady.opened,
    fun _ => Transfer.Steady.opened, fun _ => rfl, fun _ => rfl, ?_, ?_, ?_⟩
  · intro o ho
    cases ho
  · intro o ho
    cases ho
  · intro o ho
    cases ho

/-- The handlers go on. -/
theorem Inv.handle {x : Exchange F} (h : Inv x) {e : HandlersEvent F} {s : HandlersState F}
    (hs : (HandlersState.machine F).step x.handlers e = some s) :
  Inv (x.handle e s)
  := by
  have hstep := HandlersState.step_of_machine hs
  obtain ⟨hhandlers, hheld, hinbound, hended, hitems, hends⟩ := handle_frame x e s
  have hfinished : ∀ o, (x.handle e s).finished o = true → s.send = .returned (.ok ()) := by
    intro o ho
    rcases handle_finished hs ho with ho | hsend
    · apply HandlersState.returned_step (h.finished o ho) hstep
    · exact hsend
  refine ⟨?_, ?_, ?_, ?_, ?_, ?_, ?_, ?_, ?_⟩
  · rw [hhandlers]
    apply h.handlers.step hstep
  · rw [hhandlers]
    simp only [handle_outbound]
    apply h.accounts.step h.handlers hstep
  · intro o
    rw [handle_outbound]
    apply (h.outbound o).act
    intro he
    cases he
  · rw [hinbound]
    exact h.inbound
  · intro o
    rw [hinbound, hheld, handle_outbound]
    apply h.relayed
  · intro o
    rw [hinbound, receivedOn, hitems]
    apply h.items
  · rw [hhandlers]
    exact hfinished
  · intro o ho
    rw [hended] at ho
    obtain ⟨hfin, hnil, hflight⟩ := h.ended o ho
    have hnot : ∀ w, x.handlers.send ≠ .busy w := by
      intro w hw
      rw [h.finished o hfin] at hw
      cases hw
    rw [hheld, handle_outbound, HandlersState.written_of_not_busy hnot, Transfer.act_put_nil]
    refine ⟨?_, hnil, hflight⟩
    unfold Exchange.handle
    split
    · exact hfin
    · cases hnot _ ‹_›
    · exact hfin
  · intro o ho
    rw [hends] at ho
    rw [hended, hinbound]
    exact h.ends o ho

/-- A stream is lost. -/
theorem Inv.cut {x : Exchange F} (h : Inv x) (o : Origin) :
  Inv ((x.actOut o .cut).actIn o .cut)
  := by
  have hout : ∀ o', (x.outbound o').Remains (((x.actOut o .cut).actIn o .cut).outbound o') := by
    intro o'
    exact (x.actOut_outbound o .cut o').imp_right And.right
  have hin : ∀ o', (x.inbound o').Remains (((x.actOut o .cut).actIn o .cut).inbound o') := by
    intro o'
    exact ((x.actOut o .cut).actIn_inbound o .cut o').imp_right And.right
  refine ⟨h.handlers, ?_, fun o' => (hout o').steady (h.outbound o'),
    fun o' => (hin o').steady (h.inbound o'), ?_, ?_, h.finished, ?_, ?_⟩
  · simp only [(hout _).sent]
    exact h.accounts
  · intro o'
    rw [(hin o').sent, (hout o').got]
    exact h.relayed o'
  · intro o'
    rw [(hin o').got]
    exact h.items o'
  · intro o' ho'
    obtain ⟨hfin, hheld, hflight⟩ := h.ended o' ho'
    exact ⟨hfin, hheld, (hout o').inFlight hflight⟩
  · intro o' ho'
    obtain ⟨hend, hflight⟩ := h.ends o' ho'
    exact ⟨hend, (hin o').inFlight hflight⟩

/-- The peer reads bytes of a stream. -/
theorem Inv.peerRead {x : Exchange F} (h : Inv x) {o : Origin} (n : ℕ)
    (hne : (x.outbound o).link.inFlight ≠ []) :
  Inv { x.actOut o (.deliver n) with
    held := Function.update x.held o (x.held o ++ ((x.outbound o).link.deliver n).1) }
  := by
  have hout := x.actOut_outbound o (.deliver n)
  have hsent : ∀ o', ((x.actOut o (.deliver n)).outbound o').sent = (x.outbound o').sent := by
    intro o'
    rcases hout o' with heq | ⟨-, heq⟩ <;> rw [heq]
    rfl
  refine ⟨h.handlers, ?_, ?_, h.inbound, ?_, h.items, h.finished, ?_, h.ends⟩
  · simp only [hsent]
    exact h.accounts
  · intro o'
    change ((x.actOut o (.deliver n)).outbound o').Steady
    rcases hout o' with heq | ⟨-, heq⟩ <;> rw [heq]
    · apply h.outbound
    · apply (h.outbound o').act
      intro he
      cases he
  · intro o'
    change (x.inbound o').sent ++ Function.update x.held o _ o' =
      (Function.update x.outbound o _ o').got
    by_cases ho : o' = o
    · subst ho
      rw [Function.update_self, Function.update_self, ← List.append_assoc, h.relayed]
      rfl
    · rw [Function.update_of_ne ho, Function.update_of_ne ho]
      apply h.relayed
  · intro o' ho'
    obtain ⟨hfin, hheld, hflight⟩ := h.ended o' ho'
    have ho : o' ≠ o := by
      rintro rfl
      exact hne hflight
    refine ⟨hfin, ?_, ?_⟩
    · change Function.update x.held o _ o' = []
      rw [Function.update_of_ne ho]
      exact hheld
    · change (Function.update x.outbound o _ o').link.inFlight = []
      rw [Function.update_of_ne ho]
      exact hflight

/-- The peer writes bytes of a stream back. -/
theorem Inv.peerWrite {x : Exchange F} (h : Inv x) {o : Origin} (n : ℕ)
    (hend : x.ended o = false) :
  Inv { x.actIn o (.put ((x.held o).take n)) with
    held := Function.update x.held o ((x.held o).drop n) }
  := by
  have hne : ∀ o', x.ended o' = true → o' ≠ o := by
    rintro o' ho' rfl
    rw [hend] at ho'
    cases ho'
  refine ⟨h.handlers, h.accounts, h.outbound, ?_, ?_, ?_, h.finished, ?_, ?_⟩
  · intro o'
    change ((x.actIn o (.put ((x.held o).take n))).inbound o').Steady
    rcases x.actIn_inbound o (.put ((x.held o).take n)) o' with heq | ⟨-, heq⟩ <;> rw [heq]
    · apply h.inbound
    · apply (h.inbound o').act
      intro he
      cases he
  · intro o'
    change (Function.update x.inbound o _ o').sent ++ Function.update x.held o _ o' = _
    by_cases ho : o' = o
    · subst ho
      rw [Function.update_self, Function.update_self]
      change (x.inbound o').sent ++ (x.held o').take n ++ (x.held o').drop n = _
      rw [List.append_assoc, List.take_append_drop]
      apply h.relayed
    · rw [Function.update_of_ne ho, Function.update_of_ne ho]
      apply h.relayed
  · intro o'
    change x.receivedOn o' = ((x.actIn o (.put ((x.held o).take n))).inbound o').got
    rcases x.actIn_inbound o (.put ((x.held o).take n)) o' with heq | ⟨-, heq⟩ <;> rw [heq] <;>
      exact h.items o'
  · intro o' ho'
    obtain ⟨hfin, hheld, hflight⟩ := h.ended o' ho'
    refine ⟨hfin, ?_, hflight⟩
    change Function.update x.held o _ o' = []
    rw [Function.update_of_ne (hne o' ho')]
    exact hheld
  · intro o' ho'
    obtain ⟨hend', hflight⟩ := h.ends o' ho'
    refine ⟨hend', ?_⟩
    change (Function.update x.inbound o _ o').link.inFlight = []
    rw [Function.update_of_ne (hne o' hend')]
    exact hflight

/-- The peer finishes a stream. -/
theorem Inv.peerFinish {x : Exchange F} (h : Inv x) {o : Origin} (hfin : x.finished o = true)
    (hflight : (x.outbound o).link.inFlight = []) (hheld : x.held o = []) :
  Inv { x with ended := Function.update x.ended o true }
  := by
  refine ⟨h.handlers, h.accounts, h.outbound, h.inbound, h.relayed, h.items, h.finished, ?_, ?_⟩
  · intro o' ho'
    by_cases ho : o' = o
    · subst ho
      exact ⟨hfin, hheld, hflight⟩
    · apply h.ended
      change Function.update x.ended o true o' = true at ho'
      rw [Function.update_of_ne ho] at ho'
      exact ho'
  · intro o' ho'
    obtain ⟨hend, hnil⟩ := h.ends o' ho'
    refine ⟨?_, hnil⟩
    change Function.update x.ended o true o' = true
    by_cases ho : o' = o
    · rw [ho, Function.update_self]
    · rw [Function.update_of_ne ho]
      exact hend

/-- The bytes of the items of a stream, when there is one more item. -/
theorem receivedOn_concat (items : List (Origin × Except ReceiveBytesError (List UInt8)))
    (o : Origin) (item : Except ReceiveBytesError (List UInt8)) (o' : Origin) :
  receivedBytes (((items ++ [(o, item)]).filter fun item => item.1 = o').map Prod.snd) =
    receivedBytes ((items.filter fun item => item.1 = o').map Prod.snd) ++
      if o = o' then receivedBytes [item] else []
  := by
  rw [List.filter_append, List.map_append, receivedBytes, List.filterMap_append,
    List.flatten_append]
  by_cases ho : o = o'
  · have hone : [(o, item)].filter (fun item => item.1 = o') = [(o, item)] := by
      simp [ho]
    rw [if_pos ho, hone]
    rfl
  · have hnone : [(o, item)].filter (fun item => item.1 = o') = [] := by
      simp [ho]
    rw [if_neg ho, hnone]
    rfl

/-- A stream of received bytes reads. -/
theorem Inv.read {x : Exchange F} (h : Inv x) {o : Origin} (n : ℕ)
    {item : Except ReceiveBytesError (List UInt8)}
    (hitem : item = .ok ((x.inbound o).link.deliver n).1 ∨
      (∃ err, item = .error err) ∧ (x.inbound o).link.inFlight = []) :
  Inv { x.actIn o (.deliver n) with items := x.items ++ [(o, item)] }
  := by
  have hin := x.actIn_inbound o (.deliver n)
  have hbytes : receivedBytes [item] = ((x.inbound o).link.deliver n).1 := by
    rcases hitem with rfl | ⟨⟨err, rfl⟩, hnil⟩
    · exact List.append_nil _
    · rw [Link.deliver, hnil, List.take_nil]
      rfl
  have hsent : ∀ o', ((x.actIn o (.deliver n)).inbound o').sent = (x.inbound o').sent := by
    intro o'
    rcases hin o' with heq | ⟨-, heq⟩ <;> rw [heq]
    rfl
  refine ⟨h.handlers, h.accounts, h.outbound, ?_, ?_, ?_, h.finished, h.ended, ?_⟩
  · intro o'
    change ((x.actIn o (.deliver n)).inbound o').Steady
    rcases hin o' with heq | ⟨-, heq⟩ <;> rw [heq]
    · apply h.inbound
    · apply (h.inbound o').act
      intro he
      cases he
  · intro o'
    change ((x.actIn o (.deliver n)).inbound o').sent ++ _ = _
    rw [hsent]
    apply h.relayed
  · intro o'
    change receivedBytes (((x.items ++ [(o, item)]).filter fun item => item.1 = o').map Prod.snd) =
      (Function.update x.inbound o _ o').got
    rw [receivedOn_concat]
    by_cases ho : o' = o
    · subst ho
      rw [Function.update_self, if_pos rfl, hbytes]
      change x.receivedOn o' ++ _ = _
      rw [h.items]
      rfl
    · rw [Function.update_of_ne ho, if_neg (Ne.symm ho), List.append_nil]
      apply h.items
  · intro o' ho'
    obtain ⟨hend, hnil⟩ := h.ends o' ho'
    refine ⟨hend, ?_⟩
    change ((x.actIn o (.deliver n)).inbound o').link.inFlight = []
    rcases hin o' with heq | ⟨-, heq⟩ <;> rw [heq]
    · exact hnil
    · change (x.inbound o').link.inFlight.drop n = []
      rw [hnil, List.drop_nil]

/-- A stream of received bytes has read the end. -/
theorem Inv.finish {x : Exchange F} (h : Inv x) {o : Origin} (hend : x.ended o = true)
    (hnil : (x.inbound o).link.inFlight = []) :
  Inv { x with ends := x.ends ++ [o] }
  := by
  refine ⟨h.handlers, h.accounts, h.outbound, h.inbound, h.relayed, h.items, h.finished, h.ended, ?_⟩
  intro o' ho'
  rcases List.mem_append.mp ho' with ho' | ho'
  · exact h.ends o' ho'
  · obtain rfl := List.mem_singleton.mp ho'
    exact ⟨hend, hnil⟩

/-- The invariant is kept by every event. -/
theorem Inv.step {x y : Exchange F} {e : ExchangeEvent F} (h : Inv x) (hs : Step x e y) :
  Inv y
  := by
  cases hs with
  | handlers e s hs => exact h.handle hs
  | cut o => exact h.cut o
  | peerRead o n hne => exact h.peerRead n hne
  | peerWrite o n hne hend => exact h.peerWrite n hend
  | peerFinish o hfin hflight hheld => exact h.peerFinish hfin hflight hheld
  | read id n lost o item hitem => exact Inv.read h n hitem
  | finished id n lost o hend hnil => exact h.finish hend hnil

theorem Inv.of_run {tr : List (ExchangeEvent F)} {x : Exchange F}
    (h : (machine F).run (Exchange.init F) tr = some x) :
  Inv x
  := by
  apply (machine F).run_invariant (P := Inv) Inv.init _ h
  intro x e y hx hy
  apply hx.step (step_of_machine hy)

/-! ### Quiescent exchanges -/

/-- In a quiescent state the handler is not busy, when the run goes on and no session is closed. -/
theorem idle_of_quiescent {x : Exchange F} (h : Inv x) (hq : (machine F).Quiescent (internal x) x)
    (hr : x.handlers.result = none) (hc : ∀ session, x.handlers.closed session = false) :
  x.handlers.send.Idle
  := by
  by_cases hstart : x.handlers.start = none
  · exact Or.inl (h.handlers.unstarted hstart)
  have hrun : x.handlers.Running := ⟨hstart, hr⟩
  have hstuck : ∀ e, internal x (.handlers e) → x.handlers.step e = none := by
    intro e he
    exact Option.map_eq_none_iff.mp (hq (.handlers e) he)
  cases hs : x.handlers.send with
  | next => exact Or.inl rfl
  | returned result =>
      cases result with
      | ok u => exact Or.inr rfl
      | error err => cases HandlersState.not_failed hr err hs
  | busy w =>
      cases hl : w.left with
      | nil =>
          have hnone := hstuck .written trivial
          simp [HandlersState.step, hrun, HandlersState.handle, hs, hl] at hnone
      | cons b left =>
          have hnone := hstuck (.write 1) trivial
          simp [HandlersState.step, hrun, HandlersState.handle, hs, hl, hc] at hnone

/-- In a quiescent state nothing is on the link to the peer, and the peer holds nothing. -/
theorem relayed_of_quiescent {x : Exchange F} (h : Inv x)
    (hq : (machine F).Quiescent (internal x) x) (o : Origin) :
  (x.outbound o).link.inFlight = [] ∧ x.held o = []
  := by
  constructor
  · by_contra hne
    have hstuck : x.step (.peerRead o 1) = none := hq (.peerRead o 1) trivial
    rw [Exchange.step, if_pos ⟨Nat.one_pos, hne⟩] at hstuck
    cases hstuck
  · by_contra hne
    have hend : x.ended o = false := by
      rw [Bool.eq_false_iff]
      intro hend
      exact hne (h.ended o hend).2.1
    have hstuck : x.step (.peerWrite o 1) = none := hq (.peerWrite o 1) trivial
    rw [Exchange.step, if_pos ⟨Nat.one_pos, hne, hend⟩] at hstuck
    cases hstuck

/-- In a quiescent state nothing is on the link from the peer for a stream of received bytes that is
not lost. -/
theorem read_of_quiescent {x : Exchange F} (h : Inv x) (hq : (machine F).Quiescent (internal x) x)
    {id : StreamId} {rx : RecvStream} (hrx : x.handlers.streams.rx id = some rx)
    (hup : (x.inbound rx.origin).link.up = true) :
  (x.inbound rx.origin).link.inFlight = []
  := by
  by_cases hends : rx.origin ∈ x.ends
  · exact (h.ends rx.origin hends).2
  cases hl : (x.inbound rx.origin).link.inFlight with
  | nil => rfl
  | cons b rest =>
      have hreadable : x.handlers.streams.rx id ≠ none := by
        rw [hrx]
        exact Option.some_ne_none rx
      have hone : 0 < 1 ∧ 1 ≤ chunkSize := by decide
      have hout : x.readOutcome rx.origin 1 "" =
          some (.data ((x.inbound rx.origin).link.deliver 1).1) := by
        rw [readOutcome, if_pos]
        rw [Link.deliver, hl]
        exact List.cons_ne_nil _ _
      have hread : internal x (.read id 1 "") := by
        intro rx' hrx'
        cases hrx.symm.trans hrx'
        exact ⟨hup, hends⟩
      have hstuck : x.step (.read id 1 "") = none := hq (.read id 1 "") hread
      rw [Exchange.step, hrx] at hstuck
      simp only [if_pos hone, hout, bytesReceivedUnfold_data hreadable] at hstuck
      cases hstuck

/-- Nothing is under way on a stream that no command is for. -/
theorem Inv.empty {x : Exchange F} (h : Inv x) {o : Origin} (ho : x.handlers.addressed o = []) :
  (x.outbound o).link.inFlight = [] ∧ x.held o = [] ∧ (x.inbound o).link.inFlight = []
  := by
  have hsent : (x.outbound o).sent = [] := by
    have hpre := h.accounts.isPrefix o
    rw [ho] at hpre
    exact List.prefix_nil.mp hpre
  have hout := (h.outbound o).isPrefix
  rw [hsent] at hout
  obtain ⟨hgot, hflight⟩ := List.append_eq_nil_iff.mp (List.prefix_nil.mp hout)
  have hrelayed := h.relayed o
  rw [hgot] at hrelayed
  obtain ⟨hback, hheld⟩ := List.append_eq_nil_iff.mp hrelayed
  have hin := (h.inbound o).isPrefix
  rw [hback] at hin
  exact ⟨hflight, hheld, (List.append_eq_nil_iff.mp (List.prefix_nil.mp hin)).2⟩

/-- An exchange has nothing left to do when the handler has returned, nothing is under way, and the
end of each stream that is finished has been read. -/
theorem quiescent_of_empty {x : Exchange F} (h : Inv x) (hstart : x.handlers.start ≠ none)
    (hsend : x.handlers.send = .returned (.ok ()))
    (hempty : ∀ o, (x.outbound o).link.inFlight = [] ∧ x.held o = [] ∧
      (x.inbound o).link.inFlight = [])
    (hends : ∀ o, x.finished o = true → x.ended o = true ∧ o ∈ x.ends) :
  (machine F).Quiescent (internal x) x
  := by
  have hhandlers : ∀ e, x.handlers.step e = none → x.step (.handlers e) = none := by
    intro e he
    rw [Exchange.step, he]
    rfl
  intro e he
  cases e with
  | handlers e =>
      apply hhandlers
      cases e with
      | start => exact if_neg hstart
      | pollSend =>
          simp [HandlersState.step, HandlersState.handle, HandlersState.pollSend, hsend]
      | write n => simp [HandlersState.step, HandlersState.handle, hsend]
      | written => simp [HandlersState.step, HandlersState.handle, hsend]
      | _ => cases he
  | cut o => cases he
  | peerRead o n =>
      apply if_neg
      intro hread
      exact hread.2 (hempty o).1
  | peerWrite o n =>
      apply if_neg
      intro hwrite
      exact hwrite.2.1 (hempty o).2.1
  | peerFinish o =>
      apply if_neg
      rintro ⟨hfin, hend, -⟩
      rw [(hends o hfin).1] at hend
      cases hend
  | read id n lost =>
      change x.step (.read id n lost) = none
      rw [Exchange.step]
      cases hrx : x.handlers.streams.rx id with
      | none => rfl
      | some rx =>
          obtain ⟨hup, hnot⟩ := he rx hrx
          have hend : x.ended rx.origin = false := by
            rw [Bool.eq_false_iff]
            intro hend
            exact hnot (hends rx.origin (h.ended rx.origin hend).1).2
          have hout : x.readOutcome rx.origin n lost = none := by
            simp [readOutcome, Link.deliver, (hempty rx.origin).2.2, hup, hend]
          simp [hout]

/-- Bytes make the round trip.  On each stream, whatever the handlers, the peer, the links and the
streams of received bytes do, in whatever order and in whatever pieces, the bytes that have been
received are the first bytes of the commands that a stream was found for, in the order of the sink:
nothing comes from another stream, twice, or out of order.  As long as the stream is not lost they
are all of these bytes when its end has been read, and also when nothing is left to do, if the
handler is idle, or the run goes on and no session is closed. -/
theorem bytes_round_trip {tr : List (ExchangeEvent F)} {x : Exchange F}
    (h : (machine F).run (Exchange.init F) tr = some x) (o : Origin) :
  x.receivedOn o <+: x.handlers.addressed o ∧
    ((x.outbound o).link.up = true → (x.inbound o).link.up = true →
      (o ∈ x.ends → x.receivedOn o = x.handlers.addressed o) ∧
      ((machine F).Quiescent (internal x) x →
        (∃ id rx, x.handlers.streams.rx id = some rx ∧ rx.origin = o) →
        x.handlers.send.Idle ∨
          (x.handlers.result = none ∧ ∀ session, x.handlers.closed session = false) →
        x.receivedOn o = x.handlers.addressed o))
  := by
  have hinv := Inv.of_run h
  have hall : x.handlers.send.Idle → (x.outbound o).sent = x.handlers.addressed o := by
    intro hidle
    have hpending : x.handlers.pending o = [] := by
      apply HandlersState.pending_of_not_busy
      intro w hw
      rw [hw] at hidle
      cases Handler.not_idle_busy w hidle
    have hfailed : ∀ err, x.handlers.send ≠ .returned (.error err) := by
      intro err herr
      rw [herr] at hidle
      cases Handler.not_idle_error err hidle
    have heq := hinv.accounts.all hfailed o
    rw [hpending, List.append_nil] at heq
    exact heq
  have hround : (x.outbound o).link.up = true → (x.inbound o).link.up = true →
      (x.inbound o).link.inFlight = [] → x.held o = [] → (x.outbound o).link.inFlight = [] →
      x.handlers.send.Idle → x.receivedOn o = x.handlers.addressed o := by
    intro hout hin hinflight hheld houtflight hidle
    calc x.receivedOn o
        = (x.inbound o).got := hinv.items o
      _ = (x.inbound o).sent := ((hinv.inbound o).keeps hin).got_eq hinflight
      _ = (x.outbound o).got := by rw [← hinv.relayed o, hheld, List.append_nil]
      _ = (x.outbound o).sent := ((hinv.outbound o).keeps hout).got_eq houtflight
      _ = x.handlers.addressed o := hall hidle
  refine ⟨?_, ?_⟩
  · rw [hinv.items]
    apply (hinv.inbound o).got_isPrefix.trans
    apply List.IsPrefix.trans ⟨_, hinv.relayed o⟩
    apply (hinv.outbound o).got_isPrefix.trans
    apply hinv.accounts.isPrefix o
  · intro hout hin
    constructor
    · intro ho
      obtain ⟨hend, hinflight⟩ := hinv.ends o ho
      obtain ⟨hfin, hheld, houtflight⟩ := hinv.ended o hend
      exact hround hout hin hinflight hheld houtflight (Or.inr (hinv.finished o hfin))
    · rintro hq ⟨id, rx, hrx, rfl⟩ hidle
      obtain ⟨houtflight, hheld⟩ := relayed_of_quiescent hinv hq rx.origin
      apply hround hout hin (read_of_quiescent hinv hq hrx hin) hheld houtflight
      rcases hidle with hidle | ⟨hr, hc⟩
      · exact hidle
      · exact idle_of_quiescent hinv hq hr hc

/-- A command writes two bytes on a stream, in two pieces, and another one writes one byte on
another stream and finishes it.  The peer writes them back and finishes the second stream.  Nothing
is left to do once the bytes have been received, and the end of the second stream has been read. -/
theorem bytes_round_trip_pieces :
  ∃ x, (machine Unit).run (Exchange.init Unit)
      [.handlers .start, .handlers (.established ⟨0⟩),
        .handlers (.method .biStreamCreated ⟨0⟩ (.ok 4)),
        .handlers (.method .biStreamCreated ⟨0⟩ (.ok 8)),
        .handlers (.sink (.sendBytes ⟨⟨4⟩, [104, 105], false⟩)),
        .handlers (.sink (.sendBytes ⟨⟨8⟩, [106], true⟩)), .handlers .pollSend,
        .handlers (.write 1), .peerRead ⟨⟨0⟩, 4⟩ 8, .handlers (.write 1), .handlers .written,
        .handlers .pollSend, .handlers (.write 1), .handlers .written, .peerRead ⟨⟨0⟩, 8⟩ 8,
        .peerRead ⟨⟨0⟩, 4⟩ 8, .peerWrite ⟨⟨0⟩, 4⟩ 8, .peerWrite ⟨⟨0⟩, 8⟩ 8, .peerFinish ⟨⟨0⟩, 8⟩,
        .read ⟨4⟩ 1 "reset", .read ⟨4⟩ 8192 "reset", .read ⟨8⟩ 8192 "reset",
        .read ⟨8⟩ 8192 "reset"] = some x ∧
    (machine Unit).Quiescent (internal x) x ∧ x.ends = [⟨⟨0⟩, 8⟩] ∧
    x.receivedOn ⟨⟨0⟩, 4⟩ = x.handlers.addressed ⟨⟨0⟩, 4⟩ ∧
    x.handlers.addressed ⟨⟨0⟩, 4⟩ = [104, 105] ∧
    x.receivedOn ⟨⟨0⟩, 8⟩ = x.handlers.addressed ⟨⟨0⟩, 8⟩ ∧
    x.handlers.addressed ⟨⟨0⟩, 8⟩ = [106]
  := by
  obtain ⟨x, hx⟩ : ∃ x, (machine Unit).run (Exchange.init Unit)
      [.handlers .start, .handlers (.established ⟨0⟩),
        .handlers (.method .biStreamCreated ⟨0⟩ (.ok 4)),
        .handlers (.method .biStreamCreated ⟨0⟩ (.ok 8)),
        .handlers (.sink (.sendBytes ⟨⟨4⟩, [104, 105], false⟩)),
        .handlers (.sink (.sendBytes ⟨⟨8⟩, [106], true⟩)), .handlers .pollSend,
        .handlers (.write 1), .peerRead ⟨⟨0⟩, 4⟩ 8, .handlers (.write 1), .handlers .written,
        .handlers .pollSend, .handlers (.write 1), .handlers .written, .peerRead ⟨⟨0⟩, 8⟩ 8,
        .peerRead ⟨⟨0⟩, 4⟩ 8, .peerWrite ⟨⟨0⟩, 4⟩ 8, .peerWrite ⟨⟨0⟩, 8⟩ 8, .peerFinish ⟨⟨0⟩, 8⟩,
        .read ⟨4⟩ 1 "reset", .read ⟨4⟩ 8192 "reset", .read ⟨8⟩ 8192 "reset",
        .read ⟨8⟩ 8192 "reset"] = some x := ⟨_, rfl⟩
  have hsend : some (.returned (.ok ())) = some x.handlers.send :=
    congrArg (Option.map fun x : Exchange Unit => x.handlers.send) hx
  have hstart : some (some 0) = some x.handlers.start :=
    congrArg (Option.map fun x : Exchange Unit => x.handlers.start) hx
  have hfound : some [(0, ⟨0⟩), (1, ⟨0⟩)] = some x.handlers.found :=
    congrArg (Option.map fun x : Exchange Unit => x.handlers.found) hx
  have hsink : some [(.sendBytes ⟨⟨4⟩, [104, 105], false⟩ : WebTransportCommand Unit),
      .sendBytes ⟨⟨8⟩, [106], true⟩] =
      some x.handlers.sink := congrArg (Option.map fun x : Exchange Unit => x.handlers.sink) hx
  have hends : some [⟨⟨0⟩, 8⟩] = some x.ends := congrArg (Option.map ends) hx
  have hfinished : some (Function.update (fun _ => false) ⟨⟨0⟩, 8⟩ true) = some x.finished :=
    congrArg (Option.map finished) hx
  have hended : some true = some (x.ended ⟨⟨0⟩, 8⟩) :=
    congrArg (Option.map fun x : Exchange Unit => x.ended ⟨⟨0⟩, 8⟩) hx
  have hfour : some (⟨true, []⟩, [], ⟨true, []⟩) = some ((x.outbound ⟨⟨0⟩, 4⟩).link,
      x.held ⟨⟨0⟩, 4⟩, (x.inbound ⟨⟨0⟩, 4⟩).link) :=
    congrArg (Option.map fun x : Exchange Unit => ((x.outbound ⟨⟨0⟩, 4⟩).link, x.held ⟨⟨0⟩, 4⟩,
      (x.inbound ⟨⟨0⟩, 4⟩).link)) hx
  have height : some (⟨true, []⟩, [], ⟨true, []⟩) = some ((x.outbound ⟨⟨0⟩, 8⟩).link,
      x.held ⟨⟨0⟩, 8⟩, (x.inbound ⟨⟨0⟩, 8⟩).link) :=
    congrArg (Option.map fun x : Exchange Unit => ((x.outbound ⟨⟨0⟩, 8⟩).link, x.held ⟨⟨0⟩, 8⟩,
      (x.inbound ⟨⟨0⟩, 8⟩).link)) hx
  have hrx : some (some (⟨⟨0⟩, 4⟩ : Origin)) =
      some ((x.handlers.streams.rx ⟨4⟩).map RecvStream.origin) :=
    congrArg (Option.map fun x : Exchange Unit =>
      (x.handlers.streams.rx ⟨4⟩).map RecvStream.origin) hx
  obtain ⟨rx, hrx, horigin⟩ := Option.map_eq_some_iff.mp (Option.some.inj hrx).symm
  simp only [Option.some.injEq, Prod.mk.injEq] at hfour height
  have hrun := Inv.of_run hx
  have haddressed : ∀ o, x.handlers.addressed o =
      (if (⟨⟨0⟩, 4⟩ : Origin) = o then [104, 105] else []) ++
        if (⟨⟨0⟩, 8⟩ : Origin) = o then [106] else [] := by
    intro o
    simp [HandlersState.addressed, ← Option.some.inj hfound, bytesFor, ← Option.some.inj hsink]
  have hempty : ∀ o, (x.outbound o).link.inFlight = [] ∧ x.held o = [] ∧
      (x.inbound o).link.inFlight = [] := by
    intro o
    by_cases h4 : (⟨⟨0⟩, 4⟩ : Origin) = o
    · rw [← h4, ← hfour.1, ← hfour.2.1, ← hfour.2.2]
      exact ⟨rfl, rfl, rfl⟩
    by_cases h8 : (⟨⟨0⟩, 8⟩ : Origin) = o
    · rw [← h8, ← height.1, ← height.2.1, ← height.2.2]
      exact ⟨rfl, rfl, rfl⟩
    · apply hrun.empty
      simp [haddressed, h4, h8]
  have hq : (machine Unit).Quiescent (internal x) x := by
    apply quiescent_of_empty hrun _ (Option.some.inj hsend).symm hempty
    · intro o ho
      rw [← Option.some.inj hfinished, Function.update_apply] at ho
      split at ho
      · subst o
        exact ⟨(Option.some.inj hended).symm, by simp [← Option.some.inj hends]⟩
      · cases ho
    · rw [← Option.some.inj hstart]
      exact Option.some_ne_none 0
  refine ⟨x, hx, hq, (Option.some.inj hends).symm, ?_, haddressed _, ?_, haddressed _⟩
  · apply ((bytes_round_trip hx ⟨⟨0⟩, 4⟩).2 _ _).2 hq ⟨⟨4⟩, rx, hrx, horigin⟩
    · exact .inl (.inr (Option.some.inj hsend).symm)
    · rw [← hfour.1]
    · rw [← hfour.2.2]
  · apply ((bytes_round_trip hx ⟨⟨0⟩, 8⟩).2 _ _).1
    · rw [← Option.some.inj hends]
      exact List.mem_singleton_self _
    · rw [← height.1]
    · rw [← height.2.2]

end Exchange

end WebTransport

end Cyclers
