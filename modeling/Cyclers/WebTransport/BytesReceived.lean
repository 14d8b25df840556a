import Cyclers.Async.Buffer
import Cyclers.WebTransport.Stream

/-!
# Receiving bytes

A stream of received bytes looks its stream up and reads a chunk of it, again and again.  For
each chunk a buffer is made, filled with zeros, read into, and cut to the number of bytes read.
Natively the buffer is read into as a slice, so that the bytes read come first.  On wasm they
are appended to the buffer, after its zeros, and cut off.
-/

open Async

namespace Cyclers

namespace WebTransport

/-- Why receiving bytes fails. -/
inductive ReceiveBytesErrorKind where
  | streamNotFound
  | nonReadableStream
  | read
  deriving DecidableEq

/-- The error of receiving bytes. -/
structure ReceiveBytesError where
  kind : ReceiveBytesErrorKind
  inner : BoxError
  deriving DecidableEq

/-- What reading from a stream gives: some bytes, the end of the stream, or an error. -/
inductive ReadOutcome where
  | data : List UInt8 → ReadOutcome
  | finished
  | error : BoxError → ReadOutcome
  deriving DecidableEq

/-- What the program is built for. -/
inductive Target where
  | native
  | wasm
  deriving DecidableEq

/-- The size of the buffer that a chunk is read into. -/
def chunkSize : ℕ := 8 * 1024

/-- Read bytes into a buffer: natively into the slice that is all of it, on wasm to its end. -/
def Target.read : Target → Buffer UInt8 → List UInt8 → Buffer UInt8
  | .native, buf, bytes => Buffer.readSlice buf 0 bytes
  | .wasm, buf, bytes => Buffer.readAppend buf bytes

/-- Look a stream up and read a chunk of it.  The result is what is unfolded: the end of the
stream of received bytes, an error, or a chunk. -/
def bytesReceivedUnfold (target : Target) (streams : StreamMap) (id : StreamId)
    (read : ReadOutcome) : Option (Except ReceiveBytesError (List UInt8)) :=
  match streams id with
  | none => some (.error ⟨.streamNotFound, "could not find stream"⟩)
  | some stream =>
      match stream.rx with
      | none => some (.error ⟨.nonReadableStream, "stream is not a readable stream"⟩)
      | some _ =>
          match read with
          | .data bytes =>
              some (.ok (Buffer.truncate (target.read (Buffer.resize [] chunkSize 0) bytes)
                bytes.length))
          | .finished => none
          | .error err => some (.error ⟨.read, err⟩)

/-- The items of a stream of received bytes, and whether it has ended, after some turns: each
looks the stream up in the map there is by then, and reads from it. -/
def bytesReceived (target : Target) (id : StreamId) :
    List (StreamMap × ReadOutcome) → List (Except ReceiveBytesError (List UInt8)) × Bool
  | [] => ([], false)
  | (streams, read) :: turns =>
      match bytesReceivedUnfold target streams id read with
      | none => ([], true)
      | some item => (item :: (bytesReceived target id turns).1, (bytesReceived target id turns).2)

/-- The receiving side registered under an id. -/
def StreamMap.rx (streams : StreamMap) (id : StreamId) : Option RecvStream :=
  (streams id).bind Stream.rx

/-- The bytes of the items that are not errors. -/
def receivedBytes (items : List (Except ReceiveBytesError (List UInt8))) : List UInt8 :=
  (items.filterMap Except.toOption).flatten

/-! ### Looking a stream up -/

/-- The stream is not found exactly when none is registered under the id. -/
theorem streamNotFound_iff {target : Target} {streams : StreamMap} {id : StreamId}
    {read : ReadOutcome} :
  (∃ inner, bytesReceivedUnfold target streams id read =
    some (.error ⟨.streamNotFound, inner⟩)) ↔ streams id = none
  := by
  unfold bytesReceivedUnfold
  cases streams id with
  | none => simp
  | some stream =>
      cases hrx : stream.rx with
      | none => simp [hrx]
      | some rx => cases read <;> simp [hrx]

/-- The stream is not readable exactly when the one registered has no receiving side. -/
theorem nonReadableStream_iff {target : Target} {streams : StreamMap} {id : StreamId}
    {read : ReadOutcome} :
  (∃ inner, bytesReceivedUnfold target streams id read =
    some (.error ⟨.nonReadableStream, inner⟩)) ↔
    ∃ stream, streams id = some stream ∧ stream.rx = none
  := by
  unfold bytesReceivedUnfold
  cases streams id with
  | none => simp
  | some stream =>
      cases hrx : stream.rx with
      | none => simp [hrx]
      | some rx => cases read <;> simp [hrx]

/-! ### The bytes read -/

/-- What the stream of received bytes yields for a chunk. -/
def Target.chunk (target : Target) (bytes : List UInt8) : List UInt8 :=
  Buffer.truncate (target.read (List.replicate chunkSize 0) bytes) bytes.length

/-- A chunk that is read from a readable stream is yielded as `Target.chunk` tells. -/
theorem bytesReceivedUnfold_data {target : Target} {streams : StreamMap} {id : StreamId}
    (h : streams.rx id ≠ none) (bytes : List UInt8) :
  bytesReceivedUnfold target streams id (.data bytes) = some (.ok (target.chunk bytes))
  := by
  obtain ⟨rx, hrx⟩ := Option.ne_none_iff_exists'.mp h
  obtain ⟨stream, hs, hrx⟩ := Option.bind_eq_some_iff.mp hrx
  simp only [bytesReceivedUnfold, hs, hrx, Buffer.resize_nil, Target.chunk]

theorem bytesReceivedUnfold_finished {target : Target} {streams : StreamMap} {id : StreamId}
    (h : streams.rx id ≠ none) :
  bytesReceivedUnfold target streams id .finished = none
  := by
  obtain ⟨rx, hrx⟩ := Option.ne_none_iff_exists'.mp h
  obtain ⟨stream, hs, hrx⟩ := Option.bind_eq_some_iff.mp hrx
  simp only [bytesReceivedUnfold, hs, hrx]

/-- Natively, a chunk that fits in the buffer is yielded as it was read. -/
theorem chunk_native {bytes : List UInt8} (h : bytes.length ≤ chunkSize) :
  Target.native.chunk bytes = bytes
  := by
  have hread := Buffer.truncate_readSlice ([] : Buffer UInt8) 0 h
  rw [List.length_nil, Nat.zero_add, Nat.zero_add, List.nil_append, Buffer.resize_nil] at hread
  exact hread

/-- On wasm, a chunk is yielded as it was read exactly when it has only zeros. -/
theorem chunk_wasm (bytes : List UInt8) :
  Target.wasm.chunk bytes = bytes ↔ ∀ b ∈ bytes, b = 0
  := Buffer.truncate_readAppend_eq_iff (by decide) 0 bytes

/-- The items that the chunks of a readable stream give, and its end. -/
theorem bytesReceived_of_readable {target : Target} {id : StreamId}
    {turns : List (StreamMap × List UInt8)} (h : ∀ turn ∈ turns, turn.1.rx id ≠ none)
    {last : StreamMap} (hlast : last.rx id ≠ none) :
  bytesReceived target id (turns.map (fun turn => (turn.1, .data turn.2)) ++ [(last, .finished)]) =
    (turns.map fun turn => .ok (target.chunk turn.2), true)
  := by
  induction turns with
  | nil =>
      simp only [List.map_nil, List.nil_append, bytesReceived, bytesReceivedUnfold_finished hlast]
  | cons turn turns ih =>
      rw [List.forall_mem_cons] at h
      rw [List.map_cons, List.cons_append, List.map_cons, bytesReceived,
        bytesReceivedUnfold_data h.1, ih h.2]

/-- No chunk is longer than the buffer that it is read into as a slice. -/
def Fits (target : Target) (chunks : List (List UInt8)) : Prop :=
  target = .native → ∀ chunk ∈ chunks, chunk.length ≤ chunkSize

theorem length_chunk {target : Target} {chunks : List (List UInt8)} (h : Fits target chunks) :
  ∀ chunk ∈ chunks, (target.chunk chunk).length = chunk.length
  := by
  intro chunk hchunk
  cases target with
  | native => rw [chunk_native (h rfl chunk hchunk)]
  | wasm =>
      rw [Target.chunk, Buffer.truncate, Target.read, Buffer.readAppend, List.length_take,
        List.length_append]
      apply Nat.min_eq_left (Nat.le_add_left _ _)

/-- When the bytes received are the bytes sent.  The chunks that are read from a readable stream
until its end, put together, are what is yielded, and the stream of received bytes ends: always
on the native target, and on wasm exactly when every byte is zero. -/
theorem bytesReceived_eq_iff {target : Target} {id : StreamId}
    {turns : List (StreamMap × List UInt8)} (h : ∀ turn ∈ turns, turn.1.rx id ≠ none)
    {last : StreamMap} (hlast : last.rx id ≠ none) (hfits : Fits target (turns.map Prod.snd)) :
  (∃ items, bytesReceived target id
      (turns.map (fun turn => (turn.1, .data turn.2)) ++ [(last, .finished)]) = (items, true) ∧
    (∀ item ∈ items, ∃ bytes, item = .ok bytes) ∧
    receivedBytes items = (turns.map Prod.snd).flatten) ↔
  target = .native ∨ ∀ turn ∈ turns, ∀ b ∈ turn.2, b = 0
  := by
  have hitems := @bytesReceived_of_readable target _ _ h _ hlast
  have hbytes : receivedBytes (turns.map fun turn => .ok (target.chunk turn.2)) =
      ((turns.map Prod.snd).map target.chunk).flatten := by
    rw [receivedBytes, List.filterMap_map, List.map_map, ← List.filterMap_eq_map]
    rfl
  have hsame : receivedBytes (turns.map fun turn => .ok (target.chunk turn.2)) =
      (turns.map Prod.snd).flatten ↔ ∀ turn ∈ turns, target.chunk turn.2 = turn.2 := by
    rw [hbytes, Buffer.flatten_map_eq_iff (length_chunk hfits), List.forall_mem_map]
  constructor
  · rintro ⟨items, heq, -, hreceived⟩
    rw [hitems] at heq
    obtain ⟨rfl, -⟩ := Prod.mk.inj heq
    cases target with
    | native => exact .inl rfl
    | wasm =>
        right
        intro turn hturn
        apply (chunk_wasm turn.2).mp (hsame.mp hreceived turn hturn)
  · intro hok
    refine ⟨_, hitems, ?_, hsame.mpr ?_⟩
    · rw [List.forall_mem_map]
      intro turn _
      exact ⟨_, rfl⟩
    · intro turn hturn
      rcases hok with rfl | hzero
      · apply chunk_native (hfits rfl _ (List.mem_map_of_mem hturn))
      · cases target with
        | native => apply chunk_native (hfits rfl _ (List.mem_map_of_mem hturn))
        | wasm => apply (chunk_wasm turn.2).mpr (hzero turn hturn)

/-- The peer sends two bytes on a stream, and ends it.  On wasm two zeros are received. -/
theorem bytesReceived_zeros :
  ∃ streams : StreamMap, streams.rx ⟨3⟩ ≠ none ∧
    bytesReceived .wasm ⟨3⟩ [(streams, .data [104, 105]), (streams, .finished)] =
      ([.ok [0, 0]], true) ∧
    receivedBytes [.ok [0, 0]] ≠ [104, 105]
  := by
  use fun _ => some (.incomingUni ⟨⟨1⟩, 3⟩)
  refine ⟨?_, rfl, ?_⟩
  · exact nofun
  · decide

/-- The peer sends two chunks on a stream, and ends it.  Natively they are received. -/
theorem bytesReceived_native :
  ∃ streams : StreamMap, ∃ items, bytesReceived .native ⟨3⟩
      [(streams, .data [104, 105]), (streams, .data [10]), (streams, .finished)] = (items, true) ∧
    receivedBytes items = [104, 105, 10]
  := by
  let streams : StreamMap := fun _ => some (.incomingUni ⟨⟨1⟩, 3⟩)
  let turns : List (StreamMap × List UInt8) := [(streams, [104, 105]), (streams, [10])]
  have hreadable : ∀ turn ∈ turns, turn.1.rx ⟨3⟩ ≠ none := by
    simp [turns, streams, StreamMap.rx, Stream.rx]
  have hlast : streams.rx ⟨3⟩ ≠ none := nofun
  have hfits : Fits .native (turns.map Prod.snd) := by
    simp [turns, Fits, chunkSize]
  obtain ⟨items, hitems, -, hbytes⟩ :=
    (bytesReceived_eq_iff hreadable hlast hfits).mpr (.inl rfl)
  exact ⟨streams, items, hitems, hbytes⟩

end WebTransport

end Cyclers
