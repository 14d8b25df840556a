import Cyclers.WebTransport.Stream
import Mathlib.Data.List.Basic

/-!
# Sending bytes

One loop, `sendBytes`, handles the commands to send bytes for all streams of all sessions.
It ends with its commands, with an error, and also with the first command that finishes a
stream, whichever it is: the commands that come after that one are not handled.
-/

namespace Cyclers

namespace WebTransport

/-- How a write ends: all bytes are written, or an error occurs when some of them have been
written. -/
inductive WriteOutcome where
  | ok
  | error : ℕ → BoxError → WriteOutcome
  deriving DecidableEq

/-- Handle a command to send bytes, when the write ends as `w` tells.  The result is what is
unfolded: the end of the stream, an error, or `ok`. -/
def sendBytesUnfold (streams : StreamMap) (command : SendBytesCommand) (w : WriteOutcome) :
    StreamMap × Option (Except BoxError Unit) :=
  match streams command.streamId with
  | none => (streams, some (.error "invalid stream ID"))
  | some stream =>
      match stream.tx with
      | none => (streams, some (.error "stream is not a writable stream"))
      | some tx =>
          match w with
          | .error n err =>
              (Function.update streams command.streamId
                (some (stream.setTx (tx.write (command.bytes.take n)))), some (.error err))
          | .ok =>
              if command.finished then
                (Function.update streams command.streamId
                  (some (stream.setTx (tx.write command.bytes).finish)), none)
              else
                (Function.update streams command.streamId
                  (some (stream.setTx (tx.write command.bytes))), some (.ok ()))

/-- Handle commands to send bytes, each with the outcome of its write, until the sink ends,
an error occurs, or the stream unfolded ends. -/
def sendBytes : StreamMap → List (SendBytesCommand × WriteOutcome) →
    StreamMap × Except BoxError Unit
  | streams, [] => (streams, .ok ())
  | streams, (command, w) :: commands =>
      match sendBytesUnfold streams command w with
      | (streams, none) => (streams, .ok ())
      | (streams, some (.error err)) => (streams, .error err)
      | (streams, some (.ok ())) => sendBytes streams commands

/-! ### What is written -/

/-- The commands of a sink, all of whose writes succeed. -/
def allOk (commands : List SendBytesCommand) : List (SendBytesCommand × WriteOutcome) :=
  commands.map fun command => (command, .ok)

/-- The bytes of the commands addressed to a stream. -/
def bytesTo (s : StreamId) (commands : List SendBytesCommand) : List UInt8 :=
  (commands.filter fun command => command.streamId = s).flatMap SendBytesCommand.bytes

/-- Whether one of the commands finishes a stream. -/
def finishes (s : StreamId) (commands : List SendBytesCommand) : Bool :=
  commands.any fun command => command.streamId = s && command.finished

/-- The bytes of the commands addressed to a stream, up to and including the first one that
finishes it. -/
def bytesDue (s : StreamId) : List SendBytesCommand → List UInt8
  | [] => []
  | command :: commands =>
      if command.streamId = s then
        if command.finished then command.bytes else command.bytes ++ bytesDue s commands
      else bytesDue s commands

/-- The sending side of a stream once bytes are written to it, and it is finished when
`finished` holds. -/
def SendStream.sent (tx : SendStream) (bytes : List UInt8) (finished : Bool) : SendStream :=
  { tx with written := tx.written ++ bytes, finished := tx.finished || finished }

theorem SendStream.sent_nil (tx : SendStream) :
  tx.sent [] false = tx
  := by
  simp [SendStream.sent]

theorem SendStream.sent_sent (tx : SendStream) (bytes bytes' : List UInt8) (f f' : Bool) :
  (tx.sent bytes f).sent bytes' f' = tx.sent (bytes ++ bytes') (f || f')
  := by
  simp [SendStream.sent, Bool.or_assoc]

/-- A command addressed to a writable stream, whose write succeeds. -/
theorem sendBytesUnfold_ok {streams : StreamMap} {command : SendBytesCommand} {tx : SendStream}
    (h : streams.tx command.streamId = some tx) :
  ∃ streams', sendBytesUnfold streams command .ok =
      (streams', if command.finished then none else some (.ok ())) ∧
    StreamMap.tx streams' = Function.update (StreamMap.tx streams) command.streamId
      (some (tx.sent command.bytes command.finished))
  := by
  obtain ⟨stream, hs, htx⟩ := Option.bind_eq_some_iff.mp h
  unfold sendBytesUnfold
  rw [hs]
  dsimp only
  rw [htx]
  dsimp only
  cases hf : command.finished with
  | true =>
      refine ⟨_, rfl, ?_⟩
      rw [StreamMap.tx_update hs htx]
      simp [SendStream.sent, SendStream.write, SendStream.finish]
  | false =>
      refine ⟨_, rfl, ?_⟩
      rw [StreamMap.tx_update hs htx]
      simp [SendStream.sent, SendStream.write]

theorem bytesTo_cons (s : StreamId) (command : SendBytesCommand)
    (commands : List SendBytesCommand) :
  bytesTo s (command :: commands) =
    (if command.streamId = s then command.bytes else []) ++ bytesTo s commands
  := by
  by_cases h : command.streamId = s <;> simp [bytesTo, h]

theorem finishes_cons (s : StreamId) (command : SendBytesCommand)
    (commands : List SendBytesCommand) :
  finishes s (command :: commands) =
    (decide (command.streamId = s) && command.finished || finishes s commands)
  := rfl

/-- Commands of which none finishes its stream are all handled, and then those that come
after them are. -/
theorem sendBytes_append {streams : StreamMap} {pre : List SendBytesCommand}
    (hreg : ∀ command ∈ pre, (streams.tx command.streamId).isSome)
    (hpre : ∀ command ∈ pre, command.finished = false) (commands : List SendBytesCommand) :
  ∃ streams', sendBytes streams (allOk (pre ++ commands)) = sendBytes streams' (allOk commands) ∧
    ∀ s, StreamMap.tx streams' s =
      (StreamMap.tx streams s).map fun tx => tx.sent (bytesTo s pre) false
  := by
  induction pre generalizing streams with
  | nil =>
      use streams, rfl
      intro s
      simp [bytesTo, SendStream.sent_nil]
  | cons command pre ih =>
      obtain ⟨tx, htx⟩ := Option.isSome_iff_exists.mp (hreg command (List.mem_cons_self ..))
      have hf := hpre command (List.mem_cons_self ..)
      obtain ⟨streams₁, hunfold, htx₁⟩ := sendBytesUnfold_ok htx
      rw [hf, if_neg Bool.false_ne_true] at hunfold
      have hreg₁ : ∀ command ∈ pre, (streams₁.tx command.streamId).isSome := by
        intro c hc
        rw [htx₁]
        by_cases hs : c.streamId = command.streamId
        · rw [hs, Function.update_self]
          rfl
        · rw [Function.update_of_ne hs]
          apply hreg c (List.mem_cons_of_mem _ hc)
      obtain ⟨streams₂, hsend, htx₂⟩ := ih hreg₁ fun c hc => hpre c (List.mem_cons_of_mem _ hc)
      use streams₂
      constructor
      · rw [← hsend]
        change sendBytes streams ((command, .ok) :: allOk (pre ++ commands)) = _
        rw [sendBytes, hunfold]
      · intro s
        rw [htx₂, htx₁, bytesTo_cons]
        by_cases hs : s = command.streamId
        · subst hs
          rw [Function.update_self, htx, if_pos rfl, Option.map_some, Option.map_some,
            SendStream.sent_sent, hf]
          rfl
        · rw [Function.update_of_ne hs, if_neg (Ne.symm hs)]
          rfl

/-- The first command that finishes its stream is the last one handled. -/
theorem sendBytes_finish {streams : StreamMap} {command : SendBytesCommand} {tx : SendStream}
    (htx : streams.tx command.streamId = some tx) (hf : command.finished = true)
    (commands : List SendBytesCommand) :
  StreamMap.tx (sendBytes streams (allOk (command :: commands))).1 =
    Function.update (StreamMap.tx streams) command.streamId (some (tx.sent command.bytes true))
  := by
  obtain ⟨streams', hunfold, htx'⟩ := sendBytesUnfold_ok htx
  rw [hf, if_pos rfl] at hunfold
  change StreamMap.tx (sendBytes streams ((command, .ok) :: allOk commands)).1 = _
  rw [sendBytes, hunfold, ← hf]
  exact htx'

/-! ### What is due -/

/-- Commands of which none finishes its stream are all due, and then what is due of those
that come after them. -/
theorem bytesDue_append {pre : List SendBytesCommand}
    (hpre : ∀ command ∈ pre, command.finished = false) (s : StreamId)
    (commands : List SendBytesCommand) :
  bytesDue s (pre ++ commands) = bytesTo s pre ++ bytesDue s commands
  := by
  induction pre with
  | nil => rfl
  | cons command pre ih =>
      have hf := hpre command (List.mem_cons_self ..)
      rw [List.cons_append, bytesDue, bytesTo_cons,
        ih fun c hc => hpre c (List.mem_cons_of_mem _ hc), hf]
      split <;> simp

theorem finishes_append {pre : List SendBytesCommand}
    (hpre : ∀ command ∈ pre, command.finished = false) (s : StreamId)
    (commands : List SendBytesCommand) :
  finishes s (pre ++ commands) = finishes s commands
  := by
  rw [finishes, finishes, List.any_append, Bool.or_eq_right_iff_imp, List.any_eq_true]
  rintro ⟨command, hc, hs⟩
  rw [hpre command hc, Bool.and_false] at hs
  cases hs

/-- Nothing is due to a stream exactly when every command addressed to it has no bytes and
does not finish it. -/
theorem bytesDue_eq_nil {s : StreamId} {commands : List SendBytesCommand} :
  bytesDue s commands = [] ∧ finishes s commands = false ↔
    ∀ command ∈ commands, command.streamId = s → command.bytes = [] ∧ command.finished = false
  := by
  induction commands with
  | nil => simp [bytesDue, finishes]
  | cons command commands ih =>
      rw [List.forall_mem_cons, ← ih, finishes_cons, bytesDue]
      by_cases hs : command.streamId = s
      · cases hf : command.finished <;> simp [hs, and_assoc]
      · simp [hs]

/-- `Keeps streams streams' commands`: the streams go from `streams` to `streams'` with each
of them sent what is due to it from the commands. -/
def Keeps (streams streams' : StreamMap) (commands : List SendBytesCommand) : Prop :=
  ∀ s tx, streams.tx s = some tx →
    streams'.tx s = some (tx.sent (bytesDue s commands) (finishes s commands))

/-- Commands that are nothing to any stream but one. -/
def OnlyTo (s : StreamId) (commands : List SendBytesCommand) : Prop :=
  ∀ command ∈ commands, command.streamId = s ∨ command.bytes = [] ∧ command.finished = false

theorem SendStream.sent_inj {tx : SendStream} {bytes bytes' : List UInt8} {f f' : Bool} :
  tx.sent bytes f = tx.sent bytes' f' ↔
    bytes = bytes' ∧ (tx.finished || f) = (tx.finished || f')
  := by
  simp [SendStream.sent]

/-- What each stream is sent when there is a first command that finishes its stream. -/
theorem tx_sendBytes {streams : StreamMap} {pre post : List SendBytesCommand}
    {command : SendBytesCommand}
    (hreg : ∀ c ∈ pre ++ command :: post, (streams.tx c.streamId).isSome)
    (hpre : ∀ c ∈ pre, c.finished = false) (hf : command.finished = true) {s : StreamId}
    {tx : SendStream} (htx : streams.tx s = some tx) :
  (sendBytes streams (allOk (pre ++ command :: post))).1.tx s =
    some (if command.streamId = s then tx.sent (bytesTo s pre ++ command.bytes) true
      else tx.sent (bytesTo s pre) false)
  := by
  obtain ⟨streams₁, hsend, htx₁⟩ :=
    sendBytes_append (fun c hc => hreg c (List.mem_append_left _ hc)) hpre (command :: post)
  have hcommand : (streams.tx command.streamId).isSome := by
    apply hreg
    simp
  obtain ⟨tx₀, htx₀⟩ := Option.isSome_iff_exists.mp hcommand
  have hreg₁ : streams₁.tx command.streamId = some (tx₀.sent (bytesTo command.streamId pre) false) := by
    rw [htx₁, htx₀, Option.map_some]
  rw [hsend, sendBytes_finish hreg₁ hf]
  by_cases hs : command.streamId = s
  · subst hs
    rw [htx] at htx₀
    obtain rfl := Option.some.inj htx₀
    rw [Function.update_self, if_pos rfl, SendStream.sent_sent, Bool.false_or]
  · rw [Function.update_of_ne (Ne.symm hs), if_neg hs, htx₁, htx, Option.map_some]

/-- The first command that finishes its stream, and those that come after it, are determined
by the commands. -/
theorem dropWhile_first {pre post : List SendBytesCommand} {command : SendBytesCommand}
    (hpre : ∀ c ∈ pre, c.finished = false) (hf : command.finished = true) :
  (pre ++ command :: post).dropWhile (fun c => !c.finished) = command :: post
  := by
  rw [List.dropWhile_append_of_pos, List.dropWhile_cons_of_neg]
  · simp [hf]
  · intro c hc
    simp [hpre c hc]

/-- When there is no command that finishes its stream, the byte sequences are kept. -/
theorem keeps_of_unfinished {streams : StreamMap} {commands : List SendBytesCommand}
    (hreg : ∀ c ∈ commands, (streams.tx c.streamId).isSome)
    (h : ∀ c ∈ commands, c.finished = false) :
  Keeps streams (sendBytes streams (allOk commands)).1 commands
  := by
  intro s tx htx
  obtain ⟨streams', hsend, htx'⟩ := sendBytes_append hreg h []
  have hdue := bytesDue_append h s []
  have hfin := finishes_append h s []
  rw [List.append_nil] at hsend hdue hfin
  rw [hsend, hdue, hfin, bytesDue, List.append_nil]
  change streams'.tx s = _
  rw [htx', htx]
  rfl

/-- When there is a first command that finishes its stream, the byte sequences are kept
exactly when the commands after it are nothing to any other stream. -/
theorem keeps_of_finished {streams : StreamMap} {pre post : List SendBytesCommand}
    {command : SendBytesCommand}
    (hreg : ∀ c ∈ pre ++ command :: post,
      ∃ tx, streams.tx c.streamId = some tx ∧ tx.finished = false)
    (hpre : ∀ c ∈ pre, c.finished = false) (hf : command.finished = true) :
  Keeps streams (sendBytes streams (allOk (pre ++ command :: post))).1 (pre ++ command :: post) ↔
    OnlyTo command.streamId post
  := by
  have hsome : ∀ c ∈ pre ++ command :: post, (streams.tx c.streamId).isSome := by
    intro c hc
    obtain ⟨tx, htx, -⟩ := hreg c hc
    rw [htx]
    rfl
  have hsent : ∀ s tx, streams.tx s = some tx →
      ((sendBytes streams (allOk (pre ++ command :: post))).1.tx s =
        some (tx.sent (bytesDue s (pre ++ command :: post))
          (finishes s (pre ++ command :: post))) ↔
      command.streamId = s ∨
        bytesDue s post = [] ∧ (tx.finished || finishes s post) = tx.finished) := by
    intro s tx htx
    rw [tx_sendBytes hsome hpre hf htx, bytesDue_append hpre, finishes_append hpre, bytesDue,
      finishes_cons, hf]
    by_cases hs : command.streamId = s
    · simp [hs]
    · simp only [hs, if_false, false_or, decide_false, Bool.false_and, Bool.false_or,
        Option.some_inj, SendStream.sent_inj, List.self_eq_append_right, Bool.or_false]
      rw [eq_comm (a := tx.finished)]
  constructor
  · intro h c hc
    obtain ⟨tx, htx, hunf⟩ := hreg c (by simp [hc])
    rcases (hsent c.streamId tx htx).mp (h c.streamId tx htx) with hs | ⟨hdue, hfin⟩
    · exact .inl hs.symm
    · right
      rw [hunf, Bool.false_or] at hfin
      apply bytesDue_eq_nil.mp ⟨hdue, hfin⟩ c hc rfl
  · intro h s tx htx
    rw [hsent s tx htx]
    by_cases hs : command.streamId = s
    · exact .inl hs
    · right
      have hnil : ∀ c ∈ post, c.streamId = s → c.bytes = [] ∧ c.finished = false := by
        rintro c hc rfl
        rcases h c hc with hc | hc
        · cases hs hc.symm
        · exact hc
      obtain ⟨hdue, hfin⟩ := bytesDue_eq_nil.mpr hnil
      rw [hdue, hfin, Bool.or_false]
      exact ⟨rfl, rfl⟩

/-- When the byte sequence of every stream is kept.  All commands being addressed to streams
that are registered, writable and not yet finished, and all writes succeeding, each stream is
sent the bytes due to it, and finished if a command does so, exactly when all commands after
the first one that finishes a stream are addressed to the same stream, or have no effect. -/
theorem keeps_sendBytes {streams : StreamMap} {commands : List SendBytesCommand}
    (hreg : ∀ command ∈ commands,
      ∃ tx, streams.tx command.streamId = some tx ∧ tx.finished = false) :
  Keeps streams (sendBytes streams (allOk commands)).1 commands ↔
    ∀ pre command post, commands = pre ++ command :: post →
      (∀ c ∈ pre, c.finished = false) → command.finished = true →
      OnlyTo command.streamId post
  := by
  cases hfind : commands.find? SendBytesCommand.finished with
  | none =>
      have h : ∀ c ∈ commands, c.finished = false := by
        simpa using List.find?_eq_none.mp hfind
      constructor
      · rintro - pre command post rfl - hf
        rw [h command (by simp)] at hf
        cases hf
      · intro _
        apply keeps_of_unfinished _ h
        intro c hc
        obtain ⟨tx, htx, -⟩ := hreg c hc
        rw [htx]
        rfl
  | some command =>
      obtain ⟨hf, pre, post, rfl, hpre⟩ := List.find?_eq_some_iff_append.mp hfind
      have hpre : ∀ c ∈ pre, c.finished = false := by simpa using hpre
      rw [keeps_of_finished hreg hpre hf]
      constructor
      · intro h pre' command' post' heq hpre' hf'
        have hfirst := @dropWhile_first pre post command hpre hf
        rw [heq, dropWhile_first hpre' hf'] at hfirst
        obtain ⟨rfl, rfl⟩ := List.cons.inj hfirst
        exact h
      · intro h
        apply h pre command post rfl hpre hf

/-- One command finishes a stream, and the command after it, for another stream, is not
handled. -/
theorem not_keeps_two :
  let streams : StreamMap := fun s => some (.outgoingUni ⟨⟨⟨0⟩, s.quicId⟩, [], false⟩)
  let commands : List SendBytesCommand := [⟨⟨2⟩, [1], true⟩, ⟨⟨6⟩, [2], false⟩]
  sendBytes streams (allOk commands) = sendBytes streams (allOk [⟨⟨2⟩, [1], true⟩]) ∧
    bytesDue ⟨6⟩ commands = [2] ∧ ¬ Keeps streams (sendBytes streams (allOk commands)).1 commands
  := by
  intro streams commands
  refine ⟨rfl, rfl, ?_⟩
  intro h
  have h6 := h ⟨6⟩ ⟨⟨⟨0⟩, 6⟩, [], false⟩ rfl
  revert h6
  decide

/-- The same commands in the other order. -/
theorem keeps_two :
  let streams : StreamMap := fun s => some (.outgoingUni ⟨⟨⟨0⟩, s.quicId⟩, [], false⟩)
  let commands : List SendBytesCommand := [⟨⟨6⟩, [2], false⟩, ⟨⟨2⟩, [1], true⟩]
  Keeps streams (sendBytes streams (allOk commands)).1 commands
  := by
  intro streams commands
  apply (keeps_sendBytes fun c _ => ⟨_, rfl, rfl⟩).mpr
  intro pre command post heq hpre hf
  have hpost : post = [] := by
    have hfirst := @dropWhile_first pre post command hpre hf
    rw [← heq] at hfirst
    exact (List.cons.inj hfirst).2.symm
  rw [hpost]
  intro c hc
  cases hc

end WebTransport

end Cyclers
