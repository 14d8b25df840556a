import Cyclers.WebTransport.Configure
import Cyclers.WebTransport.SendOrder

/-!
# The panics of the WebTransport driver

The driver panics on a function that has been taken before.  A stream of the source panics on a
send order that does not fit in an `i32`, which none does that the conversions build.  So the
commands tell whether a run of them can panic.
-/

open Async

namespace Cyclers

namespace WebTransport

universe u

variable {F : Type u}

/-! ### Send orders -/

/-- The send order of a command to create a stream. -/
def sendOrderOf : WebTransportCommand F → Option UInt32
  | .createUniStream command => some command.sendOrder
  | .createBiStream command => some command.sendOrder
  | _ => none

/-- The send order that a stream of the source holds fits in an `i32`, and the stream has not
panicked. -/
def SourceTask.Fits : SourceTask → Prop
  | .lookup request => ∀ i sendOrder, request = some (i, sendOrder) → sendOrder ≤ maxSendOrder
  | .transport request => ∀ i sendOrder, request = some (i, sendOrder) → sendOrder ≤ maxSendOrder
  | .panicked => False
  | _ => True

/-- A command that a method keeps has the send order of the command. -/
theorem sendOrderOf_create {method : StreamMethod} {sessionId : SessionId}
    {command : WebTransportCommand F} {create : CreateStreamCommand}
    (h : method.create sessionId command = some create) :
  sendOrderOf command = some create.sendOrder
  := by
  unfold StreamMethod.create at h
  split at h
  · split at h <;> cases h
    rfl
  · split at h <;> cases h
    rfl
  · cases h

namespace SourceState

/-- The send orders that the streams hold fit. -/
def Fits (s : SourceState F) : Prop :=
  ∀ j, (s.streams j).task.Fits

/-- The send orders in the sink fit. -/
def SinkFits (s : SourceState F) : Prop :=
  ∀ command ∈ s.sink, ∀ sendOrder, sendOrderOf command = some sendOrder → sendOrder ≤ maxSendOrder

/-- A stream goes on with a send order that fits. -/
theorem Fits.set {s s' : SourceState F} (h : Fits s) (hstreams : s'.streams = s.streams) (j : ℕ)
    {r : SourceStream} (hr : r.task.Fits) :
  Fits (s'.set j r)
  := by
  intro j'
  by_cases heq : j' = j
  · subst heq
    rw [set_streams_self]
    exact hr
  · rw [set_streams_of_ne s' heq, hstreams]
    apply h

/-- A stream takes a send order from the sink. -/
theorem Fits.pollCommand {s t : SourceState F} {j : ℕ} {client : Option Client} (h : Fits s)
    (hsink : SinkFits s) (hs : s.pollCommand j client = some t) :
  Fits t
  := by
  simp only [SourceState.pollCommand] at hs
  split at hs
  · split at hs <;> cases hs
    · refine h.set rfl j ?_
      trivial
    · exact h.set rfl j (h j)
  · rename_i command method sessionId hget hm
    split at hs
    · cases hs
    · split at hs <;> cases hs
      · rename_i sendOrder hk
        refine h.set rfl j ?_
        intro i sendOrder' heq
        cases heq
        apply hsink command (List.mem_of_getElem? hget)
        exact sendOrderOf_create hk
      · exact h.set rfl j (h j)
  · cases hs

/-- The transport opens a stream with a send order that fits. -/
theorem Fits.opened {s : SourceState F} {j quicId : ℕ} {request : Option (ℕ × UInt32)}
    (h : Fits s) (ht : s.task j = some (.transport request)) :
  Fits (s.opened j request quicId)
  := by
  have hfits := h j
  rw [(task_eq_some.mp ht).2] at hfits
  cases request with
  | none =>
      refine h.set rfl j ?_
      trivial
  | some request =>
      obtain ⟨i, sendOrder⟩ := request
      rw [SourceState.opened, if_pos (hfits i sendOrder rfl)]
      refine h.set rfl j ?_
      trivial

/-- An event keeps the send orders fitting. -/
theorem Fits.step {s t : SourceState F} {e : SourceEvent F} (h : Fits s) (hsink : SinkFits s)
    (hs : (machine F).step s e = some t) :
  Fits t
  := by
  by_cases hpoll : ∃ j, e = .pollCommand j
  · obtain ⟨j, rfl⟩ := hpoll
    change s.step (.pollCommand j) = some t at hs
    simp only [SourceState.step] at hs
    split at hs
    · exact h.pollCommand hsink hs
    · cases hs
  by_cases hopen : ∃ j quicId, e = .transport j (.ok quicId)
  · obtain ⟨j, quicId, rfl⟩ := hopen
    change s.step (.transport j (.ok quicId)) = some t at hs
    simp only [SourceState.step] at hs
    split at hs
    · rename_i herr
      cases herr
    · rename_i ht hok
      cases hok
      cases hs
      exact h.opened ht
    · cases hs
  cases step_of_machine hs with
  | skip j => cases hpoll ⟨j, rfl⟩
  | takeEstablish j => cases hpoll ⟨j, rfl⟩
  | takeCreate j => cases hpoll ⟨j, rfl⟩
  | accepted j quicId => cases hopen ⟨j, quicId, rfl⟩
  | created j i quicId => cases hopen ⟨j, quicId, rfl⟩
  | panicked j i quicId => cases hopen ⟨j, quicId, rfl⟩
  | found j request ht =>
      have hfits := h j
      rw [(task_eq_some.mp ht).2] at hfits
      exact h.set rfl j hfits
  | pollReceived j =>
      refine h.set rfl j ?_
      intro i sendOrder heq
      cases heq
  | obtain method => exact h.set rfl s.count trivial
  | drop j hj => exact h.set rfl j trivial
  | pollClient j client establish ht hget => exact h.set rfl j trivial
  | zip j client i url ht => exact h.set rfl j trivial
  | connectFailed j client url err ht => exact h.set rfl j trivial
  | connected j client url stableId ht => exact h.set rfl j trivial
  | insertSession j session url ht => exact h.set rfl j trivial
  | notFound j request err ht => exact h.set rfl j trivial
  | transportFailed j request err err' ht => exact h.set rfl j trivial
  | insertStream j quicId method sessionId ht hm => exact h.set rfl j trivial
  | yieldSession j session url ht => exact h.set rfl j trivial
  | yieldStream j id method sessionId ht hm => exact h.set rfl j trivial
  | yieldOther j item ht hn => exact h.set rfl j trivial
  | _ => exact h

end SourceState

namespace DriverState

/-- The streams of the source do not panic when the send orders in the sink fit. -/
theorem fits_of_run [DecidableEq F] {tr : List (DriverEvent F)} {s : DriverState F}
    (h : (machine F).run (init F) tr = some s) (hsink : s.source.SinkFits) :
  s.source.Fits
  := by
  refine (machine F).run_invariant (P := fun s => s.source.SinkFits → s.source.Fits) ?_ ?_ h hsink
  · intro _ j
    trivial
  · intro s e t hs ht hfits
    cases step_of_machine ht with
    | source e source he hsource =>
        obtain ⟨hpre, -⟩ := SourceState.grows_of_step he hsource
        have hsink : s.source.SinkFits := fun command hmem => hfits command (hpre.subset hmem)
        exact (hs hsink).step hsink hsource
    | _ => exact hs hfits

/-! ### Runs that panic -/

/-- The state in which one stream of sessions has been obtained, the sink has yielded some commands,
and the driver may have been polled after the first of them. -/
def ofSink (commands : List (WebTransportCommand F)) (start : Option ℕ) : DriverState F :=
  { init F with
    source := { SourceState.init F with
        sink := commands, start := start, terminated := start.getD 0, count := 1 }.set 0
      ⟨.sessionReady, 0, 0, 0, .next none none⟩ }

/-- The sink may yield any commands. -/
theorem run_sink [DecidableEq F] (s : DriverState F) (commands : List (WebTransportCommand F)) :
  (machine F).run s (commands.map fun command => .source (.sink command)) =
    some { s with source := { s.source with sink := s.source.sink ++ commands } }
  := by
  induction commands generalizing s with
  | nil => simp
  | cons command commands ih =>
      have hstep : (machine F).step s (.source (.sink command)) =
          some { s with source := { s.source with sink := s.source.sink ++ [command] } } := rfl
      rw [List.map_cons, Machine.run_cons, hstep, Option.bind_some, ih]
      simp

theorem run_sink_ofSink [DecidableEq F] (commands commands' : List (WebTransportCommand F))
    (start : Option ℕ) :
  (machine F).run (ofSink commands start) (commands'.map fun command => .source (.sink command)) =
    some (ofSink (commands ++ commands') start)
  := by
  rw [run_sink]
  rfl

/-- The stream has the sink yield `i` commands, then the driver is polled for the first time, and
then the sink yields the others. -/
theorem run_ofSink [DecidableEq F] {commands : List (WebTransportCommand F)} {i : ℕ}
    (hi : i ≤ commands.length) :
  (machine F).run (init F) (.source (.obtain .sessionReady) ::
    ((commands.take i).map (fun command => .source (.sink command)) ++ .source .start ::
      (commands.drop i).map fun command => .source (.sink command))) =
    some (ofSink commands (some i))
  := by
  have hobtain : (machine F).step (init F) (.source (.obtain .sessionReady)) =
      some (ofSink [] none) := rfl
  have hstart : (machine F).step (ofSink (commands.take i) none) (.source .start) =
      some (ofSink (commands.take i) (some (commands.take i).length)) := rfl
  rw [Machine.run_cons, hobtain, Option.bind_some, Machine.run_append, run_sink_ofSink,
    List.nil_append, Option.bind_some, Machine.run_cons, hstart, Option.bind_some, run_sink_ofSink,
    List.take_append_drop, List.length_take_of_le hi]

/-- What the driver and the first stream do, when no connection is made. -/
def internal : DriverEvent F → Prop
  | .configure result => result = .ok ()
  | .send => True
  | .recv j => j = 0
  | .source (.pollClient j) => j = 0
  | .source (.pollCommand j) => j = 0
  | .source (.zip j) => j = 0
  | .source (.connected j result) => j = 0 ∧ ∃ err, result = .error err
  | .source (.yield j) => j = 0
  | _ => False

/-- What is left to do for what a stream of sessions has taken. -/
def taskWork : SourceTask → ℕ
  | .next client establish => 2 * client.toList.length + establish.toList.length
  | .connect _ _ => 2
  | .item _ => 1
  | _ => 0

/-- What is left to do for a stream of sessions: it takes clients and commands. -/
def streamWork (source : SourceState F) (r : SourceStream) : ℕ :=
  3 * (source.clients.length - r.nextClient) + 2 * (source.sink.length - r.nextCommand) +
    taskWork r.task

/-- What is left to do: functions are taken, and clients go through the channel to the first
stream. -/
def work (s : DriverState F) : ℕ :=
  6 * ((configureClientFns s.received).length - s.configured) + 5 * s.loop.reserved.length +
    4 * s.channel.queue.length + streamWork s.source (s.source.streams 0) +
    if s.loop = .panicked then 0 else 1

theorem work_set_lt {s : DriverState F} {source : SourceState F} {r : SourceStream}
    (hsink : source.sink = s.source.sink) (hstart : source.start = s.source.start)
    (hclients : source.clients = s.source.clients)
    (hr : streamWork s.source r < streamWork s.source (s.source.streams 0)) :
  work { s with source := source.set 0 r } < work s
  := by
  have hset : streamWork (source.set 0 r) ((source.set 0 r).streams 0) = streamWork s.source r := by
    rw [SourceState.set_streams_self, streamWork, streamWork]
    change 3 * (source.clients.length - _) + 2 * (source.sink.length - _) + _ = _
    rw [hsink, hclients]
  have hfns : configureClientFns (received { s with source := source.set 0 r }) =
      configureClientFns s.received := by
    change configureClientFns (heard source.sink source.start) = _
    rw [hsink, hstart]
    rfl
  simp only [work, hset, hfns]
  omega

/-- What the first stream does leaves less to do. -/
theorem work_source_lt {s : DriverState F} {e : SourceEvent F} {source : SourceState F}
    (he : internal (.source e)) (hs : (SourceState.machine F).step s.source e = some source) :
  work { s with source := source } < work s
  := by
  cases SourceState.step_of_machine hs with
  | pollClient j client establish ht hget =>
      obtain rfl := he
      have hlt := (List.getElem?_eq_some_iff.mp hget).1
      apply work_set_lt rfl rfl rfl
      simp only [streamWork, (SourceState.task_eq_some.mp ht).2, taskWork, Option.toList_none,
        Option.toList_some, List.length_nil, List.length_singleton]
      omega
  | skip j client command ht hget =>
      obtain rfl := he
      have hlt := (List.getElem?_eq_some_iff.mp hget).1
      apply work_set_lt rfl rfl rfl
      simp only [streamWork]
      omega
  | takeEstablish j client command url ht hget hk =>
      obtain rfl := he
      have hlt := (List.getElem?_eq_some_iff.mp hget).1
      apply work_set_lt rfl rfl rfl
      simp only [streamWork, (SourceState.task_eq_some.mp ht).2, taskWork, Option.toList_none,
        Option.toList_some, List.length_nil, List.length_singleton]
      omega
  | takeCreate j client command sendOrder ht hget hk =>
      obtain rfl := he
      have hlt := (List.getElem?_eq_some_iff.mp hget).1
      apply work_set_lt rfl rfl rfl
      simp only [streamWork, taskWork]
      omega
  | zip j client i url ht =>
      obtain rfl := he
      apply work_set_lt rfl rfl rfl
      simp [streamWork, (SourceState.task_eq_some.mp ht).2, taskWork]
  | connectFailed j client url err ht =>
      obtain ⟨rfl, -⟩ := he
      apply work_set_lt rfl rfl rfl
      simp [streamWork, (SourceState.task_eq_some.mp ht).2, taskWork]
  | connected j client url stableId ht =>
      obtain ⟨-, err, herr⟩ := he
      cases herr
  | yieldSession j session url ht =>
      obtain rfl := he
      apply work_set_lt rfl rfl rfl
      simp [streamWork, (SourceState.task_eq_some.mp ht).2, taskWork]
  | yieldStream j id method sessionId ht hm =>
      obtain rfl := he
      apply work_set_lt rfl rfl rfl
      simp [streamWork, (SourceState.task_eq_some.mp ht).2, taskWork]
  | yieldOther j item ht hn =>
      obtain rfl := he
      apply work_set_lt rfl rfl rfl
      simp [streamWork, (SourceState.task_eq_some.mp ht).2, taskWork]
  | _ => cases he

/-- What the driver and the first stream do leaves less to do. -/
theorem work_lt [DecidableEq F] {s t : DriverState F} {e : DriverEvent F} (he : internal e)
    (hs : Step s e t) :
  work t < work s
  := by
  cases hs with
  | taken f result hf hl hget ht => simp [work, received, hl, ConfigureLoop.reserved]
  | configured f hf hl hget ht =>
      have hlt := (List.getElem?_eq_some_iff.mp hget).1
      rw [received] at hlt
      simp only [work, received, hl, ConfigureLoop.reserved, List.length_nil, List.length_singleton,
        reduceCtorEq, if_false]
      omega
  | configureFailed f err hl hget ht => cases he
  | default hl hd => cases he
  | defaultFailed err => cases he
  | send client channel hf hl hc =>
      obtain ⟨-, -, hq, -⟩ := Mpsc.reserve_eq_some.mp hc
      simp only [work, received, hl, hq, ConfigureLoop.reserved, List.length_append, List.length_nil,
        List.length_singleton, reduceCtorEq, if_false]
      omega
  | recv j establish client channel ht hm hc hn =>
      obtain rfl := he
      obtain ⟨hq, -⟩ := Mpsc.recv_eq_some.mp hc
      simp only [work, received, streamWork, hq, hn, List.length_append, List.length_cons,
        List.length_nil]
      omega
  | source e source he' hs => exact work_source_lt he hs

/-- The tasks of a stream of sessions that makes no connection. -/
def Unconnected : SourceTask → Prop
  | .next _ _ => True
  | .connect _ _ => True
  | .item _ => True
  | _ => False

/-- The first stream is one of sessions.  It has been obtained before the sink has yielded some
commands, which are all that the sink has yielded, the first `i` of which the driver has missed, and
it makes no connection. -/
structure FirstStream (commands : List (WebTransportCommand F)) (i : ℕ) (source : SourceState F) :
    Prop where
  sink : source.sink = commands
  start : source.start = some i
  count : 0 < source.count
  method : (source.streams 0).method = .sessionReady
  task : Unconnected (source.streams 0).task
  paced : (source.streams 0).Paced 0 source.sink
  behind : (source.streams 0).nextClient ≤ source.clients.length
  failed : source.failed = none

theorem FirstStream.ofSink (commands : List (WebTransportCommand F)) (i : ℕ) :
  FirstStream commands i (ofSink commands (some i)).source
  := by
  refine ⟨rfl, rfl, Nat.one_pos, rfl, trivial, ⟨Nat.zero_le _, fun _ _ => ⟨0, 0, rfl, rfl⟩⟩,
    Nat.le_refl 0, rfl⟩

/-- The first stream may go on at its pace while the rest of the source stays as it is. -/
theorem FirstStream.set {commands : List (WebTransportCommand F)} {i : ℕ} {source s' : SourceState F}
    {r : SourceStream} (h : FirstStream commands i source)
    (hpaced : ((s'.set 0 r).streams 0).Paced 0 (s'.set 0 r).sink) (hsink : s'.sink = source.sink)
    (hstart : s'.start = source.start) (hcount : s'.count = source.count)
    (hclients : s'.clients = source.clients)
    (hfailed : s'.failed = source.failed) (hmethod : r.method = (source.streams 0).method)
    (htask : Unconnected r.task) (hbehind : r.nextClient ≤ source.clients.length) :
  FirstStream commands i (s'.set 0 r)
  := by
  refine ⟨hsink.trans h.sink, hstart.trans h.start, ?_, ?_, ?_, hpaced, ?_, hfailed.trans h.failed⟩
  · change 0 < s'.count
    rw [hcount]
    exact h.count
  · rw [SourceState.set_streams_self, hmethod]
    exact h.method
  · rw [SourceState.set_streams_self]
    exact htask
  · rw [SourceState.set_streams_self]
    change _ ≤ s'.clients.length
    rw [hclients]
    exact hbehind

/-- What the first stream does keeps it as it is. -/
theorem FirstStream.step {commands : List (WebTransportCommand F)} {i : ℕ}
    {source source' : SourceState F} {e : SourceEvent F} (h : FirstStream commands i source)
    (he : internal (.source e))
    (hs : (SourceState.machine F).step source e = some source') :
  FirstStream commands i source'
  := by
  have hpaced := SourceState.paced_step h.count h.paced hs
  by_cases hpoll : e = .pollCommand 0
  · subst hpoll
    change source.step (.pollCommand 0) = some source' at hs
    simp only [SourceState.step] at hs
    split at hs
    · rename_i client ht
      rw [SourceState.pollCommand, h.method] at hs
      split at hs
      · split at hs <;> cases hs
        · exact h.set hpaced rfl rfl rfl rfl rfl rfl trivial h.behind
        · exact h.set hpaced rfl rfl rfl rfl rfl rfl h.task h.behind
      · cases ‹SourceMethod.sessionReady = _›
      · cases hs
    · cases hs
  · cases SourceState.step_of_machine hs with
    | pollClient j client establish ht hget =>
        obtain rfl := he
        exact h.set hpaced rfl rfl rfl rfl rfl rfl trivial (List.getElem?_eq_some_iff.mp hget).1
    | zip j client i url ht =>
        obtain rfl := he
        exact h.set hpaced rfl rfl rfl rfl rfl rfl trivial h.behind
    | connectFailed j client url err ht =>
        obtain ⟨rfl, -⟩ := he
        exact h.set hpaced rfl rfl rfl rfl rfl rfl trivial h.behind
    | connected j client url stableId ht =>
        obtain ⟨-, err, herr⟩ := he
        cases herr
    | yieldSession j session url ht =>
        obtain rfl := he
        exact h.set hpaced rfl rfl rfl rfl rfl rfl trivial h.behind
    | yieldStream j id method sessionId ht hm =>
        obtain rfl := he
        exact h.set hpaced rfl rfl rfl rfl rfl rfl trivial h.behind
    | yieldOther j item ht hn =>
        obtain rfl := he
        exact h.set hpaced rfl rfl rfl rfl rfl rfl trivial h.behind
    | skip j =>
        obtain rfl := he
        cases hpoll rfl
    | takeEstablish j =>
        obtain rfl := he
        cases hpoll rfl
    | takeCreate j =>
        obtain rfl := he
        cases hpoll rfl
    | _ => cases he

/-- What holds while only the driver and the first stream go on: the functions that have been
handled have been taken, and are distinct as long as the loop has not panicked. -/
structure Alone (commands : List (WebTransportCommand F)) (i : ℕ) (s : DriverState F) : Prop where
  stream : FirstStream commands i s.source
  default : s.default = false
  taken : ∀ f ∈ (configureClientFns (commands.drop i)).take s.configured, f ∈ s.taken
  nodup : s.loop ≠ .panicked →
    ((configureClientFns (commands.drop i)).take s.configured).Nodup

/-- The driver receives the commands that it has not missed. -/
theorem Alone.received {commands : List (WebTransportCommand F)} {i : ℕ} {s : DriverState F}
    (h : Alone commands i s) :
  s.received = commands.drop i
  := by
  rw [DriverState.received, h.stream.sink, h.stream.start]
  rfl

theorem Alone.ofSink (commands : List (WebTransportCommand F)) (i : ℕ) :
  Alone commands i (ofSink commands (some i))
  := by
  refine ⟨FirstStream.ofSink commands i, rfl, ?_, fun _ => List.nodup_nil⟩
  intro f hmem
  cases hmem

theorem Alone.step [DecidableEq F] {commands : List (WebTransportCommand F)} {i : ℕ}
    {s t : DriverState F} {e : DriverEvent F} (h : Alone commands i s) (he : internal e)
    (hs : Step s e t) :
  Alone commands i t
  := by
  cases hs with
  | taken f result hf hl hget ht => exact ⟨h.stream, h.default, h.taken, fun hn => absurd rfl hn⟩
  | configured f hf hl hget ht =>
      rw [h.received] at hget
      refine ⟨h.stream, h.default, ?_, fun _ => ?_⟩
      · intro f' hmem
        rw [List.take_add_one, hget, List.mem_append] at hmem
        rcases hmem with hmem | hmem
        · exact List.mem_cons_of_mem _ (h.taken f' hmem)
        · cases List.mem_singleton.mp hmem
          exact List.mem_cons_self
      · rw [List.take_add_one, hget, Option.toList_some, List.nodup_append_comm]
        apply List.nodup_cons.mpr
        constructor
        · exact fun hmem => ht (h.taken f hmem)
        · apply h.nodup
          rw [hl]
          exact ConfigureLoop.noConfusion
  | configureFailed f err hl hget ht => cases he
  | default hl hd => cases he
  | defaultFailed err => cases he
  | send client channel hf hl hc =>
      refine ⟨h.stream, h.default, h.taken, fun _ => h.nodup ?_⟩
      rw [hl]
      exact ConfigureLoop.noConfusion
  | recv j establish client channel ht hm hc hn =>
      obtain ⟨hsink, hstart, hcount, hmethod, htask, hpaced, hbehind, hfailed⟩ := h.stream
      refine ⟨⟨hsink, hstart, hcount, hmethod, htask, hpaced, ?_, hfailed⟩, h.default, h.taken, h.nodup⟩
      dsimp only
      rw [List.length_append]
      apply Nat.le_add_right_of_le hbehind
  | source e source he' hs => exact ⟨h.stream.step he hs, h.default, h.taken, h.nodup⟩

/-- In a quiescent state the source makes no event of its own. -/
theorem step_source_of_quiescent [DecidableEq F] {s : DriverState F}
    (hq : (machine F).Quiescent internal s) {e : SourceEvent F} (he : internal (.source e))
    (hsends : e.sendsClient = false) :
  s.source.step e = none
  := by
  have hnone := hq (.source e) he
  simpa [machine, DriverState.step, hsends] using hnone

/-- In a quiescent state in which the channel has a client, the first stream does not await one. -/
theorem Alone.exists_client [DecidableEq F] {commands : List (WebTransportCommand F)} {i : ℕ}
    {s : DriverState F} (h : Alone commands i s) (hq : (machine F).Quiescent internal s)
    (hqueue : s.channel.queue ≠ []) {client : Option Client}
    {establish : Option (ℕ × Url)}
    (htask : s.source.task 0 = some (.next client establish)) :
  ∃ held, client = some held
  := by
  cases client with
  | some held => exact ⟨held, rfl⟩
  | none =>
      exfalso
      rcases Nat.lt_or_eq_of_le h.stream.behind with hlt | heq
      · have hget := List.getElem?_eq_getElem hlt
        have hnone := step_source_of_quiescent hq (e := .pollClient 0) rfl rfl
        simp [SourceState.step, htask, h.stream.method, hget] at hnone
      · obtain ⟨next, queue, hcons⟩ := List.exists_cons_of_ne_nil hqueue
        obtain ⟨channel, hrecv⟩ := Mpsc.exists_recv hcons
        have hnone := hq (.recv 0) rfl
        simp [machine, DriverState.step, htask, h.stream.method, hrecv, heq] at hnone

/-- In a quiescent state a first stream that holds a client has taken all commands, and holds none
of them. -/
theorem Alone.nextCommand_eq [DecidableEq F] {commands : List (WebTransportCommand F)} {i : ℕ}
    {s : DriverState F} (h : Alone commands i s) (hq : (machine F).Quiescent internal s)
    {held : Client} {establish : Option (ℕ × Url)}
    (htask : s.source.task 0 = some (.next (some held) establish)) :
  establish = none ∧ (s.source.streams 0).nextCommand = s.source.sink.length
  := by
  obtain rfl : establish = none := by
    cases establish with
    | none => rfl
    | some command =>
        have hnone := step_source_of_quiescent hq (e := .zip 0) rfl rfl
        simp [SourceState.step, htask] at hnone
  refine ⟨rfl, Nat.le_antisymm h.stream.paced.le ?_⟩
  by_contra hlt
  have hget := List.getElem?_eq_getElem (Nat.lt_of_not_le hlt)
  have hnone := step_source_of_quiescent hq (e := .pollCommand 0) rfl rfl
  simp only [SourceState.step, htask, SourceState.pollCommand, hget, h.stream.method] at hnone
  split at hnone <;> cases hnone

/-- In a quiescent state in which the channel has a client, the first stream has taken all commands,
and holds a client more. -/
theorem Alone.of_quiescent [DecidableEq F] {commands : List (WebTransportCommand F)} {i : ℕ}
    {s : DriverState F} (h : Alone commands i s) (hq : (machine F).Quiescent internal s)
    (hqueue : s.channel.queue ≠ []) :
  (s.source.streams 0).nextClient = sessions commands + 1
  := by
  cases ht : (s.source.streams 0).task with
  | next client establish =>
      have htask : s.source.task 0 = some (.next client establish) :=
        SourceState.task_eq_some.mpr ⟨h.stream.count, ht⟩
      obtain ⟨held, rfl⟩ := h.exists_client hq hqueue htask
      obtain ⟨rfl, hall⟩ := h.nextCommand_eq hq htask
      obtain ⟨c, e, hce, hbalance⟩ :=
        h.stream.paced.balance h.stream.method (by rw [ht]; exact SourceTask.noConfusion)
      rw [ht] at hce
      cases hce
      rw [hall, List.take_length, h.stream.sink] at hbalance
      exact hbalance
  | connect client url =>
      have hnone := step_source_of_quiescent hq (e := .connected 0 (.error "")) ⟨rfl, _, rfl⟩ rfl
      simp [SourceState.step, SourceState.task_eq_some.mpr ⟨h.stream.count, ht⟩] at hnone
  | item item =>
      have hnone := step_source_of_quiescent hq (e := .yield 0) rfl rfl
      simp [SourceState.step, SourceState.task_eq_some.mpr ⟨h.stream.count, ht⟩] at hnone
  | _ =>
      have htask := h.stream.task
      rw [ht] at htask
      cases htask

/-- When one of the first functions from some command on is given twice, the loop of the driver can
panic. -/
theorem exists_panicked [DecidableEq F] {commands : List (WebTransportCommand F)} {i : ℕ}
    (hi : i ≤ commands.length)
    (h : ¬ ((configureClientFns (commands.drop i)).take (takenLen commands)).Nodup) :
  ∃ tr s, (machine F).run (init F) tr = some s ∧ s.source.sink = commands ∧ s.loop = .panicked
  := by
  obtain ⟨tr, s, hinternal, hrun, hq⟩ := (machine F).exists_quiescent work
    (fun s e t he hs => work_lt he (step_of_machine hs)) (ofSink commands (some i))
  have hreach := (machine F).run_append (init F) (.source (.obtain .sessionReady) ::
    ((commands.take i).map (fun command => .source (.sink command)) ++ .source .start ::
      (commands.drop i).map fun command => .source (.sink command))) tr
  rw [run_ofSink hi, Option.bind_some, hrun] at hreach
  have halone : Alone commands i s := by
    refine (machine F).run_invariant_along (P := fun _ e => internal e) (Alone.ofSink commands i) ?_
      hrun (Machine.along_of_forall _ (fun e he _ => hinternal e he) _)
    intro s e t hs he ht
    exact hs.step he (step_of_machine ht)
  have hinv := Inv.of_run hreach
  refine ⟨_, s, hreach, halone.stream.sink, ?_⟩
  by_contra hl
  have hnodup := halone.nodup hl
  have hreceived := halone.received
  have hfailed := halone.stream.failed
  apply h
  cases hloop : s.loop with
  | panicked => cases hl hloop
  | next =>
      have hall : (configureClientFns (commands.drop i)).length ≤ s.configured := by
        by_contra hlt
        have hget := List.getElem?_eq_getElem (Nat.lt_of_not_le hlt)
        have hnone := hq (.configure (.ok ())) rfl
        simp only [machine, DriverState.step, configure, hfailed, hreceived, hloop, hget,
          if_true] at hnone
        split at hnone <;> cases hnone
      rw [List.take_of_length_le hall] at hnodup
      exact (List.take_sublist _ _).nodup hnodup
  | reserve client =>
      have hqueue : s.channel.queue ≠ [] := by
        intro hnil
        have hfree : s.channel.queue.length < clientBufferLen := by
          rw [hnil]
          exact Nat.one_pos
        obtain ⟨channel, hc⟩ := Mpsc.exists_reserve hinv.receiver hfree client
        have hnone := hq .send trivial
        simp [machine, DriverState.step, hfailed, hloop, hc] at hnone
      have hnext := halone.of_quiescent hq hqueue
      have hbehind := halone.stream.behind
      have hlen := List.length_pos_iff.mpr hqueue
      have hmade := hinv.made
      rw [hloop, halone.default] at hmade
      simp only [ConfigureLoop.reserved, List.length_singleton, Bool.toNat_false] at hmade
      have hle : takenLen commands ≤ s.configured := by
        rw [takenLen, clientBufferLen]
        omega
      exact (List.take_prefix_take_left hle).sublist.nodup hnodup

/-! ### When the commands cannot make it panic -/

/-- A command has been made with the conversions: its send order, if it has one, has been built from
a number. -/
def Built (command : WebTransportCommand F) : Prop :=
  ∀ sendOrder, sendOrderOf command = some sendOrder → ∃ n, SendOrder.Built sendOrder n

/-- The driver and the streams of the source do not panic on the first ones of some commands,
whatever happens, and the priority of a stream that is created is the number that its send order is
built from, unless this is zero. -/
structure NeverPanics [DecidableEq F] (commands : List (WebTransportCommand F)) : Prop where
  configure : ∀ tr s, (machine F).run (init F) tr = some s → s.source.sink <+: commands →
    s.loop ≠ .panicked
  sendOrder : ∀ tr s, (machine F).run (init F) tr = some s → s.source.sink <+: commands →
    ∀ j, (s.source.streams j).task ≠ .panicked
  priority : ∀ command ∈ commands, ∀ sendOrder, sendOrderOf command = some sendOrder →
    ∀ n, SendOrder.Built sendOrder n →
      n = 0 ∧ SendOrder.priority sendOrder = .unset ∨
        ∃ p, SendOrder.priority sendOrder = .set p ∧ p.toInt = n

/-- Commands that have been made with the conversions cannot make the driver or the streams of the
source panic exactly when none of the first functions is given twice, from whatever command on the
driver receives them.  Their number is that of the commands to establish a session, and three. -/
theorem neverPanics_iff_functions [DecidableEq F] {commands : List (WebTransportCommand F)}
    (hb : ∀ command ∈ commands, Built command) :
  NeverPanics commands ↔
    ∀ i, ((configureClientFns (commands.drop i)).take (takenLen commands)).Nodup
  := by
  constructor
  · intro h i
    by_contra hn
    have hi : i ≤ commands.length := by
      by_contra hlt
      rw [List.drop_of_length_le (Nat.le_of_not_le hlt)] at hn
      apply hn
      simp [configureClientFns]
    obtain ⟨tr, s, hrun, hsink, hpanicked⟩ := exists_panicked hi hn
    apply h.configure tr s hrun (hsink ▸ List.prefix_rfl) hpanicked
  · intro hn
    constructor
    · intro tr s hrun hpre hpanicked
      obtain ⟨i, hi⟩ := exists_heard_isPrefix s.source.sink s.source.start
      apply (Inv.of_run hrun).panicked hpanicked
      exact (take_configureClientFns hpre (hi.trans (hpre.drop i))).sublist.nodup (hn i)
    · intro tr s hrun hpre j hpanicked
      have hsink : s.source.SinkFits := by
        intro command hmem sendOrder horder
        obtain ⟨n, hbuilt⟩ := hb command (hpre.subset hmem) sendOrder horder
        exact hbuilt.le
      have hfits := fits_of_run hrun hsink j
      rw [hpanicked] at hfits
      exact hfits
    · intro command _ sendOrder _ n hbuilt
      exact hbuilt.priority_eq

/-- A command is cloned, and the second one of the two makes the driver panic. -/
theorem function_panics :
  ∃ s, (machine ℕ).run (init ℕ)
      [.source .start, .source (.sink (.configureClient 0)),
        .source (.sink (.configureClient 0)), .configure (.ok ()), .send,
        .configure (.ok ())] = some s ∧ s.loop = .panicked ∧
    ¬ NeverPanics [(.configureClient 0 : WebTransportCommand ℕ), .configureClient 0]
  := by
  refine ⟨_, rfl, rfl, fun h => ?_⟩
  apply h.configure [.source .start, .source (.sink (.configureClient 0)),
    .source (.sink (.configureClient 0)), .configure (.ok ()), .send, .configure (.ok ())] _ rfl
    List.prefix_rfl rfl

/-- Two clients are configured, each by a function of its own, and a stream is created with a send
order that is not the default one. -/
theorem two_functions :
  NeverPanics [(.configureClient 0 : WebTransportCommand ℕ), .configureClient 1,
    .createUniStream ⟨⟨0⟩, 7⟩]
  := by
  have hseven : SendOrder.Built 7 7 := SendOrder.Built.u32 7 7 (by decide)
  apply (neverPanics_iff_functions ?_).mpr
  · intro i
    have hnodup : (configureClientFns [(.configureClient 0 : WebTransportCommand ℕ),
        .configureClient 1, .createUniStream ⟨⟨0⟩, 7⟩]).Nodup := by decide
    apply List.Nodup.sublist ((List.take_sublist _ _).trans _) hnodup
    exact (List.drop_sublist i _).filterMap _
  · intro command hmem sendOrder horder
    simp only [List.mem_cons, List.not_mem_nil, or_false] at hmem
    rcases hmem with rfl | rfl | rfl
    · cases horder
    · cases horder
    · cases horder
      exact ⟨7, hseven⟩

end DriverState

end WebTransport

end Cyclers
