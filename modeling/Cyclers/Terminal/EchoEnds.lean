import Cyclers.Terminal.Echo

/-!
# The echo application ends

Each event of the echo application leaves less to do, since a command goes once round the circle,
and a line is read only for a command that has come to the driver.  And the application does not get
stuck: when the sink stream of its `main` awaits a line, the command to read it has been sent.
-/

open Async

namespace Cyclers

namespace Terminal

/-! ### How often the application goes on -/

/-- How much of a command to read a line is left to do, and the end of the commands. -/
def LinesTask.left : LinesTask → ℕ
  | .next => 1
  | .line => 2
  | _ => 0

/-- How often a stream of lines may go on by itself. -/
def LinesState.left (sink : List TerminalCommand) (l : LinesState) : ℕ :=
  2 * (sink.length - l.taken) + l.task.left

/-- How often a command may go on in a lane, and the ends of the lane. -/
def laneLeft (l : Lane TerminalCommand) : ℕ :=
  6 * l.proxy.held.length + 5 * l.channel.queue.length + (!l.proxy.isEnded).toNat +
    l.channel.receiver.toNat

/-- How often the driver with its stream of lines may go on. -/
def TerminalState.left (s : TerminalState) : ℕ :=
  s.run.left s.sink + s.lines.left s.sink + (!s.sinkEnded).toNat

namespace TerminalState

variable {io : Stdio} {s t : TerminalState} {e : TerminalEvent}

theorem left_command {command : TerminalCommand} (h : s.step io (.command command) = some t) :
  t.left ≤ s.left + 4
  := by
  obtain ⟨-, rfl⟩ := step_command h
  simp only [left, RunState.left, LinesState.left, List.length_append, List.length_singleton]
  omega

theorem left_sinkEnd (h : s.step io .sinkEnd = some t) :
  t.left < s.left
  := by
  obtain ⟨hopen, rfl⟩ := step_sinkEnd h
  simp [left, hopen]

theorem left_run (he : e.OfRun) (h : s.step io e = some t) :
  t.left < s.left
  := by
  rcases he with rfl | rfl <;> obtain ⟨run, hrun, rfl⟩ := Option.map_eq_some_iff.mp h
  · have hlt := RunState.left_next hrun
    simp only [left]
    omega
  · have hlt := @RunState.left_done io s.sink s.run run hrun
    simp only [left]
    omega

end TerminalState

/-- An event of the lane leaves less to do in it, but for a poll of the receiver that gives nothing
and for an item that is pulled from the sink stream. -/
theorem laneLeft_step {l l' : Lane TerminalCommand} {e : LaneEvent TerminalCommand BoxError}
    {p : Poll (Option (Except BoxError Unit))} (h : Lane.Step l e l' p) :
  match e with
  | .sink (some _) => laneLeft l' ≤ laneLeft l + 6
  | .recv => laneLeft l' ≤ laneLeft l
  | _ => laneLeft l' < laneLeft l
  := by
  cases h with
  | pull x hp =>
      simp only [laneLeft, hp, ProxyState.held, ProxyState.isEnded, List.length_nil,
        List.length_singleton]
      omega
  | fail err hp => exact Nat.le_add_right _ 6
  | finish hp =>
      simp only [laneLeft, hp, ProxyState.held, ProxyState.isEnded, Lane.finish,
        Mpsc.queue_dropSender, Mpsc.receiver_dropSender, Bool.not_true, Bool.not_false,
        Bool.toNat_true, Bool.toNat_false]
      omega
  | send x c hp hc =>
      obtain ⟨hr, -, hq, -, hr'⟩ := Mpsc.reserve_eq_some.mp hc
      simp only [laneLeft, hp, hq, hr, hr', ProxyState.held, ProxyState.isEnded, List.length_nil,
        List.length_append, List.length_singleton]
      omega
  | disconnect x hp hr =>
      simp only [laneLeft, hp, ProxyState.held, ProxyState.isEnded, Lane.finish,
        Mpsc.queue_dropSender, Mpsc.receiver_dropSender, List.length_nil, List.length_singleton,
        Bool.not_true, Bool.not_false, Bool.toNat_true, Bool.toNat_false]
      omega
  | recv x c hr hc =>
      obtain ⟨hq, -, hr'⟩ := Mpsc.recv_eq_some.mp hc
      simp only [laneLeft, hq, hr', List.length_cons]
      omega
  | eos hr hc => exact Nat.le_refl _
  | drop hr =>
      simp only [laneLeft, hr, Mpsc.queue_dropReceiver, Mpsc.receiver_dropReceiver,
        List.length_nil, Bool.toNat_true, Bool.toNat_false]
      omega

/-- A command that is received leaves the lane. -/
theorem laneLeft_recv {l l' : Lane TerminalCommand} {p : Poll (Option (Except BoxError Unit))}
    (h : Lane.Step l .recv l' p) {command : TerminalCommand}
    {c : Mpsc TerminalCommand sinkProxyBufferLen}
    (hc : l.channel.recv = .ready (some (command, c))) :
  laneLeft l' + 5 = laneLeft l
  := by
  cases h with
  | recv x c' hr hc' =>
      obtain ⟨hq, -, hr'⟩ := Mpsc.recv_eq_some.mp hc'
      simp only [laneLeft, hq, hr', List.length_cons]
      omega
  | eos hr hc' =>
      rw [hc] at hc'
      cases hc'

namespace EchoSink

variable {io : Stdio} {s t : Application EchoSink}

/-- How often the application may go on. -/
def left (io : Stdio) (s : Application EchoSink) : ℕ :=
  7 * (s.main.once.toNat + s.main.iter.length +
      2 * (io.lines.length - s.terminal.lines.items.length)) +
    laneLeft s.lane + s.terminal.left

/-- The stream of lines goes on, and leaves less to do. -/
theorem left_takeLine (hpolls : main.polls s = true) {e : TerminalEvent} {terminal : TerminalState}
    (he : e.OfLines) (hterminal : s.terminal.step io e = some terminal) :
  left io (main.takeLine s terminal) < left io s
  := by
  obtain ⟨-, hmain⟩ := of_polls hpolls
  rcases Main.takeLine_cases he hterminal main with ⟨command, htask, hget, htake⟩ |
    ⟨line, htask, hget, htake⟩ | ⟨hend, htake⟩
  · have hlt : s.terminal.lines.taken < s.terminal.sink.length :=
      (List.getElem?_eq_some_iff.mp hget).1
    have hitems : (s.terminal.lines.take command).items = s.terminal.lines.items := by
      cases command <;> rfl
    have hleft : (s.terminal.lines.take command).left s.terminal.sink <
        s.terminal.lines.left s.terminal.sink := by
      have htaken : (s.terminal.lines.take command).taken = s.terminal.lines.taken + 1 := by
        cases command <;> rfl
      have htask' : (s.terminal.lines.take command).task.left ≤ 2 := by
        cases (s.terminal.lines.take command).task <;> simp [LinesTask.left]
      rw [LinesState.left, LinesState.left, htaken, htask, LinesTask.left]
      omega
    rw [htake]
    simp only [left, Application.lane, TerminalState.left, hitems]
    omega
  · have hlt : s.terminal.lines.items.length < io.lines.length :=
      (List.getElem?_eq_some_iff.mp hget).1
    rw [htake, hmain]
    simp only [left, Application.lane, TerminalState.left, LinesState.left, hmain, htask, LinesTask.left,
      List.length_append, List.length_singleton]
    change 7 * (0 + 2 + _) + _ + _ < 7 * (0 + 0 + _) + _ + _
    omega
  · have htask : 1 ≤ s.terminal.lines.task.left := by
      rcases hend with ⟨htask, -⟩ | ⟨htask, -⟩ <;> simp [htask, LinesTask.left]
    have hended : LinesTask.left .ended = 0 := rfl
    rw [htake, hmain]
    simp only [left, Application.lane, TerminalState.left, LinesState.left, hmain, hended]
    change 7 * (0 + 0 + _) + _ + _ < 7 * (0 + 0 + _) + _ + _
    omega

/-- Each event leaves less to do. -/
theorem left_lt {e : ApplicationEvent} (h : (main.machine io).step s e = some t) :
  left io t < left io s
  := by
  have hgoes := (Main.goes_of_step h).2
  generalize e.shows = shown at hgoes
  cases hgoes with
  | sink item main run hpoll hrun =>
      obtain ⟨p, hlane, -, -⟩ := RunFuture.lane_cases hrun
      have hlt := laneLeft_step hlane
      rcases poll_cases hpoll with ⟨honce, rfl, rfl⟩ | ⟨x, iter, hmain, rfl, rfl⟩ | ⟨-, rfl, rfl⟩
      · simp only [left, Application.lane, honce, Bool.toNat_true, Bool.toNat_false]
        omega
      · have hlen : s.main.iter.length = iter.length + 1 := by rw [hmain, List.length_cons]
        simp only [left, Application.lane, hlen, Bool.toNat_false]
        omega
      · simp only [left, Application.lane]
        omega
  | reserve run hrun =>
      obtain ⟨p, hlane, -, -⟩ := RunFuture.lane_cases hrun
      have hlt : laneLeft (run.lanes 0) < laneLeft (s.run.lanes 0) := laneLeft_step hlane
      simp only [left, Application.lane]
      omega
  | recv command c run terminal hrecv hrun hterminal =>
      obtain ⟨p, hlane, -, -⟩ := RunFuture.lane_cases hrun
      have hlt := laneLeft_recv hlane hrecv
      have hle := TerminalState.left_command hterminal
      obtain ⟨-, rfl⟩ := TerminalState.step_command hterminal
      simp only [left, Application.lane]
      omega
  | eos run terminal hrecv hrun hterminal =>
      obtain ⟨p, hlane, -, -⟩ := RunFuture.lane_cases hrun
      have hle : laneLeft (run.lanes 0) ≤ laneLeft (s.run.lanes 0) := laneLeft_step hlane
      have hlt := TerminalState.left_sinkEnd hterminal
      obtain ⟨-, rfl⟩ := TerminalState.step_sinkEnd hterminal
      simp only [left, Application.lane]
      omega
  | drop result run hloop hrun =>
      obtain ⟨p, hlane, -, -⟩ := RunFuture.lane_cases hrun
      have hlt : laneLeft (run.lanes 0) < laneLeft (s.run.lanes 0) := laneLeft_step hlane
      simp only [left, Application.lane]
      omega
  | turn e terminal he hterminal hloop =>
      have hlt := TerminalState.left_run he hterminal
      obtain ⟨-, -, hlines, -⟩ := TerminalState.step_run he hterminal
      simp only [left, Application.lane, hlines]
      omega
  | exit e terminal result run he hterminal hloop hrun =>
      have hlt := TerminalState.left_run he hterminal
      obtain ⟨-, -, hlines, -⟩ := TerminalState.step_run he hterminal
      obtain ⟨hlanes, -, -⟩ := RunFuture.driver_cases hrun
      simp only [left, Application.lane, hlines, hlanes]
      omega
  | lines e terminal he hpolls hterminal => apply left_takeLine hpolls he hterminal

/-! ### The application does not get stuck -/

/-- While there is no outcome a run loop that cannot go on awaits a command. -/
theorem awaits_of_stuck {tr : List ApplicationEvent}
    (hr : (main.machine io).run main.setup tr = some s) (ho : s.run.outcome = none)
    (hturn : ∀ e, TerminalEvent.OfRun e → s.terminal.step io e = none) :
  s.terminal.run.loop = .next ∧ s.terminal.run.awaits s.terminal.sink = true ∧
    s.terminal.sinkEnded = false
  := by
  have hinv := Inv.of_run hr
  have hfollows := (Main.follows_of_run hr).run
  have hnext := Option.map_eq_none_iff.mp (hturn .runNext (Or.inl rfl))
  have hdone := Option.map_eq_none_iff.mp (hturn .outputDone (Or.inr rfl))
  have htells := hfollows.loop
  cases hloop : s.terminal.run.loop with
  | next =>
      rw [RunState.next, if_pos hloop] at hnext
      split at hnext
      · cases hnext
      · rename_i hget
        have htaken := Nat.le_antisymm hfollows.taken_le (List.getElem?_eq_none_iff.mp hget)
        refine ⟨rfl, decide_eq_true ⟨hloop, htaken⟩, ?_⟩
        cases hended : s.terminal.sinkEnded with
        | false => rfl
        | true =>
            rw [hended] at hnext
            cases hnext
  | output op =>
      rw [RunState.done, hloop] at hdone
      dsimp only at hdone
      split at hdone <;> cases hdone
  | returned result =>
      obtain ⟨tr', hrun, -, -⟩ := Main.exists_inv hr
      have ha : s.run.aggregate = .ret result := by
        rw [(Main.Tied.of_run hr).aggregate, hloop]
        rfl
      rcases Cyclers.RunState.outcome_eq_none.mp ho with ⟨hnot, -⟩ | ⟨⟨v, hv⟩, hp⟩
      · cases ha.symm.trans hnot
      · cases ha.symm.trans hv
        obtain ⟨i, hi⟩ := hrun.going hp
        obtain rfl := Fin.fin_one_eq_zero i
        cases hi (proxy_of_sinkEnded hr (hinv.returned_ok hr hloop).2.1)
  | unreachable =>
      rw [hloop] at htells
      cases htells

/-- When the driver has received all that the sink stream has yielded, and the sink stream awaits a
line, the stream of lines has been sent the command to read it. -/
theorem Inv.reads_eq {items : List (Except BoxError TerminalCommand)} (h : Inv io items s)
    (ho : s.run.outcome = none) (hmain : s.main = ⟨false, [], false⟩)
    (hsink : s.terminal.sink = commands items) :
  s.terminal.sink.count .readLine = s.terminal.lines.items.length + 1
  := by
  have hyields := h.yields (by rw [hmain])
  rw [hmain, List.append_nil] at hyields
  have herror := h.no_error ho
  rw [hyields] at herror
  obtain ⟨hitems, hcommands⟩ := script_ok herror
  have hlength := congrArg List.length hitems
  rw [List.length_map] at hlength
  rw [hsink, hyields, hcommands, hlength, List.count_cons_self]
  congr 1
  induction texts s.terminal.lines.items with
  | nil => rfl
  | cons text texts ih =>
      rw [echoes, List.flatMap_cons, List.count_append]
      exact (congrArg (1 + ·) ih).trans (Nat.add_comm 1 _)

/-- A state in which the application has no outcome is not the last one: whatever the driver, its
stream of lines, the proxy channel and the sink stream await, one of the others can give. -/
theorem exists_step {tr : List ApplicationEvent} (hr : (main.machine io).run main.setup tr = some s)
    (ho : s.run.outcome = none) :
  ∃ e t, (main.machine io).step s e = some t
  := by
  by_cases hturn : ∀ e, TerminalEvent.OfRun e → s.terminal.step io e = none
  · have hinv := Inv.of_run hr
    have hfollows := (Main.follows_of_run hr).lines
    obtain ⟨tr', hrun, hlane, hitems⟩ := Main.exists_inv hr
    obtain ⟨hloop, hawaits, hopen⟩ := awaits_of_stuck hr ho hturn
    have hreceiver : (s.run.lanes 0).channel.receiver = true := by
      cases hreceiver : (s.run.lanes 0).channel.receiver with
      | true => rfl
      | false =>
          obtain ⟨result, hreturned⟩ := hinv.alive hreceiver
          cases hloop.symm.trans hreturned
    cases hqueue : (s.run.lanes 0).channel.queue with
    | cons command queue =>
        obtain ⟨c, hc⟩ := Mpsc.exists_recv hqueue
        apply Main.exists_recv ho hopen hawaits hreceiver
        rw [hc]
        intro hpending
        cases hpending
    | nil =>
        cases hproxy : (s.run.lanes 0).proxy with
        | reserve command => apply Main.exists_reserve ho hproxy hreceiver hqueue
        | ended =>
            -- The sender has been dropped, so that the receiver sees the end of the channel.
            have hsender : (s.run.lanes 0).channel.sender = false := by
              cases hsender : (s.run.lanes 0).channel.sender with
              | false => rfl
              | true => cases hlane.sender.mp hsender hproxy
            apply Main.exists_recv ho hopen hawaits hreceiver
            rw [Mpsc.recv_eq_none.mpr ⟨hqueue, hsender⟩]
            intro hpending
            cases hpending
        | next =>
            cases hpoll : main.poll s.main with
            | some yields => apply Main.exists_sink ho hproxy hpoll
            | none =>
                have hmain := poll_eq_none.mp hpoll
                have hpolls : main.polls s = true :=
                  decide_eq_true ⟨hproxy, Option.isNone_iff_eq_none.mpr hpoll⟩
                have hsink : s.terminal.sink = commands (yielded tr) := by
                  have halive := hlane.alive hreceiver
                  rw [hqueue, hproxy, (Main.Tied.of_run hr).received] at halive
                  rw [← hitems, halive]
                  exact (List.append_nil _).symm
                have hcount := hinv.reads_eq ho hmain hsink
                have htells := hfollows.task
                cases htask : s.terminal.lines.task with
                | next =>
                    -- All commands having been received, one is to read the next line.
                    have htaken : s.terminal.lines.taken < s.terminal.sink.length := by
                      apply Nat.lt_of_le_of_ne hfollows.taken_le
                      intro htaken
                      have hreads := hfollows.reads
                      rw [htaken, List.take_length, hcount] at hreads
                      rw [htask] at htells
                      exact absurd (hreads.symm.trans htells) (Nat.succ_ne_self _)
                    have hnext : s.terminal.lines.next s.terminal.sink s.terminal.sinkEnded =
                        some (s.terminal.lines.take s.terminal.sink[s.terminal.lines.taken]) := by
                      rw [LinesState.next, if_pos htask, List.getElem?_eq_getElem htaken]
                    apply Main.exists_takeLine ho hpolls (Or.inl rfl)
                    rw [TerminalState.step, hnext]
                    rfl
                | line =>
                    have hline : ∃ lines, s.terminal.lines.line io = some lines := by
                      rw [LinesState.line, if_pos htask]
                      split <;> exact ⟨_, rfl⟩
                    obtain ⟨lines, hlines⟩ := hline
                    apply Main.exists_takeLine ho hpolls (Or.inr rfl)
                    rw [TerminalState.step, hlines]
                    rfl
                | ended =>
                    have hended := hinv.ended.mpr htask
                    rw [hmain] at hended
                    cases hended
                | unreachable =>
                    rw [htask] at htells
                    cases htells
  · simp only [not_forall] at hturn
    obtain ⟨e, he, hstep⟩ := hturn
    obtain ⟨terminal, hterminal⟩ := Option.ne_none_iff_exists'.mp hstep
    apply Main.exists_turn hr ho he hterminal

/-- The echo application ends.  No run has more than `14` events for each line and `12` more, and a
state without an outcome is not the last one, so that every run that is not cut short comes to an
outcome; from every state one does. -/
theorem ends (io : Stdio) {tr : List ApplicationEvent} {s : Application EchoSink}
    (h : (main.machine io).run main.setup tr = some s) :
  tr.length ≤ 14 * io.lines.length + 12 ∧
    (s.run.outcome = none → ∃ e t, (main.machine io).step s e = some t) ∧
    ∃ tr' t o, (main.machine io).run s tr' = some t ∧ t.run.outcome = some o
  := by
  refine ⟨?_, exists_step h, ?_⟩
  · have hle := Machine.length_add_le (left io) (fun _ _ _ => left_lt) h
    have hsetup : left io main.setup = 7 * (1 + 0 + 2 * (io.lines.length - 0)) + 2 + 3 := rfl
    omega
  · obtain ⟨tr', t, hrun, ho⟩ := Machine.exists_run (m := main.machine io) (left io)
      (fun _ _ _ => left_lt) (P := fun s => ∃ tr, (main.machine io).run main.setup tr = some s)
      (Q := fun s => s.run.outcome ≠ none)
      (by
        rintro s e t ⟨tr, hr⟩ hs
        use tr ++ [e]
        rw [Machine.run_concat, hr]
        exact hs)
      (by
        rintro s ⟨tr, hr⟩ hstuck ho
        obtain ⟨e, t, ht⟩ := exists_step hr ho
        cases (hstuck e).symm.trans ht)
      ⟨tr, h⟩
    obtain ⟨o, ho⟩ := Option.ne_none_iff_exists'.mp ho
    exact ⟨tr', t, o, hrun, ho⟩

/-- A run in which one line is echoed. -/
theorem ends_one :
  ∃ s, (main.machine ⟨fun _ => .ok (), [.ok "a"]⟩).run main.setup
      [.sink (some (.ok .readLine)), .reserve, .recv, .linesNext, .line,
        .sink (some (.ok (.write "a\n"))), .reserve, .runNext, .recv, .runNext,
        .sink (some (.ok .readLine)), .reserve, .outputDone, .recv, .linesNext, .linesNext, .line,
        .sink none, .runNext, .recv, .runNext] = some s ∧
    s.run.outcome = some (.ok exitSuccess) ∧ 21 ≤ 14 * 1 + 12
  := by
  refine ⟨_, rfl, rfl, ?_⟩
  have hends := @ends ⟨fun _ => .ok (), [.ok "a"]⟩ [.sink (some (.ok .readLine)), .reserve, .recv,
    .linesNext, .line, .sink (some (.ok (.write "a\n"))), .reserve, .runNext, .recv, .runNext,
    .sink (some (.ok .readLine)), .reserve, .outputDone, .recv, .linesNext, .linesNext, .line,
    .sink none, .runNext, .recv, .runNext] _ rfl
  exact hends.1

end EchoSink

end Terminal

end Cyclers
