import Cyclers.Async.Mpsc
import Cyclers.Async.Subscriber
import Cyclers.Driver
import Cyclers.WebTransport.Command

/-!
# Establishing sessions

The clients that the driver makes reach the source through a channel, the commands to
establish a session through the shared sink.  `sessionReady` pairs the clients with the
commands by position: the first command with the first client, and so on.  Each client
therefore serves for one command only, and it is the client in force only when the numbers
of the commands of the two kinds keep in step.

The driver subscribes to the sink when it is polled for the first time.  A stream that is polled
before that takes commands from the sink that the driver never sees.
-/

open Async

namespace Cyclers

namespace WebTransport

universe u

variable {F : Type u}

/-- What a command of the WebTransport driver is for the client: a client that is configured
is used to establish sessions. -/
def clientUse : WebTransportCommand F → ClientUse Url
  | .configureClient _ => .configure
  | .establishSession command => .use command.url
  | _ => .other

/-- Buffer capacity for the channel of clients. -/
def clientBufferLen : ℕ := 1

/-- An item of `sessionReady`: the client that connected, the URL of the command, and how the
connection ended. -/
structure SessionReady where
  client : Client
  url : Url
  result : Except BoxError SessionId

/-- The driver, as far as it makes clients, and one stream `sessionReady`: the commands the
sink has yielded, and how many of them when the driver was polled for the first time, if it has
been; the number of commands handled that configure the client, whether the default client has been
made, and the client that awaits a permit; the channel; the number of commands taken that establish
a session; the items that await to be paired, the pair whose connection is awaited, and the items
yielded. -/
structure SessionState (F : Type u) where
  sink : List (WebTransportCommand F)
  start : Option ℕ
  configured : ℕ
  default : Bool
  reserve : Option Client
  channel : Mpsc Client clientBufferLen
  taken : ℕ
  client : Option Client
  establish : Option Url
  connect : Option (Client × Url)
  items : List SessionReady

/-- What happens: the sink yields a command; the driver is polled for the first time, which makes it
subscribe to the sink; the driver handles a command that configures the client, or makes the default
client, or is granted a permit to send a client; `sessionReady` receives a client, takes a command
that establishes a session, pairs the two and connects; the connection ends. -/
inductive SessionEvent (F : Type u) where
  | sink : WebTransportCommand F → SessionEvent F
  | start
  | configure
  | default
  | send
  | recvClient
  | takeEstablish
  | zip
  | connected : Except BoxError SessionId → SessionEvent F

/-- The URLs of the commands that establish a session, each with the number of commands before
it that configure the client. -/
def establishes (sink : List (WebTransportCommand F)) : List (ℕ × Url) :=
  uses (sink.map clientUse)

/-- The number of commands that configure the client. -/
def configureClients (sink : List (WebTransportCommand F)) : ℕ :=
  configures (sink.map clientUse)

namespace SessionState

/-- The sink has yielded nothing. -/
def init (F : Type u) : SessionState F where
  sink := []
  start := none
  configured := 0
  default := false
  reserve := none
  channel := Mpsc.channel Client clientBufferLen
  taken := 0
  client := none
  establish := none
  connect := none
  items := []

/-- The number of commands that configure the client and that the driver has missed. -/
def missedClients (s : SessionState F) : ℕ :=
  configureClients (missed s.sink s.start)

/-- One event.  The driver makes the default client only once it receives a command to establish a
session, and never once it receives one that configures the client. -/
def step (s : SessionState F) : SessionEvent F → Option (SessionState F)
  | .sink command => some { s with sink := s.sink ++ [command] }
  | .start => if s.start = none then some { s with start := some s.sink.length } else none
  | .configure =>
      if s.reserve = none ∧ s.configured < configureClients (heard s.sink s.start) then
        some { s with
          configured := s.configured + 1
          reserve := some (some (s.missedClients + s.configured)) }
      else none
  | .default =>
      if s.reserve = none ∧ s.default = false ∧ configureClients (heard s.sink s.start) = 0 ∧
          establishes (heard s.sink s.start) ≠ [] then
        some { s with default := true, reserve := some none }
      else none
  | .send =>
      match s.reserve with
      | none => none
      | some client =>
          match s.channel.reserve client with
          | .ready (some channel) => some { s with reserve := none, channel := channel }
          | _ => none
  | .recvClient =>
      if s.connect = none ∧ s.client = none then
        match s.channel.recv with
        | .ready (some (client, channel)) =>
            some { s with channel := channel, client := some client }
        | _ => none
      else none
  | .takeEstablish =>
      if s.connect = none ∧ s.establish = none then
        match (establishes s.sink)[s.taken]? with
        | some (_, url) => some { s with taken := s.taken + 1, establish := some url }
        | none => none
      else none
  | .zip =>
      match s.connect, s.client, s.establish with
      | none, some client, some url =>
          some { s with client := none, establish := none, connect := some (client, url) }
      | _, _, _ => none
  | .connected result =>
      match s.connect with
      | some (client, url) =>
          some { s with connect := none, items := s.items ++ [⟨client, url, result⟩] }
      | none => none

/-- The sessions being established as a machine. -/
def machine (F : Type u) : Machine (SessionState F) (SessionEvent F) where
  step := step

/-- The events, one case for each way one can happen. -/
inductive Step (s : SessionState F) : SessionEvent F → SessionState F → Prop where
  | sink (command : WebTransportCommand F) :
      Step s (.sink command) { s with sink := s.sink ++ [command] }
  | start : s.start = none → Step s .start { s with start := some s.sink.length }
  | configure : s.reserve = none → s.configured < configureClients (heard s.sink s.start) →
      Step s .configure { s with
        configured := s.configured + 1
        reserve := some (some (s.missedClients + s.configured)) }
  | default : s.reserve = none → s.default = false →
      configureClients (heard s.sink s.start) = 0 → establishes (heard s.sink s.start) ≠ [] →
      Step s .default { s with default := true, reserve := some none }
  | send (client : Client) (channel : Mpsc Client clientBufferLen) : s.reserve = some client →
      s.channel.reserve client = .ready (some channel) →
      Step s .send { s with reserve := none, channel := channel }
  | recvClient (client : Client) (channel : Mpsc Client clientBufferLen) : s.connect = none →
      s.client = none → s.channel.recv = .ready (some (client, channel)) →
      Step s .recvClient { s with channel := channel, client := some client }
  | takeEstablish (c : ℕ) (url : Url) : s.connect = none → s.establish = none →
      (establishes s.sink)[s.taken]? = some (c, url) →
      Step s .takeEstablish { s with taken := s.taken + 1, establish := some url }
  | zip (client : Client) (url : Url) : s.connect = none → s.client = some client →
      s.establish = some url →
      Step s .zip { s with client := none, establish := none, connect := some (client, url) }
  | connected (client : Client) (url : Url) (result : Except BoxError SessionId) :
      s.connect = some (client, url) →
      Step s (.connected result)
        { s with connect := none, items := s.items ++ [⟨client, url, result⟩] }

/-- The machine makes the steps of `Step`. -/
theorem step_of_machine {s t : SessionState F} {e : SessionEvent F}
    (h : (machine F).step s e = some t) :
  Step s e t
  := by
  change s.step e = some t at h
  cases e with
  | sink command =>
      obtain rfl := Option.some.inj h
      apply Step.sink
  | start =>
      simp only [step] at h
      split at h <;> cases h
      apply Step.start ‹_›
  | configure =>
      simp only [step] at h
      split at h <;> cases h
      obtain ⟨hr, hc⟩ := ‹_ ∧ _›
      apply Step.configure hr hc
  | default =>
      simp only [step] at h
      split at h <;> cases h
      obtain ⟨hr, hd, hc, hu⟩ := ‹_ ∧ _›
      apply Step.default hr hd hc hu
  | send =>
      simp only [step] at h
      split at h
      · cases h
      · split at h <;> cases h
        apply Step.send _ _ ‹_› ‹_›
  | recvClient =>
      simp only [step] at h
      split at h
      · obtain ⟨hc, hs⟩ := ‹_ ∧ _›
        split at h <;> cases h
        apply Step.recvClient _ _ hc hs ‹_›
      · cases h
  | takeEstablish =>
      simp only [step] at h
      split at h
      · obtain ⟨hc, hs⟩ := ‹_ ∧ _›
        split at h <;> cases h
        apply Step.takeEstablish _ _ hc hs ‹_›
      · cases h
  | zip =>
      simp only [step] at h
      split at h <;> cases h
      apply Step.zip _ _ ‹_› ‹_› ‹_›
  | connected result =>
      simp only [step] at h
      split at h <;> cases h
      apply Step.connected _ _ _ ‹_›

/-- The steps of `Step` are steps of the machine. -/
theorem Step.machine {s t : SessionState F} {e : SessionEvent F} (h : Step s e t) :
  (machine F).step s e = some t
  := by
  change s.step e = some t
  cases h with
  | sink command => rfl
  | start hn => exact if_pos hn
  | configure hr hc => exact if_pos ⟨hr, hc⟩
  | default hr hd hc hu => exact if_pos ⟨hr, hd, hc, hu⟩
  | send client channel hr hc => simp only [step, hr, hc]
  | recvClient client channel hc hn hr => simp only [step, hc, hn, hr, and_self, if_true]
  | takeEstablish c url hc hn hu => simp only [step, hc, hn, hu, and_self, if_true]
  | zip client url hc hcl he => simp only [step, hc, hcl, he]
  | connected client url result hc => simp only [step, hc]

/-! ### Which client serves which command -/

/-- The clients made, in the order they are made.  Those that are configured have the numbers of
their commands in the sink. -/
def made (s : SessionState F) : List Client :=
  (clientsMade s.default s.configured).map (Option.map (s.missedClients + ·))

/-- The invariant: the clients made are those of the items, then those on their way, in order,
and so are the commands taken.  The default client is made when there is a command to establish a
session before all that the driver receives to configure the client. -/
structure Inv (s : SessionState F) : Prop where
  clients : s.items.map SessionReady.client ++ ((s.connect.map Prod.fst).toList ++
    (s.client.toList ++ (s.channel.queue ++ s.reserve.toList))) = s.made
  urls : s.items.map SessionReady.url ++ ((s.connect.map Prod.snd).toList ++
    s.establish.toList) = ((establishes s.sink).take s.taken).map Prod.snd
  start : ∀ i, s.start = some i → i ≤ s.sink.length
  configured : s.configured ≤ configureClients (heard s.sink s.start)
  default : s.default = true → s.start ≠ none ∧
    ∃ (k : ℕ) (url : Url), (establishes s.sink)[k]? = some (s.missedClients, url)
  taken : s.taken ≤ (establishes s.sink).length
  receiver : s.channel.receiver = true

theorem Inv.init :
  Inv (init F)
  := by
  constructor <;> simp [SessionState.init, made, clientsMade]

/-- A command more in the sink comes after all others. -/
theorem establishes_append (sink : List (WebTransportCommand F))
    (command : WebTransportCommand F) :
  ∃ l, establishes (sink ++ [command]) = establishes sink ++ l
  := by
  simp only [establishes, List.map_append, List.map_cons, List.map_nil]
  cases clientUse command with
  | configure =>
      use []
      simp
  | use url => exact ⟨_, uses_use _ _⟩
  | other =>
      use []
      simp

theorem configureClients_append (sink sink' : List (WebTransportCommand F)) :
  configureClients (sink ++ sink') = configureClients sink + configureClients sink'
  := by
  rw [configureClients, List.map_append, configures_append]
  rfl

/-- The driver misses a command that configures the client, or receives it. -/
theorem configureClients_eq (s : SessionState F) :
  configureClients s.sink = s.missedClients + configureClients (heard s.sink s.start)
  := by
  rw [missedClients, ← configureClients_append, missed_append_heard]

/-- When the driver receives a command to establish a session, and none that configures the client,
there is one in the sink that comes right after those that the driver has missed. -/
theorem exists_establishes {s : SessionState F}
    (hc : configureClients (heard s.sink s.start) = 0)
    (hu : establishes (heard s.sink s.start) ≠ []) :
  ∃ (k : ℕ) (url : Url), (establishes s.sink)[k]? = some (s.missedClients, url)
  := by
  obtain ⟨url, hmem⟩ := exists_mem_usesFrom hc hu s.missedClients
  have hsplit : establishes s.sink = establishes (missed s.sink s.start) ++
      usesFrom s.missedClients ((heard s.sink s.start).map clientUse) := by
    rw [establishes, ← missed_append_heard s.sink s.start, List.map_append, uses, usesFrom_append,
      Nat.zero_add, missed_append_heard]
    rfl
  have hin : (s.missedClients, url) ∈ establishes s.sink := by
    rw [hsplit]
    apply List.mem_append_right _ hmem
  obtain ⟨k, hk⟩ := List.getElem?_of_mem hin
  use k, url

/-- A command more in the sink does not change how many the driver has missed once it is there. -/
theorem Inv.missedClients_sink {s : SessionState F} (h : Inv s) (hs : s.start ≠ none)
    (command : WebTransportCommand F) :
  missedClients { s with sink := s.sink ++ [command] } = s.missedClients
  := by
  obtain ⟨i, hi⟩ := Option.ne_none_iff_exists'.mp hs
  simp only [missedClients, hi]
  rw [missed_append (h.start i hi)]

/-- Nothing has been made before the driver is there. -/
theorem Inv.not_made {s : SessionState F} (h : Inv s) (hs : s.start = none) :
  s.configured = 0 ∧ s.default = false
  := by
  constructor
  · have hle := h.configured
    rw [hs] at hle
    exact Nat.le_zero.mp hle
  · rw [Bool.eq_false_iff]
    intro hd
    exact (h.default hd).1 hs

/-- A command more in the sink does not change the clients made. -/
theorem Inv.made_sink {s : SessionState F} (h : Inv s) (command : WebTransportCommand F) :
  made { s with sink := s.sink ++ [command] } = s.made
  := by
  by_cases hs : s.start = none
  · obtain ⟨hzero, hdefault⟩ := h.not_made hs
    simp [made, hzero, hdefault, clientsMade]
  · rw [made, made, h.missedClients_sink hs]

/-- A command more in the sink keeps the invariant. -/
theorem Inv.sink {s : SessionState F} (h : Inv s) (command : WebTransportCommand F) :
  Inv { s with sink := s.sink ++ [command] }
  := by
  obtain ⟨l, hl⟩ := establishes_append s.sink command
  refine ⟨h.clients.trans (h.made_sink command).symm, ?_, ?_, ?_, ?_, ?_, h.receiver⟩
  · rw [hl, List.take_append_of_le_length h.taken]
    exact h.urls
  · intro i hi
    rw [List.length_append]
    apply Nat.le_add_right_of_le (h.start i hi)
  · obtain ⟨rest, hrest⟩ := heard_isPrefix s.sink [command] s.start
    dsimp only
    rw [← hrest, configureClients_append]
    apply Nat.le_add_right_of_le h.configured
  · intro hd
    obtain ⟨hs, k, url, hk⟩ := h.default hd
    refine ⟨hs, k, url, ?_⟩
    rw [h.missedClients_sink hs, hl, List.getElem?_append_left (List.getElem?_eq_some_iff.mp hk).1]
    exact hk
  · rw [hl, List.length_append]
    apply Nat.le_add_right_of_le h.taken

/-- An event keeps the invariant. -/
theorem Inv.step {s t : SessionState F} {e : SessionEvent F} (h : Inv s) (hs : Step s e t) :
  Inv t
  := by
  have hinv := h
  obtain ⟨clients, urls, start, configured, default, taken, receiver⟩ := h
  cases hs with
  | sink command => exact hinv.sink command
  | start hn =>
      have hmissed : missed s.sink s.start = missed s.sink (some s.sink.length) := by
        rw [hn, missed_length]
        rfl
      refine ⟨?_, urls, ?_, ?_, ?_, taken, receiver⟩
      · rw [clients, made, made, missedClients, missedClients, hmissed]
      · rintro i ⟨⟩
        apply Nat.le_refl
      · rw [hn] at configured
        apply Nat.le_trans configured (Nat.zero_le _)
      · intro hd
        cases (default hd).1 hn
  | configure hr hc =>
      refine ⟨?_, urls, start, hc, default, taken, receiver⟩
      have hmade : s.made ++ [some (s.missedClients + s.configured)] =
          made { s with configured := s.configured + 1 } := by
        rw [made, made]
        dsimp only
        rw [clientsMade_configure, List.map_append]
        rfl
      change _ = made { s with configured := s.configured + 1 }
      rw [← hmade, ← clients, hr]
      simp
  | default hr hd hc hu =>
      have hn : s.start ≠ none := by
        intro hn
        rw [hn] at hu
        exact hu rfl
      refine ⟨?_, urls, start, configured, fun _ => ⟨hn, exists_establishes hc hu⟩, taken, receiver⟩
      have hzero : s.configured = 0 := by omega
      rw [hr, made, hd, hzero] at clients
      have hnil := List.append_eq_nil_iff.mp clients
      simp only [List.append_eq_nil_iff] at hnil
      simp [made, hzero, hnil, clientsMade, inForce]
  | send client channel hr hc =>
      obtain ⟨-, -, hq, -, hr'⟩ := Mpsc.reserve_eq_some.mp hc
      refine ⟨?_, urls, start, configured, default, taken, hr'⟩
      change _ = s.made
      rw [← clients, hr, hq]
      simp
  | recvClient client channel hc hn hr =>
      obtain ⟨hq, -, hr'⟩ := Mpsc.recv_eq_some.mp hr
      refine ⟨?_, urls, start, configured, default, taken, hr'.trans receiver⟩
      change _ = s.made
      rw [← clients, hn, hq]
      simp
  | takeEstablish c url hc hn hu =>
      have hlt := (List.getElem?_eq_some_iff.mp hu).1
      refine ⟨clients, ?_, start, configured, default, hlt, receiver⟩
      rw [List.take_add_one, hu, List.map_append, ← urls, hn]
      simp
  | zip client url hc hcl he =>
      refine ⟨?_, ?_, start, configured, default, taken, receiver⟩
      · change _ = s.made
        rw [← clients, hc, hcl]
        simp
      · rw [← urls, hc, he]
        simp
  | connected client url result hc =>
      refine ⟨?_, ?_, start, configured, default, taken, receiver⟩
      · change _ = s.made
        rw [← clients, hc]
        simp
      · rw [← urls, hc]
        simp

/-- The invariant holds of every state reached. -/
theorem Inv.of_run {tr : List (SessionEvent F)} {s : SessionState F}
    (h : (machine F).run (SessionState.init F) tr = some s) :
  Inv s
  := by
  apply (machine F).run_invariant Inv.init _ h
  intro s e t hs ht
  apply hs.step (step_of_machine ht)

/-- The item number `k` is made with the client number `k`. -/
theorem Inv.client {s : SessionState F} (h : Inv s) {k : ℕ} {item : SessionReady}
    (hk : s.items[k]? = some item) :
  item.client = (inForce (k + 1 - s.default.toNat)).map (s.missedClients + ·)
  := by
  have hlt := (List.getElem?_eq_some_iff.mp hk).1
  have hmade : s.made[k]? = some item.client := by
    rw [← h.clients, List.getElem?_append_left (by simpa using hlt), List.getElem?_map, hk]
    rfl
  rw [made, List.getElem?_map] at hmade
  obtain ⟨client, hclient, heq⟩ := Option.map_eq_some_iff.mp hmade
  rw [← heq, getElem?_clientsMade hclient]

/-- The client made as number `k` is in force after `c` commands that configure the client: it is
the default client, which is made first and is in force before all, or the commands missed and the
clients made before it add up to `c`. -/
theorem made_eq_inForce {k c m : ℕ} {default : Bool} :
  (inForce (k + 1 - default.toNat)).map (m + ·) = inForce c ↔
    (default = true ∧ k = 0 ∧ c = 0) ∨
      ((default = true → 0 < k) ∧ c + default.toNat = m + k + 1)
  := by
  cases default with
  | false =>
      rw [Bool.toNat_false, Nat.sub_zero]
      cases c with
      | zero => simp [inForce]
      | succ c =>
          simp only [inForce, Option.map_some, Option.some.injEq, Bool.false_eq_true, false_and,
            false_imp_iff, true_and, false_or]
          omega
  | true =>
      rw [Bool.toNat_true, Nat.add_sub_cancel]
      cases k with
      | zero => cases c <;> simp [inForce]
      | succ k =>
          cases c with
          | zero => simp [inForce]
          | succ c =>
              simp only [inForce, Option.map_some, Option.some.injEq]
              omega

/-- The item number `k` is made for the command number `k`. -/
theorem Inv.url {s : SessionState F} (h : Inv s) {k : ℕ} {item : SessionReady}
    (hk : s.items[k]? = some item) :
  ∃ c, (establishes s.sink)[k]? = some (c, item.url)
  := by
  have hlt := (List.getElem?_eq_some_iff.mp hk).1
  have hurl : (((establishes s.sink).take s.taken).map Prod.snd)[k]? = some item.url := by
    rw [← h.urls, List.getElem?_append_left (by simpa using hlt), List.getElem?_map, hk]
    rfl
  rw [List.getElem?_map] at hurl
  obtain ⟨⟨c, url⟩, hget, rfl⟩ := Option.map_eq_some_iff.mp hurl
  use c
  obtain ⟨hlt', heq⟩ := List.getElem?_eq_some_iff.mp hget
  rw [List.getElem_take] at heq
  rw [← heq]
  apply List.getElem?_eq_getElem

/-- No more items are yielded than there are commands to establish a session. -/
theorem Inv.length_le {s : SessionState F} (h : Inv s) :
  s.items.length ≤ (establishes s.sink).length
  := by
  have hlen := congrArg List.length h.urls
  simp only [List.length_append, List.length_map, List.length_take] at hlen
  omega

/-! ### Quiescent states -/

/-- The events that need nothing but the driver and `sessionReady`. -/
def internal : SessionEvent F → Prop
  | .start => True
  | .configure => True
  | .send => True
  | .recvClient => True
  | .takeEstablish => True
  | .zip => True
  | _ => False

/-- In a quiescent state in which no connection is awaited, no client is on its way unless
every command that establishes a session has been taken. -/
theorem Inv.of_quiescent {s : SessionState F} (h : Inv s)
    (hq : (machine F).Quiescent internal s) (hc : s.connect = none)
    (hlt : s.items.length < (establishes s.sink).length) :
  s.items.length = configureClients (heard s.sink s.start) + s.default.toNat
  := by
  have hurls := congrArg List.length h.urls
  have hclients := congrArg List.length h.clients
  have hclient : s.client = none := by
    cases hcl : s.client with
    | none => rfl
    | some client =>
        cases he : s.establish with
        | some url => cases hq.not_step _ (Step.zip client url hc hcl he).machine trivial
        | none =>
            have hlast : (establishes s.sink).length ≤ s.taken := by
              by_contra hlt
              have hget := List.getElem?_eq_getElem (Nat.lt_of_not_le hlt)
              apply hq.not_step _ (Step.takeEstablish _ _ hc he hget).machine trivial
            simp only [hc, he, List.length_append, List.length_map, List.length_take,
              Option.map_none, Option.toList_none, List.length_nil] at hurls
            omega
  have hqueue : s.channel.queue = [] := by
    cases hqu : s.channel.queue with
    | nil => rfl
    | cons client q =>
        obtain ⟨channel, hr⟩ := Mpsc.exists_recv hqu
        cases hq.not_step _ (Step.recvClient client channel hc hclient hr).machine trivial
  have hreserve : s.reserve = none := by
    cases hr : s.reserve with
    | none => rfl
    | some client =>
        have hfree : s.channel.queue.length < clientBufferLen := by
          rw [hqueue]
          exact Nat.one_pos
        obtain ⟨channel, hch⟩ := Mpsc.exists_reserve h.receiver hfree client
        cases hq.not_step _ (Step.send client channel hr hch).machine trivial
  have hconfigured : s.configured = configureClients (heard s.sink s.start) := by
    apply Nat.le_antisymm h.configured
    by_contra hlt
    apply hq.not_step _ (Step.configure hreserve (Nat.lt_of_not_le hlt)).machine trivial
  rw [hc, hclient, hqueue, hreserve, made, hconfigured] at hclients
  simpa [clientsMade] using hclients

/-- The commands to establish a session that the sink has yielded are answered: each with one
item, in order, made with its URL and the client in force. -/
def Answered (s : SessionState F) : Prop :=
  s.items.map (fun item => (item.client, item.url)) =
    (establishes s.sink).map fun use => (inForce use.1, use.2)

/-- The commands of the two kinds keep in step: the driver has missed none that configures the
client if it has made the default client; and the number of those that configure the client before
the `k`-th one that establishes a session, and the default client when it is made, add up to `k` and
the number of those that the driver has missed. -/
structure InStep (s : SessionState F) : Prop where
  default : s.default = true → s.missedClients = 0
  establish : ∀ (k c : ℕ) (url : Url), (establishes s.sink)[k]? = some (c, url) →
    c + s.default.toNat = s.missedClients + k + 1

/-- When the commands are in step the client made as number `k` is the one in force for the
command. -/
theorem InStep.client {s : SessionState F} (h : InStep s) {k c : ℕ} {url : Url}
    (hk : (establishes s.sink)[k]? = some (c, url)) :
  (inForce (k + 1 - s.default.toNat)).map (s.missedClients + ·) = inForce c
  := by
  have hc := h.establish k c url hk
  rw [made_eq_inForce]
  cases hd : s.default with
  | false =>
      rw [hd] at hc
      exact Or.inr ⟨fun ht => absurd ht Bool.false_ne_true, hc⟩
  | true =>
      have hzero := h.default hd
      rw [hd, Bool.toNat_true] at hc
      cases k with
      | zero =>
          left
          exact ⟨rfl, rfl, by omega⟩
      | succ k => exact Or.inr ⟨fun _ => Nat.succ_pos k, hc⟩

/-- What the items yielded are, when the commands are in step. -/
theorem Inv.getElem?_answers {s : SessionState F} (h : Inv s) (hin : InStep s) {k : ℕ}
    (hk : k < s.items.length) :
  (s.items.map fun item => (item.client, item.url))[k]? =
    ((establishes s.sink).map fun use => (inForce use.1, use.2))[k]?
  := by
  have hitem := List.getElem?_eq_getElem hk
  obtain ⟨c, hurl⟩ := h.url hitem
  rw [List.getElem?_map, List.getElem?_map, hitem, hurl, Option.map_some, Option.map_some,
    h.client hitem, hin.client hurl]

/-- While the commands are in step, the items yielded are the first answers. -/
theorem Inv.answers {s : SessionState F} (h : Inv s) (hin : InStep s) :
  s.items.map (fun item => (item.client, item.url)) <+:
    (establishes s.sink).map fun use => (inForce use.1, use.2)
  := by
  rw [List.prefix_iff_eq_take]
  apply List.ext_getElem?
  intro k
  rw [List.length_map]
  by_cases hk : k < s.items.length
  · rw [List.getElem?_take_of_lt hk]
    apply h.getElem?_answers hin hk
  · rw [List.getElem?_eq_none, List.getElem?_eq_none]
    · rw [List.length_take]
      omega
    · rw [List.length_map]
      omega

/-- When all commands are answered, each is with the client made with its number. -/
theorem Inv.made_of_answered {s : SessionState F} (h : Inv s) (ha : Answered s) {k c : ℕ} {url : Url}
    (hk : (establishes s.sink)[k]? = some (c, url)) :
  (inForce (k + 1 - s.default.toNat)).map (s.missedClients + ·) = inForce c
  := by
  have hget := congrArg (fun l => l[k]?) ha
  simp only [List.getElem?_map, hk, Option.map_some] at hget
  obtain ⟨item, hitem, heq⟩ := Option.map_eq_some_iff.mp hget
  rw [← h.client hitem]
  exact (Prod.mk.inj heq).1

/-- When all commands are answered they are in step. -/
theorem Inv.inStep {s : SessionState F} (h : Inv s) (ha : Answered s) :
  InStep s
  := by
  have hmade : ∀ {k c : ℕ} {url : Url}, (establishes s.sink)[k]? = some (c, url) →
      (inForce (k + 1 - s.default.toNat)).map (s.missedClients + ·) = inForce c :=
    h.made_of_answered ha
  -- The command for which the default client was made has none before it that the driver received.
  have hdefault : s.default = true → s.missedClients = 0 := by
    intro hd
    obtain ⟨-, k, url, hk⟩ := h.default hd
    have heq := hmade hk
    rw [made_eq_inForce, hd, Bool.toNat_true] at heq
    rcases heq with ⟨-, -, hzero⟩ | ⟨hpos, hsum⟩
    · exact hzero
    · have hk := hpos rfl
      omega
  refine ⟨hdefault, ?_⟩
  intro k c url hk
  have heq := hmade hk
  rw [made_eq_inForce] at heq
  rcases heq with ⟨hd, rfl, rfl⟩ | ⟨-, hsum⟩
  · rw [hd, hdefault hd]
    rfl
  · exact hsum

/-- When every command to establish a session is answered, with the client in force.  In every
state reached in which the commands are in step, the items yielded are the first of the answers
that are due; and in every quiescent state reached in which no connection is awaited, every
command is answered so exactly when the commands are in step. -/
theorem answered_iff_inStep {tr : List (SessionEvent F)} {s : SessionState F}
    (h : (machine F).run (SessionState.init F) tr = some s) :
  (InStep s → s.items.map (fun item => (item.client, item.url)) <+:
      (establishes s.sink).map fun use => (inForce use.1, use.2)) ∧
    ((machine F).Quiescent internal s → s.connect = none → (Answered s ↔ InStep s))
  := by
  have hinv := Inv.of_run h
  constructor
  · apply hinv.answers
  · intro hq hc
    constructor
    · apply hinv.inStep
    · intro hin
      apply (hinv.answers hin).eq_of_length
      rw [List.length_map, List.length_map]
      apply Nat.le_antisymm hinv.length_le
      by_contra hlt
      have hlen := hinv.of_quiescent hq hc (Nat.lt_of_not_le hlt)
      obtain ⟨n, hn⟩ : ∃ n, (establishes s.sink).length = n + 1 := by
        use (establishes s.sink).length - 1
        omega
      have hlast := List.getElem?_eq_getElem (l := establishes s.sink) (i := n) (by omega)
      have hstep := hin.establish n _ _ hlast
      have hle := le_configures (List.mem_of_getElem? hlast)
      change _ ≤ configureClients s.sink at hle
      rw [s.configureClients_eq] at hle
      omega

/-- One client is configured, and two sessions are to be established: the second command waits for a
second client, and nothing more happens.  When the driver is polled only after `sessionReady` has
taken the two commands, none of them is ever answered. -/
theorem second_not_answered :
  (∃ s, (machine Unit).run (SessionState.init Unit)
      [.start, .sink (.configureClient ()), .sink (.establishSession ⟨"https://a"⟩),
        .sink (.establishSession ⟨"https://b"⟩), .configure, .send, .recvClient, .takeEstablish,
        .zip, .connected (.ok ⟨1⟩), .takeEstablish] = some s ∧
    (machine Unit).Quiescent (fun e => internal e ∨ e = .default) s ∧ s.connect = none ∧
    establishes s.sink = [(1, "https://a"), (1, "https://b")] ∧
    s.items = [⟨some 0, "https://a", .ok ⟨1⟩⟩] ∧ ¬ Answered s) ∧
  ∃ s, (machine Unit).run (SessionState.init Unit)
      [.sink (.configureClient ()), .sink (.establishSession ⟨"https://a"⟩), .takeEstablish,
        .start] = some s ∧
    (machine Unit).Quiescent (fun e => internal e ∨ e = .default) s ∧ s.connect = none ∧
    establishes s.sink = [(1, "https://a")] ∧ s.items = [] ∧ ¬ Answered s
  := by
  refine ⟨⟨_, rfl, ?_, rfl, rfl, rfl, ?_⟩, _, rfl, ?_, rfl, rfl, rfl, ?_⟩
  · intro e he
    cases e with
    | sink command => rcases he with he | he <;> cases he
    | connected result => rcases he with he | he <;> cases he
    | _ => rfl
  · intro ha
    have hlen := congrArg List.length ha
    revert hlen
    decide
  · intro e he
    cases e with
    | sink command => rcases he with he | he <;> cases he
    | connected result => rcases he with he | he <;> cases he
    | _ => rfl
  · intro ha
    have hlen := congrArg List.length ha
    revert hlen
    decide

/-- Two clients are configured, and after each of them a session is established. -/
theorem first_answered :
  ∃ s, (machine Unit).run (SessionState.init Unit)
      [.start, .sink (.configureClient ()), .sink (.establishSession ⟨"https://a"⟩), .configure, .send,
        .recvClient, .takeEstablish, .zip, .sink (.configureClient ()),
        .sink (.establishSession ⟨"https://b"⟩), .configure, .send, .connected (.ok ⟨1⟩), .recvClient,
        .takeEstablish, .zip, .connected (.ok ⟨2⟩)] = some s ∧
    Answered s
  := by
  have h : (machine Unit).run (SessionState.init Unit)
      [.start, .sink (.configureClient ()), .sink (.establishSession ⟨"https://a"⟩), .configure, .send,
        .recvClient, .takeEstablish, .zip, .sink (.configureClient ()),
        .sink (.establishSession ⟨"https://b"⟩), .configure, .send, .connected (.ok ⟨1⟩), .recvClient,
        .takeEstablish, .zip, .connected (.ok ⟨2⟩)] = some _ := rfl
  refine ⟨_, h, ((answered_iff_inStep h).2 ?_ rfl).mpr ⟨fun hd => ?_, ?_⟩⟩
  · intro e he
    cases e with
    | sink command => cases he
    | connected result => cases he
    | _ => rfl
  · cases hd
  · intro k c url hk
    have hk : [(1, "https://a"), (2, "https://b")][k]? = some (c, url) := hk
    rcases k with _ | _ | k
    · cases hk
      rfl
    · cases hk
      rfl
    · cases hk

end SessionState

end WebTransport

end Cyclers
