import Cyclers.Async.Readiness
import Cyclers.Terminal.Lines
import Mathlib.Data.List.ReduceOption

/-!
# Reading the terminal

When the standard input is a terminal, the native `lines` reads it by `AsyncStdin`, which opens the
terminal again so that it does not block.  `poll_read` goes round: it awaits that the terminal is
ready, and reads; when the read would block after all, it clears the readiness and goes round again.

What is typed, the runtime that is told of it, and the task that reads take their steps in any
order.  The runtime is a parameter.
-/

open Async Text

namespace Cyclers

namespace Terminal

/-- The error of a read of a file that does not block: it would block, or another one. -/
inductive IoError where
  | wouldBlock
  | other : BoxError → IoError
  deriving DecidableEq

/-- Where `poll_read` stands: it is not called, it is to go round again, it has got a guard as the
terminal is ready and is to read, its read would have blocked and it is to clear the readiness with
the guard, or it has returned that it is pending. -/
inductive ReadTask (γ : Type*) where
  | idle
  | again
  | guarded : γ → ReadTask γ
  | blocked : γ → ReadTask γ
  | pending

/-- The terminal and what reads it: the bytes that have been typed, and how often an end of the
input has been; what has not been read, in which `none` is an end of the input; whether the terminal
has been hung up; the readiness of the descriptor; the task that reads; and the results of
`poll_read`. -/
structure AsyncStdin (σ γ : Type*) where
  typed : List UInt8
  ends : ℕ
  unread : List (Option UInt8)
  hungUp : Bool
  inner : σ
  task : ReadTask γ
  results : List (Except IoError (List UInt8))

/-- What happens: a byte and some more are typed, or an end of the input, or the terminal is hung
up; the runtime is told of that, or of something else; `poll_read` is called, it is called again
since the task has been woken, it goes round again, it asks the runtime in vain; the terminal is
read and gives at most some number of bytes, and maybe with them the end of the input that comes
next, or an error; the readiness is cleared. -/
inductive StdinEvent (ε : Type*) where
  | type : UInt8 → List UInt8 → StdinEvent ε
  | typeEnd
  | hangUp
  | deliver
  | report : ε → StdinEvent ε
  | poll
  | wake
  | again
  | gone : BoxError → StdinEvent ε
  | read : ℕ → Bool → StdinEvent ε
  | fail : BoxError → StdinEvent ε
  | clear

/-- The first bytes that have not been read, up to some number of them and to an end of the input,
and what is left then.  An end that comes right after the bytes goes with them, or it is left. -/
def readBytes (withEnd : Bool) : ℕ → List (Option UInt8) → List UInt8 × List (Option UInt8)
  | k + 1, some byte :: unread =>
      ((byte :: (readBytes withEnd k unread).1), (readBytes withEnd k unread).2)
  | _, none :: unread => ([], if withEnd then unread else none :: unread)
  | _, unread => ([], unread)

namespace AsyncStdin

variable {σ γ ε : Type*}

/-- The terminal has been opened. -/
def new (r : Readiness σ γ ε) : AsyncStdin σ γ where
  typed := []
  ends := 0
  unread := []
  hungUp := false
  inner := r.new
  task := .idle
  results := []

/-- What reading the terminal gives, when it gives at most `k` bytes, and what is left then. -/
def read (s : AsyncStdin σ γ) (k : ℕ) (withEnd : Bool) :
    Except IoError (List UInt8) × List (Option UInt8) :=
  match s.unread with
  | [] => (if s.hungUp then .ok [] else .error .wouldBlock, [])
  | none :: unread => (.ok [], unread)
  | some byte :: unread =>
      (.ok (readBytes withEnd k (some byte :: unread)).1,
        (readBytes withEnd k (some byte :: unread)).2)

/-- `poll_read` returns a result. -/
def ret (s : AsyncStdin σ γ) (result : Except IoError (List UInt8)) : AsyncStdin σ γ :=
  { s with task := .idle, results := s.results ++ [result] }

/-- `poll_read` asks the runtime whether the terminal is ready. -/
def pollReadReady (r : Readiness σ γ ε) (s : AsyncStdin σ γ) : AsyncStdin σ γ :=
  match r.pollReady s.inner with
  | (.ready guard, inner) => { s with inner := inner, task := .guarded guard }
  | (.pending, inner) => { s with inner := inner, task := .pending }

/-- `poll_read` tries to read.  That a read would block is not returned. -/
def tryIo (s : AsyncStdin σ γ) (guard : γ) (result : Except IoError (List UInt8)) :
    AsyncStdin σ γ :=
  match result with
  | .error .wouldBlock => { s with task := .blocked guard }
  | result => s.ret result

/-- One event, when it can happen.  The buffer that is read into has room for `n + 1` bytes, and a
read gives at least one byte when there is one. -/
def step (r : Readiness σ γ ε) (n : ℕ) (s : AsyncStdin σ γ) : StdinEvent ε → Option (AsyncStdin σ γ)
  | .type byte bytes =>
      if s.hungUp then none
      else some { s with
        typed := s.typed ++ byte :: bytes
        unread := s.unread ++ (byte :: bytes).map some
        inner := r.raise s.inner }
  | .typeEnd =>
      if s.hungUp then none
      else some { s with
        ends := s.ends + 1
        unread := s.unread ++ [none]
        inner := r.raise s.inner }
  | .hangUp => if s.hungUp then none else some { s with hungUp := true, inner := r.raise s.inner }
  | .deliver => (r.deliver s.inner).map fun inner => { s with inner := inner }
  | .report e => (r.report e s.inner).map fun inner => { s with inner := inner }
  | .poll =>
      match s.task with
      | .idle | .pending => some (s.pollReadReady r)
      | _ => none
  | .wake =>
      match s.task with
      | .pending => if r.woken s.inner then some (s.pollReadReady r) else none
      | _ => none
  | .again =>
      match s.task with
      | .again => some (s.pollReadReady r)
      | _ => none
  | .gone err =>
      match s.task with
      | .guarded _ | .blocked _ => none
      | _ => some (s.ret (.error (.other err)))
  | .read k withEnd =>
      match s.task with
      | .guarded guard =>
          if 0 < k ∧ k ≤ n + 1 then
            some ({ s with unread := (s.read k withEnd).2 }.tryIo guard (s.read k withEnd).1)
          else none
      | _ => none
  | .fail err =>
      match s.task with
      | .guarded guard => some (s.tryIo guard (.error (.other err)))
      | _ => none
  | .clear =>
      match s.task with
      | .blocked guard => some { s with inner := r.clear guard s.inner, task := .again }
      | _ => none

/-- The terminal and what reads it as a machine. -/
def machine (r : Readiness σ γ ε) (n : ℕ) : Machine (AsyncStdin σ γ) (StdinEvent ε) where
  step := step r n

/-- The events that nothing from outside is needed for. -/
def internal : StdinEvent ε → Prop
  | .deliver => True
  | .wake => True
  | .again => True
  | .read _ _ => True
  | .clear => True
  | _ => False

/-- The bytes of the chunks read. -/
def bytesRead (s : AsyncStdin σ γ) : List UInt8 :=
  (s.results.filterMap Except.toOption).flatten

/-- Whether a read gives something. -/
def Available (s : AsyncStdin σ γ) : Prop :=
  s.unread ≠ [] ∨ s.hungUp = true

/-- An empty chunk is the end of the input to whoever reads it. -/
def isEnd : Except IoError (List UInt8) → Bool
  | .ok [] => true
  | _ => false

/-! ### How it goes on -/

variable {r : Readiness σ γ ε} {n : ℕ} {s t : AsyncStdin σ γ}

/-- What a read takes of the bytes it takes from the front. -/
theorem readBytes_spec (withEnd : Bool) (k : ℕ) (unread : List (Option UInt8)) :
  (readBytes withEnd k unread).1.length ≤ k ∧
    unread.reduceOption =
      (readBytes withEnd k unread).1 ++ (readBytes withEnd k unread).2.reduceOption ∧
    (readBytes withEnd k unread).2.count none ≤ unread.count none
  := by
  induction unread generalizing k with
  | nil => cases k <;> exact ⟨Nat.zero_le _, rfl, Nat.le_refl _⟩
  | cons item unread ih =>
      cases item with
      | none =>
          cases k <;> cases withEnd <;> simp [readBytes, List.reduceOption_cons_of_none]
      | some byte =>
          cases k with
          | zero => simp [readBytes]
          | succ k =>
              obtain ⟨hlen, hbytes, hcount⟩ := ih k
              refine ⟨Nat.succ_le_succ hlen, ?_, ?_⟩
              · rw [List.reduceOption_cons_of_some, hbytes]
                rfl
              · rw [List.count_cons_of_ne (by simp)]
                exact hcount

/-- What reading the terminal gives: it would block; or some bytes, none of them only at an end of
the input. -/
theorem read_cases (s : AsyncStdin σ γ) {k : ℕ} (hk : 0 < k) (withEnd : Bool) :
  (s.unread = [] ∧ s.hungUp = false ∧ s.read k withEnd = (.error .wouldBlock, [])) ∨
    ∃ bytes rest, s.read k withEnd = (.ok bytes, rest) ∧ bytes.length ≤ k ∧
      s.unread.reduceOption = bytes ++ rest.reduceOption ∧
      ((s.unread = [] ∧ s.hungUp = true ∧ bytes = [] ∧ rest = []) ∨
        (s.unread ≠ [] ∧ (isEnd (.ok bytes)).toNat + rest.count none ≤ s.unread.count none))
  := by
  cases hunread : s.unread with
  | nil =>
      cases hopen : s.hungUp with
      | false =>
          left
          simp [read, hunread, hopen]
      | true =>
          right
          use [], []
          simp [read, hunread, hopen]
  | cons item unread =>
      right
      cases item with
      | none =>
          use [], unread
          simp [read, hunread, isEnd, Nat.add_comm, List.reduceOption_cons_of_none]
      | some byte =>
          obtain ⟨hlen, hbytes, hcount⟩ := readBytes_spec withEnd k (some byte :: unread)
          refine ⟨_, _, by rw [read, hunread], hlen, hbytes, Or.inr ⟨List.cons_ne_nil _ _, ?_⟩⟩
          obtain ⟨k, rfl⟩ := Nat.exists_eq_succ_of_ne_zero (Nat.ne_of_gt hk)
          change 0 + _ ≤ _
          rw [Nat.zero_add]
          exact hcount

/-- The events, one case for each way one can happen. -/
inductive Step (r : Readiness σ γ ε) (n : ℕ) (s : AsyncStdin σ γ) :
    StdinEvent ε → AsyncStdin σ γ → Prop where
  | type (byte : UInt8) (bytes : List UInt8) : s.hungUp = false →
      Step r n s (.type byte bytes) { s with
        typed := s.typed ++ byte :: bytes
        unread := s.unread ++ (byte :: bytes).map some
        inner := r.raise s.inner }
  | typeEnd : s.hungUp = false →
      Step r n s .typeEnd { s with
        ends := s.ends + 1
        unread := s.unread ++ [none]
        inner := r.raise s.inner }
  | hangUp : s.hungUp = false →
      Step r n s .hangUp { s with hungUp := true, inner := r.raise s.inner }
  | deliver (inner : σ) : r.deliver s.inner = some inner →
      Step r n s .deliver { s with inner := inner }
  | report (e : ε) (inner : σ) : r.report e s.inner = some inner →
      Step r n s (.report e) { s with inner := inner }
  | ask (e : StdinEvent ε) : s.task = .idle ∨ s.task = .again ∨ s.task = .pending →
      Step r n s e (s.pollReadReady r)
  | gone (err : BoxError) : s.task = .idle ∨ s.task = .again ∨ s.task = .pending →
      Step r n s (.gone err) (s.ret (.error (.other err)))
  | block (guard : γ) (k : ℕ) (withEnd : Bool) : s.task = .guarded guard → s.unread = [] →
      s.hungUp = false → Step r n s (.read k withEnd) { s with task := .blocked guard }
  | read (guard : γ) (k : ℕ) (withEnd : Bool) (bytes : List UInt8) (rest : List (Option UInt8)) :
      s.task = .guarded guard → bytes.length ≤ n + 1 →
      s.unread.reduceOption = bytes ++ rest.reduceOption →
      ((s.unread = [] ∧ s.hungUp = true ∧ bytes = [] ∧ rest = []) ∨
        (s.unread ≠ [] ∧ (isEnd (.ok bytes)).toNat + rest.count none ≤ s.unread.count none)) →
      Step r n s (.read k withEnd) ({ s with unread := rest }.ret (.ok bytes))
  | fail (guard : γ) (err : BoxError) : s.task = .guarded guard →
      Step r n s (.fail err) (s.ret (.error (.other err)))
  | clear (guard : γ) : s.task = .blocked guard →
      Step r n s .clear { s with inner := r.clear guard s.inner, task := .again }

/-- The machine makes the steps of `Step`. -/
theorem step_of_machine {e : StdinEvent ε} (h : (machine r n).step s e = some t) :
  Step r n s e t
  := by
  change s.step r n e = some t at h
  cases e with
  | type byte bytes =>
      rw [step] at h
      split at h <;> cases h
      apply Step.type byte bytes ((Bool.not_eq_true _).mp ‹_›)
  | typeEnd =>
      rw [step] at h
      split at h <;> cases h
      apply Step.typeEnd ((Bool.not_eq_true _).mp ‹_›)
  | hangUp =>
      rw [step] at h
      split at h <;> cases h
      apply Step.hangUp ((Bool.not_eq_true _).mp ‹_›)
  | deliver =>
      obtain ⟨inner, hinner, rfl⟩ := Option.map_eq_some_iff.mp h
      apply Step.deliver inner hinner
  | report e =>
      obtain ⟨inner, hinner, rfl⟩ := Option.map_eq_some_iff.mp h
      apply Step.report e inner hinner
  | poll =>
      rw [step] at h
      split at h <;> cases h
      · apply Step.ask _ (Or.inl ‹_›)
      · apply Step.ask _ (Or.inr (Or.inr ‹_›))
  | wake =>
      rw [step] at h
      split at h
      · split at h <;> cases h
        apply Step.ask _ (Or.inr (Or.inr ‹_›))
      · cases h
  | again =>
      rw [step] at h
      split at h <;> cases h
      apply Step.ask _ (Or.inr (Or.inl ‹_›))
  | gone err =>
      rw [step] at h
      cases htask : s.task with
      | guarded guard => simp [htask] at h
      | blocked guard => simp [htask] at h
      | _ =>
          simp only [htask, Option.some.injEq] at h
          rw [← h]
          apply Step.gone err
          simp [htask]
  | read k withEnd =>
      rw [step] at h
      split at h
      · rename_i guard htask
        split at h
        · rename_i hk
          rcases s.read_cases hk.1 withEnd with ⟨hunread, hopen, hread⟩ |
            ⟨bytes, rest, hread, hlen, hbytes, hrest⟩
          · rw [hread] at h
            cases h
            rw [← hunread]
            apply Step.block guard k withEnd htask hunread hopen
          · rw [hread] at h
            cases h
            apply Step.read guard k withEnd bytes rest htask (Nat.le_trans hlen hk.2) hbytes hrest
        · cases h
      · cases h
  | fail err =>
      rw [step] at h
      split at h <;> cases h
      apply Step.fail _ err ‹_›
  | clear =>
      rw [step] at h
      split at h <;> cases h
      apply Step.clear _ ‹_›

/-! ### What has been read -/

/-- The results before the first end of the input. -/
def beforeEnd (results : List (Except IoError (List UInt8))) : List (Except IoError (List UInt8)) :=
  results.takeWhile fun result => !isEnd result

/-- The bytes that have been read before the first end of the input. -/
def input (s : AsyncStdin σ γ) : List UInt8 :=
  ((beforeEnd s.results).filterMap Except.toOption).flatten

theorem isEnd_iff {result : Except IoError (List UInt8)} :
  isEnd result = true ↔ result = .ok []
  := by
  rcases result with err | (_ | ⟨byte, bytes⟩) <;> simp [isEnd]

theorem beforeEnd_isPrefix (results : List (Except IoError (List UInt8))) :
  beforeEnd results <+: results
  := List.takeWhile_prefix _

/-- All results so far are before the first end. -/
theorem beforeEnd_concat_of_notMem {results : List (Except IoError (List UInt8))}
    (h : .ok [] ∉ results) :
  beforeEnd (results ++ [.ok []]) = results
  := by
  rw [beforeEnd, List.takeWhile_append_of_pos]
  · exact List.append_nil _
  · intro result hresult
    rw [Bool.not_eq_true', Bool.eq_false_iff]
    intro hend
    rw [isEnd_iff] at hend
    exact h (hend ▸ hresult)

/-- What comes after the first end does not matter. -/
theorem beforeEnd_concat_of_mem {results : List (Except IoError (List UInt8))}
    (h : .ok [] ∈ results) (result : Except IoError (List UInt8)) :
  beforeEnd (results ++ [result]) = beforeEnd results
  := by
  obtain ⟨before, after, rfl, hn⟩ := List.eq_append_cons_of_mem h
  rw [List.append_assoc]
  have hbefore : ∀ rest, beforeEnd (before ++ .ok [] :: rest) = before := by
    intro rest
    rw [beforeEnd, List.takeWhile_append_of_pos]
    · exact List.append_nil _
    · intro result hresult
      rw [Bool.not_eq_true', Bool.eq_false_iff]
      intro hend
      rw [isEnd_iff] at hend
      exact hn (hend ▸ hresult)
  rw [List.cons_append, hbefore, hbefore]

/-- The invariant: the bytes that have been typed are those read and then those unread; a chunk that
is read fits the buffer; no more ends of the input have been read than have been typed, until all
has been read and the terminal has been hung up; and no read that would block has been returned.
When no end has been typed, all that has been typed was read before the first end that was. -/
structure Inv (n : ℕ) (s : AsyncStdin σ γ) : Prop where
  bytes : s.bytesRead ++ s.unread.reduceOption = s.typed
  chunks : ∀ chunk, .ok chunk ∈ s.results → chunk.length ≤ n + 1
  ends : (s.unread = [] ∧ s.hungUp = true) ∨
    s.results.countP isEnd + s.unread.count none ≤ s.ends
  errors : .error .wouldBlock ∉ s.results
  input : s.ends = 0 → .ok [] ∈ s.results → s.input = s.typed

theorem Inv.init (r : Readiness σ γ ε) (n : ℕ) :
  Inv n (new r)
  := by
  refine ⟨rfl, ?_, Or.inr (Nat.le_refl 0), ?_, ?_⟩
  · intro chunk h
    cases h
  · intro h
    cases h
  · intro _ h
    cases h

/-- What the invariant says does not depend on the task and the readiness. -/
theorem Inv.congr (h : Inv n s) (inner : σ) (task : ReadTask γ) :
  Inv n { s with inner := inner, task := task }
  := ⟨h.bytes, h.chunks, h.ends, h.errors, h.input⟩

/-- An end of the input has been read and none has been typed: all has been read, and the terminal
has been hung up. -/
theorem Inv.finished (h : Inv n s) (hends : s.ends = 0) (hend : .ok [] ∈ s.results) :
  s.unread = [] ∧ s.hungUp = true
  := by
  apply h.ends.resolve_right
  intro hle
  have hpos : 0 < s.results.countP isEnd := List.countP_pos_iff.mpr ⟨_, hend, rfl⟩
  omega

theorem bytesRead_ok (s : AsyncStdin σ γ) (bytes : List UInt8) :
  (s.ret (.ok bytes)).bytesRead = s.bytesRead ++ bytes
  := by
  rw [bytesRead, ret, List.filterMap_append, List.flatten_append]
  exact congrArg (s.bytesRead ++ ·) (List.append_nil _)

/-- `poll_read` returns an error that is not that of a read that would block. -/
theorem Inv.error (h : Inv n s) (err : BoxError) :
  Inv n (s.ret (.error (.other err)))
  := by
  have hmem : ∀ {bytes : List UInt8}, Except.ok bytes ∈ s.results ++ [.error (.other err)] →
      Except.ok bytes ∈ s.results := by
    intro bytes hmem
    rcases List.mem_append.mp hmem with hold | hnew
    · exact hold
    · cases List.mem_singleton.mp hnew
  refine ⟨?_, fun chunk hchunk => h.chunks chunk (hmem hchunk), ?_, ?_, ?_⟩
  · rw [bytesRead, ret, List.filterMap_append]
    exact (congrArg (List.flatten · ++ _) (List.append_nil _)).trans h.bytes
  · rw [ret, List.countP_append]
    exact h.ends
  · intro herr
    rcases List.mem_append.mp herr with hold | hnew
    · exact h.errors hold
    · cases List.mem_singleton.mp hnew
  · intro hends hend
    rw [AsyncStdin.input, ret, beforeEnd_concat_of_mem (hmem hend)]
    apply h.input hends (hmem hend)

/-- `poll_read` returns the bytes that it has read. -/
theorem Inv.ok (h : Inv n s) {bytes : List UInt8} {rest : List (Option UInt8)}
    (hlen : bytes.length ≤ n + 1) (hbytes : s.unread.reduceOption = bytes ++ rest.reduceOption)
    (hrest : (s.unread = [] ∧ s.hungUp = true ∧ bytes = [] ∧ rest = []) ∨
      (s.unread ≠ [] ∧ (isEnd (.ok bytes)).toNat + rest.count none ≤ s.unread.count none)) :
  Inv n ({ s with unread := rest }.ret (.ok bytes))
  := by
  have hread : s.bytesRead ++ bytes ++ rest.reduceOption = s.typed := by
    rw [List.append_assoc, ← hbytes, h.bytes]
  have hcount : (s.results ++ [Except.ok bytes]).countP isEnd =
      s.results.countP isEnd + (isEnd (.ok bytes)).toNat := by
    rw [List.countP_append, List.countP_singleton]
    cases isEnd (Except.ok bytes) <;> rfl
  refine ⟨?_, ?_, ?_, ?_, ?_⟩
  · rw [bytesRead_ok]
    exact hread
  · intro chunk hchunk
    rcases List.mem_append.mp hchunk with hold | hnew
    · apply h.chunks chunk hold
    · obtain rfl := Except.ok.inj (List.mem_singleton.mp hnew)
      exact hlen
  · rcases hrest with ⟨-, hended, -, hnil⟩ | ⟨hne, hle⟩
    · exact Or.inl ⟨hnil, hended⟩
    · right
      rcases h.ends with ⟨hnil, -⟩ | hends
      · cases hne hnil
      · change (s.results ++ [Except.ok bytes]).countP isEnd + rest.count none ≤ s.ends
        omega
  · intro herr
    rcases List.mem_append.mp herr with hold | hnew
    · exact h.errors hold
    · cases List.mem_singleton.mp hnew
  · intro hends hend
    change ((beforeEnd (s.results ++ [.ok bytes])).filterMap Except.toOption).flatten = s.typed
    have hzero : s.ends = 0 := hends
    by_cases hold : Except.ok [] ∈ s.results
    · rw [beforeEnd_concat_of_mem hold]
      apply h.input hzero hold
    · -- It is this chunk that is empty, and all has been read, as no end has been typed.
      obtain rfl : [] = bytes := by
        rcases List.mem_append.mp hend with hmem | hnew
        · cases hold hmem
        · exact Except.ok.inj (List.mem_singleton.mp hnew)
      rw [beforeEnd_concat_of_notMem hold, ← hread]
      rcases hrest with ⟨-, -, -, rfl⟩ | ⟨hne, hle⟩
      · rw [List.append_nil, List.reduceOption_nil, List.append_nil]
        rfl
      · rcases h.ends with ⟨hnil, -⟩ | hle'
        · cases hne hnil
        · change 1 + rest.count none ≤ _ at hle
          omega

/-- More is typed. -/
theorem Inv.append (h : Inv n s) (hopen : s.hungUp = false) (items : List (Option UInt8))
    (inner : σ) :
  Inv n { s with
    typed := s.typed ++ items.reduceOption
    ends := s.ends + items.count none
    unread := s.unread ++ items
    inner := inner }
  := by
  refine ⟨?_, h.chunks, ?_, h.errors, ?_⟩
  · change s.bytesRead ++ (s.unread ++ items).reduceOption = s.typed ++ items.reduceOption
    rw [List.reduceOption_append, ← List.append_assoc, h.bytes]
  · right
    rcases h.ends with ⟨-, hended⟩ | hle
    · cases hopen.symm.trans hended
    · change s.results.countP isEnd + (s.unread ++ items).count none ≤ s.ends + items.count none
      rw [List.count_append]
      omega
  · intro hends hend
    obtain ⟨-, hended⟩ := h.finished (Nat.eq_zero_of_add_eq_zero_right hends) hend
    cases hopen.symm.trans hended

theorem reduceOption_map_some (bytes : List UInt8) :
  (bytes.map some).reduceOption = bytes
  := by
  rw [List.reduceOption, List.filterMap_map]
  exact List.filterMap_some

/-- An event keeps the invariant. -/
theorem Inv.step {e : StdinEvent ε} (h : Inv n s) (hs : Step r n s e t) :
  Inv n t
  := by
  cases hs with
  | type byte bytes hopen =>
      have happend := h.append hopen ((byte :: bytes).map some) (r.raise s.inner)
      rw [reduceOption_map_some, List.count_eq_zero_of_not_mem (by simp)] at happend
      exact happend
  | typeEnd hopen =>
      have happend := h.append hopen [none] (r.raise s.inner)
      rw [List.reduceOption_cons_of_none, List.reduceOption_nil, List.append_nil] at happend
      exact happend
  | hangUp hopen =>
      refine ⟨h.bytes, h.chunks, ?_, h.errors, h.input⟩
      exact h.ends.imp_left fun hend => ⟨hend.1, rfl⟩
  | deliver inner _ => exact h.congr inner s.task
  | report e inner _ => exact h.congr inner s.task
  | ask e _ =>
      rw [pollReadReady]
      split <;> exact h.congr _ _
  | gone err _ => exact h.error err
  | block guard k withEnd _ _ _ => exact h.congr s.inner _
  | read guard k withEnd bytes rest _ hlen hbytes hrest => exact h.ok hlen hbytes hrest
  | fail guard err _ => exact h.error err
  | clear guard _ => exact h.congr _ _

/-- The invariant holds of every state that is reached. -/
theorem Inv.of_run {tr : List (StdinEvent ε)} (h : (machine r n).run (new r) tr = some s) :
  Inv n s
  := by
  apply (machine r n).run_invariant (Inv.init r n) _ h
  intro s e t hs ht
  apply hs.step (step_of_machine ht)

/-! ### Nothing goes unnoticed -/

variable {Tells : σ → Prop} {Guards Newer : γ → σ → Prop}

/-- What the readiness tells while `poll_read` stands somewhere: it tells of what is available, and
as long as a guard may be used, of anything; after a read that would have blocked, what is available
is newer than the guard. -/
def Noticed (Tells : σ → Prop) (Guards Newer : γ → σ → Prop) (s : AsyncStdin σ γ) : Prop :=
  match s.task with
  | .guarded guard => Guards guard s.inner
  | .blocked guard => Guards guard s.inner ∧ (s.Available → Newer guard s.inner)
  | _ => s.Available → Tells s.inner

/-- `poll_read` is not using a guard. -/
theorem noticed_of_ask (h : s.task = .idle ∨ s.task = .again ∨ s.task = .pending) :
  s.Noticed Tells Guards Newer ↔ (s.Available → Tells s.inner)
  := by
  rw [Noticed]
  rcases h with h | h | h <;> rw [h]

/-- `poll_read` has returned, when it had a guard. -/
theorem noticed_ret (hr : r.Laws Tells Guards Newer) {guard : γ} (h : Guards guard s.inner)
    (result : Except IoError (List UInt8)) :
  (s.ret result).Noticed Tells Guards Newer
  := fun _ => hr.tells h

/-- The readiness changes while `poll_read` stands where it is. -/
theorem noticed_of_task (h : s.Noticed Tells Guards Newer) (htask : t.task = s.task)
    (hguards : ∀ guard, Guards guard s.inner → Guards guard t.inner)
    (hnewer : ∀ guard, Guards guard s.inner → (s.Available → Newer guard s.inner) →
      t.Available → Newer guard t.inner)
    (htells : (s.Available → Tells s.inner) → t.Available → Tells t.inner) :
  t.Noticed Tells Guards Newer
  := by
  rw [Noticed] at h ⊢
  rw [htask]
  cases hs : s.task with
  | guarded guard =>
      rw [hs] at h
      apply hguards guard h
  | blocked guard =>
      rw [hs] at h
      exact ⟨hguards guard h.1, hnewer guard h.1 h.2⟩
  | _ =>
      rw [hs] at h
      apply htells h

/-- Something becomes available. -/
theorem noticed_raise (hr : r.Laws Tells Guards Newer) (h : s.Noticed Tells Guards Newer)
    (htask : t.task = s.task) (hinner : t.inner = r.raise s.inner) :
  t.Noticed Tells Guards Newer
  := by
  apply noticed_of_task h htask <;> rw [hinner]
  · intro guard hguards
    apply hr.guards_raise hguards
  · intro guard hguards _ _
    apply hr.newer_raise hguards
  · intro _ _
    apply hr.raise

/-- An event keeps what is noticed. -/
theorem noticed_step (hr : r.Laws Tells Guards Newer) (h : s.Noticed Tells Guards Newer)
    {e : StdinEvent ε} (hs : Step r n s e t) :
  t.Noticed Tells Guards Newer
  := by
  cases hs with
  | type byte bytes _ => exact noticed_raise hr h rfl rfl
  | typeEnd _ => exact noticed_raise hr h rfl rfl
  | hangUp _ => exact noticed_raise hr h rfl rfl
  | deliver inner hinner =>
      refine noticed_of_task h rfl ?_ ?_ ?_
      · intro guard hguards
        apply hr.guards_deliver hinner hguards
      · intro guard hguards _ _
        apply hr.newer_deliver hinner hguards
      · intro _ _
        apply hr.deliver hinner
  | report e inner hinner =>
      refine noticed_of_task h rfl ?_ ?_ ?_
      · intro guard hguards
        apply hr.guards_report hinner hguards
      · intro guard _ hnewer ha
        apply hr.newer_report hinner (hnewer ha)
      · intro htells ha
        apply hr.report hinner (htells ha)
  | ask e htask =>
      rw [noticed_of_ask htask] at h
      rw [pollReadReady]
      split
      · rename_i guard inner hpoll
        exact hr.ready hpoll
      · rename_i inner hpoll
        intro ha
        have htells := hr.poll (h ha)
        rw [hpoll] at htells
        exact htells
  | gone err htask =>
      rw [noticed_of_ask htask] at h
      exact h
  | block guard k withEnd htask hunread hopen =>
      rw [Noticed, htask] at h
      refine ⟨h, ?_⟩
      rintro (hne | hended)
      · cases hne hunread
      · cases hopen.symm.trans hended
  | read guard k withEnd bytes rest htask hlen hbytes hrest =>
      rw [Noticed, htask] at h
      apply noticed_ret hr (s := { s with unread := rest }) h
  | fail guard err htask =>
      rw [Noticed, htask] at h
      apply noticed_ret hr h
  | clear guard htask =>
      rw [Noticed, htask] at h
      exact fun ha => hr.clear (h.2 ha)

/-- Everything is noticed in every state that is reached. -/
theorem noticed_of_run (hr : r.Laws Tells Guards Newer) {tr : List (StdinEvent ε)}
    (h : (machine r n).run (new r) tr = some s) :
  s.Noticed Tells Guards Newer
  := by
  refine (machine r n).run_invariant (P := Noticed Tells Guards Newer) ?_ ?_ h
  · rintro (ha | ha)
    · cases ha rfl
    · cases ha
  · intro s e t hs ht
    apply noticed_step hr hs (step_of_machine ht)

/-- Where nothing is left to do for the runtime and the task, the task has returned its result; or
it is pending, and nothing is available. -/
theorem of_quiescent (hr : r.Laws Tells Guards Newer) (h : s.Noticed Tells Guards Newer)
    (hq : (machine r n).Quiescent internal s) :
  s.task = .idle ∨ s.task = .pending ∧ ¬ s.Available
  := by
  cases htask : s.task with
  | idle => exact Or.inl rfl
  | again =>
      have hstuck : s.step r n .again = none := hq .again trivial
      rw [AsyncStdin.step, htask] at hstuck
      cases hstuck
  | guarded guard =>
      have hstuck : s.step r n (.read 1 false) = none := hq (.read 1 false) trivial
      rw [AsyncStdin.step, htask] at hstuck
      simp only [Nat.one_pos, Nat.le_add_left, and_self, if_true] at hstuck
      cases hstuck
  | blocked guard =>
      have hstuck : s.step r n .clear = none := hq .clear trivial
      rw [AsyncStdin.step, htask] at hstuck
      cases hstuck
  | pending =>
      right
      refine ⟨rfl, ?_⟩
      intro ha
      have hnone : r.deliver s.inner = none := Option.map_eq_none_iff.mp (hq .deliver trivial)
      have htells := (noticed_of_ask (Or.inr (Or.inr htask))).mp h ha
      have hstuck : s.step r n .wake = none := hq .wake trivial
      rw [AsyncStdin.step, htask] at hstuck
      simp only [hr.woken htells hnone, if_true] at hstuck
      cases hstuck

/-- Reading the terminal, whatever the order in which it is typed, the runtime is told of it and of
other things and the task goes on, and whatever the runtime does that keeps what is documented of
it.  The bytes that have been typed are those read, in order, and then those unread; no read that
would block is returned; a chunk fits the buffer, and no more of them are empty than ends of the
input have been typed, until all has been read and the terminal has been hung up.  Where nothing is
left to do for the runtime and the task, the task has returned, or it is pending and nothing is
there to be read: nothing goes unnoticed. -/
theorem reads_terminal (hr : r.Laws Tells Guards Newer) (n : ℕ) {tr : List (StdinEvent ε)}
    {s : AsyncStdin σ γ} (h : (machine r n).run (new r) tr = some s) :
  s.bytesRead ++ s.unread.reduceOption = s.typed ∧ .error .wouldBlock ∉ s.results ∧
    (∀ chunk, .ok chunk ∈ s.results → chunk.length ≤ n + 1) ∧
    ((s.unread = [] ∧ s.hungUp = true) ∨ s.results.countP isEnd ≤ s.ends) ∧
    ((machine r n).Quiescent internal s →
      s.task = .idle ∨ s.task = .pending ∧ s.unread = [] ∧ s.hungUp = false)
  := by
  have hinv := Inv.of_run h
  refine ⟨hinv.bytes, hinv.errors, hinv.chunks, ?_, ?_⟩
  · apply hinv.ends.imp_right
    apply Nat.le_trans (Nat.le_add_right _ _)
  · intro hq
    apply (of_quiescent hr (noticed_of_run hr h) hq).imp_right
    apply And.imp_right
    intro hnot
    rw [Available, not_or, not_not, Bool.not_eq_true] at hnot
    exact hnot

/-- A byte is typed after a read has found nothing and before the readiness has been cleared, the
runtime is told that the terminal may be written to, and an end of the input is typed.  The task
comes to wait, and nothing is there to be read. -/
theorem reads_terminal_late :
  ∃ s, (machine .ticks 7).run (new .ticks)
      [.poll, .type 104 [105], .deliver, .wake, .read 8 false, .poll, .read 8 false, .report false,
        .type 10 [], .clear, .again, .deliver, .read 8 false, .typeEnd, .poll, .read 8 false, .deliver,
        .poll, .read 8 false, .clear, .again] = some s ∧
    s.bytesRead = [104, 105, 10] ∧ s.bytesRead ++ s.unread.reduceOption = s.typed ∧
    (s.task = .idle ∨ s.task = .pending ∧ s.unread = [] ∧ s.hungUp = false)
  := by
  refine ⟨_, rfl, rfl, ?_⟩
  have hreads := @reads_terminal _ _ _ _ _ _ _ Readiness.ticks_laws 7
    [.poll, .type 104 [105], .deliver, .wake, .read 8 false, .poll, .read 8 false, .report false,
      .type 10 [], .clear, .again, .deliver, .read 8 false, .typeEnd, .poll, .read 8 false, .deliver,
      .poll, .read 8 false, .clear, .again] _ rfl
  refine ⟨hreads.1, hreads.2.2.2.2 ?_⟩
  intro e he
  cases e <;> first | rfl | cases he

/-! ### The lines that are typed -/

/-- A result of `poll_read` as a read of the input.  An empty chunk is its end. -/
def toRead : Except IoError (List UInt8) → Option (Except BoxError (List UInt8))
  | .ok [] => none
  | .ok (byte :: bytes) => some (.ok (byte :: bytes))
  | .error .wouldBlock => none
  | .error (.other err) => some (.error err)

theorem mem_toRead {results : List (Except IoError (List UInt8))} {chunk : List UInt8}
    (h : .ok chunk ∈ results.filterMap toRead) :
  .ok chunk ∈ results ∧ chunk ≠ []
  := by
  obtain ⟨result, hresult, heq⟩ := List.mem_filterMap.mp h
  rcases result with (_ | err) | (_ | ⟨byte, bytes⟩)
  · cases heq
  · cases heq
  · cases heq
  · cases heq
    exact ⟨hresult, List.cons_ne_nil _ _⟩

/-- The input that reading the terminal gives, up to its first end. -/
def stdin (s : AsyncStdin σ γ) (h : Inv n s) : Stdin (n + 1) where
  reads := (beforeEnd s.results).filterMap toRead
  ne_nil _ hchunk := (mem_toRead hchunk).2
  le _ hchunk := h.chunks _ ((beforeEnd_isPrefix _).subset (mem_toRead hchunk).1)

theorem bytes_stdin (h : Inv n s) :
  (s.stdin h).bytes = s.input
  := by
  change (((beforeEnd s.results).filterMap toRead).filterMap Except.toOption).flatten = s.input
  rw [input]
  generalize beforeEnd s.results = results
  induction results with
  | nil => rfl
  | cons result results ih =>
      rcases result with (_ | err) | (_ | ⟨byte, bytes⟩)
      · exact ih
      · exact ih
      · exact ih
      · exact congrArg (byte :: bytes ++ ·) ih

/-- The lines that are read from a terminal are those of the text that has been typed up to the end
of the input, when that has been read without an error, however the text has been typed and read and
whatever the runtime does.  When no end of the input has been typed but the terminal has been hung
up, this is all that has been typed. -/
theorem lines_typed (codec : LinesCodec) (r : Readiness σ γ ε) (n : ℕ) {tr : List (StdinEvent ε)}
    {s : AsyncStdin σ γ} (h : (machine r n).run (new r) tr = some s) (hend : .ok [] ∈ s.results)
    (herror : ∀ err, .error err ∉ beforeEnd s.results) :
  s.input <+: s.typed ∧ (s.ends = 0 → s.input = s.typed) ∧
    ∃ hinv : Inv n s, ∀ text, s.input = utf8 text →
      nativeLine codec (.ok (s.stdin hinv)) = (codecLines codec.keeps text).map item
  := by
  have hinv := Inv.of_run h
  refine ⟨?_, fun hends => hinv.input hends hend, hinv, ?_⟩
  · have hprefix : s.input <+: s.bytesRead := by
      obtain ⟨rest, hrest⟩ := beforeEnd_isPrefix s.results
      rw [bytesRead, ← hrest, List.filterMap_append, List.flatten_append]
      apply List.prefix_append
    apply hprefix.trans
    rw [← hinv.bytes]
    apply List.prefix_append
  · intro text htext
    have hreliable : (s.stdin hinv).Reliable := by
      intro err herr
      obtain ⟨result, hresult, heq⟩ := List.mem_filterMap.mp herr
      rcases result with err' | (_ | ⟨byte, bytes⟩)
      · cases herror err' hresult
      · cases heq
      · cases heq
    rw [nativeLine, codec.frames_eq _ _ hreliable ((bytes_stdin hinv).trans htext), List.map_map]
    rfl

/-- A run in which a line is typed. -/
theorem lines_typed_one :
  ∃ s, (machine .ticks 7).run (new .ticks)
      [.poll, .type 104 [105], .report false, .deliver, .wake, .read 8 false, .poll, .type 10 [],
        .read 8 false, .hangUp, .poll, .read 8 false] = some s ∧
    s.input = s.typed ∧
    ∃ hinv : Inv 7 s, nativeLine LinesCodec.whole (.ok (s.stdin hinv)) = [.ok "hi"]
  := by
  obtain ⟨s, hs⟩ : ∃ s, (machine .ticks 7).run (new .ticks)
      [.poll, .type 104 [105], .report false, .deliver, .wake, .read 8 false, .poll, .type 10 [],
        .read 8 false, .hangUp, .poll, .read 8 false] = some s := ⟨_, rfl⟩
  have hresults : some [.ok [104, 105], .ok [10], .ok []] = some s.results :=
    congrArg (Option.map fun s : AsyncStdin Readiness.Ticks ℕ => s.results) hs
  have hends : some 0 = some s.ends :=
    congrArg (Option.map fun s : AsyncStdin Readiness.Ticks ℕ => s.ends) hs
  obtain ⟨-, hinput, hinv, hlines⟩ := lines_typed LinesCodec.whole .ticks 7 hs
    (by rw [← Option.some.inj hresults]; simp)
    (by
      intro err
      rw [← Option.some.inj hresults]
      simp [beforeEnd, isEnd])
  refine ⟨s, hs, hinput (Option.some.inj hends).symm, hinv, ?_⟩
  rw [hlines ['h', 'i', '\n'] (by rw [input, ← Option.some.inj hresults]; rfl)]
  decide

end AsyncStdin

end Terminal

end Cyclers
