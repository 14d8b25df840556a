import Cyclers.Async.Buffer
import Cyclers.Driver
import Cyclers.Terminal.Command
import Cyclers.Text.Lines

/-!
# Lines of input

`lines` yields one line of the standard input for each command to read one.  It is written
twice.  The native one hands the input to a codec of lines.  The one for WASI keeps a buffer of
its own: it yields what is before the first newline of the buffer, reads a chunk when there is
none, and ends when the input does.  It leaves carriage returns where they are, and it drops
what no newline ends.
-/

open Async Text

namespace Cyclers

namespace Terminal

/-- Why reading a line fails. -/
inductive ReadLineErrorKind where
  | stdin
  | line
  | read
  | invalidUtf8
  deriving DecidableEq

/-- The error of reading a line. -/
structure ReadLineError where
  kind : ReadLineErrorKind
  inner : BoxError
  deriving DecidableEq

/-- An item of `lines`. -/
abbrev Line := Except ReadLineError String

/-- The newline, as a byte. -/
def newline : UInt8 := UInt8.ofNat '\n'.toNat

/-- What the reads of the input give, one after another, until its end: an error, or a chunk of
at least one and at most `n` bytes. -/
structure Stdin (n : ℕ) where
  reads : List (Except BoxError (List UInt8))
  ne_nil : ∀ chunk, .ok chunk ∈ reads → chunk ≠ []
  le : ∀ chunk, .ok chunk ∈ reads → chunk.length ≤ n

namespace Stdin

variable {n : ℕ}

/-- Read from the input.  A chunk is empty only at its end. -/
def read (stdin : Stdin n) : Except BoxError (List UInt8) × Stdin n :=
  match stdin with
  | ⟨[], ne_nil, le⟩ => (.ok [], ⟨[], ne_nil, le⟩)
  | ⟨result :: reads, ne_nil, le⟩ =>
      (result, ⟨reads, fun chunk h => ne_nil chunk (List.mem_cons_of_mem _ h),
        fun chunk h => le chunk (List.mem_cons_of_mem _ h)⟩)

/-- The chunks read. -/
def chunks (stdin : Stdin n) : List (List UInt8) :=
  stdin.reads.filterMap Except.toOption

/-- The bytes of the input. -/
def bytes (stdin : Stdin n) : List UInt8 :=
  stdin.chunks.flatten

/-- No read fails. -/
def Reliable (stdin : Stdin n) : Prop :=
  ∀ err, .error err ∉ stdin.reads

/-- What an input that gives chunks, and no errors, is. -/
def ofChunks (chunks : List (List UInt8)) (ne_nil : ∀ chunk ∈ chunks, chunk ≠ [])
    (le : ∀ chunk ∈ chunks, chunk.length ≤ n) : Stdin n where
  reads := chunks.map .ok
  ne_nil := by simpa using ne_nil
  le := by simpa using le

/-- An empty chunk is read only when nothing is left to read. -/
theorem reads_of_read_nil {stdin stdin' : Stdin n} (h : stdin.read = (.ok [], stdin')) :
  stdin'.reads = []
  := by
  obtain ⟨reads, ne_nil, le⟩ := stdin
  cases reads with
  | nil =>
      cases h
      rfl
  | cons result reads =>
      cases h
      cases ne_nil [] List.mem_cons_self rfl

/-- A read that gives something leaves less to read. -/
theorem length_reads {stdin stdin' : Stdin n} {result : Except BoxError (List UInt8)}
    (h : stdin.read = (result, stdin')) (hr : result ≠ .ok []) :
  stdin.reads.length = stdin'.reads.length + 1
  := by
  obtain ⟨reads, ne_nil, le⟩ := stdin
  cases reads with
  | nil =>
      cases h
      cases hr rfl
  | cons result reads =>
      cases h
      rfl

/-- The chunk read is the first part of the bytes of the input. -/
theorem bytes_of_read {stdin stdin' : Stdin n} {chunk : List UInt8}
    (h : stdin.read = (.ok chunk, stdin')) :
  stdin.bytes = chunk ++ stdin'.bytes
  := by
  obtain ⟨reads, ne_nil, le⟩ := stdin
  cases reads with
  | nil =>
      cases h
      rfl
  | cons result reads =>
      cases h
      rfl

/-- A chunk read is not longer than the buffer it is read into. -/
theorem length_le {stdin stdin' : Stdin n} {chunk : List UInt8}
    (h : stdin.read = (.ok chunk, stdin')) :
  chunk.length ≤ n
  := by
  obtain ⟨reads, ne_nil, le⟩ := stdin
  cases reads with
  | nil =>
      cases h
      apply Nat.zero_le
  | cons result reads =>
      cases h
      apply le chunk List.mem_cons_self

/-- Reading does not make the input unreliable. -/
theorem Reliable.of_read {stdin stdin' : Stdin n} {result : Except BoxError (List UInt8)}
    (hr : stdin.Reliable) (h : stdin.read = (result, stdin')) :
  stdin'.Reliable ∧ ∀ err, result ≠ .error err
  := by
  obtain ⟨reads, ne_nil, le⟩ := stdin
  cases reads with
  | nil =>
      cases h
      exact ⟨hr, nofun⟩
  | cons result reads =>
      cases h
      constructor
      · intro err hmem
        apply hr err (List.mem_cons_of_mem _ hmem)
      · rintro err rfl
        apply hr err List.mem_cons_self

end Stdin

/-- One item of a stream for each command to read a line, until the stream ends.  The other
commands are filtered out. -/
def readLines {σ : Type} (next : σ → Option (Line × σ)) : List TerminalCommand → σ → List Line
  | [], _ => []
  | .readLine :: commands, s =>
      match next s with
      | some (line, s) => line :: readLines next commands s
      | none => []
  | _ :: commands, s => readLines next commands s

/-! ### The lines for WASI -/

/-- The size by which the buffer grows for a read. -/
def chunkSize : ℕ := 1024

/-- The stream of lines for WASI: the input, the buffer, and whether the end of the input has
been read. -/
structure LineReader where
  stdin : Stdin chunkSize
  buf : Buffer UInt8
  eof : Bool
  ended : eof = true → stdin.reads = []

/-- What one turn of the loop of a line reader does: it yields a line, it ends, or it comes
round. -/
inductive LineTurn where
  | yields : Line → LineReader → LineTurn
  | ends
  | again : LineReader → LineTurn

namespace LineReader

/-- The reader before anything is read. -/
def new (stdin : Stdin chunkSize) : LineReader :=
  ⟨stdin, [], false, nofun⟩

/-- The line that bytes are, if they are valid UTF-8. -/
def fromUtf8 (bytes : List UInt8) : Line :=
  match Text.fromUtf8 bytes with
  | some line => .ok line
  | none => .error ⟨.invalidUtf8, "invalid utf-8 sequence"⟩

/-- The buffer with room for a chunk at its end. -/
def room (r : LineReader) : Buffer UInt8 :=
  Buffer.resize r.buf (r.buf.length + chunkSize) 0

/-- One turn of the loop.  The room is cut to what has been read; a read that fails leaves it in
the buffer. -/
def turn (r : LineReader) : LineTurn :=
  match r.buf.idxOf? newline with
  | some pos =>
      .yields (fromUtf8 (Buffer.splitTo r.buf (pos + 1)).1.dropLast)
        { r with buf := (Buffer.splitTo r.buf (pos + 1)).2 }
  | none =>
      if he : r.eof = true then .ends
      else
        match hr : r.stdin.read with
        | (.ok bytes, stdin) =>
            .again {
              stdin := stdin
              buf := Buffer.truncate (Buffer.readSlice r.room r.buf.length bytes)
                (r.buf.length + bytes.length)
              eof := bytes.isEmpty
              ended := by
                intro hb
                rw [List.isEmpty_iff.mp hb] at hr
                apply Stdin.reads_of_read_nil hr }
        | (.error err, stdin) =>
            .yields (.error ⟨.read, err⟩) ⟨stdin, r.room, false, nofun⟩

/-- The largest number of the machine, as a `usize` for WASI. -/
def usizeMax : ℕ := 4294967295

/-- The largest number of bytes that a buffer has, as an `isize` for WASI. -/
def isizeMax : ℕ := 2147483647

/-- Add two numbers, if the sum is not too large for the machine. -/
def checkedAdd (n m : ℕ) : Option ℕ :=
  if n + m ≤ usizeMax then some (n + m) else none

/-- Take the last item off a list, if it has one. -/
def pop {α : Type} (l : List α) : Option (α × List α) :=
  l.getLast?.map fun x => (x, l.dropLast)

/-- One turn of the loop with all that it unwraps: `none` when there is nothing to unwrap. -/
def unwrapTurn (r : LineReader) : Option LineTurn :=
  match r.buf.idxOf? newline with
  | some pos =>
      (checkedAdd pos 1).bind fun len =>
        (pop (Buffer.splitTo r.buf len).1).map fun line =>
          .yields (fromUtf8 line.2) { r with buf := (Buffer.splitTo r.buf len).2 }
  | none =>
      if he : r.eof = true then some .ends
      else
        (checkedAdd r.buf.length chunkSize).bind fun newLen =>
          match hr : r.stdin.read with
          | (.ok bytes, stdin) =>
              (checkedAdd r.buf.length bytes.length).map fun len =>
                .again {
                  stdin := stdin
                  buf := Buffer.truncate
                    (Buffer.readSlice (Buffer.resize r.buf newLen 0) r.buf.length bytes) len
                  eof := bytes.isEmpty
                  ended := by
                    intro hb
                    rw [List.isEmpty_iff.mp hb] at hr
                    apply Stdin.reads_of_read_nil hr }
          | (.error err, stdin) =>
              some (.yields (.error ⟨.read, err⟩)
                ⟨stdin, Buffer.resize r.buf newLen 0, false, nofun⟩)

/-- What is left to read, and the end of the input. -/
def left (r : LineReader) : ℕ :=
  r.stdin.reads.length + (!r.eof).toNat

/-- A turn that comes round leaves less to read. -/
theorem left_lt {r r' : LineReader} (h : r.turn = .again r') :
  r'.left < r.left
  := by
  unfold turn at h
  split at h
  · cases h
  · split at h
    · cases h
    · split at h
      · rename_i bytes stdin hr
        cases h
        rw [left, left, (Bool.not_eq_true _).mp ‹¬ r.eof = true›]
        by_cases hb : bytes = []
        · subst hb
          rw [Stdin.reads_of_read_nil hr]
          exact Nat.lt_add_left _ Nat.one_pos
        · rw [Stdin.length_reads hr (by simpa using hb)]
          have htoNat : (!bytes.isEmpty).toNat ≤ (!false).toNat := Bool.toNat_le _
          dsimp only
          omega
      · cases h

/-- The next line: turns of the loop until one yields a line or ends. -/
def next (r : LineReader) : Option (Line × LineReader) :=
  match _ : r.turn with
  | .yields line r => some (line, r)
  | .ends => none
  | .again r' => next r'
  termination_by r.left
  decreasing_by exact left_lt ‹_›

/-- What the reader still has: its buffer, and the input. -/
def content (r : LineReader) : List UInt8 :=
  r.buf ++ r.stdin.bytes

/-- A turn that comes round keeps what the reader has. -/
theorem content_of_again {r r' : LineReader} (hr : r.stdin.Reliable) (h : r.turn = .again r') :
  r'.stdin.Reliable ∧ r'.content = r.content
  := by
  unfold turn at h
  split at h
  · cases h
  · split at h
    · cases h
    · split at h
      · rename_i bytes stdin hread
        cases h
        refine ⟨(hr.of_read hread).1, ?_⟩
        rw [content, content, Stdin.bytes_of_read hread, ← List.append_assoc]
        congr 1
        apply Buffer.truncate_readSlice
        apply Stdin.length_le hread
      · cases h

/-- A reader that ends has no newline left. -/
theorem content_of_ends {r : LineReader} (h : r.turn = .ends) :
  newline ∉ r.content
  := by
  unfold turn at h
  split at h
  · cases h
  · rename_i hidx
    split at h
    · rw [content, Stdin.bytes, Stdin.chunks, r.ended ‹_›]
      rw [List.filterMap_nil, List.flatten_nil, List.append_nil]
      apply List.idxOf?_eq_none_iff.mp hidx
    · split at h <;> cases h

/-- A reader that yields a line yields the first line of what it has. -/
theorem content_of_yields {r r' : LineReader} {line : Line} (hr : r.stdin.Reliable)
    (h : r.turn = .yields line r') :
  r'.stdin.Reliable ∧ ∃ bytes, line = fromUtf8 bytes ∧
    splitLines newline r.content =
      (bytes :: (splitLines newline r'.content).1, (splitLines newline r'.content).2)
  := by
  unfold turn at h
  split at h
  · rename_i pos hpos
    cases h
    obtain ⟨hmem, htake⟩ := take_idxOf? hpos
    refine ⟨hr, List.take pos r.buf, ?_, ?_⟩
    · rw [Buffer.splitTo, htake, List.dropLast_concat]
    · have hcontent : r.content =
          List.take pos r.buf ++ newline :: (List.drop (pos + 1) r.buf ++ r.stdin.bytes) := by
        rw [content, ← List.cons_append, ← List.append_assoc, List.append_cons, ← htake,
          List.take_append_drop]
      rw [hcontent, splitLines_line hmem]
      rfl
  · split at h
    · cases h
    · split at h
      · cases h
      · cases (hr.of_read ‹_›).2 _ rfl

/-- What the next line is: the first of what the reader has. -/
theorem next_eq {r : LineReader} (hr : r.stdin.Reliable) :
  (splitLines newline r.content).1 = [] ∧ r.next = none ∨
    ∃ bytes r', r.next = some (fromUtf8 bytes, r') ∧ r'.stdin.Reliable ∧
      splitLines newline r.content =
        (bytes :: (splitLines newline r'.content).1, (splitLines newline r'.content).2)
  := by
  fun_induction next r with
  | case1 r line r' h =>
      obtain ⟨hr', bytes, rfl, hsplit⟩ := content_of_yields hr h
      exact .inr ⟨bytes, r', rfl, hr', hsplit⟩
  | case2 r h =>
      left
      rw [splitLines_of_not_mem (content_of_ends h)]
      exact ⟨rfl, rfl⟩
  | case3 r r' h ih =>
      obtain ⟨hr', hcontent⟩ := content_of_again hr h
      rw [← hcontent]
      apply ih hr'

/-- The lines for WASI are the first ones that newlines terminate, as many as there are commands
to read one. -/
theorem readLines_next (commands : List TerminalCommand) {r : LineReader}
    (hr : r.stdin.Reliable) :
  readLines next commands r =
    ((splitLines newline r.content).1.take (commands.count .readLine)).map fromUtf8
  := by
  induction commands generalizing r with
  | nil => rfl
  | cons command commands ih =>
      cases command with
      | readLine =>
          rw [List.count_cons_self]
          rcases next_eq hr with ⟨hnil, hnext⟩ | ⟨bytes, r', hnext, hr', hsplit⟩
          · rw [readLines, hnext, hnil]
            rfl
          · rw [readLines, hnext, hsplit, List.take_succ_cons, List.map_cons, ← ih hr']
      | _ =>
          rw [readLines, List.count_cons_of_ne]
          · apply ih hr
          · exact nofun
          · exact nofun

end LineReader

/-- The lines for WASI, when the sink yields some commands. -/
def linesWasi (stdin : Stdin chunkSize) (commands : List TerminalCommand) : List Line :=
  readLines LineReader.next commands (LineReader.new stdin)

/-! ### The native lines -/

/-- A line without the carriage return at its end. -/
def withoutCarriageReturn (line : List Char) : List Char :=
  if line.getLast? = some '\r' then line.dropLast else line

/-- What a codec of lines makes of what no newline ends: a line, unless it is empty, or is a
carriage return alone and `keeps` does not hold. -/
def lastLine (keeps : Bool) (rest : List Char) : List (List Char) :=
  if rest = [] ∨ rest = ['\r'] ∧ keeps = false then [] else [withoutCarriageReturn rest]

/-- The lines of a text, for a codec of lines. -/
def codecLines (keeps : Bool) (text : List Char) : List (List Char) :=
  (splitLines '\n' text).1.map withoutCarriageReturn ++ lastLine keeps (splitLines '\n' text).2

/-- A codec of lines without a limit of their length: the frames that it makes of an input, which
are the lines of the text that the input is.  It may take a carriage return alone, at the end of
the input, for a line or not. -/
structure LinesCodec where
  frames : ∀ {n : ℕ}, Stdin n → List (Except BoxError String)
  keeps : Bool
  frames_eq : ∀ {n : ℕ} (stdin : Stdin n) (text : List Char), stdin.Reliable →
    stdin.bytes = utf8 text →
    frames stdin = (codecLines keeps text).map fun line => .ok (String.ofList line)

/-- The stream of lines, natively: the frames of the input, or the error of opening it. -/
def nativeLine (codec : LinesCodec) {n : ℕ} : Except BoxError (Stdin n) → List Line
  | .ok stdin => (codec.frames stdin).map fun line => line.mapError fun err => ⟨.line, err⟩
  | .error err => [.error ⟨.stdin, err⟩]

/-- The next item of a stream that is known in advance. -/
def nextLine : List Line → Option (Line × List Line)
  | [] => none
  | line :: lines => some (line, lines)

/-- The native lines, when the sink yields some commands. -/
def linesNative (codec : LinesCodec) {n : ℕ} (stdin : Except BoxError (Stdin n))
    (commands : List TerminalCommand) : List Line :=
  readLines nextLine commands (nativeLine codec stdin)

theorem readLines_nextLine (commands : List TerminalCommand) (lines : List Line) :
  readLines nextLine commands lines = lines.take (commands.count .readLine)
  := by
  induction commands generalizing lines with
  | nil => rfl
  | cons command commands ih =>
      cases command with
      | readLine =>
          rw [List.count_cons_self]
          cases lines with
          | nil => rfl
          | cons line lines => rw [List.take_succ_cons, ← ih lines, readLines, nextLine]
      | _ =>
          rw [readLines, List.count_cons_of_ne]
          · apply ih
          · exact nofun
          · exact nofun

/-! ### When the lines are the same -/

/-- The text of a line, as an item. -/
def item (line : List Char) : Line :=
  .ok (String.ofList line)

theorem item_injective :
  Function.Injective item
  := by
  intro line line' h
  have hof := Except.ok.inj h
  rw [← String.toList_ofList (l := line), hof, String.toList_ofList]

/-- The lines for WASI of a text that reads split in any way. -/
theorem linesWasi_eq {stdin : Stdin chunkSize} (hr : stdin.Reliable) {text : List Char}
    (ht : stdin.bytes = utf8 text) (commands : List TerminalCommand) :
  linesWasi stdin commands =
    ((splitLines '\n' text).1.take (commands.count .readLine)).map item
  := by
  rw [linesWasi, LineReader.readLines_next commands hr]
  have hcontent : (LineReader.new stdin).content = utf8 text := ht
  have hnewline : newline = UInt8.ofNat '\n'.toNat := rfl
  rw [hcontent, hnewline, splitLines_utf8 (by decide), List.map_take, List.map_take,
    List.map_map]
  congr 2
  funext line
  simp only [Function.comp_apply, LineReader.fromUtf8, fromUtf8_utf8, item]

/-- The native lines of a text that reads split in any way. -/
theorem linesNative_eq (codec : LinesCodec) {n : ℕ} {stdin : Stdin n} (hr : stdin.Reliable)
    {text : List Char} (ht : stdin.bytes = utf8 text) (commands : List TerminalCommand) :
  linesNative codec (.ok stdin) commands =
    ((codecLines codec.keeps text).take (commands.count .readLine)).map item
  := by
  rw [linesNative, readLines_nextLine, nativeLine, codec.frames_eq stdin text hr ht, List.map_map,
    List.map_take]
  rfl

/-- A line is left as it is exactly when no carriage return ends it. -/
theorem withoutCarriageReturn_eq_iff (line : List Char) :
  withoutCarriageReturn line = line ↔ line.getLast? ≠ some '\r'
  := by
  rw [withoutCarriageReturn]
  split
  · rename_i h
    apply iff_of_false _ (not_not_intro h)
    intro heq
    have hlen := congrArg List.length heq
    rw [List.length_dropLast] at hlen
    have hnil : line = [] := List.length_eq_zero_iff.mp (by omega)
    rw [hnil] at h
    cases h
  · exact iff_of_true rfl ‹_›

/-- The first `k` lines of a text are the same for both: none of those that a newline terminates
has a carriage return at its end, and there are `k` of them, or nothing follows them that is a line
for the codec. -/
def Plain (keeps : Bool) (text : List Char) (k : ℕ) : Prop :=
  (∀ line ∈ (splitLines '\n' text).1.take k, line.getLast? ≠ some '\r') ∧
    (k ≤ (splitLines '\n' text).1.length ∨ (splitLines '\n' text).2 = [] ∨
      (splitLines '\n' text).2 = ['\r'] ∧ keeps = false)

/-- When the two implementations of `lines` agree.  For an input that is a text, whatever way the
reads of each of them split it, and any commands, they yield the same items exactly when none of
the lines asked ends with a carriage return and a newline, and what no newline ends is not asked
for. -/
theorem linesWasi_eq_linesNative_iff (codec : LinesCodec) {n : ℕ} {native : Stdin n}
    {wasi : Stdin chunkSize} (hnative : native.Reliable) (hwasi : wasi.Reliable)
    {text : List Char} (htext : native.bytes = utf8 text) (hsame : wasi.bytes = native.bytes)
    (commands : List TerminalCommand) :
  linesWasi wasi commands = linesNative codec (.ok native) commands ↔
    Plain codec.keeps text (commands.count .readLine)
  := by
  rw [linesWasi_eq hwasi (hsame.trans htext), linesNative_eq codec hnative htext,
    List.map_inj_right (fun _ _ h => item_injective h), codecLines, take_eq_take_map_append_iff,
    Plain]
  apply and_congr
  · apply forall₂_congr
    intro line _
    apply withoutCarriageReturn_eq_iff
  · apply or_congr_right
    rw [lastLine]
    split
    · exact iff_of_true rfl ‹_›
    · exact iff_of_false nofun ‹_›

/-- A codec that reads all of its input first, and does not take a carriage return alone for a
line. -/
def LinesCodec.whole : LinesCodec where
  frames stdin :=
    match Text.fromUtf8 stdin.bytes with
    | some text => (codecLines false text.toList).map fun line => .ok (String.ofList line)
    | none => [.error "invalid utf-8 sequence"]
  keeps := false
  frames_eq := by
    intro n stdin text _ ht
    rw [ht, fromUtf8_utf8]
    dsimp only
    rw [String.toList_ofList]

theorem Stdin.reliable_ofChunks {n : ℕ} {chunks : List (List UInt8)}
    (hne : ∀ chunk ∈ chunks, chunk ≠ []) (hle : ∀ chunk ∈ chunks, chunk.length ≤ n) :
  (Stdin.ofChunks chunks hne hle).Reliable
  := by
  intro err hmem
  obtain ⟨chunk, -, heq⟩ := List.mem_map.mp hmem
  cases heq

/-- The input has a line that ends with a carriage return and a newline, and another one that
nothing ends, and two lines are asked.  For WASI the carriage return is part of the first one, and
the second one is not yielded. -/
theorem lines_differ :
  ∃ native : Stdin 4, ∃ wasi : Stdin chunkSize, native.Reliable ∧ wasi.Reliable ∧
    native.bytes = utf8 ['a', '\r', '\n', 'b'] ∧ wasi.bytes = native.bytes ∧
    linesNative LinesCodec.whole (.ok native) [.readLine, .readLine] = [.ok "a", .ok "b"] ∧
    linesWasi wasi [.readLine, .readLine] = [.ok "a\r"]
  := by
  let native : Stdin 4 := Stdin.ofChunks [[97, 13, 10, 98]] (by decide) (by decide)
  let wasi : Stdin chunkSize := Stdin.ofChunks [[97, 13], [10, 98]] (by decide) (by decide)
  have hnative : native.Reliable := Stdin.reliable_ofChunks _ _
  have hwasi : wasi.Reliable := Stdin.reliable_ofChunks _ _
  have htext : native.bytes = utf8 ['a', '\r', '\n', 'b'] := rfl
  have hsame : wasi.bytes = native.bytes := rfl
  refine ⟨native, wasi, hnative, hwasi, htext, hsame, ?_, ?_⟩
  · rw [linesNative_eq LinesCodec.whole hnative htext]
    decide
  · rw [linesWasi_eq hwasi (hsame.trans htext)]
    decide

/-- Of the same input, but without the carriage return, one line is asked. -/
theorem lines_agree :
  ∃ native : Stdin 4, ∃ wasi : Stdin chunkSize, native.bytes = utf8 ['a', '\n', 'b'] ∧
    wasi.bytes = native.bytes ∧
    linesWasi wasi [.write ">> ", .readLine] =
      linesNative LinesCodec.whole (.ok native) [.write ">> ", .readLine]
  := by
  let native : Stdin 4 := Stdin.ofChunks [[97, 10, 98]] (by decide) (by decide)
  let wasi : Stdin chunkSize := Stdin.ofChunks [[97], [10], [98]] (by decide) (by decide)
  have hnative : native.Reliable := Stdin.reliable_ofChunks _ _
  have hwasi : wasi.Reliable := Stdin.reliable_ofChunks _ _
  have htext : native.bytes = utf8 ['a', '\n', 'b'] := rfl
  have hsame : wasi.bytes = native.bytes := rfl
  refine ⟨native, wasi, htext, hsame, ?_⟩
  apply (linesWasi_eq_linesNative_iff LinesCodec.whole hnative hwasi htext hsame _).mpr
  constructor
  · decide
  · left
    decide

end Terminal

end Cyclers
