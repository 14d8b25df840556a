import Cyclers.Terminal.Lines
import Mathlib.Logic.Relation

/-!
# Reads of the input

The loop that yields the lines for WASI, turn by turn.  A turn reads only when the buffer has no
newline.  What has been read is what has been yielded, newlines included, and then the buffer, as
long as no read fails.  A read that fails leaves the room made for it in the buffer, as zeros
that a later line has.
-/

open Async Text

namespace Cyclers

namespace Terminal

/-- The error that a read gives, if it fails. -/
def errorOf : Except BoxError (List UInt8) → Option BoxError
  | .ok _ => none
  | .error err => some err

/-- The errors of the reads. -/
def Stdin.errors {n : ℕ} (stdin : Stdin n) : List BoxError :=
  stdin.reads.filterMap errorOf

/-- The input without the reads that fail. -/
def Stdin.withoutErrors {n : ℕ} (stdin : Stdin n) : Stdin n where
  reads := stdin.reads.filter Except.isOk
  ne_nil chunk h := stdin.ne_nil chunk (List.mem_of_mem_filter h)
  le chunk h := stdin.le chunk (List.mem_of_mem_filter h)

/-- An input whose reads do not fail has no errors to leave out. -/
theorem Stdin.Reliable.withoutErrors_eq {n : ℕ} {stdin : Stdin n} (h : stdin.Reliable) :
  stdin.errors = [] ∧ stdin.withoutErrors = stdin
  := by
  obtain ⟨reads, ne_nil, le⟩ := stdin
  constructor
  · rw [errors, List.filterMap_eq_nil_iff]
    intro result hmem
    cases result with
    | ok chunk => rfl
    | error err => cases h err hmem
  · have hreads : reads.filter Except.isOk = reads := by
      rw [List.filter_eq_self]
      intro result hmem
      cases result with
      | ok chunk => rfl
      | error err => cases h err hmem
    simp only [withoutErrors, hreads]

/-- What a read gives, and what is left to read after it. -/
theorem Stdin.reads_of_read {n : ℕ} {stdin stdin' : Stdin n}
    {result : Except BoxError (List UInt8)} (h : stdin.read = (result, stdin')) :
  stdin.reads = result :: stdin'.reads ∨ result = .ok [] ∧ stdin = stdin' ∧ stdin.reads = []
  := by
  obtain ⟨reads, ne_nil, le⟩ := stdin
  cases reads with
  | nil =>
      cases h
      exact .inr ⟨rfl, rfl, rfl⟩
  | cons result reads =>
      cases h
      exact .inl rfl

namespace LineReader

/-! ### What a turn does -/

/-- The room is made of zeros. -/
theorem room_eq (r : LineReader) :
  r.room = r.buf ++ List.replicate chunkSize 0
  := by
  rw [room, Buffer.resize, List.take_of_length_le (Nat.le_add_right _ _),
    Nat.add_sub_cancel_left]

/-- What a turn of the loop does, by what the buffer has and what the read gives. -/
inductive Takes (r : LineReader) : LineTurn → Prop where
  | line (bytes rest : List UInt8) : newline ∉ bytes → r.buf = bytes ++ newline :: rest →
      Takes r (.yields (fromUtf8 bytes) { r with buf := rest })
  | ends : newline ∉ r.buf → r.eof = true → Takes r .ends
  | reads (bytes : List UInt8) (r' : LineReader) : newline ∉ r.buf → r.eof = false →
      r.stdin.read = (.ok bytes, r'.stdin) → r'.buf = r.buf ++ bytes →
      r'.eof = bytes.isEmpty → Takes r (.again r')
  | fails (err : BoxError) (r' : LineReader) : newline ∉ r.buf → r.eof = false →
      r.stdin.read = (.error err, r'.stdin) → r'.buf = r.room → r'.eof = false →
      Takes r (.yields (.error ⟨.read, err⟩) r')

theorem takes_turn (r : LineReader) :
  Takes r r.turn
  := by
  unfold turn
  split
  · rename_i pos hpos
    obtain ⟨hmem, htake⟩ := take_idxOf? hpos
    rw [Buffer.splitTo, htake, List.dropLast_concat]
    apply Takes.line _ _ hmem
    dsimp only
    rw [List.append_cons, ← htake, List.take_append_drop]
  · rename_i hidx
    have hmem : newline ∉ r.buf := List.idxOf?_eq_none_iff.mp hidx
    split
    · exact .ends hmem ‹_›
    · have heof : r.eof = false := (Bool.not_eq_true _).mp ‹_›
      split
      · rename_i bytes stdin hread
        apply Takes.reads bytes _ hmem heof hread _ rfl
        apply Buffer.truncate_readSlice
        apply Stdin.length_le hread
      · rename_i err stdin hread
        exact .fails err _ hmem heof hread rfl rfl

/-- A turn that yields a line leaves less to read, or as much and a shorter buffer. -/
theorem lt_of_yields {r r' : LineReader} {line : Line} (h : r.turn = .yields line r') :
  Prod.Lex (· < ·) (· < ·) (r'.left, r'.buf.length) (r.left, r.buf.length)
  := by
  have hturn := r.takes_turn
  rw [h] at hturn
  cases hturn with
  | line bytes rest _ hbuf =>
      right
      rw [hbuf, List.length_append, List.length_cons]
      dsimp only
      omega
  | fails err _ _ heof hread _ heof' =>
      left
      rw [left, left, Stdin.length_reads hread (fun h => by cases h), heof, heof']
      omega

/-- All the lines that a reader yields, until it ends. -/
def lines (r : LineReader) : List Line :=
  match _ : r.turn with
  | .yields line r' => line :: lines r'
  | .ends => []
  | .again r' => lines r'
  termination_by (r.left, r.buf.length)
  decreasing_by
    · exact lt_of_yields ‹_›
    · exact .left _ _ (left_lt ‹_›)

/-- The reader `r` comes to the reader `r'`, turn by turn, and yields some lines on its way. -/
inductive Runs (r : LineReader) : List Line → LineReader → Prop where
  | refl : Runs r [] r
  | again {lines : List Line} {r' r'' : LineReader} :
      Runs r lines r' → r'.turn = .again r'' → Runs r lines r''
  | yields {lines : List Line} {line : Line} {r' r'' : LineReader} :
      Runs r lines r' → r'.turn = .yields line r'' → Runs r (lines ++ [line]) r''

/-- What a reader yields on its way to another one comes first. -/
theorem Runs.trans {r r' r'' : LineReader} {items items' : List Line} (h : Runs r items r')
    (h' : Runs r' items' r'') :
  Runs r (items ++ items') r''
  := by
  induction h' with
  | refl => simpa using h
  | again _ hturn ih => exact .again ih hturn
  | yields _ hturn ih =>
      rw [← List.append_assoc]
      exact .yields ih hturn

/-- The reads of a reader do not fail when they do not on its way. -/
theorem Runs.reliable {r r' : LineReader} {items : List Line} (h : Runs r items r')
    (hr : r.stdin.Reliable) :
  r'.stdin.Reliable
  := by
  induction h with
  | refl => exact hr
  | again _ hturn ih => exact (content_of_again ih hturn).1
  | yields _ hturn ih => exact (content_of_yields ih hturn).1

/-! ### Reads that do not fail -/

/-- The item that is due for the bytes of a line: the text that they encode, when they encode one,
and otherwise the error that they are not valid UTF-8. -/
inductive Decodes (bytes : List UInt8) : Line → Prop where
  | text (text : List Char) : bytes = utf8 text → Decodes bytes (.ok (String.ofList text))
  | invalid (inner : BoxError) : (∀ text, bytes ≠ utf8 text) →
      Decodes bytes (.error ⟨.invalidUtf8, inner⟩)

/-- The line that bytes are is the item that is due for them. -/
theorem decodes_fromUtf8 (bytes : List UInt8) :
  Decodes bytes (fromUtf8 bytes)
  := by
  by_cases h : ∃ text, bytes = utf8 text
  · obtain ⟨text, rfl⟩ := h
    rw [fromUtf8, Text.fromUtf8_utf8]
    apply Decodes.text text rfl
  · rw [not_exists] at h
    rw [fromUtf8, fromUtf8_eq_none h]
    apply Decodes.invalid _ h

/-- The lines that some bytes are, one after another, are the items that are due. -/
theorem decodes_map_fromUtf8 (segments : List (List UInt8)) :
  List.Forall₂ Decodes segments (segments.map fromUtf8)
  := by
  rw [List.forall₂_map_right_iff, List.forall₂_same]
  intro bytes _
  apply decodes_fromUtf8

/-- What has been read of an input is what the items are made of, newlines included, and then
the buffer. -/
def Accounted (stdin : Stdin chunkSize) (items : List Line) (r : LineReader) : Prop :=
  ∃ read segments : List (List UInt8),
    stdin.chunks = read ++ r.stdin.chunks ∧
    read.flatten = segments.flatMap (· ++ [newline]) ++ r.buf ∧
    (∀ segment ∈ segments, newline ∉ segment) ∧ List.Forall₂ Decodes segments items

/-- As long as no read fails, all that is read is accounted for. -/
theorem Runs.accounted {stdin : Stdin chunkSize} {r : LineReader} {items : List Line}
    (h : Runs (new stdin) items r) (hr : stdin.Reliable) :
  Accounted stdin items r
  := by
  induction h with
  | refl => exact ⟨[], [], rfl, rfl, by simp, .nil⟩
  | @again items r r' _ hturn ih =>
      obtain ⟨read, segments, hchunks, hread, hmem, hitems⟩ := ih
      have htakes := r.takes_turn
      rw [hturn] at htakes
      cases htakes with
      | reads bytes _ _ _ hstdin hbuf _ =>
          rcases Stdin.reads_of_read hstdin with hreads | ⟨hok, heq, -⟩
          · refine ⟨read ++ [bytes], segments, ?_, ?_, hmem, hitems⟩
            · rw [hchunks, Stdin.chunks, hreads, List.append_assoc]
              rfl
            · rw [List.flatten_append, hread, hbuf, List.flatten_singleton, List.append_assoc]
          · cases hok
            rw [List.append_nil] at hbuf
            exact ⟨read, segments, heq ▸ hchunks, hbuf ▸ hread, hmem, hitems⟩
  | @yields items line r r' hruns hturn ih =>
      obtain ⟨read, segments, hchunks, hread, hmem, hitems⟩ := ih
      have htakes := r.takes_turn
      rw [hturn] at htakes
      cases htakes with
      | line bytes rest hnot hbuf =>
          refine ⟨read, segments ++ [bytes], hchunks, ?_, ?_, ?_⟩
          · rw [hread, hbuf, List.flatMap_append, List.flatMap_singleton, List.append_assoc,
              List.append_assoc]
            rfl
          · rw [List.forall_mem_append, List.forall_mem_singleton]
            exact ⟨hmem, hnot⟩
          · apply List.rel_append hitems
            exact .cons (decodes_fromUtf8 bytes) .nil
      | fails err _ _ _ hstdin _ _ => cases ((hruns.reliable hr).of_read hstdin).2 err rfl

/-- The lines are those that newlines terminate in what the reader has. -/
theorem lines_eq {r : LineReader} (hr : r.stdin.Reliable) :
  r.lines = (splitLines newline r.content).1.map fromUtf8
  := by
  fun_induction lines r with
  | case1 r line r' h ih =>
      obtain ⟨hr', bytes, rfl, hsplit⟩ := content_of_yields hr h
      rw [hsplit, ih hr', List.map_cons]
  | case2 r h => rw [splitLines_of_not_mem (content_of_ends h), List.map_nil]
  | case3 r r' h ih =>
      obtain ⟨hr', hcontent⟩ := content_of_again hr h
      rw [ih hr', hcontent]

/-- The loop comes round until a turn yields a line or ends, which is what `next` gives. -/
theorem exists_turn (r : LineReader) :
  ∃ r', Relation.ReflTransGen (fun r r' => r.turn = .again r') r r' ∧
    (r'.turn = .ends ∧ r.next = none ∨
      ∃ line r'', r'.turn = .yields line r'' ∧ r.next = some (line, r''))
  := by
  fun_induction next r with
  | case1 r line r' h => exact ⟨r, .refl, .inr ⟨line, r', h, rfl⟩⟩
  | case2 r h => exact ⟨r, .refl, .inl ⟨h, rfl⟩⟩
  | case3 r r' h ih =>
      obtain ⟨r'', hrounds, hlast⟩ := ih
      exact ⟨r'', .head h hrounds, hlast⟩

/-- A turn that reads a chunk comes round with it. -/
theorem turn_of_ok {r : LineReader} {bytes : List UInt8} {stdin : Stdin chunkSize}
    (hidx : r.buf.idxOf? newline = none) (heof : ¬ r.eof = true)
    (hread : r.stdin.read = (.ok bytes, stdin)) (h : bytes.isEmpty = true → stdin.reads = []) :
  r.turn = .again ⟨stdin, Buffer.truncate (Buffer.readSlice r.room r.buf.length bytes)
    (r.buf.length + bytes.length), bytes.isEmpty, h⟩
  := by
  rw [turn, hidx]
  dsimp only
  rw [dif_neg heof]
  split <;> cases hread.symm.trans ‹r.stdin.read = _›
  rfl

/-- A turn whose read fails yields the error. -/
theorem turn_of_error {r : LineReader} {err : BoxError} {stdin : Stdin chunkSize}
    (hidx : r.buf.idxOf? newline = none) (heof : ¬ r.eof = true)
    (hread : r.stdin.read = (.error err, stdin)) (h : false = true → stdin.reads = []) :
  r.turn = .yields (.error ⟨.read, err⟩) ⟨stdin, r.room, false, h⟩
  := by
  rw [turn, hidx]
  dsimp only
  rw [dif_neg heof]
  split <;> cases hread.symm.trans ‹r.stdin.read = _›
  rfl

/-- Nothing that a turn unwraps is missing. -/
theorem unwrapTurn_eq {r : LineReader} (h : r.buf.length ≤ isizeMax) :
  r.unwrapTurn = some r.turn
  := by
  have hadd : ∀ n m, n ≤ isizeMax → m ≤ chunkSize → checkedAdd n m = some (n + m) := by
    intro n m hn hm
    rw [checkedAdd, if_pos]
    unfold isizeMax at hn
    unfold chunkSize at hm
    unfold usizeMax
    omega
  cases hidx : r.buf.idxOf? newline with
  | some pos =>
      have hlt := (List.idxOf?_eq_some_iff.mp hidx).1
      obtain ⟨-, htake⟩ := take_idxOf? hidx
      rw [unwrapTurn, turn, hidx]
      dsimp only
      rw [hadd pos 1 (by omega) (by decide), Option.bind_some, Buffer.splitTo, htake, pop,
        List.getLast?_concat]
      rfl
  | none =>
      rw [unwrapTurn, hidx]
      dsimp only
      split
      · rw [turn, hidx]
        dsimp only
        rw [dif_pos ‹_›]
      · rename_i heof
        rw [hadd _ _ h le_rfl, Option.bind_some]
        split
        · rename_i bytes stdin hread
          rw [hadd _ _ h (Stdin.length_le hread), turn_of_ok hidx heof hread]
          rfl
        · rename_i err stdin hread
          rw [turn_of_error hidx heof hread]
          rfl

/-- A turn with a newline in the buffer depends on the buffer alone.  It does not read. -/
theorem turn_of_mem {r : LineReader} (h : newline ∈ r.buf) :
  ∃ line buf, ∀ r' : LineReader, r'.buf = r.buf → r'.turn = .yields line { r' with buf := buf }
  := by
  cases hidx : r.buf.idxOf? newline with
  | none => cases List.idxOf?_eq_none_iff.mp hidx h
  | some pos =>
      use fromUtf8 (Buffer.splitTo r.buf (pos + 1)).1.dropLast, (Buffer.splitTo r.buf (pos + 1)).2
      intro r' hbuf
      rw [← hbuf] at hidx
      rw [turn, hidx, hbuf]

/-- A reader comes to its end, and yields its lines on the way. -/
theorem exists_ends (r : LineReader) :
  ∃ r', Runs r r.lines r' ∧ r'.turn = .ends
  := by
  fun_induction lines r with
  | case1 r line r' h ih =>
      obtain ⟨r'', hruns, hends⟩ := ih
      exact ⟨r'', (Runs.refl.yields h).trans hruns, hends⟩
  | case2 r h => exact ⟨r, .refl, h⟩
  | case3 r r' h ih =>
      obtain ⟨r'', hruns, hends⟩ := ih
      exact ⟨r'', (Runs.refl.again h).trans hruns, hends⟩

/-- An input whose reads do not fail, however they split it, gives the lines that newlines
terminate, each as its text or as the error that it is not valid UTF-8, and ends.  At each turn what
has been read is accounted for, the loop comes to a line or to its end, nothing that is unwrapped is
missing, and a buffer with a newline is not read into.  No buffer has more than `isizeMax` bytes. -/
theorem lines_correct {stdin : Stdin chunkSize} (hr : stdin.Reliable) :
  (∃ segments : List (List UInt8), ∃ rest, stdin.bytes = segments.flatMap (· ++ [newline]) ++ rest ∧
      (∀ segment ∈ segments, newline ∉ segment) ∧ newline ∉ rest ∧
      List.Forall₂ Decodes segments (new stdin).lines ∧
      ∃ r, Runs (new stdin) (new stdin).lines r ∧ r.turn = .ends) ∧
    ∀ items r, Runs (new stdin) items r →
      Accounted stdin items r ∧
      (∃ r', Relation.ReflTransGen (fun r r' => r.turn = .again r') r r' ∧
        (r'.turn = .ends ∧ r.next = none ∨
          ∃ line r'', r'.turn = .yields line r'' ∧ r.next = some (line, r''))) ∧
      (r.buf.length ≤ isizeMax → r.unwrapTurn = some r.turn) ∧
      (newline ∈ r.buf →
        ∃ line buf, ∀ r' : LineReader, r'.buf = r.buf →
          r'.turn = .yields line { r' with buf := buf })
  := by
  constructor
  · obtain ⟨hsegments, hrest⟩ := not_mem_splitLines newline stdin.bytes
    refine ⟨(splitLines newline stdin.bytes).1, (splitLines newline stdin.bytes).2,
      (flatMap_splitLines newline stdin.bytes).symm, hsegments, hrest, ?_, exists_ends _⟩
    have hlines : (new stdin).lines = (splitLines newline stdin.bytes).1.map fromUtf8 :=
      lines_eq (r := new stdin) hr
    rw [hlines]
    apply decodes_map_fromUtf8
  · intro items r hruns
    exact ⟨hruns.accounted hr, r.exists_turn, unwrapTurn_eq, turn_of_mem⟩

/-- The reads of an input split a line, and a character; the second line is not valid UTF-8, and
what follows it is not terminated. -/
theorem lines_correct_chunks :
  ∃ stdin : Stdin chunkSize, stdin.reads = [.ok [195], .ok [169, 10, 255, 10, 97]] ∧
    stdin.Reliable ∧ (new stdin).lines = [.ok "é", .error ⟨.invalidUtf8, "invalid utf-8 sequence"⟩] ∧
    ∃ segments : List (List UInt8), ∃ rest, stdin.bytes = segments.flatMap (· ++ [newline]) ++ rest ∧
      List.Forall₂ Decodes segments (new stdin).lines
  := by
  let stdin : Stdin chunkSize :=
    Stdin.ofChunks [[195], [169, 10, 255, 10, 97]] (by decide) (by decide)
  have hr : stdin.Reliable := Stdin.reliable_ofChunks _ _
  obtain ⟨⟨segments, rest, hbytes, -, -, hlines, -⟩, -⟩ := lines_correct hr
  refine ⟨stdin, rfl, hr, ?_, segments, rest, hbytes, hlines⟩
  rw [lines_eq hr]
  decide

/-! ### Reads that fail -/

/-- The item is the error of a read. -/
def isRead : Line → Bool
  | .error ⟨.read, _⟩ => true
  | _ => false

theorem isRead_fromUtf8 (bytes : List UInt8) :
  isRead (fromUtf8 bytes) = false
  := by
  rw [fromUtf8]
  split <;> rfl

/-- What some reads give, when the buffer has some bytes before them: the lines that there are
already, then, after each read, those that end in what it gives.  A read that fails gives its
error, and leaves `gap` in the buffer. -/
def framed (gap : List UInt8) : List UInt8 → List (Except BoxError (List UInt8)) → List Line
  | buf, [] => (splitLines newline buf).1.map fromUtf8
  | buf, .ok chunk :: reads =>
      (splitLines newline buf).1.map fromUtf8 ++
        framed gap ((splitLines newline buf).2 ++ chunk) reads
  | buf, .error err :: reads =>
      (splitLines newline buf).1.map fromUtf8 ++
        .error ⟨.read, err⟩ :: framed gap ((splitLines newline buf).2 ++ gap) reads

/-- The first line in the buffer is the first of all. -/
theorem framed_line (gap : List UInt8) {bytes : List UInt8} (h : newline ∉ bytes)
    (rest : List UInt8) (reads : List (Except BoxError (List UInt8))) :
  framed gap (bytes ++ newline :: rest) reads = fromUtf8 bytes :: framed gap rest reads
  := by
  rcases reads with _ | ⟨_ | _, reads⟩ <;> rw [framed, framed, splitLines_line h] <;> rfl

/-- What a reader yields is what its reads give, each that fails leaving the room for a chunk. -/
theorem lines_eq_framed (r : LineReader) :
  r.lines = framed (List.replicate chunkSize 0) r.buf r.stdin.reads
  := by
  fun_induction lines r with
  | case1 r line r' h ih =>
      have hturn := r.takes_turn
      rw [h] at hturn
      rw [ih]
      cases hturn with
      | line bytes rest hmem hbuf => rw [hbuf, framed_line _ hmem]
      | fails err _ hmem _ hread hbuf _ =>
          rcases Stdin.reads_of_read hread with hreads | ⟨herr, -⟩
          · rw [hreads, framed, splitLines_of_not_mem hmem, hbuf, room_eq]
            rfl
          · cases herr
  | case2 r h =>
      have hturn := r.takes_turn
      rw [h] at hturn
      cases hturn with
      | ends hmem heof => rw [r.ended heof, framed, splitLines_of_not_mem hmem, List.map_nil]
  | case3 r r' h ih =>
      have hturn := r.takes_turn
      rw [h] at hturn
      rw [ih]
      cases hturn with
      | reads bytes _ hmem _ hread hbuf _ =>
          rcases Stdin.reads_of_read hread with hreads | ⟨hok, heq, hreads⟩
          · rw [hreads, framed, splitLines_of_not_mem hmem, hbuf]
            rfl
          · cases hok
            rw [hbuf, ← heq, List.append_nil]

/-- The errors of the reads are items, each of them once and in their order. -/
theorem filter_isRead_framed (gap buf : List UInt8) (reads : List (Except BoxError (List UInt8))) :
  (framed gap buf reads).filter isRead =
    (reads.filterMap errorOf).map fun err => .error ⟨.read, err⟩
  := by
  have hlines : ∀ buf, ((splitLines newline buf).1.map fromUtf8).filter isRead = [] := by
    intro buf
    simp [isRead_fromUtf8]
  induction reads generalizing buf with
  | nil => exact hlines buf
  | cons result reads ih =>
      cases result with
      | ok chunk => rw [framed, List.filter_append, hlines, ih]; rfl
      | error err =>
          rw [framed, List.filter_append, hlines, List.filter_cons_of_pos rfl, ih]
          rfl

/-- A reader with a read before it that fails comes to one that is about to fail. -/
theorem exists_fails {r : LineReader} {err : BoxError} (h : .error err ∈ r.stdin.reads) :
  ∃ items r' err' stdin', Runs r items r' ∧ newline ∉ r'.buf ∧
    r'.stdin.read = (.error err', stdin')
  := by
  fun_induction lines r with
  | case1 r line r' hturn ih =>
      have htakes := r.takes_turn
      rw [hturn] at htakes
      cases htakes with
      | line bytes rest _ _ =>
          obtain ⟨items, r', err', stdin', hruns, hfails⟩ := ih h
          exact ⟨_, r', err', stdin', (Runs.refl.yields hturn).trans hruns, hfails⟩
      | fails err _ hmem _ hread _ _ => exact ⟨[], r, err, _, .refl, hmem, hread⟩
  | case2 r hturn =>
      have htakes := r.takes_turn
      rw [hturn] at htakes
      cases htakes with
      | ends _ heof =>
          rw [r.ended heof] at h
          cases h
  | case3 r r' hturn ih =>
      have htakes := r.takes_turn
      rw [hturn] at htakes
      have hmem : .error err ∈ r'.stdin.reads := by
        cases htakes with
        | reads bytes _ _ _ hread _ _ =>
            rcases Stdin.reads_of_read hread with hreads | ⟨-, heq, -⟩
            · rw [hreads, List.mem_cons] at h
              apply h.resolve_left (fun h => by cases h)
            · rwa [← heq]
      obtain ⟨items, r', err', stdin', hruns, hfails⟩ := ih hmem
      exact ⟨_, r', err', stdin', (Runs.refl.again hturn).trans hruns, hfails⟩

/-- A read that fails leaves the reader as it was: its error is an item, once, the buffer is the
one before the read, and the other items are those of the input without the reads that fail. -/
structure Intact (stdin : Stdin chunkSize) : Prop where
  errors : (new stdin).lines.filter isRead = stdin.errors.map fun err => .error ⟨.read, err⟩
  buf : ∀ items r err stdin', Runs (new stdin) items r → newline ∉ r.buf →
    r.stdin.read = (.error err, stdin') →
    ∃ r', r.turn = .yields (.error ⟨.read, err⟩) r' ∧ r'.buf = r.buf
  others : ((new stdin).lines.filter fun line => !isRead line) = (new stdin.withoutErrors).lines

/-- After a read that fails the buffer is longer by the room that was made for it. -/
theorem not_buf_of_fails {r : LineReader} {err : BoxError} (hmem : newline ∉ r.buf) :
  ¬ ∃ r', r.turn = .yields (.error ⟨.read, err⟩) r' ∧ r'.buf = r.buf
  := by
  rintro ⟨r', hturn, hbuf⟩
  have htakes := r.takes_turn
  rw [hturn] at htakes
  generalize hline : (.error ⟨.read, err⟩ : Line) = line at htakes
  cases htakes with
  | line bytes rest _ hbuf' =>
      rw [hbuf'] at hmem
      apply hmem
      simp
  | fails _ _ _ _ _ hroom _ =>
      rw [hroom, room_eq] at hbuf
      have hlen := congrArg List.length hbuf
      rw [List.length_append, List.length_replicate, chunkSize] at hlen
      omega

/-- The reads that fail leave the reader as it was only when there are none. -/
theorem intact_iff (stdin : Stdin chunkSize) :
  Intact stdin ↔ stdin.Reliable
  := by
  constructor
  · intro h err hmem
    obtain ⟨items, r, err', stdin', hruns, hnot, hread⟩ := exists_fails (r := new stdin) hmem
    apply not_buf_of_fails hnot (h.buf items r err' stdin' hruns hnot hread)
  · intro hr
    have herrors : (new stdin).lines.filter isRead = [] := by
      rw [lines_eq_framed, filter_isRead_framed]
      exact congrArg (List.map _) hr.withoutErrors_eq.1
    constructor
    · rw [herrors, hr.withoutErrors_eq.1]
      rfl
    · intro items r err stdin' hruns _ hread
      cases ((hruns.reliable hr).of_read hread).2 err rfl
    · rw [hr.withoutErrors_eq.2, List.filter_eq_self]
      rw [List.filter_eq_nil_iff] at herrors
      intro line hline
      rw [(Bool.not_eq_true _).mp (herrors line hline)]
      rfl

theorem fromUtf8_utf8 (text : List Char) :
  fromUtf8 (utf8 text) = item text
  := by
  rw [fromUtf8, Text.fromUtf8_utf8]
  rfl

/-- The line that a read fails in the middle of has what that read leaves. -/
theorem framed_fails {gap before after : List UInt8} (hbefore : newline ∉ before)
    (hgap : newline ∉ gap) (hafter : newline ∉ after) (err : BoxError) :
  framed gap [] [.ok before, .error err, .ok (after ++ [newline])] =
    [.error ⟨.read, err⟩, fromUtf8 (before ++ gap ++ after)]
  := by
  have hmem : newline ∉ before ++ gap ++ after := by simp [hbefore, hgap, hafter]
  have hline := framed_line gap hmem [] []
  rw [List.append_assoc (before ++ gap)] at hline
  have hroom : newline ∉ before ++ gap := by simp [hbefore, hgap]
  have hnil : splitLines newline [] = ([], []) := rfl
  rw [framed, hnil, framed, List.nil_append, splitLines_of_not_mem hbefore, framed,
    splitLines_of_not_mem hroom]
  dsimp only
  rw [hline, framed, hnil]
  rfl

/-- A read fails in the middle of a line.  The line has the zeros of the room that was made for
the read. -/
theorem not_intact :
  ∃ stdin : Stdin chunkSize, stdin.reads = [.ok [97], .error "interrupted", .ok [98, 10]] ∧
    (new stdin).lines = [.error ⟨.read, "interrupted"⟩,
      item (['a'] ++ List.replicate chunkSize (Char.ofNat 0) ++ ['b'])] ∧
    (new stdin.withoutErrors).lines = [item ['a', 'b']] ∧
    ¬ Intact stdin
  := by
  let stdin : Stdin chunkSize :=
    ⟨[.ok [97], .error "interrupted", .ok [98, 10]], by simp, by simp [chunkSize]⟩
  have hutf8 : ∀ n, utf8 (['a'] ++ List.replicate n (Char.ofNat 0) ++ ['b']) =
      [97] ++ List.replicate n 0 ++ [98] := by
    intro n
    rw [utf8, List.flatMap_append, List.flatMap_append, List.flatMap_replicate]
    congr 2
    apply List.flatten_replicate_singleton
  refine ⟨stdin, rfl, ?_, ?_, ?_⟩
  · rw [lines_eq_framed, ← fromUtf8_utf8, hutf8]
    have hzeros : newline ∉ List.replicate chunkSize (0 : UInt8) := by simp [newline]
    have hbefore : newline ∉ [(97 : UInt8)] := by decide
    have hafter : newline ∉ [(98 : UInt8)] := by decide
    rw [← framed_fails hbefore hzeros hafter "interrupted"]
    rfl
  · rw [lines_eq_framed]
    rfl
  · intro h
    obtain ⟨items, r, err, stdin', hruns, hnot, hread⟩ :=
      @exists_fails (new stdin) "interrupted" (.tail _ (.head _))
    apply not_buf_of_fails hnot (h.buf items r err stdin' hruns hnot hread)

end LineReader

end Terminal

end Cyclers
