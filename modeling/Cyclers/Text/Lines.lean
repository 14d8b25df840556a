import Mathlib.Data.List.Basic
import Mathlib.Data.Char

/-!
# Lines

A text is split at each occurrence of a terminator into the lines that it terminates and the
rest, which no terminator ends.  Splitting commutes with encoding the text when the terminator is
encoded as one item that occurs in the encoding of nothing else.  This is so of UTF-8 and the
characters of ASCII.
-/

namespace Text

variable {α β : Type*}

/-- Put `l` before the first line, or before the rest when there is no line. -/
def prepend (l : List α) : List (List α) × List α → List (List α) × List α
  | ([], rest) => ([], l ++ rest)
  | (line :: lines, rest) => ((l ++ line) :: lines, rest)

/-- The lines of a list that `x` terminates, without it, and the rest. -/
def splitLines [DecidableEq α] (x : α) : List α → List (List α) × List α
  | [] => ([], [])
  | a :: l =>
      if a = x then ([] :: (splitLines x l).1, (splitLines x l).2)
      else prepend [a] (splitLines x l)

theorem prepend_nil (p : List (List α) × List α) :
  prepend [] p = p
  := by
  obtain ⟨lines, rest⟩ := p
  cases lines <;> rfl

theorem prepend_prepend (l l' : List α) (p : List (List α) × List α) :
  prepend l (prepend l' p) = prepend (l ++ l') p
  := by
  obtain ⟨lines, rest⟩ := p
  cases lines <;> simp [prepend]

/-- What comes before the first terminator is before the first line. -/
theorem splitLines_append [DecidableEq α] {x : α} {l : List α} (h : x ∉ l) (l' : List α) :
  splitLines x (l ++ l') = prepend l (splitLines x l')
  := by
  induction l with
  | nil => exact (prepend_nil _).symm
  | cons a l ih =>
      rw [List.mem_cons, not_or] at h
      rw [List.cons_append, splitLines, if_neg (Ne.symm h.1), ih h.2, prepend_prepend]
      rfl

/-- A list without terminators has no lines. -/
theorem splitLines_of_not_mem [DecidableEq α] {x : α} {l : List α} (h : x ∉ l) :
  splitLines x l = ([], l)
  := by
  have happ := splitLines_append h []
  rw [List.append_nil] at happ
  rw [happ, splitLines, prepend, List.append_nil]

/-- The first line ends at the first terminator. -/
theorem splitLines_line [DecidableEq α] {x : α} {l : List α} (h : x ∉ l) (l' : List α) :
  splitLines x (l ++ x :: l') = (l :: (splitLines x l').1, (splitLines x l').2)
  := by
  rw [splitLines_append h, splitLines, if_pos rfl, prepend, List.append_nil]

/-- The lines, each with its terminator, and the rest are the list. -/
theorem flatMap_splitLines [DecidableEq α] (x : α) (l : List α) :
  (splitLines x l).1.flatMap (· ++ [x]) ++ (splitLines x l).2 = l
  := by
  induction l with
  | nil => rfl
  | cons a l ih =>
      rw [splitLines]
      split
      · rw [List.flatMap_cons, List.nil_append, List.append_assoc, ih, ‹a = x›]
        rfl
      · cases hsplit : splitLines x l with
        | mk lines rest =>
            rw [hsplit] at ih
            cases lines with
            | nil => exact congrArg (a :: ·) ih
            | cons line lines => exact congrArg (a :: ·) ih

/-- Neither the lines nor the rest have a terminator. -/
theorem not_mem_splitLines [DecidableEq α] (x : α) (l : List α) :
  (∀ line ∈ (splitLines x l).1, x ∉ line) ∧ x ∉ (splitLines x l).2
  := by
  induction l with
  | nil => simp [splitLines]
  | cons a l ih =>
      rw [splitLines]
      split
      · simpa using ih
      · have ha : x ≠ a := Ne.symm ‹_›
        cases hsplit : splitLines x l with
        | mk lines rest =>
            rw [hsplit] at ih
            cases lines with
            | nil => simpa [prepend, ha] using ih
            | cons line lines => simpa [prepend, ha] using ih

/-- The first terminator ends the first line, which is before it. -/
theorem take_idxOf? [DecidableEq α] {x : α} {l : List α} {i : ℕ} (h : l.idxOf? x = some i) :
  x ∉ l.take i ∧ l.take (i + 1) = l.take i ++ [x]
  := by
  obtain ⟨hlt, hget, hbefore⟩ := List.idxOf?_eq_some_iff.mp h
  constructor
  · intro hmem
    obtain ⟨j, hj, hj'⟩ := List.mem_take_iff_getElem.mp hmem
    exact hbefore j (by omega) hj'
  · rw [List.take_add_one, List.getElem?_eq_getElem hlt, hget, Option.toList_some]

/-- Splitting an encoded text is encoding its lines and its rest, when the terminator `x` is
encoded as `y`, which occurs in the encoding of nothing else. -/
theorem splitLines_flatMap [DecidableEq α] [DecidableEq β] {x : α} {y : β} {f : α → List β}
    (hx : f x = [y]) (hf : ∀ a, a ≠ x → y ∉ f a) (l : List α) :
  splitLines y (l.flatMap f) =
    ((splitLines x l).1.map (List.flatMap f), (splitLines x l).2.flatMap f)
  := by
  induction l with
  | nil => rfl
  | cons a l ih =>
      rw [List.flatMap_cons, splitLines]
      by_cases ha : a = x
      · rw [if_pos ha, ha, hx, List.singleton_append, splitLines, if_pos rfl, ih]
        rfl
      · rw [if_neg ha, splitLines_append (hf a ha), ih]
        obtain ⟨lines, rest⟩ := splitLines x l
        cases lines <;> simp [prepend]

/-- The first `k` items of a list are also those of the list that is changed by `f` and then
goes on with `l'`, exactly when `f` changes none of them and the list is not left. -/
theorem take_eq_take_map_append_iff {f : α → α} {l l' : List α} {k : ℕ} :
  l.take k = (l.map f ++ l').take k ↔ (∀ a ∈ l.take k, f a = a) ∧ (k ≤ l.length ∨ l' = [])
  := by
  rw [List.take_append, ← List.map_take, List.length_map]
  have hmap : (l.take k).map f = l.take k ↔ ∀ a ∈ l.take k, f a = a := by
    conv_lhs => rw [← List.map_id (l.take k), List.map_map]
    apply List.map_inj_left
  constructor
  · intro h
    have hlen := congrArg List.length h
    rw [List.length_append, List.length_map] at hlen
    have hnil : l'.take (k - l.length) = [] := List.length_eq_zero_iff.mp (by omega)
    rw [hnil, List.append_nil] at h
    refine ⟨hmap.mp h.symm, ?_⟩
    rcases List.take_eq_nil_iff.mp hnil with hk | hl
    · exact .inl (Nat.sub_eq_zero_iff_le.mp hk)
    · exact .inr hl
  · rintro ⟨hf, hk⟩
    have hnil : l'.take (k - l.length) = [] :=
      List.take_eq_nil_iff.mpr (hk.imp_left Nat.sub_eq_zero_of_le)
    rw [hmap.mpr hf, hnil, List.append_nil]

/-! ### UTF-8 -/

/-- The encoding of a text. -/
def utf8 (text : List Char) : List UInt8 :=
  text.flatMap String.utf8EncodeChar

/-- The string that bytes encode, if they do. -/
def fromUtf8 (bytes : List UInt8) : Option String :=
  String.fromUTF8? bytes.toByteArray

theorem fromUtf8_utf8 (text : List Char) :
  fromUtf8 (utf8 text) = some (String.ofList text)
  := by
  rw [fromUtf8, String.fromUTF8?, dif_pos (.intro text rfl)]
  rfl

/-- Bytes that encode no text give no string. -/
theorem fromUtf8_eq_none {bytes : List UInt8} (h : ∀ text, bytes ≠ utf8 text) :
  fromUtf8 bytes = none
  := by
  rw [fromUtf8, String.fromUTF8?, dif_neg]
  rintro ⟨text, htext⟩
  apply h text
  have hdata := congrArg (fun b : ByteArray => b.data.toList) htext
  simpa [List.utf8Encode, utf8] using hdata

theorem ofNat_ne {n m : ℕ} (hn : n < 128) (h : 128 ≤ m % 256) :
  UInt8.ofNat n ≠ UInt8.ofNat m
  := by
  intro heq
  have hmod := congrArg UInt8.toNat heq
  rw [UInt8.toNat_ofNat', UInt8.toNat_ofNat'] at hmod
  omega

/-- A character of ASCII is encoded as one byte, which occurs in the encoding of no other
character. -/
theorem mem_utf8EncodeChar {c x : Char} (hx : x.toNat < 128) :
  UInt8.ofNat x.toNat ∈ String.utf8EncodeChar c ↔ c = x
  := by
  constructor
  · intro h
    unfold String.utf8EncodeChar at h
    dsimp only at h
    split at h
    · rw [List.mem_singleton] at h
      have hmod := congrArg UInt8.toNat h
      rw [UInt8.toNat_ofNat', UInt8.toNat_ofNat'] at hmod
      apply Char.toNat_inj.mp
      change c.val.toNat = x.toNat
      omega
    · exfalso
      split at h
      · simp only [List.mem_cons, List.not_mem_nil, or_false] at h
        rcases h with h | h <;> apply ofNat_ne hx (by omega) h
      · split at h
        · simp only [List.mem_cons, List.not_mem_nil, or_false] at h
          rcases h with h | h | h <;> apply ofNat_ne hx (by omega) h
        · simp only [List.mem_cons, List.not_mem_nil, or_false] at h
          rcases h with h | h | h | h <;> apply ofNat_ne hx (by omega) h
  · rintro rfl
    rw [String.utf8EncodeChar, if_pos (by exact Nat.le_of_lt_succ hx)]
    apply List.mem_singleton_self

/-- Splitting an encoded text at a character of ASCII is encoding its lines and its rest. -/
theorem splitLines_utf8 {x : Char} (hx : x.toNat < 128) (text : List Char) :
  splitLines (UInt8.ofNat x.toNat) (utf8 text) =
    ((splitLines x text).1.map utf8, utf8 (splitLines x text).2)
  := by
  apply splitLines_flatMap
  · rw [String.utf8EncodeChar, if_pos (by exact Nat.le_of_lt_succ hx)]
    rfl
  · intro c hc hmem
    exact hc ((mem_utf8EncodeChar hx).mp hmem)

end Text
