import Mathlib.Data.List.Basic

/-!
# Buffers

A growable buffer is the list of its items.  There are two ways to read into one: a read
into a slice of the buffer stores what it reads at the start of the slice, over what is there,
and a read that appends puts it after all that the buffer holds.
-/

namespace Async

/-- A growable buffer. -/
abbrev Buffer (α : Type*) := List α

namespace Buffer

variable {α : Type*}

/-- Change the length of a buffer: what is beyond it is cut off, what is missing is filled with
`x`. -/
def resize (b : Buffer α) (n : ℕ) (x : α) : Buffer α :=
  List.take n b ++ List.replicate (n - b.length) x

/-- Cut off what is beyond a length. -/
def truncate (b : Buffer α) (n : ℕ) : Buffer α :=
  List.take n b

/-- Split off what is before a position: the two parts. -/
def splitTo (b : Buffer α) (n : ℕ) : Buffer α × Buffer α :=
  (List.take n b, List.drop n b)

/-- Read `xs` into the slice of a buffer that begins at a position.  No more is stored than the
slice holds. -/
def readSlice (b : Buffer α) (i : ℕ) (xs : List α) : Buffer α :=
  List.take i b ++ xs.take (b.length - i) ++ List.drop (i + xs.length) b

/-- Read `xs` to the end of a buffer. -/
def readAppend (b : Buffer α) (xs : List α) : Buffer α :=
  b ++ xs

theorem length_resize (b : Buffer α) (n : ℕ) (x : α) :
  (resize b n x).length = n
  := by
  rw [resize, List.length_append, List.length_take, List.length_replicate]
  omega

theorem resize_nil (n : ℕ) (x : α) :
  resize [] n x = List.replicate n x
  := by
  rw [resize, List.take_nil, List.nil_append, List.length_nil, Nat.sub_zero]

/-- Room made at the end of a buffer, read into, and cut to what was read: the buffer grows by
what was read. -/
theorem truncate_readSlice (b : Buffer α) {n : ℕ} (x : α) {xs : List α} (h : xs.length ≤ n) :
  truncate (readSlice (resize b (b.length + n) x) b.length xs) (b.length + xs.length) = b ++ xs
  := by
  have hroom : (resize b (b.length + n) x).length - b.length = n := by
    rw [length_resize, Nat.add_sub_cancel_left]
  have hold : List.take b.length (resize b (b.length + n) x) = b := by
    rw [resize, List.take_of_length_le (Nat.le_add_right _ _), List.take_left]
  rw [readSlice, hroom, hold, List.take_of_length_le h, truncate, ← List.length_append,
    List.take_left]

/-- What is left of a buffer full of `x` when `l` is appended to it, and it is cut to the length
of `l`, is `l` itself only when `l` is full of `x`. -/
theorem truncate_readAppend_eq_iff {n : ℕ} (hn : 0 < n) (x : α) (l : List α) :
  truncate (readAppend (List.replicate n x) l) l.length = l ↔ ∀ y ∈ l, y = x
  := by
  constructor
  · intro h
    have hget : ∀ (i : ℕ) y, l[i]? = some y → y = x := by
      intro i
      induction i using Nat.strongRecOn with
      | ind i ih =>
          intro y hy
          have hlt := (List.getElem?_eq_some_iff.mp hy).1
          rw [← h, truncate, List.getElem?_take_of_lt hlt, readAppend] at hy
          by_cases hi : i < n
          · rw [List.getElem?_append_left (by simpa using hi)] at hy
            apply List.eq_of_mem_replicate (List.mem_of_getElem? hy)
          · rw [List.getElem?_append_right (by simpa using hi), List.length_replicate] at hy
            apply ih (i - n) (by omega) y hy
    intro y hy
    obtain ⟨i, hi⟩ := List.mem_iff_getElem?.mp hy
    apply hget i y hi
  · intro h
    have hl : l = List.replicate l.length x := List.eq_replicate_iff.mpr ⟨rfl, h⟩
    have hall : ∀ y ∈ readAppend (List.replicate n x) l, y = x := by
      intro y hy
      rcases List.mem_append.mp hy with hy | hy
      · apply List.eq_of_mem_replicate hy
      · apply h y hy
    rw [truncate, List.eq_replicate_iff.mpr ⟨rfl, hall⟩, List.take_replicate, readAppend,
      List.length_append, Nat.min_eq_left (Nat.le_add_left _ _)]
    exact hl.symm

/-- Lists that are changed to others of the same lengths are the same when they are put together
only if none of them is changed. -/
theorem flatten_map_eq_iff {f : List α → List α} {ls : List (List α)}
    (h : ∀ l ∈ ls, (f l).length = l.length) :
  (ls.map f).flatten = ls.flatten ↔ ∀ l ∈ ls, f l = l
  := by
  induction ls with
  | nil => simp
  | cons l ls ih =>
      rw [List.forall_mem_cons] at h ⊢
      rw [List.map_cons, List.flatten_cons, List.flatten_cons, ← ih h.2]
      constructor
      · intro heq
        apply List.append_inj heq h.1
      · rintro ⟨hl, hls⟩
        rw [hl, hls]

end Buffer

end Async
