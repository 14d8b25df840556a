import Mathlib.Data.List.Nodup
import Mathlib.Data.List.Perm.Subperm
import Mathlib.Logic.Function.Basic

/-!
# Subscribers

The items of a shared stream are given to each of its subscribers, in order, from the time on at
which it subscribes.  A subscriber may have an effect for an item that it keeps; the log of the
effects tells, of each, which subscriber had it and for the item at which position.  As no
subscriber goes back, each has at most one effect for an item, and so there are at most as many
effects for an item as subscribers that were there when the item was given.  What was given before a
subscriber was there it misses.
-/

namespace Async

/-! ### Late subscribers -/

section

variable {α : Type*} {items : List α} {start : Option ℕ} {i : ℕ}

/-- The items that a subscriber is given: those from the position on at which it subscribes, and
none before it does. -/
def heard (items : List α) : Option ℕ → List α
  | none => []
  | some i => items.drop i

/-- The items that are given before a subscriber is there. -/
def missed (items : List α) : Option ℕ → List α
  | none => items
  | some i => items.take i

/-- A subscriber misses an item, or is given it. -/
theorem missed_append_heard (items : List α) (start : Option ℕ) :
  missed items start ++ heard items start = items
  := by
  cases start with
  | none => exact List.append_nil items
  | some i => apply List.take_append_drop

/-- A new subscriber misses all items so far. -/
theorem heard_length (items : List α) :
  heard items (some items.length) = []
  := List.drop_length

theorem missed_length (items : List α) :
  missed items (some items.length) = items
  := List.take_length

/-- What a subscriber has been given is given to it still when more items are. -/
theorem heard_append (h : i ≤ items.length) (l : List α) :
  heard (items ++ l) (some i) = heard items (some i) ++ l
  := List.drop_append_of_le_length h

/-- A subscriber misses no more items once it is there. -/
theorem missed_append (h : i ≤ items.length) (l : List α) :
  missed (items ++ l) (some i) = missed items (some i)
  := List.take_append_of_le_length h

/-- A subscriber is given the items from some one on. -/
theorem exists_heard_isPrefix (items : List α) (start : Option ℕ) :
  ∃ i, heard items start <+: items.drop i
  := by
  cases start with
  | none => exact ⟨0, List.nil_prefix⟩
  | some i => exact ⟨i, List.prefix_rfl⟩

/-- What a subscriber is given is one of the items. -/
theorem mem_of_mem_heard {a : α} (h : a ∈ heard items start) :
  a ∈ items
  := by
  rw [← missed_append_heard items start]
  apply List.mem_append_right _ h

/-- What a subscriber is given, when more items are, is one that it was given before, or a new
one. -/
theorem mem_heard_append {a : α} {l : List α} (h : a ∈ heard (items ++ l) start) :
  a ∈ heard items start ∨ a ∈ l
  := by
  cases start with
  | none => cases h
  | some i =>
      rw [heard, List.drop_append, List.mem_append] at h
      apply h.imp_right List.mem_of_mem_drop

/-- A subscriber goes on being given what it was. -/
theorem heard_isPrefix (items l : List α) (start : Option ℕ) :
  heard items start <+: heard (items ++ l) start
  := by
  cases start with
  | none => exact List.prefix_rfl
  | some i =>
      rw [heard, heard, List.drop_append]
      apply List.prefix_append

end

/-! ### The log of the effects -/

/-- The effects of a log are each of the subscriber's before the position `next` of it, and in the
order of the items. -/
structure InTurn (next : ℕ → ℕ) (log : List (ℕ × ℕ)) : Prop where
  lt : ∀ p ∈ log, p.2 < next p.1
  order : log.Pairwise fun p q => p.1 = q.1 → p.2 < q.2

namespace InTurn

variable {next next' : ℕ → ℕ} {log : List (ℕ × ℕ)}

theorem nil (next : ℕ → ℕ) :
  InTurn next []
  := ⟨nofun, List.Pairwise.nil⟩

/-- Subscribers may go on without an effect. -/
theorem mono (h : InTurn next log) (hle : ∀ j, next j ≤ next' j) :
  InTurn next' log
  := by
  refine ⟨?_, h.order⟩
  intro p hp
  apply Nat.lt_of_lt_of_le (h.lt p hp) (hle p.1)

/-- A subscriber has an effect for an item that it has not passed, and passes it. -/
theorem concat (h : InTurn next log) (hle : ∀ j, next j ≤ next' j) {j i : ℕ} (hi : next j ≤ i)
    (hi' : i < next' j) :
  InTurn next' (log ++ [(j, i)])
  := by
  constructor
  · intro p hp
    rcases List.mem_append.mp hp with hp | hp
    · apply (h.mono hle).lt p hp
    · cases List.mem_singleton.mp hp
      exact hi'
  · apply List.pairwise_append.mpr
    refine ⟨h.order, List.pairwise_singleton _ _, ?_⟩
    intro p hp q hq heq
    cases List.mem_singleton.mp hq
    have hlt := h.lt p hp
    rw [heq] at hlt
    apply Nat.lt_of_lt_of_le hlt hi

/-- A subscriber has at most one effect for an item. -/
theorem nodup (h : InTurn next log) :
  log.Nodup
  := by
  apply h.order.imp
  rintro p q hpq rfl
  apply Nat.lt_irrefl _ (hpq rfl)

/-- The subscribers with an effect for the item at the position `i`. -/
def subscribers (log : List (ℕ × ℕ)) (i : ℕ) : List ℕ :=
  (log.filter fun p => p.2 = i).map Prod.fst

theorem mem_subscribers {i j : ℕ} :
  j ∈ subscribers log i ↔ (j, i) ∈ log
  := by
  simp only [subscribers, List.mem_map, List.mem_filter, decide_eq_true_eq]
  constructor
  · rintro ⟨⟨j', i'⟩, ⟨hp, rfl⟩, rfl⟩
    exact hp
  · intro h
    exact ⟨(j, i), ⟨h, rfl⟩, rfl⟩

/-- No subscriber has two effects for the item. -/
theorem subscribers_nodup (h : InTurn next log) (i : ℕ) :
  (subscribers log i).Nodup
  := by
  apply (List.Nodup.filter _ h.nodup).map_on
  rintro ⟨j, i₁⟩ hp ⟨j', i₂⟩ hq heq
  obtain rfl := of_decide_eq_true (List.mem_filter.mp hp).2
  obtain rfl := of_decide_eq_true (List.mem_filter.mp hq).2
  obtain rfl : j = j' := heq
  rfl

/-- There are no more effects for the item than subscribers that may have one. -/
theorem length_subscribers_le (h : InTurn next log) {i : ℕ} {may : List ℕ}
    (hmay : ∀ j, (j, i) ∈ log → j ∈ may) :
  (subscribers log i).length ≤ may.length
  := by
  apply (List.subperm_of_subset (h.subscribers_nodup i) _).length_le
  intro j hj
  apply hmay j (mem_subscribers.mp hj)

end InTurn

/-- A subscriber: the items that it keeps; the positions from which it is given the items and from
which it goes on; and the position of an item that it keeps and has taken, whose effect is
pending. -/
structure Subscriber (α : Type*) where
  keeps : α → Bool
  start : ℕ
  next : ℕ
  pending : Option ℕ

namespace Subscriber

variable {α : Type*} {items : List α} {c c' : Subscriber α}

/-- The position from which a subscriber has had no effect. -/
def due (c : Subscriber α) : ℕ :=
  c.pending.getD c.next

/-- A subscriber is in its place: it goes on within the items, and has taken the item whose effect
is pending. -/
structure Fits (items : List α) (c : Subscriber α) : Prop where
  next_le : c.next ≤ items.length
  start_le : c.start ≤ c.next
  pending : ∀ i, c.pending = some i →
    i < c.next ∧ c.start ≤ i ∧ ∃ a, items[i]? = some a ∧ c.keeps a = true

/-- What a subscriber does, and the position of the item for which it has an effect by that: it
passes over an item, it takes an item that it keeps, it has the effect, or it does without. -/
inductive Move (items : List α) (c : Subscriber α) : Option ℕ → Subscriber α → Prop where
  | stay : Move items c none c
  | skip (a : α) : c.pending = none → items[c.next]? = some a →
      Move items c none { c with next := c.next + 1 }
  | take (a : α) : c.pending = none → items[c.next]? = some a → c.keeps a = true →
      Move items c none { c with next := c.next + 1, pending := some c.next }
  | leave : Move items c none { c with pending := none }
  | act (i : ℕ) : c.pending = some i → Move items c (some i) { c with pending := none }

/-- An item is where it is when more items are given. -/
theorem getElem?_append_of_eq_some {i : ℕ} {a : α} (h : items[i]? = some a) (l : List α) :
  (items ++ l)[i]? = some a
  := by
  rw [List.getElem?_append_left (List.getElem?_eq_some_iff.mp h).1]
  exact h

/-- A new subscriber is in its place. -/
theorem Fits.new (keeps : α → Bool) (items : List α) :
  Fits items ⟨keeps, items.length, items.length, none⟩
  := ⟨Nat.le_refl _, Nat.le_refl _, nofun⟩

/-- A subscriber stays in its place when more items are given. -/
theorem Fits.append (h : Fits items c) (l : List α) :
  Fits (items ++ l) c
  := by
  refine ⟨?_, h.start_le, ?_⟩
  · rw [List.length_append]
    apply Nat.le_add_right_of_le h.next_le
  · intro i hi
    obtain ⟨hlt, hle, a, hget, hk⟩ := h.pending i hi
    exact ⟨hlt, hle, a, getElem?_append_of_eq_some hget l, hk⟩

/-- What a subscriber has had no effect for is not beyond what it goes on from. -/
theorem Fits.due_le (h : Fits items c) :
  c.due ≤ c.next
  := by
  rw [due]
  cases hi : c.pending with
  | none => apply Nat.le_refl
  | some i => apply Nat.le_of_lt (h.pending i hi).1

/-- A subscriber keeps its place when it moves. -/
theorem Fits.move {o : Option ℕ} (h : Fits items c) (hm : Move items c o c') :
  Fits items c'
  := by
  cases hm with
  | stay => exact h
  | skip a hn hget =>
      refine ⟨(List.getElem?_eq_some_iff.mp hget).1, Nat.le_succ_of_le h.start_le, ?_⟩
      intro i hi
      change c.pending = some i at hi
      rw [hn] at hi
      cases hi
  | take a hn hget hk =>
      refine ⟨(List.getElem?_eq_some_iff.mp hget).1, Nat.le_succ_of_le h.start_le, ?_⟩
      rintro i ⟨⟩
      exact ⟨Nat.lt_succ_self _, h.start_le, a, hget, hk⟩
  | leave => exact ⟨h.next_le, h.start_le, nofun⟩
  | act i hi => exact ⟨h.next_le, h.start_le, nofun⟩

/-- A subscriber does not go back. -/
theorem Fits.due_le_due {o : Option ℕ} (h : Fits items c) (hm : Move items c o c') :
  c.due ≤ c'.due
  := by
  cases hm with
  | stay => apply Nat.le_refl
  | skip a hn hget =>
      rw [due, due, hn]
      apply Nat.le_succ
  | take a hn hget hk =>
      rw [due, hn]
      apply Nat.le_refl
  | leave => apply h.due_le
  | act i hi => apply h.due_le

/-- What a subscriber keeps, and from where on, does not change. -/
theorem Move.keeps_start {o : Option ℕ} (hm : Move items c o c') :
  c'.keeps = c.keeps ∧ c'.start = c.start
  := by
  cases hm <;> exact ⟨rfl, rfl⟩

end Subscriber

open Subscriber

/-- The first `count` subscribers of a shared stream have had the effects of a log, in turn, each
for an item that it was given and keeps. -/
structure Subscribed {α : Type*} (items : List α) (count : ℕ) (subs : ℕ → Subscriber α)
    (log : List (ℕ × ℕ)) : Prop where
  fits : ∀ j, (subs j).Fits items
  inTurn : InTurn (fun j => (subs j).due) log
  effect : ∀ j i, (j, i) ∈ log →
    j < count ∧ (subs j).start ≤ i ∧ ∃ a, items[i]? = some a ∧ (subs j).keeps a = true

namespace Subscribed

variable {α : Type*} {items : List α} {count : ℕ} {subs : ℕ → Subscriber α}
  {log : List (ℕ × ℕ)}

/-- The stream gives more items. -/
theorem append (h : Subscribed items count subs log) (l : List α) :
  Subscribed (items ++ l) count subs log
  := by
  refine ⟨fun j => (h.fits j).append l, h.inTurn, ?_⟩
  intro j i hmem
  obtain ⟨hlt, hle, a, hget, hk⟩ := h.effect j i hmem
  exact ⟨hlt, hle, a, getElem?_append_of_eq_some hget l, hk⟩

/-- There is one more subscriber. -/
theorem subscribe (h : Subscribed items count subs log) (keeps : α → Bool) :
  Subscribed items (count + 1)
    (Function.update subs count ⟨keeps, items.length, items.length, none⟩) log
  := by
  refine ⟨?_, ?_, ?_⟩
  · intro j
    by_cases hj : j = count
    · subst hj
      rw [Function.update_self]
      apply Fits.new
    · rw [Function.update_of_ne hj]
      apply h.fits j
  · apply h.inTurn.mono
    intro j
    by_cases hj : j = count
    · subst hj
      rw [Function.update_self]
      apply Nat.le_trans (h.fits j).due_le (h.fits j).next_le
    · apply Nat.le_of_eq
      rw [Function.update_of_ne hj]
  · intro j i hmem
    obtain ⟨hlt, hrest⟩ := h.effect j i hmem
    rw [Function.update_of_ne (Nat.ne_of_lt hlt)]
    exact ⟨Nat.lt_succ_of_lt hlt, hrest⟩

/-- A subscriber moves. -/
theorem move (h : Subscribed items count subs log) {j : ℕ} (hj : j < count) {o : Option ℕ}
    {c : Subscriber α} (hm : Move items (subs j) o c) :
  Subscribed items count (Function.update subs j c) (log ++ (o.map fun i => (j, i)).toList)
  := by
  have hdue : ∀ j', (subs j').due ≤ (Function.update subs j c j').due := by
    intro j'
    by_cases hj' : j' = j
    · subst hj'
      rw [Function.update_self]
      apply (h.fits j').due_le_due hm
    · apply Nat.le_of_eq
      rw [Function.update_of_ne hj']
  have heffect : ∀ j' i, (j', i) ∈ log → j' < count ∧ (Function.update subs j c j').start ≤ i ∧
      ∃ a, items[i]? = some a ∧ (Function.update subs j c j').keeps a = true := by
    intro j' i hmem
    by_cases hj' : j' = j
    · subst hj'
      rw [Function.update_self, hm.keeps_start.1, hm.keeps_start.2]
      apply h.effect j' i hmem
    · rw [Function.update_of_ne hj']
      apply h.effect j' i hmem
  refine ⟨?_, ?_, ?_⟩
  · intro j'
    by_cases hj' : j' = j
    · subst hj'
      rw [Function.update_self]
      apply (h.fits j').move hm
    · rw [Function.update_of_ne hj']
      apply h.fits j'
  · cases o with
    | none =>
        rw [Option.map_none, Option.toList_none, List.append_nil]
        apply h.inTurn.mono hdue
    | some i =>
        cases hm with
        | act _ hi =>
            apply h.inTurn.concat hdue
            · rw [due, hi]
              apply Nat.le_refl
            · rw [Function.update_self]
              apply ((h.fits j).pending i hi).1
  · intro j' i hmem
    rcases List.mem_append.mp hmem with hmem | hmem
    · apply heffect j' i hmem
    · cases hm with
      | act i' hi =>
          cases List.mem_singleton.mp hmem
          rw [Function.update_self]
          exact ⟨hj, ((h.fits j).pending i hi).2⟩
      | _ => cases hmem

/-- A subscriber moves without an effect. -/
theorem move_none (h : Subscribed items count subs log) {j : ℕ} (hj : j < count)
    {c : Subscriber α} (hm : Move items (subs j) none c) :
  Subscribed items count (Function.update subs j c) log
  := by
  have hs := h.move hj hm
  rw [Option.map_none, Option.toList_none, List.append_nil] at hs
  exact hs

/-- The subscribers that were there when the item at the position `i` was given, and keep it. -/
def observers (items : List α) (count : ℕ) (subs : ℕ → Subscriber α) (i : ℕ) : List ℕ :=
  (List.range count).filter fun j => (subs j).start ≤ i && items[i]?.any (subs j).keeps

/-- Only subscribers that were there and keep the item have an effect for it. -/
theorem mem_observers (h : Subscribed items count subs log) {i j : ℕ} (hmem : (j, i) ∈ log) :
  j ∈ observers items count subs i
  := by
  obtain ⟨hlt, hle, a, hget, hk⟩ := h.effect j i hmem
  rw [observers, List.mem_filter, List.mem_range]
  refine ⟨hlt, ?_⟩
  rw [hget, Option.any_some, hk, Bool.and_true]
  exact decide_eq_true hle

/-- There are no more effects for an item than subscribers that were there and keep it. -/
theorem length_subscribers_le (h : Subscribed items count subs log) (i : ℕ) :
  (InTurn.subscribers log i).length ≤ (observers items count subs i).length
  := by
  apply h.inTurn.length_subscribers_le
  intro j hmem
  apply h.mem_observers hmem

end Subscribed

end Async
