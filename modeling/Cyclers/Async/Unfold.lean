import Mathlib.Data.List.Basic

/-!
# Unfolding streams

A stream that is unfolded from a state by `f` awaits an input at each poll.  The result of `f` is
an item, with the state for the next poll, or the end of the stream.  `unfold f s inputs` is what
the stream has yielded once the inputs have come, and the state it is left in, which is `none` when
the stream has ended.
-/

namespace Async

universe u v w x

variable {σ : Type u} {τ : Type v} {ι : Type w} {ω : Type x}

/-- The items of a stream, and the state it is left in, when it has not ended. -/
def unfold (f : σ → τ → Option (ι × σ)) : σ → List τ → List ι × Option σ
  | s, [] => ([], some s)
  | s, a :: inputs =>
      match f s a with
      | none => ([], none)
      | some (item, t) => (item :: (unfold f t inputs).1, (unfold f t inputs).2)

variable {f : σ → τ → Option (ι × σ)}

@[simp]
theorem unfold_nil (s : σ) :
  unfold f s [] = ([], some s)
  := rfl

theorem unfold_cons_of_none {s : σ} {a : τ} (h : f s a = none) (inputs : List τ) :
  unfold f s (a :: inputs) = ([], none)
  := by rw [unfold, h]

theorem unfold_cons_of_some {s t : σ} {a : τ} {item : ι} (h : f s a = some (item, t))
    (inputs : List τ) :
  unfold f s (a :: inputs) = (item :: (unfold f t inputs).1, (unfold f t inputs).2)
  := by rw [unfold, h]

/-- A stream that has not ended goes on from the state it is left in. -/
theorem unfold_append {s t : σ} {inputs : List τ} (h : (unfold f s inputs).2 = some t)
    (inputs' : List τ) :
  unfold f s (inputs ++ inputs') =
    ((unfold f s inputs).1 ++ (unfold f t inputs').1, (unfold f t inputs').2)
  := by
  induction inputs generalizing s with
  | nil =>
      obtain rfl := Option.some.inj h
      rfl
  | cons a inputs ih =>
      cases hf : f s a with
      | none =>
          rw [unfold_cons_of_none hf] at h
          cases h
      | some result =>
          obtain ⟨item, u⟩ := result
          rw [unfold_cons_of_some hf] at h
          rw [List.cons_append, unfold_cons_of_some hf, unfold_cons_of_some hf, ih h]
          rfl

/-- When what ends a stream, and what an item tells, depend on the inputs only, the items tell of
the inputs before the first one that ends it. -/
theorem map_unfold {g : ι → ω} {h : τ → ω} {ends : τ → Bool}
    (hends : ∀ s a, f s a = none ↔ ends a = true)
    (hitem : ∀ s a item t, f s a = some (item, t) → g item = h a) (s : σ) (inputs : List τ) :
  (unfold f s inputs).1.map g = (inputs.takeWhile fun a => !ends a).map h ∧
    ((unfold f s inputs).2 = none ↔ ∃ a ∈ inputs, ends a = true)
  := by
  induction inputs generalizing s with
  | nil => simp
  | cons a inputs ih =>
      cases hf : f s a with
      | none =>
          have ha : ends a = true := (hends s a).mp hf
          rw [unfold_cons_of_none hf, List.takeWhile_cons_of_neg (by rw [ha]; exact nofun)]
          exact ⟨rfl, iff_of_true rfl ⟨a, List.mem_cons_self, ha⟩⟩
      | some result =>
          obtain ⟨item, t⟩ := result
          have ha : ¬ ends a = true := by
            rw [← hends s a, hf]
            exact nofun
          obtain ⟨hitems, hend⟩ := ih t
          rw [unfold_cons_of_some hf, List.takeWhile_cons_of_pos (by simpa using ha)]
          constructor
          · rw [List.map_cons, List.map_cons, hitems, hitem s a item t hf]
          · rw [hend, List.exists_mem_cons_iff, or_iff_right ha]

end Async
