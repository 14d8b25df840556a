import Mathlib.Data.List.Nodup
import Mathlib.Logic.Function.Basic

/-!
# Registries

Values are made and registered in a map under their keys by any number of parties at once.  Each
party makes a value, holds it until it has registered it, and then gives its key away.  A key may
be that of an earlier value which is no longer held, but not that of a value which is held by a
party or by the map.  As nothing is removed from the map, a key that has been given away stays that
of the value for which it was given.
-/

namespace Async

universe u v

variable {κ : Type u} {ν : Type v}

/-- What one party holds: a value that is not yet registered, or a value that is registered and
whose key has not been given away. -/
inductive Holding (ν : Type v) where
  | nothing
  | made : ν → Holding ν
  | registered : ν → Holding ν

/-- The value that a party holds. -/
def Holding.value : Holding ν → Option ν
  | .nothing => none
  | .made v => some v
  | .registered v => some v

/-- A registry, when the values `map` are registered, the parties hold `holds`, and the keys of
`given` have been given away, each with its value. -/
structure Registry (key : ν → κ) (holds : ℕ → Holding ν) (map : κ → Option ν)
    (given : List (κ × ν)) : Prop where
  key_eq : ∀ k v, map k = some v → key v = k
  made : ∀ j v, holds j = .made v → map (key v) = none
  registered : ∀ j v, holds j = .registered v →
    map (key v) = some v ∧ key v ∉ given.map Prod.fst
  distinct : ∀ j j' v v', (holds j).value = some v → (holds j').value = some v' →
    key v = key v' → j = j'
  entry : ∀ p ∈ given, map p.1 = some p.2
  nodup : (given.map Prod.fst).Nodup

namespace Registry

variable {key : ν → κ} {holds : ℕ → Holding ν} {map : κ → Option ν} {given : List (κ × ν)}

/-- Nothing is registered, and no party holds a value. -/
theorem empty (key : ν → κ) :
  Registry key (fun _ => .nothing) (fun _ => none) []
  := by
  constructor
  case nodup => exact List.nodup_nil
  all_goals exact nofun

/-- What a party holds after another one, or it itself, holds something else. -/
theorem update_cases {j j' : ℕ} {h h' : Holding ν} (heq : Function.update holds j h j' = h') :
  (j' = j ∧ h = h') ∨ (j' ≠ j ∧ holds j' = h')
  := by
  by_cases hj : j' = j
  · subst hj
    rw [Function.update_self] at heq
    exact .inl ⟨rfl, heq⟩
  · rw [Function.update_of_ne hj] at heq
    exact .inr ⟨hj, heq⟩

/-- Parties hold values with distinct keys when one of them holds something else, none of whose
keys another party holds. -/
theorem distinct_update (h : Registry key holds map given) {j : ℕ} {held : Holding ν}
    (hfresh : ∀ j' v v', j' ≠ j → held.value = some v → (holds j').value = some v' →
      key v ≠ key v')
    (j₁ j₂ : ℕ) (v₁ v₂ : ν) (h₁ : (Function.update holds j held j₁).value = some v₁)
    (h₂ : (Function.update holds j held j₂).value = some v₂) (heq : key v₁ = key v₂) :
  j₁ = j₂
  := by
  by_cases hj₁ : j₁ = j
  · by_cases hj₂ : j₂ = j
    · rw [hj₁, hj₂]
    · subst hj₁
      rw [Function.update_self] at h₁
      rw [Function.update_of_ne hj₂] at h₂
      cases hfresh j₂ v₁ v₂ hj₂ h₁ h₂ heq
  · rw [Function.update_of_ne hj₁] at h₁
    by_cases hj₂ : j₂ = j
    · subst hj₂
      rw [Function.update_self] at h₂
      cases hfresh j₁ v₂ v₁ hj₁ h₂ h₁ heq.symm
    · rw [Function.update_of_ne hj₂] at h₂
      apply h.distinct j₁ j₂ v₁ v₂ h₁ h₂ heq

/-- A party gives up what it holds. -/
theorem drop (h : Registry key holds map given) (j : ℕ) :
  Registry key (Function.update holds j .nothing) map given
  := by
  refine ⟨h.key_eq, ?_, ?_, ?_, h.entry, h.nodup⟩
  · intro j' v hj'
    rcases update_cases hj' with ⟨-, heq⟩ | ⟨-, heq⟩
    · cases heq
    · apply h.made j' v heq
  · intro j' v hj'
    rcases update_cases hj' with ⟨-, heq⟩ | ⟨-, heq⟩
    · cases heq
    · apply h.registered j' v heq
  · apply h.distinct_update
    intro _ _ _ _ hn
    cases hn

/-- A party makes a value, whose key is that of no value that is held. -/
theorem make (h : Registry key holds map given) (j : ℕ) {v : ν} (hmap : map (key v) = none)
    (hheld : ∀ j' v', (holds j').value = some v' → key v' ≠ key v) :
  Registry key (Function.update holds j (.made v)) map given
  := by
  refine ⟨h.key_eq, ?_, ?_, ?_, h.entry, h.nodup⟩
  · intro j' v' hj'
    rcases update_cases hj' with ⟨-, heq⟩ | ⟨-, heq⟩
    · cases heq
      exact hmap
    · apply h.made j' v' heq
  · intro j' v' hj'
    rcases update_cases hj' with ⟨-, heq⟩ | ⟨-, heq⟩
    · cases heq
    · apply h.registered j' v' heq
  · apply h.distinct_update
    rintro j' _ v' - ⟨⟩ hv' heq
    exact hheld j' v' hv' heq.symm

/-- A party registers the value that it has made. -/
theorem register [DecidableEq κ] (h : Registry key holds map given) {j : ℕ} {v : ν}
    (hj : holds j = .made v) :
  Registry key (Function.update holds j (.registered v)) (Function.update map (key v) (some v))
    given
  := by
  have hnone : map (key v) = none := h.made j v hj
  have hkept : ∀ k v', map k = some v' → Function.update map (key v) (some v) k = some v' := by
    intro k v' hk
    rw [Function.update_of_ne]
    · exact hk
    · rintro rfl
      rw [hnone] at hk
      cases hk
  have hvalue : (holds j).value = some v := by rw [hj, Holding.value]
  refine ⟨?_, ?_, ?_, ?_, ?_, h.nodup⟩
  · intro k v' hk
    by_cases hkv : k = key v
    · subst hkv
      rw [Function.update_self] at hk
      cases hk
      rfl
    · rw [Function.update_of_ne hkv] at hk
      apply h.key_eq k v' hk
  · intro j' v' hj'
    rcases update_cases hj' with ⟨-, heq⟩ | ⟨hne, heq⟩
    · cases heq
    · rw [Function.update_of_ne]
      · apply h.made j' v' heq
      · intro hkey
        apply hne
        apply h.distinct j' j v' v _ hvalue hkey
        rw [heq, Holding.value]
  · intro j' v' hj'
    rcases update_cases hj' with ⟨-, heq⟩ | ⟨-, heq⟩
    · cases heq
      refine ⟨Function.update_self (key v) _ map, ?_⟩
      intro hmem
      obtain ⟨p, hp, hpk⟩ := List.mem_map.mp hmem
      have hget := h.entry p hp
      rw [hpk, hnone] at hget
      cases hget
    · obtain ⟨hget, hnew⟩ := h.registered j' v' heq
      exact ⟨hkept _ _ hget, hnew⟩
  · apply h.distinct_update
    rintro j' _ v' hne ⟨⟩ hv' heq
    exact hne (h.distinct j' j v' v hv' hvalue heq.symm)
  · intro p hp
    apply hkept _ _ (h.entry p hp)

/-- A party gives away the key of the value that it has registered. -/
theorem give (h : Registry key holds map given) {j : ℕ} {v : ν} (hj : holds j = .registered v) :
  Registry key (Function.update holds j .nothing) map (given ++ [(key v, v)])
  := by
  have hdrop := h.drop j
  obtain ⟨hget, hnew⟩ := h.registered j v hj
  have hvalue : (holds j).value = some v := by rw [hj, Holding.value]
  refine ⟨h.key_eq, hdrop.made, ?_, hdrop.distinct, ?_, ?_⟩
  · intro j' v' hj'
    rcases update_cases hj' with ⟨-, heq⟩ | ⟨hne, heq⟩
    · cases heq
    · obtain ⟨hget', hnew'⟩ := h.registered j' v' heq
      refine ⟨hget', ?_⟩
      rw [List.map_append, List.mem_append, not_or]
      refine ⟨hnew', ?_⟩
      intro hmem
      apply hne
      apply h.distinct j' j v' v _ hvalue (List.mem_singleton.mp hmem)
      rw [heq, Holding.value]
  · intro p hp
    rcases List.mem_append.mp hp with hp | hp
    · apply h.entry p hp
    · cases List.mem_singleton.mp hp
      exact hget
  · rw [List.map_append]
    apply List.nodup_append.mpr
    refine ⟨h.nodup, List.nodup_singleton _, ?_⟩
    intro k hk k' hk' heq
    cases List.mem_singleton.mp hk'
    subst heq
    exact hnew hk

end Registry

end Async
