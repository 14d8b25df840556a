import Mathlib.Data.List.Basic
import Mathlib.Data.List.Induction
import Mathlib.Data.List.Nodup

/-!
# Index maps

An `IndexMap κ ν` is a map from keys `κ` to values `ν` whose entries are in the order in which the
keys were first inserted.  Inserting a value for a key that is there replaces the value in place.
`ofList` inserts the entries of a list one after another, so that each key gets the last value that
the list has for it.
-/

namespace Collection

universe u v

variable {κ : Type u} {ν : Type v}

/-- A map, as a list of entries with different keys. -/
structure IndexMap (κ : Type u) (ν : Type v) where
  entries : List (κ × ν)
  nodup : (entries.map Prod.fst).Nodup

namespace IndexMap

/-- The map without entries. -/
def empty (κ : Type u) (ν : Type v) : IndexMap κ ν :=
  ⟨[], List.nodup_nil⟩

/-- The keys of the entries with a value that meets `p`. -/
def keysWith (m : IndexMap κ ν) (p : ν → Bool) : List κ :=
  m.entries.filterMap fun entry => if p entry.2 then some entry.1 else none

theorem mem_keysWith {m : IndexMap κ ν} {p : ν → Bool} {key : κ} :
  key ∈ m.keysWith p ↔ ∃ value, (key, value) ∈ m.entries ∧ p value = true
  := by
  rw [keysWith, List.mem_filterMap]
  constructor
  · rintro ⟨⟨key', value⟩, hmem, h⟩
    split at h <;> cases h
    use value, hmem
  · rintro ⟨value, hmem, hp⟩
    use (key, value), hmem
    rw [if_pos hp]

/-- The keys of the entries with some values are among all keys, in the same order. -/
theorem keysWith_sublist (m : IndexMap κ ν) (p : ν → Bool) :
  (m.keysWith p).Sublist (m.entries.map Prod.fst)
  := by
  have hfilter : m.keysWith p = (m.entries.filter fun entry => p entry.2).map Prod.fst := by
    rw [keysWith]
    induction m.entries with
    | nil => rfl
    | cons entry entries ih =>
        rw [List.filterMap_cons, List.filter_cons, ih]
        split <;> split at * <;> simp_all
  rw [hfilter]
  apply List.filter_sublist.map

/-- A key has one value only. -/
theorem nodup_keysWith (m : IndexMap κ ν) (p : ν → Bool) :
  (m.keysWith p).Nodup
  := List.Nodup.sublist (m.keysWith_sublist p) m.nodup

variable [DecidableEq κ]

/-- Insert an entry in a list: replace the first one that has the key, or add it at the end. -/
def insertEntries (key : κ) (value : ν) : List (κ × ν) → List (κ × ν)
  | [] => [(key, value)]
  | entry :: entries =>
      if entry.1 = key then (key, value) :: entries
      else entry :: insertEntries key value entries

/-- The key inserted is the only one that may be new. -/
theorem mem_keys_insertEntries {key key' : κ} {value : ν} {entries : List (κ × ν)} :
  key' ∈ (insertEntries key value entries).map Prod.fst ↔
    key' = key ∨ key' ∈ entries.map Prod.fst
  := by
  induction entries with
  | nil => simp [insertEntries]
  | cons entry entries ih =>
      rw [insertEntries]
      split
      · rename_i hkey
        rw [List.map_cons, List.map_cons, List.mem_cons, List.mem_cons, hkey]
        simp
      · rw [List.map_cons, List.map_cons, List.mem_cons, List.mem_cons, ih]
        apply or_left_comm

/-- An insertion leaves the keys where they are, and puts a new one at the end. -/
theorem keys_insertEntries {key : κ} {value : ν} {entries : List (κ × ν)} :
  (insertEntries key value entries).map Prod.fst =
    if key ∈ entries.map Prod.fst then entries.map Prod.fst
    else entries.map Prod.fst ++ [key]
  := by
  induction entries with
  | nil => rfl
  | cons entry entries ih =>
      rw [insertEntries]
      by_cases hkey : entry.1 = key
      · rw [if_pos hkey, if_pos (by rw [List.map_cons, hkey]; exact List.mem_cons_self),
          List.map_cons, List.map_cons, hkey]
      · have hmem : key ∈ (entry :: entries).map Prod.fst ↔ key ∈ entries.map Prod.fst := by
          rw [List.map_cons, List.mem_cons, or_iff_right (Ne.symm hkey)]
        rw [if_neg hkey, List.map_cons, ih]
        simp only [hmem]
        split <;> rfl

theorem nodup_insertEntries {key : κ} {value : ν} {entries : List (κ × ν)}
    (h : (entries.map Prod.fst).Nodup) :
  ((insertEntries key value entries).map Prod.fst).Nodup
  := by
  induction entries with
  | nil => apply List.nodup_singleton
  | cons entry entries ih =>
      rw [List.map_cons, List.nodup_cons] at h
      rw [insertEntries]
      split
      · rename_i hkey
        rw [List.map_cons, List.nodup_cons, ← hkey]
        exact h
      · rename_i hkey
        rw [List.map_cons, List.nodup_cons, mem_keys_insertEntries]
        refine ⟨?_, ih h.2⟩
        rintro (heq | hmem)
        · exact hkey heq
        · exact h.1 hmem

/-- The entries after an insertion are the one inserted, and those with other keys. -/
theorem mem_insertEntries {key key' : κ} {value value' : ν} {entries : List (κ × ν)}
    (h : (entries.map Prod.fst).Nodup) :
  (key', value') ∈ insertEntries key value entries ↔
    if key = key' then value' = value else (key', value') ∈ entries
  := by
  induction entries with
  | nil =>
      rw [insertEntries, List.mem_singleton, Prod.mk.injEq, eq_comm (a := key')]
      split <;> simp [*]
  | cons entry entries ih =>
      rw [List.map_cons, List.nodup_cons] at h
      have hkeys : ∀ {k v}, (k, v) ∈ entries → k ∈ entries.map Prod.fst :=
        fun hmem => List.mem_map_of_mem (f := Prod.fst) hmem
      rw [insertEntries]
      split
      · rename_i hkey
        rw [List.mem_cons, List.mem_cons, Prod.mk.injEq]
        split
        · rename_i heq
          subst heq
          constructor
          · rintro (⟨-, rfl⟩ | hmem)
            · rfl
            · cases h.1 (hkey ▸ hkeys hmem)
          · rintro rfl
            exact Or.inl ⟨rfl, rfl⟩
        · rename_i hne
          constructor
          · rintro (⟨heq, -⟩ | hmem)
            · cases hne heq.symm
            · exact Or.inr hmem
          · rintro (heq | hmem)
            · subst heq
              cases hne hkey.symm
            · exact Or.inr hmem
      · rename_i hkey
        rw [List.mem_cons, List.mem_cons, ih h.2]
        split
        · rename_i heq
          constructor
          · rintro (rfl | hvalue)
            · cases hkey heq.symm
            · exact hvalue
          · exact Or.inr
        · rfl

/-- Insert an entry. -/
def insert (m : IndexMap κ ν) (key : κ) (value : ν) : IndexMap κ ν :=
  ⟨insertEntries key value m.entries, nodup_insertEntries m.nodup⟩

theorem mem_insert {m : IndexMap κ ν} {key key' : κ} {value value' : ν} :
  (key', value') ∈ (m.insert key value).entries ↔
    if key = key' then value' = value else (key', value') ∈ m.entries
  := mem_insertEntries m.nodup

/-- The entries of a list are inserted one after another. -/
def ofList (entries : List (κ × ν)) : IndexMap κ ν :=
  entries.foldl (fun m entry => m.insert entry.1 entry.2) (empty κ ν)

theorem ofList_concat (entries : List (κ × ν)) (key : κ) (value : ν) :
  ofList (entries ++ [(key, value)]) = (ofList entries).insert key value
  := by
  rw [ofList, List.foldl_append]
  rfl

/-- The keys are those of the list. -/
theorem mem_keys_ofList {entries : List (κ × ν)} {key : κ} :
  key ∈ (ofList entries).entries.map Prod.fst ↔ key ∈ entries.map Prod.fst
  := by
  induction entries using List.reverseRecOn with
  | nil => rfl
  | append_singleton entries entry ih =>
      rw [ofList_concat, insert, mem_keys_insertEntries, ih, List.map_append, List.mem_append,
        or_comm]
      simp

/-- The keys are in the order in which they first appear in the list, and in any longer one. -/
theorem pairwise_keys_ofList (entries rest : List (κ × ν)) :
  ((ofList entries).entries.map Prod.fst).Pairwise fun key key' =>
    ((entries ++ rest).map Prod.fst).idxOf key < ((entries ++ rest).map Prod.fst).idxOf key'
  := by
  induction entries using List.reverseRecOn generalizing rest with
  | nil => apply List.Pairwise.nil
  | append_singleton entries entry ih =>
      obtain ⟨key, value⟩ := entry
      have hbefore := ih ((key, value) :: rest)
      rw [ofList_concat, insert, keys_insertEntries, List.append_assoc, List.singleton_append]
      split
      · exact hbefore
      · rename_i hnew
        rw [List.pairwise_append]
        refine ⟨hbefore, List.pairwise_singleton _ _, ?_⟩
        intro key' hkey' key'' hkey''
        obtain rfl := List.mem_singleton.mp hkey''
        rw [mem_keys_ofList] at hkey' hnew
        rw [List.map_append, List.idxOf_append_of_mem hkey', List.idxOf_append_of_notMem hnew]
        apply Nat.lt_add_right
        apply List.idxOf_lt_length_of_mem hkey'

end IndexMap

/-- The last value that a list has for a key. -/
def lastValue [DecidableEq κ] (entries : List (κ × ν)) (key : κ) : Option ν :=
  (entries.reverse.find? fun entry => entry.1 = key).map Prod.snd

theorem lastValue_concat [DecidableEq κ] (entries : List (κ × ν)) (key key' : κ) (value : ν) :
  lastValue (entries ++ [(key, value)]) key' =
    if key = key' then some value else lastValue entries key'
  := by
  rw [lastValue, List.reverse_concat, List.find?_cons]
  by_cases h : key = key' <;> simp [h, lastValue]

/-- Each key has the last value that the list has for it. -/
theorem IndexMap.mem_ofList [DecidableEq κ] {entries : List (κ × ν)} {key : κ} {value : ν} :
  (key, value) ∈ (ofList entries).entries ↔ lastValue entries key = some value
  := by
  induction entries using List.reverseRecOn with
  | nil => simp [ofList, empty, lastValue]
  | append_singleton entries entry ih =>
      obtain ⟨key', value'⟩ := entry
      rw [ofList_concat, mem_insert, lastValue_concat]
      split
      · rw [Option.some.injEq, eq_comm]
      · exact ih

end Collection
