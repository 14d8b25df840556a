import Mathlib.Data.List.Basic
import Mathlib.Data.List.Induction
import Mathlib.Data.List.Nodup

/-!
# What drivers share

Errors are boxed.  The commands of a driver configure its client or use it.  A client is known here by
the command that configured it, `some j` being the client of the command number `j`, counted from
`0`, and `none` the default client.  The client in force for a command is the one that was configured
last before it.
-/

namespace Cyclers

/-- Boxed errors are modelled by the text they show. -/
abbrev BoxError := String

/-! ### Clients in force -/

/-- A client: that of the configuring command `j`, as `some j`, or the default one. -/
abbrev Client := Option ℕ

/-- What a command is for the client: it configures it, it uses it, or neither. -/
inductive ClientUse (β : Type*) where
  | configure
  | use : β → ClientUse β
  | other

variable {α β : Type*}

/-- The number of commands that configure the client. -/
def configures : List (ClientUse β) → ℕ
  | [] => 0
  | .configure :: commands => configures commands + 1
  | .use _ :: commands => configures commands
  | .other :: commands => configures commands

/-- The commands that use the client, each with the number of those before it that configure
it, when `c` of them come before all. -/
def usesFrom (c : ℕ) : List (ClientUse β) → List (ℕ × β)
  | [] => []
  | .configure :: commands => usesFrom (c + 1) commands
  | .use b :: commands => (c, b) :: usesFrom c commands
  | .other :: commands => usesFrom c commands

/-- The commands that use the client, each with the number of those before it that configure
it. -/
def uses (commands : List (ClientUse β)) : List (ℕ × β) :=
  usesFrom 0 commands

/-- The client in force after `c` commands that configure it. -/
def inForce : ℕ → Client
  | 0 => none
  | c + 1 => some c

theorem configures_append (commands commands' : List (ClientUse β)) :
  configures (commands ++ commands') = configures commands + configures commands'
  := by
  induction commands with
  | nil => exact (Nat.zero_add _).symm
  | cons command commands ih =>
      cases command with
      | configure =>
          rw [List.cons_append, configures, ih, configures]
          omega
      | use b => exact ih
      | other => exact ih

theorem usesFrom_append (c : ℕ) (commands commands' : List (ClientUse β)) :
  usesFrom c (commands ++ commands') =
    usesFrom c commands ++ usesFrom (c + configures commands) commands'
  := by
  induction commands generalizing c with
  | nil => rfl
  | cons command commands ih =>
      cases command with
      | configure =>
          rw [List.cons_append, usesFrom, ih, usesFrom, configures, Nat.add_right_comm,
            Nat.add_assoc]
      | use b => exact congrArg (List.cons (c, b)) (ih c)
      | other => exact ih c

@[simp]
theorem uses_nil :
  uses ([] : List (ClientUse β)) = []
  := rfl

@[simp]
theorem configures_nil :
  configures ([] : List (ClientUse β)) = 0
  := rfl

@[simp]
theorem uses_configure (commands : List (ClientUse β)) :
  uses (commands ++ [.configure]) = uses commands
  := by
  rw [uses, usesFrom_append]
  exact List.append_nil _

@[simp]
theorem uses_use (commands : List (ClientUse β)) (b : β) :
  uses (commands ++ [.use b]) = uses commands ++ [(configures commands, b)]
  := by
  rw [uses, usesFrom_append, Nat.zero_add]
  rfl

@[simp]
theorem uses_other (commands : List (ClientUse β)) :
  uses (commands ++ [.other]) = uses commands
  := by
  rw [uses, usesFrom_append]
  exact List.append_nil _

@[simp]
theorem configures_concat (commands : List (ClientUse β)) (command : ClientUse β) :
  configures (commands ++ [command]) = configures commands + configures [command]
  := configures_append commands [command]

/-- No more commands configure the client before one that uses it than there are in all. -/
theorem le_configures {commands : List (ClientUse β)} {c : ℕ} {b : β}
    (h : (c, b) ∈ uses commands) :
  c ≤ configures commands
  := by
  induction commands using List.reverseRecOn with
  | nil => cases h
  | append_singleton commands command ih =>
      rw [configures_concat]
      cases command with
      | configure =>
          rw [uses_configure] at h
          apply Nat.le_add_right_of_le (ih h)
      | use b' =>
          rw [uses_use, List.mem_append, List.mem_singleton] at h
          rcases h with h | h
          · apply Nat.le_add_right_of_le (ih h)
          · cases h
            apply Nat.le_add_right
      | other =>
          rw [uses_other] at h
          apply Nat.le_add_right_of_le (ih h)

/-- Of commands that do not configure the client, those that use it come after as many that do as
there are before all. -/
theorem exists_mem_usesFrom {commands : List (ClientUse β)} (h : configures commands = 0)
    (hu : uses commands ≠ []) (c : ℕ) :
  ∃ b, (c, b) ∈ usesFrom c commands
  := by
  induction commands with
  | nil => cases hu rfl
  | cons command commands ih =>
      cases command with
      | configure => cases h
      | use b => exact ⟨b, List.mem_cons_self⟩
      | other => exact ih h hu

theorem inForce_injective :
  Function.Injective inForce
  := by
  intro c c' h
  cases c <;> cases c' <;> simp_all [inForce]

/-! ### The clients made -/

/-- The clients made, in the order they are made, once `configured` commands that configure
the client have been handled: the default client, if it is made, comes first. -/
def clientsMade (default : Bool) (configured : ℕ) : List Client :=
  (List.range (configured + default.toNat)).map fun k => inForce (k + 1 - default.toNat)

theorem clientsMade_configure (default : Bool) (configured : ℕ) :
  clientsMade default (configured + 1) = clientsMade default configured ++ [some configured]
  := by
  have hlast : configured + default.toNat + 1 - default.toNat = configured + 1 := by omega
  rw [clientsMade, Nat.add_right_comm, List.range_succ, List.map_append, List.map_singleton, hlast]
  rfl

theorem getElem?_clientsMade {default : Bool} {configured k : ℕ} {client : Client}
    (h : (clientsMade default configured)[k]? = some client) :
  client = inForce (k + 1 - default.toNat)
  := by
  obtain ⟨hk, heq⟩ := List.getElem?_eq_some_iff.mp h
  rw [← heq]
  simp [clientsMade]

/-- The default client, when it is made, comes before the others. -/
theorem clientsMade_default (configured : ℕ) :
  clientsMade true configured = none :: clientsMade false configured
  := by
  simp only [clientsMade, Bool.toNat_true, Bool.toNat_false, List.range_succ_eq_map,
    List.map_cons, List.map_map, Nat.add_zero]
  rfl

/-- The client made as number `k` is in force after `c` commands exactly when `c`, and the
default client when it is made, add up to `k + 1`. -/
theorem inForce_eq {k c : ℕ} {default : Bool} :
  inForce (k + 1 - default.toNat) = inForce c ↔ c + default.toNat = k + 1
  := by
  rw [inForce_injective.eq_iff]
  have hle := default.toNat_le
  omega

/-! ### What the clients are made from -/

/-- What a client is made from stands in a cell, which is the same for the clones of a command.  A
cell at position `i` that is at one before it as well is given twice by the first `n`. -/
theorem not_nodup_take {l : List α} {cell : α} {i n : ℕ} (hmem : cell ∈ l.take i)
    (hget : l[i]? = some cell) (hi : i < n) :
  ¬ (l.take n).Nodup
  := by
  intro hn
  have hpre : l.take (i + 1) <+: l.take n := List.take_prefix_take_left hi
  have hnodup := hpre.sublist.nodup hn
  rw [List.take_add_one, hget, Option.toList_some, List.nodup_append_comm] at hnodup
  apply (List.nodup_cons.mp hnodup).1 hmem

end Cyclers
