import Mathlib

/-!
# Lib — rosters

A roster is a list used as a set: `add` puts an element at the end unless it is there already,
`remove` takes its one occurrence out.  The list carries the proof that no element stands in it
twice, so that membership after an operation depends on membership before it and on nothing
else (`mem_add`, `mem_remove`).

Several parties may write into one roster.  `Shared` is one party's view of it: what stands in it
is what the others put there and what it put there itself.  An edit of its own leaves the part of
the others alone (`Shared.add`, `Shared.remove`).
-/

namespace OldStuff.Lib

/-- A list without repetitions. -/
structure Roster (α : Type*) where
  toList : List α
  nodup : toList.Nodup

namespace Roster

variable {α : Type*}

instance : Membership α (Roster α) := ⟨fun r a => a ∈ r.toList⟩

theorem mem_def {r : Roster α} {a : α} : a ∈ r ↔ a ∈ r.toList := Iff.rfl

instance [DecidableEq α] (a : α) (r : Roster α) : Decidable (a ∈ r) :=
  inferInstanceAs (Decidable (a ∈ r.toList))

/-- The roster without entries. -/
def empty : Roster α := ⟨[], List.nodup_nil⟩

@[simp] theorem not_mem_empty (a : α) : a ∉ (empty : Roster α) := List.not_mem_nil

/-- `r` holds what the others entered and what this party did. -/
def Shared (r : Roster α) (theirs mine : α → Prop) : Prop := ∀ a, a ∈ r ↔ theirs a ∨ mine a

variable {r : Roster α} {theirs mine mine' : α → Prop} {a : α}

theorem Shared.congr (h : r.Shared theirs mine) (he : ∀ a, mine' a ↔ mine a) :
    r.Shared theirs mine' :=
  fun a => by rw [h a, he a]

variable [DecidableEq α]

/-- `push_back`, unless the element is there. -/
def add (a : α) (r : Roster α) : Roster α :=
  if h : a ∈ r.toList then r
  else ⟨r.toList ++ [a], List.nodup_append.mpr
    ⟨r.nodup, List.nodup_singleton a, fun b hb c hc => by
      rw [List.mem_singleton] at hc; subst hc; exact fun e => h (e ▸ hb)⟩⟩

/-- `erase`, if the element is there. -/
def remove (a : α) (r : Roster α) : Roster α :=
  if a ∈ r.toList then ⟨r.toList.erase a, r.nodup.erase a⟩ else r

@[simp] theorem mem_add {a b : α} {r : Roster α} : b ∈ r.add a ↔ b ∈ r ∨ b = a := by
  unfold add
  split
  · next h => exact ⟨Or.inl, fun hb => hb.elim id fun e => e ▸ h⟩
  · simp [mem_def]

@[simp] theorem mem_remove {a b : α} {r : Roster α} : b ∈ r.remove a ↔ b ∈ r ∧ b ≠ a := by
  unfold remove
  split
  · next h => rw [mem_def, r.nodup.mem_erase_iff, and_comm]; rfl
  · next h => exact ⟨fun hb => ⟨hb, fun e => h (e ▸ hb)⟩, And.left⟩

/-! ### One roster, several parties -/

theorem Shared.add (h : r.Shared theirs mine) (he : ∀ b, mine' b ↔ mine b ∨ b = a) :
    (r.add a).Shared theirs mine' :=
  fun b => by rw [mem_add, h b, he b, or_assoc]

theorem Shared.remove (h : r.Shared theirs mine) (ha : ¬ theirs a)
    (he : ∀ b, mine' b ↔ mine b ∧ b ≠ a) : (r.remove a).Shared theirs mine' := by
  intro b
  rw [mem_remove, h b, he b, or_and_right]
  exact or_congr_left (and_iff_left_of_imp fun hb e => ha (e ▸ hb))

end Roster

end OldStuff.Lib
