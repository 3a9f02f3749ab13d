import Mathlib

/-!
# Lib — dialogues

A program that talks to its surroundings by calls runs until it has made a call, waits for the
answer, and runs on from there.  A `Dialogue` says, of each state, which call the program waits in
(`asks`, none where it has ended), and how it goes on from an answer (`resume`).

The surroundings are an infinite sequence of answers, of which a program that ends takes a finite
part: `after n` is the state in which `n` answers have been offered.  `Answered` says that every
answer is one that the call admits.  What holds at the start and is kept by every admitted answer
holds all along (`Answered.invariant`).
-/

namespace OldStuff.Lib

/-- Programs with states `σ` that make calls `κ` and take answers `α`. -/
structure Dialogue (σ κ α : Type*) where
  asks : σ → Option κ
  resume : σ → α → σ

namespace Dialogue

variable {σ κ α : Type*} (d : Dialogue σ κ α)

/-- The program has ended. -/
def Ended (s : σ) : Prop := d.asks s = none

/-- An answer is taken by a program that waits for one. -/
def offer (s : σ) (a : α) : σ :=
  match d.asks s with
  | none => s
  | some _ => d.resume s a

/-- The state after `n` answers. -/
def after (s : σ) (answers : ℕ → α) : ℕ → σ
  | 0 => s
  | n + 1 => d.offer (after s answers n) (answers n)

/-- Each answer is admitted by the call it is the answer to. -/
def Answered (Fits : κ → α → Prop) (s : σ) (answers : ℕ → α) : Prop :=
  ∀ n k, d.asks (d.after s answers n) = some k → Fits k (answers n)

variable {d} {s : σ} {a : α} {answers : ℕ → α}

theorem offer_of_asks {k : κ} (h : d.asks s = some k) : d.offer s a = d.resume s a := by
  rw [offer, h]

theorem offer_of_ended (h : d.Ended s) : d.offer s a = s := by
  unfold Ended at h
  rw [offer, h]

@[simp] theorem after_zero : d.after s answers 0 = s := rfl

theorem after_succ (n : ℕ) :
    d.after s answers (n + 1) = d.offer (d.after s answers n) (answers n) := rfl

/-- The first answer, and then the others. -/
theorem after_succ' (n : ℕ) : d.after s answers (n + 1) =
    d.after (d.offer s (answers 0)) (fun i => answers (i + 1)) n := by
  induction n with
  | zero => rfl
  | succ n ih => rw [after_succ, ih, after_succ]

/-- A program that has ended stays as it is. -/
theorem after_of_ended {n m : ℕ} (h : d.Ended (d.after s answers n)) (hm : n ≤ m) :
    d.after s answers m = d.after s answers n := by
  induction m, hm using Nat.le_induction with
  | base => rfl
  | succ m _ ih => rw [after_succ, ih, offer_of_ended h]

/-- **The invariant rule.** -/
theorem Answered.invariant {Fits : κ → α → Prop} (h : d.Answered Fits s answers)
    (Inv : σ → Prop) (start : Inv s)
    (step : ∀ s k a, Inv s → d.asks s = some k → Fits k a → Inv (d.resume s a)) (n : ℕ) :
    Inv (d.after s answers n) := by
  induction n with
  | zero => exact start
  | succ n ih =>
      rw [after_succ]
      cases hk : d.asks (d.after s answers n) with
      | none => rwa [offer_of_ended hk]
      | some k =>
          rw [offer_of_asks hk]
          exact step _ k _ ih hk (h n k hk)

/-- One answer, and then the others. -/
def cons (a : α) (answers : ℕ → α) : ℕ → α
  | 0 => a
  | n + 1 => answers n

theorem after_cons (n : ℕ) :
    d.after s (cons a answers) (n + 1) = d.after (d.offer s a) answers n := after_succ' n

theorem Answered.cons {Fits : κ → α → Prop} (ha : ∀ k, d.asks s = some k → Fits k a)
    (h : d.Answered Fits (d.offer s a) answers) : d.Answered Fits s (Dialogue.cons a answers) := by
  intro n k hk
  cases n with
  | zero => exact ha k hk
  | succ n => exact h n k (by rwa [after_cons] at hk)

/-- A program that has ended needs no answers. -/
theorem Answered.of_ended {Fits : κ → α → Prop} (h : d.Ended s) : d.Answered Fits s answers := by
  intro n k hk
  rw [after_of_ended (n := 0) h (Nat.zero_le n)] at hk
  cases h.symm.trans hk

/-- Answers that every call admits. -/
theorem Answered.of_forall {Fits : κ → α → Prop} (h : ∀ n k, Fits k (answers n)) :
    d.Answered Fits s answers := fun n k _ => h n k

theorem Answered.mono {Fits Fits' : κ → α → Prop} (h : d.Answered Fits s answers)
    (hf : ∀ k a, Fits k a → Fits' k a) : d.Answered Fits' s answers :=
  fun n k hk => hf k _ (h n k hk)

end Dialogue

end OldStuff.Lib
