import Mathlib

/-!
# Lib — the outcome of a statement that may throw

A statement of a language with exceptions, run in a state, ends in one of three ways: it yields
a value, it throws, or its behaviour is undefined.  A throw keeps the state: what was assigned
before it stays assigned, and the handler sees it.

`Outcome.Sat P E` is total correctness with two postconditions: `P` of the value and the state
after a normal end, `E` of the state after a throw; an undefined outcome satisfies nothing.  The
rules below take a statement apart at its sequencing (`Sat.bind`) and at its handler
(`Sat.recover`).

`Outcome.Same R` compares two statements: they end alike, in states that `R` relates.
`Outcome.Breaks` compares a statement with the same statement when one of its calls fails: it ends
as before, or throws.

`Outcome.Within R` is a frame: however the statement ends, `R` holds of the state, if there is one.
`Outcome.Liberal P E` has two postconditions as `Sat` does, and says nothing of an undefined outcome
either.  Where a run is known to have ended in one way, `bind_eq_ok` and its like take it apart.

`Outcome.Ends` is of a statement whose loops are given a bound on their rounds: it comes to its end
if the bound is large enough, and until then it does nothing else.
-/

namespace OldStuff.Lib

/-- How a statement ends: with a value, by a throw, or with undefined behaviour. -/
inductive Outcome (σ α : Type*) where
  | ok (a : α) (s : σ)
  | thrown (s : σ)
  | fault

namespace Outcome

variable {σ α β : Type*}

/-- Sequencing: a throw and a fault skip the rest. -/
def bind (o : Outcome σ α) (k : α → σ → Outcome σ β) : Outcome σ β :=
  match o with
  | .ok a s   => k a s
  | .thrown s => .thrown s
  | .fault    => .fault

/-- `try { o } catch (...) { h }`: the handler runs in the state of the throw. -/
def recover (o : Outcome σ α) (h : σ → Outcome σ α) : Outcome σ α :=
  match o with
  | .ok a s   => .ok a s
  | .thrown s => h s
  | .fault    => .fault

/-- The same end, seen as one of a statement that runs in a larger state. -/
def lift {τ : Type*} (ret : α → σ → τ) (out : σ → τ) : Outcome σ α → Outcome τ Unit
  | .ok a s   => .ok () (ret a s)
  | .thrown s => .thrown (out s)
  | .fault    => .fault

/-- `P` after a normal end, `E` after a throw, and no fault. -/
def Sat (P : α → σ → Prop) (E : σ → Prop) : Outcome σ α → Prop
  | .ok a s   => P a s
  | .thrown s => E s
  | .fault    => False

/-- The same postcondition after a normal end and after a throw. -/
def Always (R : σ → Prop) (o : Outcome σ α) : Prop := o.Sat (fun _ s => R s) R

/-- `R` after a normal end and after a throw; nothing is said of an undefined outcome. -/
def Within (R : σ → Prop) : Outcome σ α → Prop
  | .ok _ s | .thrown s => R s
  | .fault => True

@[simp] theorem bind_ok (a : α) (s : σ) (k : α → σ → Outcome σ β) :
    (Outcome.ok a s).bind k = k a s := rfl
@[simp] theorem bind_thrown (s : σ) (k : α → σ → Outcome σ β) :
    (Outcome.thrown s).bind k = .thrown s := rfl
@[simp] theorem bind_fault (k : α → σ → Outcome σ β) :
    (Outcome.fault : Outcome σ α).bind k = .fault := rfl

@[simp] theorem recover_ok (a : α) (s : σ) (h : σ → Outcome σ α) :
    (Outcome.ok a s).recover h = .ok a s := rfl
@[simp] theorem recover_thrown (s : σ) (h : σ → Outcome σ α) :
    (Outcome.thrown s).recover h = h s := rfl
@[simp] theorem recover_fault (h : σ → Outcome σ α) :
    (Outcome.fault : Outcome σ α).recover h = .fault := rfl

/-! ### How an end comes about -/

theorem bind_eq_ok {o : Outcome σ α} {k : α → σ → Outcome σ β} {b : β} {t : σ} :
    o.bind k = .ok b t ↔ ∃ a s, o = .ok a s ∧ k a s = .ok b t := by
  cases o with
  | ok a s => simp
  | thrown s => simp
  | fault => simp

theorem bind_eq_thrown {o : Outcome σ α} {k : α → σ → Outcome σ β} {t : σ} :
    o.bind k = .thrown t ↔ o = .thrown t ∨ ∃ a s, o = .ok a s ∧ k a s = .thrown t := by
  cases o with
  | ok a s => simp
  | thrown s => simp
  | fault => simp

theorem recover_eq_ok {o : Outcome σ α} {k : σ → Outcome σ α} {a : α} {t : σ} :
    o.recover k = .ok a t ↔ o = .ok a t ∨ ∃ s, o = .thrown s ∧ k s = .ok a t := by
  cases o with
  | ok a s => simp
  | thrown s => simp
  | fault => simp

theorem lift_eq_ok {τ : Type*} {ret : α → σ → τ} {out : σ → τ} {o : Outcome σ α} {u : Unit}
    {t : τ} : o.lift ret out = .ok u t ↔ ∃ a s, o = .ok a s ∧ ret a s = t := by
  cases o with
  | ok a s => simp [lift]
  | thrown s => simp [lift]
  | fault => simp [lift]

/-! ### Two postconditions -/

section
variable {P Q : α → σ → Prop} {E F : σ → Prop}

@[simp] theorem sat_ok {a : α} {s : σ} : (Outcome.ok a s).Sat P E ↔ P a s := Iff.rfl
@[simp] theorem sat_thrown {s : σ} : (Outcome.thrown s : Outcome σ α).Sat P E ↔ E s := Iff.rfl
@[simp] theorem sat_fault : ¬ (Outcome.fault : Outcome σ α).Sat P E := id

theorem Sat.mono {o : Outcome σ α} (h : o.Sat P E) (hP : ∀ a s, P a s → Q a s)
    (hE : ∀ s, E s → F s) : o.Sat Q F := by
  cases o with
  | ok a s => exact hP a s h
  | thrown s => exact hE s h
  | fault => exact h

/-- Two specifications of one outcome hold together. -/
theorem Sat.and {o : Outcome σ α} (h : o.Sat P E) (h' : o.Sat Q F) :
    o.Sat (fun a s => P a s ∧ Q a s) (fun s => E s ∧ F s) := by
  cases o with
  | ok a s => exact ⟨h, h'⟩
  | thrown s => exact ⟨h, h'⟩
  | fault => exact h

/-- **Sequencing.**  The rest has to meet the specification from every state the first part
leaves; a throw of the first part is a throw of the whole. -/
theorem Sat.bind {R : β → σ → Prop} {o : Outcome σ α} {k : α → σ → Outcome σ β}
    (h : o.Sat P E) (hk : ∀ a s, P a s → (k a s).Sat R E) : (o.bind k).Sat R E := by
  cases o with
  | ok a s => exact hk a s h
  | thrown s => exact h
  | fault => exact h

/-- **A handler.**  What the guarded part promises of a throw, the handler may assume. -/
theorem Sat.recover {o : Outcome σ α} {k : σ → Outcome σ α} (h : o.Sat P F)
    (hk : ∀ s, F s → (k s).Sat P E) : (o.recover k).Sat P E := by
  cases o with
  | ok a s => exact h
  | thrown s => exact hk s h
  | fault => exact h

theorem Sat.lift {τ : Type*} {ret : α → σ → τ} {out : σ → τ} {R : Unit → τ → Prop} {F : τ → Prop}
    {o : Outcome σ α} (h : o.Sat P E) (hP : ∀ a s, P a s → R () (ret a s))
    (hE : ∀ s, E s → F (out s)) : (o.lift ret out).Sat R F := by
  cases o with
  | ok a s => exact hP a s h
  | thrown s => exact hE s h
  | fault => exact h

theorem Sat.of_ok {o : Outcome σ α} (h : o.Sat P E) {a : α} {s : σ} (e : o = .ok a s) : P a s := by
  subst e; exact h

/-- Without throws, a value. -/
theorem Sat.exists_ok {o : Outcome σ α} (h : o.Sat P fun _ => False) :
    ∃ a s, o = .ok a s ∧ P a s := by
  cases o with
  | ok a s => exact ⟨a, s, rfl, h⟩
  | thrown s => exact h.elim
  | fault => exact h.elim

theorem Sat.ne_fault {o : Outcome σ α} (h : o.Sat P E) : o ≠ .fault := by
  rintro rfl; exact h

end

/-- `P` after a normal end and `E` after a throw; nothing is said of an undefined outcome. -/
def Liberal (P : α → σ → Prop) (E : σ → Prop) : Outcome σ α → Prop
  | .ok a s   => P a s
  | .thrown s => E s
  | .fault    => True

namespace Liberal

variable {P Q : α → σ → Prop} {E F : σ → Prop} {o : Outcome σ α}

theorem mono (h : o.Liberal P E) (hP : ∀ a s, P a s → Q a s) (hE : ∀ s, E s → F s) :
    o.Liberal Q F := by
  cases o with
  | ok a s => exact hP a s h
  | thrown s => exact hE s h
  | fault => trivial

theorem bind {R : β → σ → Prop} {k : α → σ → Outcome σ β} (h : o.Liberal P E)
    (hk : ∀ a s, P a s → (k a s).Liberal R E) : (o.bind k).Liberal R E := by
  cases o with
  | ok a s => exact hk a s h
  | thrown s => exact h
  | fault => trivial

theorem recover {k : σ → Outcome σ α} (h : o.Liberal P F) (hk : ∀ s, F s → (k s).Liberal P E) :
    (o.recover k).Liberal P E := by
  cases o with
  | ok a s => exact h
  | thrown s => exact hk s h
  | fault => trivial

theorem of_ok (h : o.Liberal P E) {a : α} {s : σ} (e : o = .ok a s) : P a s := by
  subst e; exact h

end Liberal

/-! ### A frame -/

section
variable {R R' : σ → Prop}

theorem Sat.within {P : α → σ → Prop} {E : σ → Prop} {o : Outcome σ α} (h : o.Sat P E)
    (hP : ∀ a s, P a s → R s) (hE : ∀ s, E s → R s) : o.Within R := by
  cases o with
  | ok a s => exact hP a s h
  | thrown s => exact hE s h
  | fault => trivial

theorem Within.mono {o : Outcome σ α} (h : o.Within R) (hR : ∀ s, R s → R' s) : o.Within R' := by
  cases o with
  | ok a s => exact hR s h
  | thrown s => exact hR s h
  | fault => trivial

theorem Within.bind {o : Outcome σ α} {k : α → σ → Outcome σ β} (h : o.Within R)
    (hk : ∀ a s, R s → (k a s).Within R) : (o.bind k).Within R := by
  cases o with
  | ok a s => exact hk a s h
  | thrown s => exact h
  | fault => trivial

theorem Within.recover {o : Outcome σ α} {k : σ → Outcome σ α} (h : o.Within R)
    (hk : ∀ s, R s → (k s).Within R) : (o.recover k).Within R := by
  cases o with
  | ok a s => exact h
  | thrown s => exact hk s h
  | fault => trivial

theorem Within.of_ok {o : Outcome σ α} (h : o.Within R) {a : α} {s : σ} (e : o = .ok a s) :
    R s := by
  subst e; exact h

theorem Within.of_thrown {o : Outcome σ α} (h : o.Within R) {s : σ} (e : o = .thrown s) :
    R s := by
  subst e; exact h

end

/-! ### Two runs side by side -/

section
variable {R : σ → σ → Prop}

/-- The two end alike, with the same value, in related states. -/
inductive Same (R : σ → σ → Prop) : Outcome σ α → Outcome σ α → Prop where
  | ok (a : α) {s t : σ} (h : R s t) : Same R (.ok a s) (.ok a t)
  | thrown {s t : σ} (h : R s t) : Same R (.thrown s) (.thrown t)
  | fault : Same R .fault .fault

theorem Same.bind {o o' : Outcome σ α} {k k' : α → σ → Outcome σ β} (h : Same R o o')
    (hk : ∀ a s t, o = .ok a s → R s t → Same R (k a s) (k' a t)) :
    Same R (o.bind k) (o'.bind k') := by
  cases h with
  | ok a h => exact hk a _ _ rfl h
  | thrown h => exact .thrown h
  | fault => exact .fault

theorem Same.recover {o o' : Outcome σ α} {k k' : σ → Outcome σ α} (h : Same R o o')
    (hk : ∀ s t, R s t → Same R (k s) (k' t)) : Same R (o.recover k) (o'.recover k') := by
  cases h with
  | ok a h => exact .ok a h
  | thrown h => exact hk _ _ h
  | fault => exact .fault

/-- The second ends as the first, unless it throws. -/
inductive Breaks (o : Outcome σ α) : Outcome σ α → Prop where
  | same : Breaks o o
  | thrown (s : σ) : Breaks o (.thrown s)

theorem Breaks.bind {o o' : Outcome σ α} {k k' : α → σ → Outcome σ β} (h : Breaks o o')
    (hk : ∀ a s, Breaks (k a s) (k' a s)) : Breaks (o.bind k) (o'.bind k') := by
  cases h with
  | same =>
      cases o with
      | ok a s => exact hk a s
      | thrown s => exact .same
      | fault => exact .same
  | thrown s => exact .thrown s

end

/-! ### Loops with a bound on their rounds -/

/-- A statement that has come to its end; `false` is for one that has not. -/
def finish (o : Outcome σ Unit) : Outcome σ Bool := o.bind fun _ s => .ok true s

/-- Given `n` rounds, `o n` is not at its end or has done what `o'` does; and there are enough
rounds to come to the end. -/
structure Ends (o : Nat → Outcome σ Bool) (o' : Outcome σ Unit) : Prop where
  or : ∀ n, (∃ s, o n = .ok false s) ∨ o n = finish o'
  enough : ∃ N, ∀ n ≥ N, o n = finish o'

theorem Ends.of_eq {o : Nat → Outcome σ Bool} {o' : Outcome σ Unit} (h : ∀ n, o n = finish o') :
    Ends o o' := ⟨fun n => .inr (h n), 0, fun n _ => h n⟩

/-- **Sequencing**: what follows is only done at the end of the first. -/
theorem Ends.bind {o : Nat → Outcome σ Bool} {o' : Outcome σ Unit}
    {k : Nat → σ → Outcome σ Bool} {k' : σ → Outcome σ Unit} (h : Ends o o')
    (hk : ∀ s, Ends (k · s) (k' s)) :
    Ends (fun n => (o n).bind fun done s => if done then k n s else .ok false s)
      (o'.bind fun _ s => k' s) := by
  constructor
  · intro n
    rcases h.or n with ⟨s, hn⟩ | hn
    · exact .inl ⟨s, by rw [hn]; rfl⟩
    · rw [hn]
      cases o' with
      | ok a s => exact (hk s).or n
      | thrown s => exact .inr rfl
      | fault => exact .inr rfl
  · obtain ⟨N, hN⟩ := h.enough
    cases o' with
    | ok a s =>
        obtain ⟨M, hM⟩ := (hk s).enough
        refine ⟨max N M, fun n hn => ?_⟩
        rw [hN n (Nat.le_trans (Nat.le_max_left N M) hn)]
        exact hM n (Nat.le_trans (Nat.le_max_right N M) hn)
    | thrown s => exact ⟨N, fun n hn => by rw [hN n hn]; rfl⟩
    | fault => exact ⟨N, fun n hn => by rw [hN n hn]; rfl⟩

/-- **With some bound** it comes to its end or throws, unless it faults without one. -/
theorem Ends.exists_sat {o : Nat → Outcome σ Bool} {o' : Outcome σ Unit} (h : Ends o o') :
    (∃ n, (o n).Sat (fun done _ => done = true) fun _ => True) ↔ o' ≠ .fault := by
  constructor
  · rintro ⟨n, hs⟩ rfl
    rcases h.or n with ⟨s, hn⟩ | hn
    · rw [hn] at hs
      cases hs
    · rw [hn] at hs
      exact hs
  · intro hf
    obtain ⟨N, hN⟩ := h.enough
    refine ⟨N, ?_⟩
    rw [hN N (Nat.le_refl N)]
    cases o' with
    | ok a s => rfl
    | thrown s => trivial
    | fault => exact absurd rfl hf

end Outcome

end OldStuff.Lib
