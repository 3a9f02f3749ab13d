import Mathlib

/-!
# Lib — programs that make calls

All that a program does to its surroundings it does by calls.  A `Prog` has ended with a value, has
thrown, or makes a call and goes on from the answer; some answers make it repeat the call.  `law`
says what the surroundings may answer in a state, and what that makes of the state.

`Sat law Q E p s` is total in the two ways to end, `Q` after a value and `E` after a throw, and
partial in the repetitions: `Sat.returns` and `Sat.throws` read it, `Sat.bind`, `Sat.guarded` and
`Sat.once` take a program apart.
-/

namespace OldStuff.Lib

/-- A program with calls `κ`, answers `ρ`, exceptions `ε` and values `α`. -/
inductive Prog (κ : Type) (ρ : κ → Type) (ε α : Type) where
  | done (a : α)
  | throw (e : ε)
  | call (k : κ) (again : ρ k → Bool) (next : ρ k → Prog κ ρ ε α)

namespace Prog

variable {κ : Type} {ρ : κ → Type} {ε α β σ : Type}

def bind : Prog κ ρ ε α → (α → Prog κ ρ ε β) → Prog κ ρ ε β
  | .done a, f => f a
  | .throw e, _ => .throw e
  | .call k again next, f => .call k again fun r => (next r).bind f

/-- What is constructed so far is destroyed by `undo` if the rest throws. -/
def guarded : Prog κ ρ ε α → Prog κ ρ ε Unit → Prog κ ρ ε α
  | .done a, _ => .done a
  | .throw e, undo => undo.bind fun _ => .throw e
  | .call k again next, undo => .call k again fun r => (next r).guarded undo

/-! ### Runs -/

section
variable (law : (k : κ) → σ → ρ k → σ → Prop)

/-- One call and its answer. -/
inductive Step : Prog κ ρ ε α × σ → Prog κ ρ ε α × σ → Prop where
  | again {k : κ} {again : ρ k → Bool} {next : ρ k → Prog κ ρ ε α} {s s' : σ} {r : ρ k}
      (h : law k s r s') (ha : again r = true) :
      Step (.call k again next, s) (.call k again next, s')
  | next {k : κ} {again : ρ k → Bool} {next : ρ k → Prog κ ρ ε α} {s s' : σ} {r : ρ k}
      (h : law k s r s') (ha : again r = false) : Step (.call k again next, s) (next r, s')

/-- `p` ends with `a`. -/
def Returns (p : Prog κ ρ ε α) (s : σ) (a : α) (s' : σ) : Prop :=
  Relation.ReflTransGen (Step law) (p, s) (.done a, s')

/-- `p` throws `e`. -/
def Throws (p : Prog κ ρ ε α) (s : σ) (e : ε) (s' : σ) : Prop :=
  Relation.ReflTransGen (Step law) (p, s) (.throw e, s')

/-- However `p` ends, if it does, `Q` holds of the value and `E` of the exception; `I` holds while
a call is repeated. -/
def Sat (Q : α → σ → Prop) (E : ε → σ → Prop) : Prog κ ρ ε α → σ → Prop
  | .done a, s => Q a s
  | .throw e, s => E e s
  | .call k again next, s => ∃ I : σ → Prop, I s ∧ ∀ s r s', I s → law k s r s' →
      if again r = true then I s' else Sat Q E (next r) s'

end

variable {law : (k : κ) → σ → ρ k → σ → Prop} {Q Q' : α → σ → Prop} {E E' : ε → σ → Prop}
  {p p' : Prog κ ρ ε α} {s s' : σ}

namespace Sat

theorem step (h : Sat law Q E p s) (hs : Step law (p, s) (p', s')) : Sat law Q E p' s' := by
  cases hs with
  | again hl ha =>
      obtain ⟨I, hi, keeps⟩ := h
      have := keeps _ _ _ hi hl
      rw [if_pos ha] at this
      exact ⟨I, this, keeps⟩
  | next hl ha =>
      obtain ⟨I, hi, keeps⟩ := h
      have := keeps _ _ _ hi hl
      rwa [ha, if_neg Bool.false_ne_true] at this

theorem steps {c : Prog κ ρ ε α × σ} (h : Sat law Q E p s)
    (hs : Relation.ReflTransGen (Step law) (p, s) c) : Sat law Q E c.1 c.2 := by
  induction hs with
  | refl => exact h
  | tail _ hs ih => exact ih.step hs

theorem returns {a : α} (h : Sat law Q E p s) (hr : Returns law p s a s') : Q a s' := h.steps hr

theorem throws {e : ε} (h : Sat law Q E p s) (hr : Throws law p s e s') : E e s' := h.steps hr

/-- The same call with another rest. -/
theorem congr {k : κ} {again : ρ k → Bool} {next : ρ k → Prog κ ρ ε α} {next' : ρ k → Prog κ ρ ε β}
    {R : β → σ → Prop} (h : Sat law Q E (.call k again next) s)
    (hn : ∀ r s, Sat law Q E (next r) s → Sat law R E' (next' r) s) :
    Sat law R E' (.call k again next') s := by
  obtain ⟨I, hi, keeps⟩ := h
  refine ⟨I, hi, fun s r s' hs hl => ?_⟩
  have := keeps s r s' hs hl
  split
  · next ha => rwa [if_pos ha] at this
  · next ha =>
      rw [if_neg ha] at this
      exact hn r s' this

theorem mono (h : Sat law Q E p s) (hq : ∀ a s, Q a s → Q' a s) (he : ∀ e s, E e s → E' e s) :
    Sat law Q' E' p s := by
  induction p generalizing s with
  | done a => exact hq a s h
  | throw e => exact he e s h
  | call k again next ih => exact h.congr fun r s hr => ih r hr

/-- **Sequencing.** -/
theorem bind {R : β → σ → Prop} {f : α → Prog κ ρ ε β} (h : Sat law Q E p s)
    (hf : ∀ a s, Q a s → Sat law R E (f a) s) : Sat law R E (p.bind f) s := by
  induction p generalizing s with
  | done a => exact hf a s h
  | throw e => exact h
  | call k again next ih => exact h.congr fun r s hr => ih r hr

/-- **Cleaning up**: a throw of the whole is one of the rest, undone. -/
theorem guarded {undo : Prog κ ρ ε Unit} (h : Sat law Q E p s)
    (hu : ∀ e s, E e s → Sat law (fun _ => E' e) E' undo s) : Sat law Q E' (p.guarded undo) s := by
  induction p generalizing s with
  | done a => exact h
  | throw e => exact (hu e s h).bind fun _ _ he => he
  | call k again next ih => exact h.congr fun r s hr => ih r hr

/-- **A call** that leaves the surroundings as they are when it is to be repeated. -/
theorem once {k : κ} {again : ρ k → Bool} {next : ρ k → Prog κ ρ ε α}
    (hr : ∀ r s', law k s r s' → again r = true → s' = s)
    (hn : ∀ r s', law k s r s' → again r = false → Sat law Q E (next r) s') :
    Sat law Q E (.call k again next) s := by
  refine ⟨(· = s), rfl, fun s₁ r s' hs hl => ?_⟩
  subst hs
  split
  · next ha => exact hr r s' hl ha
  · next ha => exact hn r s' hl (Bool.eq_false_iff.mpr ha)

end Sat

/-! ### Runs that end -/

namespace Returns

variable {a : α} {b : β} {s'' : σ} {f : α → Prog κ ρ ε β}

theorem call {k : κ} {again : ρ k → Bool} {next : ρ k → Prog κ ρ ε α} {r : ρ k}
    (h : law k s r s') (ha : again r = false) (hn : (next r).Returns law s' a s'') :
    (call k again next).Returns law s a s'' :=
  .head (.next h ha) hn

theorem bind (h : p.Returns law s a s') (hf : (f a).Returns law s' b s'') :
    (p.bind f).Returns law s b s'' := by
  refine .trans (b := ((done a : Prog κ ρ ε α).bind f, s')) ?_ hf
  refine Relation.ReflTransGen.lift (fun c : Prog κ ρ ε α × σ => (c.1.bind f, c.2))
    (fun c c' hs => ?_) _ _ h
  cases hs with
  | again hl ha => exact .again hl ha
  | next hl ha => exact .next hl ha

/-- What does not throw is not undone. -/
theorem guarded {undo : Prog κ ρ ε Unit} (h : p.Returns law s a s') :
    (p.guarded undo).Returns law s a s' := by
  refine Relation.ReflTransGen.lift (fun c : Prog κ ρ ε α × σ => (c.1.guarded undo, c.2))
    (fun c c' hs => ?_) _ _ h
  cases hs with
  | again hl ha => exact .again hl ha
  | next hl ha => exact .next hl ha

end Returns

end Prog

end OldStuff.Lib
