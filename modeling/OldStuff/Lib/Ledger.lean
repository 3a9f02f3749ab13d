import Mathlib

/-!
# Lib — what is held, and what became of the rest

A party holds some resources.  Over a while more come in and some go out.  `Accounted` is the
balance: what was held and what came in is, up to order, what is held now and what went out.
Where the resources are distinct, nothing is then lost, held twice or let go twice.

The balance survives an arrival (`acquire`) and a departure (`release`), and the balance of a part
carries over to the whole (`part`); two balances from one time on give that of the time between
them (`between`).
-/

namespace OldStuff.Lib

/-- `held` was held, `came` came in, `now` is held, `gone` went out. -/
def Accounted {α : Type*} (held came now gone : List α) : Prop := (held ++ came).Perm (now ++ gone)

namespace Accounted

variable {α : Type*} {held came now gone now' came' gone' mine mine' rest : List α} {a : α}

theorem refl (held : List α) : Accounted held [] held [] := List.Perm.refl _

theorem acquire (h : Accounted held came now gone) (hn : now'.Perm (a :: now)) :
    Accounted held (came ++ [a]) now' gone := by
  have h₁ : (held ++ (came ++ [a])).Perm (a :: (held ++ came)) := by
    rw [← List.append_assoc]
    exact List.perm_append_singleton a _
  exact (h₁.trans (h.cons a)).trans (hn.symm.append_right gone)

theorem release (h : Accounted held came now gone) (hn : now.Perm (a :: now')) :
    Accounted held came now' (gone ++ [a]) := by
  have h₁ : (a :: (now' ++ gone)).Perm (now' ++ (gone ++ [a])) := by
    rw [← List.append_assoc]
    exact (List.perm_append_singleton a _).symm
  exact (h.trans (hn.append_right gone)).trans h₁

/-- All that is held goes. -/
theorem close (h : Accounted held came now gone) : Accounted held came [] (gone ++ now) :=
  h.trans List.perm_append_comm

/-- A part of what is held keeps its own books. -/
theorem part (h : Accounted held came now gone) (hn : now.Perm (mine ++ rest))
    (hm : Accounted mine came' mine' gone') :
    Accounted held (came ++ came') (mine' ++ rest) (gone ++ gone') := by
  have h₁ : (held ++ (came ++ came')).Perm ((mine ++ rest) ++ gone ++ came') := by
    rw [← List.append_assoc]
    exact (h.trans (hn.append_right gone)).append_right came'
  have h₂ : ((mine ++ rest) ++ gone ++ came').Perm ((mine ++ came') ++ (rest ++ gone)) := by
    rw [List.append_assoc mine, List.append_assoc mine, List.append_assoc mine]
    exact List.perm_append_comm.append_left mine
  have h₃ : ((mine' ++ gone') ++ (rest ++ gone)).Perm ((mine' ++ rest) ++ (gone ++ gone')) := by
    rw [List.append_assoc mine', List.append_assoc mine', ← List.append_assoc rest]
    exact List.perm_append_comm.append_left mine'
  exact ((h₁.trans h₂).trans (hm.append_right _)).trans h₃

/-- The balance of the time between two. -/
theorem between (h : Accounted held came now gone)
    (h' : Accounted held (came ++ came') now' (gone ++ gone')) :
    Accounted now came' now' gone' := by
  have h₁ : (gone ++ (now ++ came')).Perm (held ++ (came ++ came')) := by
    rw [← List.append_assoc, ← List.append_assoc]
    exact (List.perm_append_comm.trans h.symm).append_right came'
  have h₂ : (now' ++ (gone ++ gone')).Perm (gone ++ (now' ++ gone')) := by
    rw [← List.append_assoc, ← List.append_assoc]
    exact List.perm_append_comm.append_right gone'
  exact (List.perm_append_left_iff gone).mp ((h₁.trans h').trans h₂)

/-- What went out and what is held came in, or was held from the start. -/
theorem mem_iff (h : Accounted held came now gone) : a ∈ held ∨ a ∈ came ↔ a ∈ now ∨ a ∈ gone := by
  rw [← List.mem_append, ← List.mem_append]
  exact List.Perm.mem_iff h

end Accounted

end OldStuff.Lib
