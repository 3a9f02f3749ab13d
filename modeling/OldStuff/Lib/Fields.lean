import Mathlib

/-!
# Lib — texts of fields

Fields with a separator between them, of which no field has one.  Such a text has as many
separators as it has fields, less one, and is split into its fields in one way only.  So if one
occurs in another with the same number of fields, the separators lie upon each other: the fields
between are equal, the first is the end of the other's first and the last the beginning of its last
(`intercalate_infix_iff`).  If each of some fields has a separator behind it, they are found where
they stand in a row with more to follow, but for the first, which is the end of one
(`ended_infix_iff`).
-/

namespace OldStuff.Lib

variable {α : Type*} {sep : α}

/-- More at the front belongs to the first field. -/
theorem append_intercalate (front first : List α) (rest : List (List α)) :
    front ++ [sep].intercalate (first :: rest) = [sep].intercalate ((front ++ first) :: rest) := by
  cases rest with
  | nil => simp
  | cons field rest => simp [List.intercalate_cons_cons]

/-- More at the back belongs to the last field. -/
theorem intercalate_append (init : List (List α)) (last back : List α) :
    [sep].intercalate (init ++ [last]) ++ back = [sep].intercalate (init ++ [last ++ back]) := by
  induction init with
  | nil => simp
  | cons field init ih =>
      rw [List.cons_append, List.cons_append, List.intercalate_cons_of_ne_nil (by simp),
        List.intercalate_cons_of_ne_nil (by simp), List.append_assoc, ih]

theorem append_intercalate_append (front first last back : List α) (between : List (List α)) :
    front ++ [sep].intercalate (first :: (between ++ [last])) ++ back =
      [sep].intercalate ((front ++ first) :: (between ++ [last ++ back])) := by
  rw [append_intercalate]
  exact intercalate_append ((front ++ first) :: between) last back

/-- A text of fields, cut in front of one. -/
theorem intercalate_append_cons (init : List (List α)) (field : List α) (rest : List (List α)) :
    [sep].intercalate (init ++ field :: rest) =
      init.flatMap (· ++ [sep]) ++ [sep].intercalate (field :: rest) := by
  induction init with
  | nil => rfl
  | cons field' init ih =>
      rw [List.cons_append, List.intercalate_cons_of_ne_nil (by simp), ih, List.flatMap_cons]
      simp

variable [DecidableEq α]

/-- One separator between each two fields. -/
theorem count_intercalate {fields : List (List α)} (free : ∀ field ∈ fields, sep ∉ field) :
    ([sep].intercalate fields).count sep = fields.length - 1 := by
  induction fields with
  | nil => rfl
  | cons field fields ih =>
      have none' : field.count sep = 0 := List.count_eq_zero.mpr (free _ List.mem_cons_self)
      have rest := ih fun field' h => free field' (List.mem_cons_of_mem _ h)
      cases fields with
      | nil => simpa using none'
      | cons field' fields =>
          rw [List.intercalate_cons_cons, List.count_append, List.count_append, none', rest]
          simp [Nat.add_comm]

/-- **One text of fields in another** with as many fields. -/
theorem intercalate_infix_iff {first last first' last' : List α} {between between' : List (List α)}
    (free : ∀ field ∈ first :: (between ++ [last]), sep ∉ field)
    (free' : ∀ field ∈ first' :: (between' ++ [last']), sep ∉ field)
    (same : between.length = between'.length) :
    [sep].intercalate (first :: (between ++ [last])) <:+:
        [sep].intercalate (first' :: (between' ++ [last'])) ↔
      first <:+ first' ∧ between = between' ∧ last <+: last' := by
  constructor
  · rintro ⟨front, back, h⟩
    have text : [sep].intercalate ((front ++ first) :: (between ++ [last ++ back])) =
        [sep].intercalate (first' :: (between' ++ [last'])) := by
      rw [← h, append_intercalate_append]
    have count : front.count sep = 0 ∧ back.count sep = 0 := by
      have all := congrArg (List.count sep) h
      rw [List.count_append, List.count_append, count_intercalate free, count_intercalate free']
        at all
      simp only [List.length_cons, List.length_append, List.length_nil, same] at all
      omega
    have wide : ∀ field ∈ (front ++ first) :: (between ++ [last ++ back]), sep ∉ field := by
      intro field hf
      rw [List.count_eq_zero, List.count_eq_zero] at count
      simp only [List.mem_cons, List.mem_append, List.not_mem_nil, or_false] at hf free
      rcases hf with rfl | hf | rfl
      · exact fun hm => (List.mem_append.mp hm).elim count.1 (free _ (.inl rfl))
      · exact free _ (.inr (.inl hf))
      · exact fun hm => (List.mem_append.mp hm).elim (free _ (.inr (.inr rfl))) count.2
    have fields : (front ++ first) :: (between ++ [last ++ back]) =
        first' :: (between' ++ [last']) := by
      rw [← List.splitOn_intercalate sep wide (List.cons_ne_nil _ _), text,
        List.splitOn_intercalate sep free' (List.cons_ne_nil _ _)]
    obtain ⟨rfl, rest⟩ := List.cons.inj fields
    obtain ⟨rfl, last'⟩ := List.append_inj rest same
    obtain rfl := List.singleton_inj.mp last'
    exact ⟨List.suffix_append front first, rfl, List.prefix_append last back⟩
  · rintro ⟨⟨front, rfl⟩, rfl, ⟨back, rfl⟩⟩
    exact ⟨front, back, append_intercalate_append front first last back between⟩

theorem notMem_splitOn (text : List α) : ∀ field ∈ text.splitOn sep, sep ∉ field := by
  induction text with
  | nil => simp
  | cons c text ih =>
      rw [List.splitOn_cons_eq_if_modifyHead]
      split
      · exact List.forall_mem_cons.mpr ⟨List.not_mem_nil, ih⟩
      · next other =>
          obtain ⟨field, rest, fields⟩ := List.exists_cons_of_ne_nil (text.splitOn_ne_nil sep)
          rw [fields] at ih ⊢
          obtain ⟨first, ih⟩ := List.forall_mem_cons.mp ih
          have apart : sep ≠ c := fun e => other (beq_iff_eq.mpr e.symm)
          exact List.forall_mem_cons.mpr ⟨List.not_mem_cons_of_ne_of_not_mem apart first, ih⟩

/-- **Fields with a separator behind each**, in a text of fields. -/
theorem ended_infix_iff {first : List α} {rest fields : List (List α)}
    (free : ∀ field ∈ first :: rest, sep ∉ field) (free' : ∀ field ∈ fields, sep ∉ field) :
    (first :: rest).flatMap (· ++ [sep]) <:+: [sep].intercalate fields ↔
      ∃ init field next more,
        fields = init ++ field :: (rest ++ next :: more) ∧ first <:+ field := by
  constructor
  · rintro ⟨front, back, h⟩
    obtain ⟨next, more, behind⟩ := List.exists_cons_of_ne_nil (back.splitOn_ne_nil sep)
    obtain ⟨init, last, before⟩ := List.eq_nil_or_concat'
      (front.splitOn sep) |>.resolve_left (front.splitOn_ne_nil sep)
    have freeFront : ∀ field ∈ front.splitOn sep, sep ∉ field := notMem_splitOn front
    have freeBack : ∀ field ∈ back.splitOn sep, sep ∉ field := notMem_splitOn back
    have joinFront : [sep].intercalate (front.splitOn sep) = front := List.intercalate_splitOn sep
    have joinBack : [sep].intercalate (back.splitOn sep) = back := List.intercalate_splitOn sep
    rw [before] at freeFront joinFront
    rw [behind] at freeBack joinBack
    have text : [sep].intercalate (init ++ (last ++ first) :: (rest ++ next :: more)) =
        [sep].intercalate fields := by
      rw [← h, ← joinFront, ← joinBack, intercalate_append_cons, ← List.cons_append,
        intercalate_append_cons, intercalate_append_cons]
      simp
    have wide : ∀ field ∈ init ++ (last ++ first) :: (rest ++ next :: more), sep ∉ field := by
      obtain ⟨freeInit, freeLast⟩ := List.forall_mem_append.mp freeFront
      obtain ⟨freeFirst, freeRest⟩ := List.forall_mem_cons.mp free
      refine List.forall_mem_append.mpr ⟨freeInit, List.forall_mem_cons.mpr ⟨?_, ?_⟩⟩
      · exact List.not_mem_append (freeLast last List.mem_cons_self) freeFirst
      · exact List.forall_mem_append.mpr ⟨freeRest, freeBack⟩
    have nonempty : fields ≠ [] := by
      rintro rfl
      have := congrArg List.length h
      simp at this
    refine ⟨init, last ++ first, next, more, ?_, List.suffix_append last first⟩
    rw [← List.splitOn_intercalate sep wide (by simp), text,
      List.splitOn_intercalate sep free' nonempty]
  · rintro ⟨init, field, next, more, rfl, front, rfl⟩
    refine ⟨init.flatMap (· ++ [sep]) ++ front, [sep].intercalate (next :: more), ?_⟩
    rw [intercalate_append_cons, ← List.cons_append, intercalate_append_cons]
    simp

end OldStuff.Lib
