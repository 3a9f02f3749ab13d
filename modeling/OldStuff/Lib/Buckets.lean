import Mathlib

/-!
# Lib — loops over a list, and buckets

`foldl_or` is the rule of a loop whose invariant speaks of the elements seen so far and may be
broken for good.

A bucket table maps keys to lists; `gather` is the loop that files every element of a list under its
key, if it has one.  A bucket holds the elements of its key in the order in which they came
(`bucket_gather`), and the loop depends on nothing but the keys of the elements it sees
(`gather_congr`).
-/

namespace OldStuff.Lib

/-- **The rule of a loop**: `P` holds of the elements seen and the state, or from some element on
`Q` holds of the state. -/
theorem foldl_or {σ α : Type*} {f : σ → α → σ} {P : List α → σ → Prop} {Q : σ → Prop}
    {xs : List α} {s : σ} (start : P [] s)
    (step : ∀ seen x rest s, xs = seen ++ x :: rest → P seen s →
      P (seen ++ [x]) (f s x) ∨ Q (f s x))
    (keep : ∀ s, ∀ x ∈ xs, Q s → Q (f s x)) : P xs (xs.foldl f s) ∨ Q (xs.foldl f s) := by
  suffices run : ∀ seen rest s, xs = seen ++ rest → P seen s ∨ Q s →
      P xs (rest.foldl f s) ∨ Q (rest.foldl f s) from run [] xs s rfl (.inl start)
  intro seen rest
  induction rest generalizing seen with
  | nil =>
      intro s he h
      rw [List.append_nil] at he
      exact he ▸ h
  | cons x rest ih =>
      intro s he h
      refine ih (seen ++ [x]) (f s x) (by rw [he, List.append_assoc, List.singleton_append]) ?_
      rcases h with h | h
      · exact step seen x rest s he h
      · exact .inr (keep s x (he ▸ List.mem_append_right _ List.mem_cons_self) h)

/-- A list for every key. -/
abbrev Buckets (κ α : Type*) := AList fun _ : κ => List α

namespace Buckets

variable {κ α : Type*} [DecidableEq κ] {k k' : κ} {a : α} {xs : List α} {t : Buckets κ α}
  {key key' : α → Option κ}

/-- The list of a key; it is empty for a key that is not there. -/
def bucket (k : κ) (t : Buckets κ α) : List α := (t.lookup k).getD []

/-- `a` at the end of the list of `k`. -/
def push (k : κ) (a : α) (t : Buckets κ α) : Buckets κ α := t.insert k (t.bucket k ++ [a])

/-- Every element under its key. -/
def gather (key : α → Option κ) (xs : List α) (t : Buckets κ α) : Buckets κ α :=
  xs.foldl (fun t a => match key a with
    | some k => t.push k a
    | none => t) t

@[simp] theorem bucket_empty : (∅ : Buckets κ α).bucket k = [] := rfl

theorem bucket_push : (t.push k a).bucket k' =
    if k = k' then t.bucket k' ++ [a] else t.bucket k' := by
  unfold push bucket
  by_cases h : k = k'
  · subst h
    rw [AList.lookup_insert, if_pos rfl]
    rfl
  · rw [AList.lookup_insert_ne (Ne.symm h), if_neg h]

theorem gather_cons : gather key (a :: xs) t = gather key xs
    (match key a with
      | some k => t.push k a
      | none => t) := rfl

theorem gather_append {ys : List α} :
    gather key (xs ++ ys) t = gather key ys (gather key xs t) := List.foldl_append

/-- **A bucket**: what was there, and the elements of this key. -/
theorem bucket_gather : (gather key xs t).bucket k =
    t.bucket k ++ xs.filter fun a => key a = some k := by
  induction xs generalizing t with
  | nil => exact (List.append_nil _).symm
  | cons a xs ih =>
      rw [gather_cons, ih]
      cases hk : key a with
      | none => simp [hk]
      | some k' =>
          dsimp only
          rw [bucket_push]
          by_cases h : k' = k
          · subst h
            simp [hk]
          · simp [hk, h]

/-- Only the keys of the elements matter. -/
theorem gather_congr (h : ∀ a ∈ xs, key a = key' a) : gather key xs t = gather key' xs t := by
  induction xs generalizing t with
  | nil => rfl
  | cons a xs ih =>
      rw [gather_cons, gather_cons, h a List.mem_cons_self,
        ih fun b hb => h b (List.mem_cons_of_mem _ hb)]

/-- The keys are those of the elements. -/
theorem mem_gather : k ∈ gather key xs t ↔ k ∈ t ∨ ∃ a ∈ xs, key a = some k := by
  induction xs generalizing t with
  | nil => simp [gather]
  | cons a xs ih =>
      rw [gather_cons, ih]
      cases hk : key a with
      | none => simp [hk]
      | some k' => simp [hk, push, or_assoc, or_left_comm, eq_comm]

/-- What is stored is the bucket of its key. -/
theorem mem_entries {b : Sigma fun _ : κ => List α} (h : b ∈ t.entries) : b.2 = t.bucket b.1 := by
  have : t.lookup b.1 = some b.2 := AList.mem_lookup_iff.mpr h
  rw [bucket, this, Option.getD_some]

theorem mem_values {bs : List α} : bs ∈ t.entries.map (·.2) ↔ ∃ k ∈ t, t.bucket k = bs := by
  constructor
  · intro h
    obtain ⟨b, hb, rfl⟩ := List.mem_map.mp h
    exact ⟨b.1, AList.mem_keys.mpr (List.mem_map_of_mem hb), (mem_entries hb).symm⟩
  · rintro ⟨k, hk, rfl⟩
    obtain ⟨bs, hbs⟩ := Option.isSome_iff_exists.mp (AList.lookup_isSome.mpr hk)
    refine List.mem_map.mpr ⟨⟨k, bs⟩, AList.mem_lookup_iff.mp hbs, ?_⟩
    rw [bucket, hbs, Option.getD_some]

theorem stored_eq (key : α → Option κ) {b : Sigma fun _ : κ => List α}
    (hb : b ∈ (gather key xs ∅).entries) : b.2 = xs.filter fun a => key a = some b.1 := by
  rw [mem_entries hb, bucket_gather, bucket_empty, List.nil_append]

/-- Nothing is in two buckets. -/
theorem disjoint_values (key : α → Option κ) :
    ((gather key xs ∅).entries.map (·.2)).Pairwise List.Disjoint := by
  refine List.pairwise_map.mpr ((List.pairwise_map.mp (gather key xs ∅).nodupKeys).imp_of_mem ?_)
  intro b b' hb hb' hne a ha ha'
  rw [stored_eq key hb] at ha
  rw [stored_eq key hb'] at ha'
  have first : key a = some b.1 := of_decide_eq_true (List.mem_filter.mp ha).2
  have second : key a = some b'.1 := of_decide_eq_true (List.mem_filter.mp ha').2
  exact hne (Option.some.inj (first.symm.trans second))

/-- Nor is anything in a bucket twice. -/
theorem pairwise_values (key : α → Option κ) (h : xs.Nodup) :
    ((gather key xs ∅).entries.map (·.2)).Pairwise List.Disjoint ∧
      ∀ bs ∈ (gather key xs ∅).entries.map (·.2), bs.Nodup := by
  refine ⟨disjoint_values key, ?_⟩
  rintro bs hbs
  obtain ⟨b, hb, rfl⟩ := List.mem_map.mp hbs
  exact stored_eq key hb ▸ h.filter _

end Buckets

end OldStuff.Lib
