import OldStuff.Dup.Links

/-!
# Dup — the new names

With `-r` a duplicate `x` gets the name `x.DUP`, and `rename` replaces a file that has this name.
In a file system without links the run renames one entry after the other, and what it has done so
far is told by the entries that were moved (`moved`).  As long as every entry finds its new name
free, no file is lost; the first that does not loses one, and no later step brings it back.
-/

namespace OldStuff.Dup

/-- The entry for the new name. -/
def dupEntry (e : Entry) : Entry := (e.1, e.2 ++ ".DUP")

namespace FileSystem

/-- The files, by their numbers. -/
def files (fs : FileSystem) : Set Nat := {i | ∃ e, fs.lookup e = some (.node (.file i))}

/-- What is under a path, also in a file that cannot be opened. -/
def held (fs : FileSystem) (p : Path) : Option Content :=
  match fs.resolve p with
  | some (_, .file i) => some (fs.content i)
  | _ => none

/-- No links, and finitely many files. -/
structure Plain (fs : FileSystem) : Prop where
  lookup_ne_symlink : ∀ e t, fs.lookup e ≠ some (.symlink t)
  inj : ∀ e e' i, fs.lookup e = some (.node (.file i)) → fs.lookup e' = some (.node (.file i)) →
    e = e'
  finite : fs.files.Finite

/-- `rename` to the new name fails. -/
def refused (fs : FileSystem) (e : Entry) : Bool :=
  fs.denied e || fs.denied (dupEntry e) ||
    match fs.lookup (dupEntry e) with
    | some (.node (.dir _)) => true
    | _ => false

/-- The entries that are renamed, when these are the duplicates. -/
def renamed (fs : FileSystem) (ps : List Path) : List Entry :=
  (ps.filterMap fs.entry).filter fun e => !fs.refused e

/-- Every entry in its turn finds its new name free: no file has it, or the one that had it was
renamed before. -/
def Unoccupied (fs : FileSystem) (es : List Entry) : Prop :=
  ∀ before e after, es = before ++ e :: after →
    fs.lookup (dupEntry e) = none ∨ dupEntry e ∈ before

/-- The same with these entries under their new names. -/
def moved (fs : FileSystem) (es : List Entry) : FileSystem :=
  { fs with
    lookup := fun e => ((es.find? fun x => dupEntry x = e).map fs.lookup).getD
      ((fs.without es).lookup e) }

end FileSystem

section
variable {fs : FileSystem} {e e' x : Entry} {es : List Entry} {i d k : Nat} {o : Object}
  {p : Path} {names : List String} {c : List Entry} {node : Node}

theorem dupEntry_injective : Function.Injective dupEntry := by
  rintro ⟨d, n⟩ ⟨d', n'⟩ h
  obtain ⟨hd, hn⟩ := Prod.mk.inj h
  rw [Prod.mk.injEq]
  exact ⟨hd, String.append_left_inj _ |>.mp hn⟩

theorem dupEntry_ne (e : Entry) : dupEntry e ≠ e := by
  intro h
  have := congrArg String.length (Prod.mk.inj h).2
  rw [String.length_append] at this
  exact Nat.ne_of_gt (Nat.lt_add_of_pos_right (by decide)) this

/-! ### A file system without links -/

theorem FileSystem.Plain.lookup_of_standsFor (plain : fs.Plain) (h : StandsFor fs e i) :
    fs.lookup e = some (.node (.file i)) := by
  obtain ⟨k, c, w⟩ := h
  cases w with
  | file h => exact h
  | dir _ w => cases w
  | symlink h => exact absurd h (plain.lookup_ne_symlink _ _)

/-- The entries on the way to a directory are directories. -/
theorem FileSystem.Plain.lookup_of_walks (plain : fs.Plain) (w : Walks fs k d names c node)
    (hn : ∀ i, node ≠ .file i) : ∀ e ∈ c, ∃ d', fs.lookup e = some (.node (.dir d')) := by
  induction w with
  | here => exact fun e he => absurd he List.not_mem_nil
  | file => exact absurd rfl (hn _)
  | @dir k d d' n rest c node h _ ih => exact List.forall_mem_cons.mpr ⟨⟨d', h⟩, ih hn⟩
  | symlink h => exact absurd h (plain.lookup_ne_symlink _ _)

/-- The last name of a path to a file. -/
theorem Walks.snoc {front : List String} {n : String} {d' : Nat}
    (w : Walks fs k d front c (.dir d')) (h : fs.lookup (d', n) = some (.node (.file i))) :
    Walks fs k d (front ++ [n]) (c ++ [(d', n)]) (.file i) := by
  generalize hn : Node.dir d' = node at w
  induction w with
  | here =>
      cases hn
      exact .file h
  | file => cases hn
  | dir hl _ ih => exact .dir hl (ih hn)
  | symlink hl _ ih => exact .symlink hl (List.append_assoc _ _ _ ▸ ih hn)

/-! ### Moved entries -/

/-- Entries of files, each of which finds its new name free. -/
structure Free (fs : FileSystem) (es : List Entry) : Prop where
  nodup : es.Nodup
  file : ∀ e ∈ es, ∃ i, fs.lookup e = some (.node (.file i))
  unoccupied : fs.Unoccupied es

theorem Free.mem_of_dupEntry (h : Free fs es) (he : e ∈ es) (hn : fs.lookup (dupEntry e) ≠ none) :
    dupEntry e ∈ es := by
  obtain ⟨before, after, rfl⟩ := List.append_of_mem he
  exact List.mem_append_left _ ((h.unoccupied before e after rfl).resolve_left hn)

theorem find_dupEntry : (es.find? fun x => dupEntry x = dupEntry e) =
    if e ∈ es then some e else none := by
  split
  · next he =>
      have found : (es.find? fun x => dupEntry x = dupEntry e).isSome :=
        List.find?_isSome.mpr ⟨e, he, decide_eq_true rfl⟩
      obtain ⟨x, hx⟩ := Option.isSome_iff_exists.mp found
      have := List.find?_some hx
      rw [hx, dupEntry_injective (of_decide_eq_true this)]
  · next he =>
      refine List.find?_eq_none.mpr fun x hx hd => he ?_
      exact dupEntry_injective (of_decide_eq_true hd) ▸ hx

/-- A new name. -/
theorem lookup_moved_dupEntry : (fs.moved es).lookup (dupEntry e) =
    if e ∈ es then fs.lookup e
    else if dupEntry e ∈ es then none
    else fs.lookup (dupEntry e) := by
  unfold FileSystem.moved
  dsimp only
  rw [find_dupEntry]
  by_cases he : e ∈ es
  · rw [if_pos he, if_pos he]
    rfl
  · rw [if_neg he, if_neg he]
    rfl

/-- Any other name. -/
theorem lookup_moved (h : ∀ x ∈ es, dupEntry x ≠ e) : (fs.moved es).lookup e =
    if e ∈ es then none else fs.lookup e := by
  have : (es.find? fun x => dupEntry x = e) = none :=
    List.find?_eq_none.mpr fun x hx hd => h x hx (of_decide_eq_true hd)
  unfold FileSystem.moved
  dsimp only
  rw [this]
  rfl

/-- An entry that is not moved, and is there, is as it was. -/
theorem Free.lookup_eq (h : Free fs es) (he : e ∉ es) (ho : fs.lookup e = some o) :
    (fs.moved es).lookup e = some o := by
  rw [lookup_moved, if_neg he, ho]
  rintro x hx rfl
  exact he (h.mem_of_dupEntry hx (by rw [ho]; exact Option.some_ne_none o))

/-- A directory is not moved. -/
theorem Free.lookup_dir (h : Free fs es) (ho : fs.lookup e = some (.node (.dir d))) :
    (fs.moved es).lookup e = some (.node (.dir d)) := by
  refine h.lookup_eq (fun he => ?_) ho
  obtain ⟨i, hi⟩ := h.file e he
  cases hi.symm.trans ho

/-- Every file is one of those there were. -/
theorem files_moved_subset : (fs.moved es).files ⊆ fs.files := by
  rintro i ⟨e, he⟩
  by_cases hn : ∃ x ∈ es, dupEntry x = e
  · obtain ⟨x, hx, rfl⟩ := hn
    rw [lookup_moved_dupEntry, if_pos hx] at he
    exact ⟨x, he⟩
  · rw [lookup_moved fun x hx hd => hn ⟨x, hx, hd⟩] at he
    split at he
    · cases he
    · exact ⟨e, he⟩

/-- Where a file is now. -/
theorem Free.exists_lookup (h : Free fs es) (he : fs.lookup e = some (.node (.file i))) :
    ∃ n, (fs.moved es).lookup (e.1, n) = some (.node (.file i)) := by
  by_cases hm : e ∈ es
  · refine ⟨e.2 ++ ".DUP", (lookup_moved_dupEntry (e := e)).trans ?_⟩
    rw [if_pos hm, he]
  · exact ⟨e.2, h.lookup_eq hm he⟩

/-- **No file is lost** where every entry finds its new name free. -/
theorem Free.files_eq (h : Free fs es) : (fs.moved es).files = fs.files := by
  refine files_moved_subset.antisymm ?_
  rintro i ⟨e, he⟩
  obtain ⟨n, hn⟩ := h.exists_lookup he
  exact ⟨_, hn⟩

/-- **A file is lost** by the first entry that does not. -/
theorem files_moved_ssubset (plain : fs.Plain)
    (hi : fs.lookup (dupEntry e) = some (.node (.file i))) (hd : dupEntry e ∉ es) :
    (fs.moved (es ++ [e])).files ⊂ fs.files := by
  refine files_moved_subset.ssubset_of_mem_notMem ⟨_, hi⟩ ?_
  rintro ⟨x, hx⟩
  have apart : dupEntry e ∉ es ++ [e] := by
    rw [List.mem_append, List.mem_singleton]
    rintro (h | h)
    · exact hd h
    · exact dupEntry_ne e h
  by_cases hn : ∃ y ∈ es ++ [e], dupEntry y = x
  · obtain ⟨y, hy, rfl⟩ := hn
    rw [lookup_moved_dupEntry, if_pos hy] at hx
    exact apart (plain.inj _ _ _ hx hi ▸ hy)
  · rw [lookup_moved fun y hy hd => hn ⟨y, hy, hd⟩] at hx
    split at hx
    · cases hx
    · obtain rfl := plain.inj _ _ _ hx hi
      exact hn ⟨e, List.mem_append_right _ List.mem_cons_self, rfl⟩

/-- The paths to a directory stay. -/
theorem Free.walks (h : Free fs es) (plain : fs.Plain) (w : Walks fs k d names c node)
    (hn : ∀ i, node ≠ .file i) : Walks (fs.moved es) k d names c node := by
  refine w.frame rfl fun e he => ?_
  obtain ⟨d', hd⟩ := plain.lookup_of_walks w hn e he
  rw [hd, h.lookup_dir hd]

theorem Free.entry_eq (h : Free fs es) (plain : fs.Plain) (he : fs.entry p = some e) :
    (fs.moved es).entry p = some e := by
  obtain ⟨front, c, hn, w⟩ := entry_iff.mp he
  exact entry_iff.mpr ⟨front, c, hn, h.walks plain w fun i => by rintro ⟨⟩⟩

/-- A file that is in the directory of `e` is found there. -/
theorem Free.resolve (h : Free fs es) (plain : fs.Plain) (he : fs.entry p = some e) {n : String}
    (hi : (fs.moved es).lookup (e.1, n) = some (.node (.file i))) :
    ∃ q c, (fs.moved es).resolve q = some (c, .file i) ∧ (n = e.2 → q = p) := by
  obtain ⟨front, c, hn, w⟩ := entry_iff.mp he
  refine ⟨{ p with names := front ++ [n] }, _, resolve_iff.mpr ((h.walks plain w ?_).snoc hi), ?_⟩
  · rintro j ⟨⟩
  · rintro rfl
    rw [← hn]

theorem held_iff {content : Content} : fs.held p = some content ↔
    ∃ c i, fs.resolve p = some (c, .file i) ∧ fs.content i = content := by
  unfold FileSystem.held
  constructor
  · intro h
    split at h
    · next c i hr => exact ⟨c, i, hr, Option.some.inj h⟩
    · cases h
  · rintro ⟨c, i, hr, rfl⟩
    rw [hr]

/-- The entry of a path to a file. -/
theorem FileSystem.Plain.entry (plain : fs.Plain) (hr : fs.resolve p = some (c, .file i)) :
    ∃ e, fs.entry p = some e ∧ fs.lookup e = some (.node (.file i)) := by
  obtain ⟨e, he, -, stands⟩ := exists_entry hr
  exact ⟨e, he, plain.lookup_of_standsFor stands⟩

/-- **No content is lost** where every entry finds its new name free. -/
theorem Free.exists_held (h : Free fs es) (plain : fs.Plain) {content : Content}
    (hp : fs.held p = some content) : ∃ q, (fs.moved es).held q = some content := by
  obtain ⟨c, i, hr, hc⟩ := held_iff.mp hp
  obtain ⟨e, he, hi⟩ := plain.entry hr
  obtain ⟨n, hn⟩ := h.exists_lookup hi
  obtain ⟨q, c', hq, -⟩ := h.resolve plain he hn
  exact ⟨q, held_iff.mpr ⟨c', i, hq, hc⟩⟩

/-- A file that is not moved reads as before. -/
theorem Free.read_eq (h : Free fs es) (plain : fs.Plain) (hr : fs.resolve p = some (c, .file i))
    (hm : ∀ e ∈ fs.entry p, e ∉ es) : (fs.moved es).read p = fs.read p := by
  obtain ⟨e, he, hi⟩ := plain.entry hr
  obtain ⟨q, c', hq, hp⟩ := h.resolve plain he (h.lookup_eq (hm e he) hi)
  rw [hp rfl] at hq
  rw [FileSystem.read, FileSystem.read, hr, hq]
  rfl

/-! ### The run -/

theorem entry_dup (h : fs.entry p = some e) : fs.entry p.dup = some (dupEntry e) := by
  obtain ⟨front, c, hn, w⟩ := entry_iff.mp h
  have name : p.dup = { p with names := front ++ [(dupEntry e).2] } := by
    rw [Path.dup, hn, List.getLast?_concat]
    dsimp only
    rw [List.dropLast_concat]
    rfl
  rw [name]
  exact entry_iff.mpr ⟨front, c, rfl, w⟩

theorem renamed_append {ps ps' : List Path} :
    fs.renamed (ps ++ ps') = fs.renamed ps ++ fs.renamed ps' := by
  rw [FileSystem.renamed, List.filterMap_append, List.filter_append]
  rfl

theorem mem_renamed {ps : List Path} :
    e ∈ fs.renamed ps ↔ (∃ p ∈ ps, fs.entry p = some e) ∧ fs.refused e = false := by
  rw [FileSystem.renamed, List.mem_filter, List.mem_filterMap, Bool.not_eq_true']

theorem renamed_singleton (he : fs.entry p = some e) :
    fs.renamed [p] = if fs.refused e then [] else [e] := by
  by_cases hr : fs.refused e <;> simp [FileSystem.renamed, he, hr]

/-- What is at a new name that is not refused. -/
theorem FileSystem.Plain.file_of_not_refused (plain : fs.Plain) (hf : ¬ fs.refused e)
    (hn : fs.lookup (dupEntry e) ≠ none) :
    ∃ j, fs.lookup (dupEntry e) = some (.node (.file j)) := by
  rcases ho : fs.lookup (dupEntry e) with _ | ⟨⟨j⟩ | ⟨d⟩⟩ | t
  · exact absurd ho hn
  · exact ⟨j, rfl⟩
  · refine absurd ?_ hf
    rw [FileSystem.refused, ho, Bool.or_true]
  · exact absurd ho (plain.lookup_ne_symlink _ t)

/-- What `rename` makes of it. -/
theorem Free.moved_append (h : Free fs es) (hi : fs.lookup e = some (.node (.file i)))
    (hm : e ∉ es) : Function.update ((fs.moved es).without [e]).lookup (dupEntry e)
      ((fs.moved es).lookup e) = (fs.moved (es ++ [e])).lookup := by
  funext x
  have apart : ∀ y ∈ es, dupEntry y ≠ e := by
    rintro y hy rfl
    exact hm (h.mem_of_dupEntry hy (by rw [hi]; exact Option.some_ne_none _))
  by_cases hx : x = dupEntry e
  · subst hx
    have : e ∈ es ++ [e] := List.mem_append_right _ List.mem_cons_self
    rw [Function.update_self, lookup_moved_dupEntry, if_pos this, h.lookup_eq hm hi, hi]
  · have other : ((es ++ [e]).find? fun y => dupEntry y = x) =
        es.find? fun y => dupEntry y = x := by
      rw [List.find?_append, List.find?_singleton, if_neg, Option.or_none]
      exact fun hd => hx (of_decide_eq_true hd).symm
    rw [Function.update_of_ne hx, lookup_without]
    unfold FileSystem.moved
    dsimp only
    rw [other]
    by_cases he : x = e
    · subst he
      have : (es.find? fun y => dupEntry y = x) = none :=
        List.find?_eq_none.mpr fun y hy hd => apart y hy (of_decide_eq_true hd)
      simp [this]
    · simp [he]

/-- **One duplicate.** -/
theorem Free.dispose_moved (h : Free fs es) (plain : fs.Plain) (he : fs.entry p = some e)
    (hi : fs.lookup e = some (.node (.file i))) (hm : e ∉ es) {b : Bool} :
    dispose literal ⟨true, b⟩ (fs.moved es) p = fs.moved (es ++ fs.renamed [p]) := by
  have target : (fs.moved es).lookup (dupEntry e) =
      if dupEntry e ∈ es then none else fs.lookup (dupEntry e) := by
    rw [lookup_moved_dupEntry, if_neg hm]
  have done : (fs.moved es).rename p p.dup =
      if fs.refused e then none else some (fs.moved (es ++ [e])) := by
    have put := h.moved_append hi hm
    unfold FileSystem.rename FileSystem.refused
    rw [h.entry_eq plain he, h.entry_eq plain (entry_dup he)]
    dsimp only
    change (if (fs.denied e || fs.denied (dupEntry e)) = true then none else _) = _
    by_cases hd : fs.denied e || fs.denied (dupEntry e)
    · rw [if_pos hd, hd]
      rfl
    · rw [if_neg hd, Bool.eq_false_of_not_eq_true hd, put, h.lookup_eq hm hi, target,
        Bool.false_or]
      by_cases ht : dupEntry e ∈ es
      · obtain ⟨j, hj⟩ := h.file _ ht
        rw [if_pos ht, hj]
        rfl
      · rw [if_neg ht]
        rcases hn : fs.lookup (dupEntry e) with _ | ⟨⟨j⟩ | ⟨d⟩⟩ | t
        · rfl
        · have other : i ≠ j := by
            rintro rfl
            exact dupEntry_ne e (plain.inj _ _ _ hn hi)
          exact if_neg other
        · rfl
        · exact absurd hn (plain.lookup_ne_symlink _ t)
  change ((fs.moved es).rename p p.dup).getD (fs.moved es) = _
  rw [done, renamed_singleton he]
  split
  · rw [List.append_nil]
    rfl
  · rfl

theorem unoccupied_nil : fs.Unoccupied [] := by
  intro before e after h
  exact absurd h.symm (List.append_ne_nil_of_right_ne_nil _ (List.cons_ne_nil _ _))

theorem FileSystem.Unoccupied.of_append {es' : List Entry} (h : fs.Unoccupied (es ++ es')) :
    fs.Unoccupied es := by
  rintro before x after rfl
  exact h before x (after ++ es') (List.append_assoc _ _ _)

theorem unoccupied_append_singleton : fs.Unoccupied (es ++ [e]) ↔
    fs.Unoccupied es ∧ (fs.lookup (dupEntry e) = none ∨ dupEntry e ∈ es) := by
  constructor
  · intro h
    exact ⟨h.of_append, h es e [] rfl⟩
  · rintro ⟨h, he⟩ before x after hs
    rcases List.eq_nil_or_concat after with rfl | ⟨after, y, rfl⟩
    · obtain ⟨rfl, hx⟩ := List.append_inj' hs rfl
      obtain rfl := List.singleton_inj.mp hx
      exact he
    · rw [List.concat_eq_append, ← List.cons_append, ← List.append_assoc] at hs
      exact h before x after (List.append_inj_left' hs rfl)

/-- **The turn of one path** finds the new name free, or loses a file. -/
theorem occupied_or (plain : fs.Plain) {gone : List Path} (hu : fs.Unoccupied (fs.renamed gone))
    (he : fs.entry p = some e) : fs.Unoccupied (fs.renamed (gone ++ [p])) ∨
      (¬ fs.Unoccupied (fs.renamed (gone ++ [p])) ∧
        (fs.moved (fs.renamed (gone ++ [p]))).files ⊂ fs.files) := by
  rw [renamed_append, renamed_singleton he]
  by_cases hf : fs.refused e
  · rw [if_pos hf, List.append_nil]
    exact .inl hu
  · rw [if_neg hf, unoccupied_append_singleton]
    by_cases ho : fs.lookup (dupEntry e) = none ∨ dupEntry e ∈ fs.renamed gone
    · exact .inl ⟨hu, ho⟩
    · rw [not_or] at ho
      obtain ⟨j, hj⟩ := plain.file_of_not_refused hf ho.1
      exact .inr ⟨fun h => h.2.elim ho.1 ho.2, files_moved_ssubset plain hj ho.2⟩

/-- A rename adds no file. -/
theorem files_rename_subset {fs' : FileSystem} {q : Path} (h : fs.rename p q = some fs') :
    fs'.files ⊆ fs.files := by
  have put {e e' : Entry} : FileSystem.files { fs with
      lookup := Function.update (fs.without [e]).lookup e' (fs.lookup e) } ⊆ fs.files := by
    rintro i ⟨x, hx⟩
    dsimp only at hx
    by_cases hn : x = e'
    · rw [hn, Function.update_self] at hx
      exact ⟨e, hx⟩
    · rw [Function.update_of_ne hn, lookup_without] at hx
      split at hx
      · cases hx
      · exact ⟨x, hx⟩
  unfold FileSystem.rename at h
  split at h
  · split at h
    · cases h
    · split at h
      · cases h
      · cases h
      · cases h
      · split at h
        · cases h
          exact subset_rfl
        · cases h
          exact put
      · cases h
        exact put
  · cases h

theorem files_dispose_subset {b : Bool} :
    (dispose literal ⟨true, b⟩ fs p).files ⊆ fs.files := by
  change ((fs.rename p p.dup).getD fs).files ⊆ fs.files
  cases h : fs.rename p p.dup with
  | none => exact subset_rfl
  | some fs' => exact files_rename_subset h

variable {δ : Type} {perl : Perl Path δ} {args : List String}

/-- No entry is renamed twice. -/
theorem renamed_free (plain : fs.Plain)
    (hn : ((collected literal perl fs args).map fs.entry).Nodup) {ps : List Path}
    (hs : ∀ p ∈ ps, p ∈ collected literal perl fs args) (hp : ps.Nodup)
    (hu : fs.Unoccupied (fs.renamed ps)) : Free fs (fs.renamed ps) := by
  refine ⟨List.Nodup.filter _ (List.pairwise_filterMap.mpr (hp.imp_of_mem ?_)), fun e he => ?_, hu⟩
  · rintro p q hp hq hne e he e' he' rfl
    exact hne (List.inj_on_of_nodup_map hn (hs p hp) (hs q hq) (he.trans he'.symm))
  · obtain ⟨⟨q, hq, he⟩, -⟩ := mem_renamed.mp he
    obtain ⟨c, i, hr⟩ := resolve_of_collected (hs q hq)
    obtain ⟨e', he', hi⟩ := plain.entry hr
    exact ⟨i, Option.some.inj (he'.symm.trans he) ▸ hi⟩

variable [DecidableEq δ]

/-- **The run.**  Every duplicate found its new name free, and the entries were moved; or one did
not, and a file is lost. -/
theorem main_rename (plain : fs.Plain) (hr : "-r" ∈ args)
    (hn : ((collected literal perl fs args).map fs.entry).Nodup) :
    (Free fs (fs.renamed (duplicates literal perl fs args)) ∧
      main literal perl args fs = fs.moved (fs.renamed (duplicates literal perl fs args))) ∨
    (¬ fs.Unoccupied (fs.renamed (duplicates literal perl fs args)) ∧
      (main literal perl args fs).files ⊂ fs.files) := by
  have once : (duplicates literal perl fs args).Nodup := duplicates_nodup hn.of_map
  have free {gone rest : List Path} (h : duplicates literal perl fs args = gone ++ rest)
      (hu : fs.Unoccupied (fs.renamed gone)) : Free fs (fs.renamed gone) :=
    renamed_free plain hn (fun _ => collected_of_gone h) (List.nodup_append.mp (h ▸ once)).1 hu
  -- a path that names a renamed entry is one of those that are gone
  have mem {gone rest : List Path} (h : duplicates literal perl fs args = gone ++ rest) {p : Path}
      (hp : p ∈ collected literal perl fs args) {e : Entry} (he : fs.entry p = some e)
      (hm : e ∈ fs.renamed gone) : p ∈ gone := by
    obtain ⟨⟨q, hq, he'⟩, -⟩ := mem_renamed.mp hm
    exact List.inj_on_of_nodup_map hn (collected_of_gone h hq) hp (he'.trans he.symm) ▸ hq
  have options : (⟨true, "-d" ∈ args⟩ : Options) = ⟨"-r" ∈ args, "-d" ∈ args⟩ := by simp [hr]
  refine (main_run (P := fun gone u => fs.Unoccupied (fs.renamed gone) ∧
      u = fs.moved (fs.renamed gone))
    (Q := fun u => ¬ fs.Unoccupied (fs.renamed (duplicates literal perl fs args)) ∧
      u.files ⊂ fs.files) (List.ne_nil_of_mem hr) options rfl ?_ ?_ ?_ ?_).imp_left
    fun h => ⟨free (List.append_nil _).symm h.1, h.2⟩
  · exact ⟨unoccupied_nil, rfl⟩
  · rintro gone rest u hg ⟨hu, rfl⟩ p hp hs
    obtain ⟨c, i, hr⟩ := resolve_of_collected hp
    exact (free hg hu).read_eq plain hr fun e he hm => hs p (mem hg hp he hm) rfl
  · rintro gone p rest u hg ⟨hu, rfl⟩
    have hp : p ∈ collected literal perl fs args :=
      collected_of_mem_duplicates (hg ▸ List.mem_append_right _ List.mem_cons_self)
    obtain ⟨c, i, hr⟩ := resolve_of_collected hp
    obtain ⟨e, he, hi⟩ := plain.entry hr
    have hm : e ∉ fs.renamed gone := fun hm =>
      (List.nodup_append.mp (hg ▸ once)).2.2 p (mem hg hp he hm) p List.mem_cons_self rfl
    rw [(free hg hu).dispose_moved plain he hi hm, ← renamed_append]
    refine (occupied_or plain hu he).imp (fun h => ⟨h, rfl⟩) fun ⟨h, lost⟩ => ⟨fun all => ?_, lost⟩
    rw [hg, List.append_cons, renamed_append] at all
    exact h all.of_append
  · exact fun u p h => ⟨h.1, files_dispose_subset.trans_ssubset h.2⟩

/-- **The new names.**  Where names are taken as they are and no file is collected twice, `-r` keeps
every content and the number of files if and only if every renamed duplicate in its turn finds its
new name free. -/
theorem rename_keeps_iff {other : FileSystem → Path → Option Content} (plain : fs.Plain)
    (hr : "-r" ∈ args) (hn : ((collected literal perl fs args).map fs.entry).Nodup)
    (hv : ∀ p ∈ compared literal perl fs args, p.Verbatim) :
    ((∀ p, ∀ c ∈ fs.held p, ∃ q, (main (linked other) perl args fs).held q = some c) ∧
      (main (linked other) perl args fs).files.ncard = fs.files.ncard) ↔
    fs.Unoccupied (fs.renamed (duplicates literal perl fs args)) := by
  rw [main_linked hv]
  rcases main_rename plain hr hn with ⟨free, he⟩ | ⟨hu, lost⟩
  · rw [he]
    refine iff_of_true ⟨fun p c hp => free.exists_held plain hp, ?_⟩ free.unoccupied
    rw [free.files_eq]
  · refine iff_of_false ?_ hu
    rintro ⟨-, count⟩
    exact Nat.ne_of_lt (Set.ncard_lt_ncard lost plain.finite) count

end

/-- A directory `d` with the entries given, each of them a file with this content. -/
private def drawer (files : List (String × Content)) : FileSystem where
  root := 0
  cwd := 0
  links := 8
  lookup e :=
    if e = (0, "d") then some (.node (.dir 1))
    else if e.1 = 1 then
      if e.2 ∈ files.map (·.1) then some (.node (.file ((files.map (·.1)).idxOf e.2))) else none
    else none
  content i := ((files.map (·.2))[i]?).getD []
  unreadable _ := false
  denied _ := false

private theorem drawer_file {files : List (String × Content)} {e : Entry} {i : Nat}
    (h : (drawer files).lookup e = some (.node (.file i))) :
    e.1 = 1 ∧ e.2 ∈ files.map (·.1) ∧ (files.map (·.1)).idxOf e.2 = i := by
  unfold drawer at h
  dsimp only at h
  split_ifs at h with _ hd hm
  · cases h
  · cases h
    exact ⟨hd, hm, rfl⟩

private theorem drawer_plain (files : List (String × Content)) : (drawer files).Plain where
  lookup_ne_symlink e t h := by
    unfold drawer at h
    dsimp only at h
    split_ifs at h <;> cases h
  inj e e' i h h' := by
    obtain ⟨hd, hm, he⟩ := drawer_file h
    obtain ⟨hd', -, he'⟩ := drawer_file h'
    exact Prod.ext (hd.trans hd'.symm) ((List.idxOf_inj hm).mp (he.trans he'.symm))
  finite := by
    refine (Set.finite_lt_nat files.length).subset ?_
    rintro i ⟨e, he⟩
    obtain ⟨-, hm, rfl⟩ := drawer_file he
    exact (List.idxOf_lt_length_of_mem hm).trans_le (List.length_map _).le

/-- `find` in it. -/
private def opening (names : List String) : Perl Path Content :=
  .exact fun dir => if dir = "d" then names.map fun n => ⟨false, ["d", n]⟩ else []

/-- Two copies. -/
private def copies : FileSystem := drawer [("x", [65]), ("y", [65])]

/-- Two copies, and another file that has the new name of the second. -/
private def cluttered : FileSystem := drawer [("x", [65]), ("y", [65]), ("y.DUP", [66])]

/-- Special names are not opened. -/
private def unread (_ : FileSystem) (_ : Path) : Option Content := none

/-- Of two copies the second gets its new name. -/
theorem rename_keeps_sample :
    (∀ p, ∀ c ∈ copies.held p,
      ∃ q, (main (linked unread) (opening ["x", "y"]) ["-r", "d"] copies).held q = some c) ∧
    (main (linked unread) (opening ["x", "y"]) ["-r", "d"] copies).files.ncard =
      copies.files.ncard := by
  have plain : copies.Plain := drawer_plain _
  have only : copies.renamed (duplicates literal (opening ["x", "y"]) copies ["-r", "d"]) =
      [] ++ [(1, "y")] := by decide +kernel
  refine (rename_keeps_iff plain (by decide) (by decide +kernel) (by decide +kernel)).mpr ?_
  rw [only]
  exact unoccupied_append_singleton.mpr ⟨unoccupied_nil, .inl (by decide)⟩

/-- **A file in the way** is replaced, and is one file less. -/
theorem rename_replaces :
    ¬ ((∀ p, ∀ c ∈ cluttered.held p,
      ∃ q, (main (linked unread) (opening ["x", "y", "y.DUP"]) ["-r", "d"] cluttered).held q =
        some c) ∧
    (main (linked unread) (opening ["x", "y", "y.DUP"]) ["-r", "d"] cluttered).files.ncard =
      cluttered.files.ncard) := by
  have only : cluttered.renamed (duplicates literal (opening ["x", "y", "y.DUP"]) cluttered
      ["-r", "d"]) = [(1, "y")] := by decide +kernel
  have taken : cluttered.lookup (1, "y.DUP") ≠ none := by decide
  have plain : cluttered.Plain := drawer_plain _
  have once : ((collected literal (opening ["x", "y", "y.DUP"]) cluttered ["-r", "d"]).map
      cluttered.entry).Nodup := by decide +kernel
  have names : ∀ p ∈ compared literal (opening ["x", "y", "y.DUP"]) cluttered ["-r", "d"],
      p.Verbatim := by decide +kernel
  rw [main_linked names]
  rintro ⟨-, count⟩
  rcases main_rename plain (by decide) once with ⟨free, -⟩ | ⟨-, lost⟩
  · rw [only] at free
    exact absurd ((free.unoccupied [] (1, "y") [] rfl).resolve_left taken) List.not_mem_nil
  · exact Nat.ne_of_lt (Set.ncard_lt_ncard lost plain.finite) count

end OldStuff.Dup
