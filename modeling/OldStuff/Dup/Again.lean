import OldStuff.Dup.Delete

/-!
# Dup — run after run

A run with `-d` settles the file system: whatever links there are, and whatever could not be
removed, a later run that visits nothing new and visits it in the same order leaves everything
alone (`delete_settles`).  A duplicate of the later run is one of the first, and its entry was taken
away then if it may be.
-/

namespace OldStuff.Dup

/-- A later run: the same digest, and of the paths that were visited some may be gone. -/
structure Later {δ : Type} (perl perl' : Perl Path δ) : Prop where
  hexdigest : perl'.hexdigest = perl.hexdigest
  find : ∀ dir, (perl'.find dir).Sublist (perl.find dir)

section
variable {δ : Type} {perl perl' : Perl Path δ} {fs : FileSystem} {args : List String}
  {es : List Entry} {p : Path} {size : Nat}

/-- The paths that are visited, in their order. -/
theorem Later.visited (h : Later perl perl') (ds : List String) :
    (ds.flatMap perl'.find).Sublist (ds.flatMap perl.find) := by
  induction ds with
  | nil => exact List.Sublist.refl _
  | cons d ds ih => exact (h.find d).append ih

theorem size_of_without (h : (fs.without es).size p = some size) : fs.size p = some size := by
  obtain ⟨c, i, hr, hl⟩ := size_iff.mp h
  exact size_iff.mpr ⟨c, i, (resolve_without.mp hr).1, hl⟩

theorem Later.still_collected (h : Later perl perl') :
    (collected literal perl' (fs.without es) args).Sublist (collected literal perl fs args) := by
  refine ((h.visited (dirs args)).filter _).trans (List.monotone_filter_right _ fun p hp => ?_)
  obtain ⟨size, hs⟩ := Option.isSome_iff_exists.mp hp
  exact Option.isSome_iff_exists.mpr ⟨size, size_of_without hs⟩

/-- What a later run opens was opened before. -/
theorem Later.still_compared (h : Later perl perl')
    (hp : p ∈ compared literal perl' (fs.without es) args) : p ∈ compared literal perl fs args := by
  obtain ⟨size, hp, long⟩ := mem_compared.mp hp
  have sizes : ((table literal perl' (fs.without es) args).bucket size).Sublist
      ((table literal perl fs args).bucket size) := by
    rw [bucket_table, bucket_table]
    refine (h.still_collected.filter _).trans (List.monotone_filter_right _ fun p hp => ?_)
    exact decide_eq_true (size_of_without (of_decide_eq_true hp))
  exact mem_compared.mpr ⟨size, sizes.mem hp, long.trans sizes.length_le⟩

variable [DecidableEq δ]

/-- **A duplicate of a later run** was a duplicate before. -/
theorem Later.still_duplicate (h : Later perl perl')
    (hp : p ∈ duplicates literal perl' (fs.without es) args) :
    p ∈ duplicates literal perl fs args := by
  obtain ⟨size, -, hp⟩ := List.mem_flatMap.mp hp
  obtain ⟨d, hp⟩ := mem_scheduled.mp hp
  rw [bucket_table] at hp
  have alike : (((collected literal perl' (fs.without es) args).filter fun p =>
        literal.size (fs.without es) p = some size).filter fun p =>
          (literal.read (fs.without es) p).map perl'.hexdigest = some d).Sublist
      (((collected literal perl fs args).filter fun p =>
        literal.size fs p = some size).filter fun p =>
          (literal.read fs p).map perl.hexdigest = some d) := by
    have sizes : ((collected literal perl' (fs.without es) args).filter fun p =>
        literal.size (fs.without es) p = some size).Sublist
        ((collected literal perl fs args).filter fun p => literal.size fs p = some size) := by
      refine (h.still_collected.filter _).trans (List.monotone_filter_right _ fun p hp => ?_)
      exact decide_eq_true (size_of_without (of_decide_eq_true hp))
    refine (sizes.filter _).trans (List.monotone_filter_right _ fun p hp => ?_)
    obtain ⟨c, hr, rfl⟩ := Option.map_eq_some_iff.mp (of_decide_eq_true hp)
    refine decide_eq_true (Option.map_eq_some_iff.mpr ⟨c, (read_without.mp hr).1, ?_⟩)
    rw [h.hexdigest]
  have before := alike.tail.mem hp
  have file : p ∈ (table literal perl fs args).bucket size := by
    rw [bucket_table]
    exact (List.mem_filter.mp (List.mem_of_mem_tail before)).1
  obtain ⟨hc, hs⟩ := mem_bucket_table.mp file
  refine List.mem_flatMap.mpr ⟨size, mem_sizes.mpr ⟨p, hc, hs⟩, mem_scheduled.mpr ⟨d, ?_⟩⟩
  rwa [bucket_table]

/-- **A second run** leaves everything alone. -/
theorem Later.main_main (h : Later perl perl') (hd : "-d" ∈ args) (hr : "-r" ∉ args) :
    main literal perl' args (main literal perl args fs) = main literal perl args fs := by
  rw [main_delete hd hr, main_delete hd hr, without_without]
  refine without_append_of_subset fun e he => ?_
  obtain ⟨q, hq, he⟩ := List.mem_flatMap.mp he
  have before := h.still_duplicate hq
  obtain ⟨entry, allowed⟩ := mem_removed.mp he
  obtain ⟨c, i, file⟩ := resolve_of_collected (collected_of_mem_duplicates before)
  obtain ⟨e', named, -, -⟩ := exists_entry file
  have stand : ∀ e ∈ (duplicates literal perl fs args).flatMap (removed fs),
      ∃ i, StandsFor fs e i := by
    intro e he
    obtain ⟨p, hp, he⟩ := List.mem_flatMap.mp he
    obtain ⟨c, i, file⟩ := resolve_of_collected (collected_of_mem_duplicates hp)
    exact ⟨i, standsFor_of_mem_removed file he⟩
  obtain rfl := Option.some.inj (entry.symm.trans (entry_without stand named))
  exact List.mem_flatMap.mpr ⟨q, before, mem_removed.mpr ⟨named, allowed⟩⟩

/-- **Settled**: where names are taken as they are, any number of runs after one with `-d` change
nothing. -/
theorem delete_settles {other : FileSystem → Path → Option Content} (hd : "-d" ∈ args)
    (hr : "-r" ∉ args) {later : List (Perl Path δ)} (hl : ∀ perl' ∈ later, Later perl perl')
    (hv : ∀ p ∈ compared literal perl fs args, p.Verbatim) :
    later.foldl (fun fs perl' => main (linked other) perl' args fs)
      (main (linked other) perl args fs) = main (linked other) perl args fs := by
  rw [main_linked hv]
  induction later with
  | nil => rfl
  | cons perl' later ih =>
      obtain ⟨first, rest⟩ := List.forall_mem_cons.mp hl
      have names : ∀ p ∈ compared literal perl' (main literal perl args fs) args, p.Verbatim := by
        rw [main_delete hd hr]
        exact fun p hp => hv p (first.still_compared hp)
      rw [List.foldl_cons, main_linked names, first.main_main hd hr, ih rest]

end

/-- A directory `d` with two names for one content; the second may not be removed. -/
private def shared : FileSystem where
  root := 0
  cwd := 0
  links := 8
  lookup e :=
    if e = (0, "d") then some (.node (.dir 1))
    else if e = (1, "a") then some (.node (.file 5))
    else if e = (1, "b") then some (.node (.file 6))
    else if e = (1, "c") then some (.node (.file 7))
    else none
  content _ := [65]
  unreadable _ := false
  denied e := e = (1, "b")

/-- `find` in it. -/
private def walking (names : List String) : Perl Path Content :=
  .exact fun dir => if dir = "d" then names.map fun n => ⟨false, ["d", n]⟩ else []

/-- Special names are not opened. -/
private def untold (_ : FileSystem) (_ : Path) : Option Content := none

/-- `c` is removed and `b` is not, and a later run tries in vain. -/
theorem delete_settles_sample :
    main (linked untold) (walking ["a", "b"]) ["-d", "d"]
        (main (linked untold) (walking ["a", "b", "c"]) ["-d", "d"] shared) =
      main (linked untold) (walking ["a", "b", "c"]) ["-d", "d"] shared := by
  have later : Later (walking ["a", "b", "c"]) (walking ["a", "b"]) := by
    refine ⟨rfl, fun dir => ?_⟩
    unfold walking Perl.exact
    dsimp only
    split
    · exact .cons_cons _ (.cons_cons _ (.cons _ .slnil))
    · exact .slnil
  have delete : "-d" ∈ ["-d", "d"] := List.mem_cons_self
  have keep : "-r" ∉ ["-d", "d"] := by decide
  exact delete_settles delete keep (List.forall_mem_singleton.mpr later) (by decide +kernel)

end OldStuff.Dup
