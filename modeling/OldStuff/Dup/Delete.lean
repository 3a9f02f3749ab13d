import OldStuff.Dup.Links

/-!
# Dup — the last copy

With `-d` every listed path of a content but the first is unlinked.  What is listed are paths, and
what `unlink` takes away is an entry: where the same directory is given twice, or a link is
followed, the first path may go through the entry of a later one, and then there is nothing left of
the content.

`main_delete` says what the run leaves, and `delete_keeps_iff` when that is enough.
-/

namespace OldStuff.Dup

section
variable {δ : Type} [DecidableEq δ] {perl : Perl Path δ} {fs : FileSystem} {args : List String}
  {es : List Entry} {p q : Path} {c : List Entry} {i : Nat}

/-! ### What is removed -/

/-- The entry that `unlink` takes away, if it may. -/
def removed (fs : FileSystem) (p : Path) : List Entry :=
  (fs.entry p).toList.filter fun e => !fs.denied e

theorem mem_removed {e : Entry} : e ∈ removed fs p ↔ fs.entry p = some e ∧ fs.denied e = false := by
  simp [removed, List.mem_filter]

/-- The entries are those of files. -/
theorem standsFor_of_mem_removed (hp : fs.resolve p = some (c, .file i)) {e : Entry}
    (he : e ∈ removed fs p) : StandsFor fs e i := by
  obtain ⟨e', he', -, stands⟩ := exists_entry hp
  obtain rfl := Option.some.inj (he'.symm.trans (mem_removed.mp he).1)
  exact stands

/-- Without entries of files, the paths name the same entries. -/
theorem entry_without (hes : ∀ e ∈ es, ∃ i, StandsFor fs e i) {e : Entry}
    (h : fs.entry p = some e) : (fs.without es).entry p = some e := by
  obtain ⟨front, c, hn, w⟩ := entry_iff.mp h
  refine entry_iff.mpr ⟨front, c, hn, walks_without.mpr ⟨w, fun x hx hm => ?_⟩⟩
  obtain ⟨i, stands⟩ := hes x hm
  cases stands.through w hx

/-- **One duplicate.** -/
theorem dispose_without (hes : ∀ e ∈ es, ∃ i, StandsFor fs e i)
    (hp : fs.resolve p = some (c, .file i)) :
    dispose literal ⟨false, true⟩ (fs.without es) p = fs.without (es ++ removed fs p) := by
  obtain ⟨e, he, -, stands⟩ := exists_entry hp
  have gone : (fs.without es).unlink p = if fs.denied e then none
      else if e ∈ es then none else some (fs.without (es ++ [e])) := by
    unfold FileSystem.unlink
    rw [entry_without hes he]
    dsimp only
    refine if_congr Iff.rfl rfl ?_
    by_cases hm : e ∈ es
    · rw [lookup_without, if_pos hm, if_pos hm]
    · rw [lookup_without, if_neg hm, if_neg hm]
      split
      · next h => exact absurd h stands.lookup_ne_none
      · next h => exact absurd h stands.lookup_ne_dir
      · rw [without_without]
  have same (h : ∀ x ∈ removed fs p, x ∈ es) :
      fs.without es = fs.without (es ++ removed fs p) := (without_append_of_subset h).symm
  change ((fs.without es).unlink p).getD (fs.without es) = _
  rw [gone]
  by_cases hd : fs.denied e
  · rw [if_pos hd]
    refine same fun x hx => ?_
    obtain ⟨hx, hn⟩ := mem_removed.mp hx
    obtain rfl := Option.some.inj (he.symm.trans hx)
    exact absurd hd (by rw [hn]; exact Bool.false_ne_true)
  · have taken : removed fs p = [e] := by simp [removed, he, hd]
    rw [if_neg hd]
    by_cases hm : e ∈ es
    · rw [if_pos hm]
      refine same fun x hx => ?_
      rw [taken] at hx
      exact List.mem_singleton.mp hx ▸ hm
    · rw [if_neg hm, taken]
      rfl

/-- **Some duplicates**, one after the other. -/
theorem foldl_dispose_without {ps : List Path} (hes : ∀ e ∈ es, ∃ i, StandsFor fs e i)
    (hps : ∀ p ∈ ps, ∃ c i, fs.resolve p = some (c, .file i)) :
    ps.foldl (dispose literal ⟨false, true⟩) (fs.without es) =
      fs.without (es ++ ps.flatMap (removed fs)) := by
  induction ps generalizing es with
  | nil => rw [List.flatMap_nil, List.append_nil]; rfl
  | cons p ps ih =>
      obtain ⟨c, i, hp⟩ := hps p List.mem_cons_self
      rw [List.foldl_cons, dispose_without hes hp, ih, List.flatMap_cons, List.append_assoc]
      · intro e he
        rcases List.mem_append.mp he with he | he
        · exact hes e he
        · exact ⟨i, standsFor_of_mem_removed hp he⟩
      · exact fun q hq => hps q (List.mem_cons_of_mem _ hq)

/-! ### What the run leaves -/

/-- **The run** removes the entries of the duplicates, and nothing else. -/
theorem main_delete (hd : "-d" ∈ args) (hr : "-r" ∉ args) : main literal perl args fs =
    fs.without ((duplicates literal perl fs args).flatMap (removed fs)) := by
  have stands {gone rest : List Path} (hg : duplicates literal perl fs args = gone ++ rest)
      {e : Entry} (he : e ∈ gone.flatMap (removed fs)) :
      ∃ q ∈ gone, ∃ c i, fs.resolve q = some (c, .file i) ∧ StandsFor fs e i := by
    obtain ⟨q, hq, he⟩ := List.mem_flatMap.mp he
    obtain ⟨c, i, hr⟩ := resolve_of_collected (collected_of_gone hg hq)
    exact ⟨q, hq, c, i, hr, standsFor_of_mem_removed hr he⟩
  have options : (⟨false, true⟩ : Options) = ⟨"-r" ∈ args, "-d" ∈ args⟩ := by simp [hd, hr]
  refine (main_run (P := fun gone u => u = fs.without (gone.flatMap (removed fs)))
    (Q := fun _ => False) (List.ne_nil_of_mem hd) options rfl ?_ ?_ ?_ ?_).resolve_right id
  · simp [FileSystem.without]
  · intro gone rest u hg hu p hp hs
    subst hu
    refine Option.ext fun content => read_without.trans (and_iff_left fun e he hm => ?_)
    obtain ⟨q, hq, c, i, hr, hi⟩ := stands hg hm
    refine hs q hq (Eq.trans ?_ (?_ : some (fs.content i).length = _))
    · exact size_iff.mpr ⟨c, i, hr, rfl⟩
    · exact (size_iff.mpr ⟨_, i, hi.resolve he, rfl⟩).symm
  · intro gone p rest u hg hu
    subst hu
    obtain ⟨c, i, hp⟩ := resolve_of_collected (collected_of_mem_duplicates
      (hg ▸ List.mem_append_right _ List.mem_cons_self : p ∈ duplicates literal perl fs args))
    left
    rw [List.flatMap_append, List.flatMap_singleton]
    refine dispose_without (fun e he => ?_) hp
    obtain ⟨_, _, _, i, _, hi⟩ := stands hg he
    exact ⟨i, hi⟩
  · exact fun _ _ h => h

/-- Some of these paths goes through no entry that the paths after the first are unlinked by. -/
def Survives (fs : FileSystem) (paths : List Path) : Prop :=
  ∃ q ∈ paths, ∀ q' ∈ paths.tail, ∀ e ∈ fs.entry q', fs.denied e = false → e ∉ fs.chain q

instance (paths : List Path) : Decidable (Survives fs paths) :=
  inferInstanceAs (Decidable (∃ q ∈ paths, ∀ q' ∈ paths.tail, ∀ e ∈ fs.entry q',
    fs.denied e = false → e ∉ fs.chain q))

/-- **The last copy.**  Where names are taken as they are and the digest tells the contents at hand
apart, every content that could be read through a collected path can be read through a collected
path after `-d` if and only if every such content survives in its list. -/
theorem delete_keeps_iff {other : FileSystem → Path → Option Content} (hd : "-d" ∈ args)
    (hr : "-r" ∉ args) (hv : ∀ p ∈ compared literal perl fs args, p.Verbatim)
    (hi : ∀ p ∈ collected literal perl fs args, ∀ q ∈ collected literal perl fs args, ∀ c c',
      fs.read p = some c → fs.read q = some c' → perl.hexdigest c = perl.hexdigest c' → c = c') :
    (∀ p ∈ collected literal perl fs args, ∀ c ∈ fs.read p,
      ∃ q ∈ collected literal perl fs args, (main (linked other) perl args fs).read q = some c) ↔
    ∀ p ∈ collected literal perl fs args, ∀ c ∈ fs.read p,
      Survives fs (listed literal perl fs args c) := by
  refine forall₂_congr fun p _ => forall₂_congr fun content _ => ?_
  have spared {q : Path} (hq : fs.read q = some content) :
      (∀ e ∈ fs.chain q, e ∉ (duplicates literal perl fs args).flatMap (removed fs)) ↔
      ∀ q' ∈ (listed literal perl fs args content).tail, ∀ e ∈ fs.entry q',
        fs.denied e = false → e ∉ fs.chain q := by
    constructor
    · intro h q' hq' e he hn hm
      refine h e hm (List.mem_flatMap.mpr ⟨q', ?_, mem_removed.mpr ⟨he, hn⟩⟩)
      exact (mem_duplicates (fun _ _ _ => size_of_read) hi).mpr ⟨content, hq'⟩
    · intro h e he hm
      obtain ⟨q', hq', hm⟩ := List.mem_flatMap.mp hm
      obtain ⟨content', hq'⟩ := (mem_duplicates (fun _ _ _ => size_of_read) hi).mp hq'
      -- the entry stands for a file with this content
      obtain ⟨-, hc'⟩ := List.mem_filter.mp (List.mem_of_mem_tail hq')
      obtain ⟨c', i, hr', -, rfl⟩ := read_iff.mp (of_decide_eq_true hc')
      obtain ⟨c, j, hr, -, rfl⟩ := read_iff.mp hq
      have stands := standsFor_of_mem_removed hr' hm
      cases hr.symm.trans (stands.resolve he)
      obtain ⟨he', hn⟩ := mem_removed.mp hm
      exact h q' hq' e he' hn he
  rw [main_linked hv, main_delete hd hr]
  constructor
  · rintro ⟨q, hq, hc⟩
    obtain ⟨hc, hn⟩ := read_without.mp hc
    exact ⟨q, List.mem_filter.mpr ⟨hq, decide_eq_true hc⟩, (spared hc).mp hn⟩
  · rintro ⟨q, hq, hn⟩
    obtain ⟨hq, hc⟩ := List.mem_filter.mp hq
    have hc : fs.read q = some content := of_decide_eq_true hc
    exact ⟨q, hq, read_without.mpr ⟨hc, (spared hc).mpr hn⟩⟩

end

/-- A directory `d` with the entries given; the files are numbers. -/
private def shelf (files : List (String × Nat)) (content : Nat → Content) : FileSystem where
  root := 0
  cwd := 0
  links := 8
  lookup e :=
    if e = (0, "d") then some (.node (.dir 1))
    else if e.1 = 1 then (files.lookup e.2).map fun i => .node (.file i)
    else none
  content := content
  unreadable _ := false
  denied _ := false

/-- `find` in it. -/
private def visiting (names : List String) : Perl Path Content :=
  .exact fun dir => if dir = "d" then names.map fun n => ⟨false, ["d", n]⟩ else []

/-- Two copies. -/
private def twins : FileSystem := shelf [("x", 7), ("y", 8)] fun _ => [65]

/-- One file. -/
private def single : FileSystem := shelf [("x", 7)] fun _ => [65]

/-- Special names are not opened. -/
private def unopened (_ : FileSystem) (_ : Path) : Option Content := none

/-- Of two copies one stays. -/
theorem delete_keeps_sample :
    ∃ q ∈ collected literal (visiting ["x", "y"]) twins ["-d", "d"],
      (main (linked unopened) (visiting ["x", "y"]) ["-d", "d"] twins).read q = some [65] :=
  (delete_keeps_iff (by decide) (by decide) (by decide +kernel) fun _ _ _ _ _ _ _ _ he => he).mpr
    (by decide +kernel) ⟨false, ["d", "x"]⟩ (by decide +kernel) [65] (by decide +kernel)

/-- **The same directory twice**: its only file is listed twice, and unlinked as a duplicate of
itself. -/
theorem delete_same_twice :
    ¬ ∀ p ∈ collected literal (visiting ["x"]) single ["-d", "d", "d"], ∀ c ∈ single.read p,
      ∃ q ∈ collected literal (visiting ["x"]) single ["-d", "d", "d"],
        (main (linked unopened) (visiting ["x"]) ["-d", "d", "d"] single).read q = some c := by
  decide +kernel

end OldStuff.Dup
