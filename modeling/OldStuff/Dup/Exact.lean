import OldStuff.Dup.Delete
import OldStuff.Dup.Rename

/-!
# Dup — exact deduplication

Where no file is reached in two ways, `-d` should leave of every content the first path and no
other, and what it reports as duplicated should be what it has removed (`Deduplicated`).  Where
names are taken as they are, it does (`dedup_exact`).  But `open` drops the blanks at the ends of a
name, and what it then reads may be another file (`dedup_blank`).  `dedup_exact_iff` says when the
run is exact: at every size, the largest first, what `open` reads tells the files apart as their
contents do.

`$bytes_duplicated` grows by the sizes of a group of duplicates before any of the group is removed.
`mainCounted` is the program with this number beside the file system; without it, it is the program
(`mainCounted_fst`).
-/

namespace OldStuff.Dup
open OldStuff.Lib
open OldStuff.Lib.Buckets (gather bucket)

/-! ### The bytes duplicated -/

section
variable {σ π δ : Type} [DecidableEq δ] (os : Os σ π) (perl : Perl π δ)

/-- `$bytes_duplicated+=-s $_ foreach(..)`; the size of what is not there is `undef`. -/
def addSizes (s : σ) (bytes : Nat) (files : List π) : Nat :=
  files.foldl (fun bytes file => bytes + (os.size s file).getD 0) bytes

/-- `duplicate`, with `$bytes_duplicated`. -/
def duplicateCounted (options : Options) (st : σ × Nat) (dup : List π) : σ × Nat :=
  (duplicate os options st.1 dup, addSizes os st.1 st.2 dup.tail)

/-- The body of the loop in `check_table`, with `$bytes_duplicated`. -/
def checkSizeCounted (options : Options) (table : Buckets Nat π) (st : σ × Nat) (size : Nat) :
    σ × Nat :=
  let files := table.bucket size
  if files.length < 2 then st
  else
    ((perl.values (checksums os perl st.1 files)).filter (1 < ·.length)).foldl
      (duplicateCounted os options) st

/-- The program, and `$bytes_duplicated` at its end. -/
def mainCounted (args : List String) (s : σ) : σ × Nat :=
  if args = [] then (s, 0)
  else
    let (options, table) := readArgs os perl s args {} ∅
    (table.keys.mergeSort fun a b => b ≤ a).foldl (checkSizeCounted os perl options table) (s, 0)

variable {os perl} {s : σ} {args : List String} {options : Options}

theorem checkSizeCounted_fst (t : Buckets Nat π) (st : σ × Nat) (size : Nat) :
    (checkSizeCounted os perl options t st size).1 =
      checkSize os perl options t st.1 size := by
  unfold checkSizeCounted checkSize
  dsimp only
  split
  · rfl
  · exact (List.foldl_hom Prod.fst fun _ _ => rfl).symm

/-- **The number is beside the program**, and changes nothing of it. -/
theorem mainCounted_fst : (mainCounted os perl args s).1 = main os perl args s := by
  unfold mainCounted main
  split
  · rfl
  · exact (List.foldl_hom Prod.fst fun st size => (checkSizeCounted_fst _ st size).symm).symm

theorem addSizes_eq (bytes : Nat) (files : List π) :
    addSizes os s bytes files = bytes + (files.map fun p => (os.size s p).getD 0).sum := by
  induction files generalizing bytes with
  | nil => rfl
  | cons p files ih =>
      rw [addSizes, List.foldl_cons, ← addSizes, ih, List.map_cons, List.sum_cons, Nat.add_assoc]

/-- The groups of duplicates of one size, each with its first file. -/
def groups (os : Os σ π) (perl : Perl π δ) (s : σ) (args : List String) (size : Nat) :
    List (List π) :=
  if ((table os perl s args).bucket size).length < 2 then []
  else
    (perl.values (gather (fun p => (os.read s p).map perl.hexdigest)
      ((table os perl s args).bucket size) ∅)).filter (1 < ·.length)

theorem checkSizeCounted_eq {st : σ × Nat} {size : Nat}
    (hr : ∀ p ∈ (table os perl s args).bucket size, os.read st.1 p = os.read s p) :
    checkSizeCounted os perl options (table os perl s args) st size =
      (groups os perl s args size).foldl (duplicateCounted os options) st := by
  unfold checkSizeCounted groups
  dsimp only
  split
  · rfl
  · have same : checksums os perl st.1 ((table os perl s args).bucket size) =
        gather (fun p => (os.read s p).map perl.hexdigest)
          ((table os perl s args).bucket size) ∅ :=
      Buckets.gather_congr fun p hp => by rw [hr p hp]
    rw [same]

end

/-! ### Files that are reached in one way -/

section
variable {δ : Type} {perl : Perl Path δ} {fs : FileSystem} {args : List String} {p q : Path}
  {c : List Entry} {i j : Nat} {e : Entry} {node : Node}

/-- On the way of a path to a file, the only entry of a file is the one that the path names. -/
theorem FileSystem.Plain.entry_of_mem (plain : fs.Plain) (hr : fs.resolve p = some (c, .file i))
    (he : e ∈ c) (hf : fs.lookup e = some (.node (.file j))) : fs.entry p = some e := by
  have w := resolve_iff.mp hr
  rcases List.eq_nil_or_concat p.names with hn | ⟨front, n, hn⟩
  · rw [hn] at w
    generalize fs.links = k at w
    cases w
  · rw [List.concat_eq_append] at hn
    rw [hn] at w
    obtain ⟨k, d, c₁, c₂, first, second, rfl⟩ := w.split (List.cons_ne_nil n [])
    rcases List.mem_append.mp he with he | he
    · -- the entries before the last are directories
      obtain ⟨d', hd⟩ := plain.lookup_of_walks first (fun _ h => by cases h) e he
      cases hf.symm.trans hd
    · cases second with
      | file hl =>
          obtain rfl := List.mem_singleton.mp he
          exact entry_iff.mpr ⟨front, c₁, hn, first⟩
      | dir _ w => cases w
      | symlink hl => exact absurd hl (plain.lookup_ne_symlink _ _)

/-- The collection: no links, no file collected twice, every file readable and removable, and the
digest tells the contents apart. -/
structure Unaliased (perl : Perl Path δ) (fs : FileSystem) (args : List String) : Prop where
  plain : fs.Plain
  once : ((collected literal perl fs args).map fs.entry).Nodup
  readable : ∀ p ∈ collected literal perl fs args, (fs.read p).isSome
  removable : ∀ p ∈ collected literal perl fs args, ∀ e ∈ fs.entry p, fs.denied e = false
  digest : ∀ p ∈ collected literal perl fs args, ∀ q ∈ collected literal perl fs args, ∀ c c',
    fs.read p = some c → fs.read q = some c' → perl.hexdigest c = perl.hexdigest c' → c = c'

theorem size_unique {size size' : Nat}
    (hp : p ∈ (table literal perl fs args).bucket size)
    (hp' : p ∈ (table literal perl fs args).bucket size') : size' = size :=
  Option.some.inj ((mem_bucket_table.mp hp').2.symm.trans (mem_bucket_table.mp hp).2)

/-- A path that is collected goes through the entry of another only if it is the other. -/
theorem Unaliased.mem_removed (h : Unaliased perl fs args)
    (hp : p ∈ collected literal perl fs args) (hq : q ∈ collected literal perl fs args)
    (he : e ∈ fs.chain p) (hm : e ∈ removed fs q) : p = q := by
  obtain ⟨c, i, hr⟩ := resolve_of_collected hp
  obtain ⟨c', j, hr'⟩ := resolve_of_collected hq
  rw [chain_of_resolve hr] at he
  have file := h.plain.lookup_of_standsFor (standsFor_of_mem_removed hr' hm)
  have name := h.plain.entry_of_mem hr he file
  exact List.inj_on_of_nodup_map h.once hp hq (name.trans (Dup.mem_removed.mp hm).1.symm)

/-- The entry of a path that is removed. -/
theorem Unaliased.removed_eq (h : Unaliased perl fs args)
    (hp : p ∈ collected literal perl fs args) :
    ∃ e ∈ fs.chain p, e ∈ removed fs p := by
  obtain ⟨c, i, hr⟩ := resolve_of_collected hp
  obtain ⟨e, he, hc, -⟩ := exists_entry hr
  refine ⟨e, by rwa [chain_of_resolve hr], Dup.mem_removed.mpr ⟨he, ?_⟩⟩
  exact h.removable p hp e he

/-- **Without the entries of some paths**, those lead nowhere, and the others where they led. -/
theorem Unaliased.resolve_without (h : Unaliased perl fs args) {gone : List Path}
    (hg : ∀ q ∈ gone, q ∈ collected literal perl fs args)
    (hp : p ∈ collected literal perl fs args) :
    (fs.without (gone.flatMap (removed fs))).resolve p =
      if p ∈ gone then none else fs.resolve p := by
  obtain ⟨c, i, hr⟩ := resolve_of_collected hp
  by_cases hm : p ∈ gone
  · rw [if_pos hm]
    obtain ⟨e, he, hx⟩ := h.removed_eq hp
    refine Option.eq_none_iff_forall_not_mem.mpr fun r hr' => ?_
    obtain ⟨same, free⟩ := Dup.resolve_without.mp hr'
    rw [chain_of_resolve same] at he
    exact free e he (List.mem_flatMap.mpr ⟨p, hm, hx⟩)
  · rw [if_neg hm, hr]
    refine Dup.resolve_without.mpr ⟨hr, fun e he hx => ?_⟩
    obtain ⟨q, hq, hx⟩ := List.mem_flatMap.mp hx
    rw [← chain_of_resolve hr] at he
    exact hm (h.mem_removed hp (hg q hq) he hx ▸ hq)

theorem read_of_resolve {fs' : FileSystem} (hr : fs'.resolve p = fs.resolve p)
    (hc : fs'.content = fs.content) (hu : fs'.unreadable = fs.unreadable) :
    fs'.read p = fs.read p := by
  rw [FileSystem.read, FileSystem.read, hr, hc, hu]

theorem size_of_resolve {fs' : FileSystem} (hr : fs'.resolve p = fs.resolve p)
    (hc : fs'.content = fs.content) : fs'.size p = fs.size p := by
  rw [FileSystem.size, FileSystem.size, hr, hc]

/-- **What is read** without the entries of some paths. -/
theorem Unaliased.read_without (h : Unaliased perl fs args) {gone : List Path}
    (hg : ∀ q ∈ gone, q ∈ collected literal perl fs args)
    (hp : p ∈ collected literal perl fs args) :
    (fs.without (gone.flatMap (removed fs))).read p = if p ∈ gone then none else fs.read p := by
  have lead := h.resolve_without hg hp
  by_cases hm : p ∈ gone
  · rw [if_pos hm] at lead ⊢
    rw [FileSystem.read, lead]
  · rw [if_neg hm] at lead ⊢
    exact read_of_resolve lead rfl rfl

/-- The sizes that are left. -/
theorem Unaliased.size_without (h : Unaliased perl fs args) {gone : List Path}
    (hg : ∀ q ∈ gone, q ∈ collected literal perl fs args)
    (hp : p ∈ collected literal perl fs args) :
    (fs.without (gone.flatMap (removed fs))).size p = if p ∈ gone then none else fs.size p := by
  have lead := h.resolve_without hg hp
  by_cases hm : p ∈ gone
  · rw [if_pos hm] at lead ⊢
    rw [FileSystem.size, lead]
  · rw [if_neg hm] at lead ⊢
    exact size_of_resolve lead rfl

/-! ### What is left, and what is counted -/

/-- The sizes of some paths, in all. -/
def total (fs : FileSystem) (ps : List Path) : Nat := (ps.map fun p => (fs.size p).getD 0).sum

theorem total_append (ps ps' : List Path) : total fs (ps ++ ps') = total fs ps + total fs ps' := by
  rw [total, List.map_append, List.sum_append]
  rfl

theorem total_perm {ps ps' : List Path} (h : ps.Perm ps') : total fs ps = total fs ps' :=
  (h.map _).sum_eq

/-- What is counted, and the rest. -/
theorem total_split {gone ps : List Path} (hg : gone.Nodup) (hps : ps.Nodup)
    (hs : ∀ p ∈ gone, p ∈ ps) :
    total fs gone + total fs (ps.filter fun p => p ∉ gone) = total fs ps := by
  have same : gone.Perm (ps.filter fun p => p ∈ gone) := by
    refine (List.perm_ext_iff_of_nodup hg (hps.filter _)).mpr fun p => ?_
    rw [List.mem_filter, decide_eq_true_iff]
    exact ⟨fun h => ⟨hs p h, h⟩, And.right⟩
  rw [total_perm same]
  exact List.sum_map_filter_add_sum_map_filter_not _ _ ps

/-- What is listed for a content is what is read so. -/
theorem mem_listed {c : Content} : p ∈ listed literal perl fs args c ↔
    p ∈ collected literal perl fs args ∧ fs.read p = some c := by
  rw [listed, List.mem_filter, decide_eq_true_iff]
  rfl

/-- The files of a size with a content that one before them has. -/
def repeated (perl : Perl Path δ) (fs : FileSystem) (args : List String) (size : Nat) : List Path :=
  repeats fs.read ((table literal perl fs args).bucket size)

theorem bucket_of_mem_repeated {size : Nat} (h : p ∈ repeated perl fs args size) :
    p ∈ (table literal perl fs args).bucket size := (List.mem_filter.mp h).1

theorem mem_flatMap_repeated {ns : List Nat} {size : Nat}
    (hp : p ∈ (table literal perl fs args).bucket size) :
    p ∈ ns.flatMap (repeated perl fs args) ↔ size ∈ ns ∧ p ∈ repeated perl fs args size := by
  rw [List.mem_flatMap]
  constructor
  · rintro ⟨size', hm, h⟩
    obtain rfl := size_unique hp (bucket_of_mem_repeated h)
    exact ⟨hm, h⟩
  · exact fun h => ⟨size, h⟩

/-- What `-d` is for: of every content the first path is left and no other, nothing else is
touched, and the bytes counted are those that are gone. -/
structure Deduplicated (perl : Perl Path δ) (fs : FileSystem) (args : List String)
    (fs' : FileSystem) (bytes : Nat) : Prop where
  unique : ∀ c, (∃ p ∈ collected literal perl fs args, fs.read p = some c) →
    ∃! p, p ∈ collected literal perl fs args ∧ fs'.read p = some c
  first : ∀ c p, (listed literal perl fs args c).head? = some p → fs'.read p = some c
  gone : ∀ c p, p ∈ (listed literal perl fs args c).tail → fs'.resolve p = none
  untouched : ∀ c p, listed literal perl fs args c = [p] →
    ∀ e ∈ fs.entry p, fs'.lookup e = fs.lookup e
  others : ∀ e, (∀ c, ∀ p ∈ (listed literal perl fs args c).tail, fs.entry p ≠ some e) →
    fs'.lookup e = fs.lookup e
  content : fs'.content = fs.content
  bytes : bytes + total fs' ((collected literal perl fs args).filter fun p => (fs'.size p).isSome) =
    total fs (collected literal perl fs args)

/-- **What is counted, and what is left**, is what was collected. -/
theorem Unaliased.bytes_add (h : Unaliased perl fs args) {gone : List Path} (hn : gone.Nodup)
    (hg : ∀ q ∈ gone, q ∈ collected literal perl fs args) :
    total fs gone + total (fs.without (gone.flatMap (removed fs)))
        ((collected literal perl fs args).filter fun p =>
          ((fs.without (gone.flatMap (removed fs))).size p).isSome) =
      total fs (collected literal perl fs args) := by
  have survivors : ((collected literal perl fs args).filter fun p =>
      ((fs.without (gone.flatMap (removed fs))).size p).isSome) =
        (collected literal perl fs args).filter fun p => p ∉ gone := by
    refine List.filter_congr fun p hp => ?_
    rw [h.size_without hg hp]
    by_cases hm : p ∈ gone
    · simp [hm]
    · have : (fs.size p).isSome = true := (List.mem_filter.mp hp).2
      simp [hm, this]
  rw [survivors, ← total_split hn h.once.of_map hg]
  refine congrArg (_ + ·) (congrArg List.sum (List.map_congr_left fun p hp => ?_))
  obtain ⟨hp, hn⟩ := List.mem_filter.mp hp
  rw [h.size_without hg hp, if_neg (of_decide_eq_true hn)]

/-- An entry that none of the paths names is not touched. -/
theorem lookup_without_removed {gone : List Path} (he : ∀ p ∈ gone, fs.entry p ≠ some e) :
    (fs.without (gone.flatMap (removed fs))).lookup e = fs.lookup e := by
  rw [lookup_without, if_neg]
  intro hm
  obtain ⟨p, hp, hm⟩ := List.mem_flatMap.mp hm
  exact he p hp (mem_removed.mp hm).1

/-- **The groups of one size**, one after the other: none of a group is removed before all of it is
counted. -/
theorem Unaliased.foldl_duplicateCounted (h : Unaliased perl fs args)
    {read : FileSystem → Path → Option Content} {gs : List (List Path)} {gone : List Path}
    {bytes : Nat} (hn : (gone ++ gs.flatMap List.tail).Nodup)
    (hg : ∀ q ∈ gone ++ gs.flatMap List.tail, q ∈ collected literal perl fs args) :
    gs.foldl (duplicateCounted { literal with read := read } ⟨false, true⟩)
        (fs.without (gone.flatMap (removed fs)), bytes) =
      (fs.without ((gone ++ gs.flatMap List.tail).flatMap (removed fs)),
        bytes + total fs (gs.flatMap List.tail)) := by
  induction gs generalizing gone bytes with
  | nil => rw [List.flatMap_nil, List.append_nil]; rfl
  | cons dup gs ih =>
      rw [List.flatMap_cons, ← List.append_assoc] at hn hg
      have among : ∀ q ∈ gone ++ dup.tail, q ∈ collected literal perl fs args :=
        fun q hq => hg q (List.mem_append_left _ hq)
      have before : ∀ q ∈ gone, q ∈ collected literal perl fs args :=
        fun q hq => among q (List.mem_append_left _ hq)
      have member : ∀ q ∈ dup.tail, q ∈ collected literal perl fs args :=
        fun q hq => among q (List.mem_append_right _ hq)
      have removal : duplicate { literal with read := read } ⟨false, true⟩
          (fs.without (gone.flatMap (removed fs))) dup =
            fs.without ((gone ++ dup.tail).flatMap (removed fs)) := by
        change dup.tail.foldl (dispose literal ⟨false, true⟩) _ = _
        rw [List.flatMap_append]
        refine foldl_dispose_without (fun e he => ?_) fun q hq => resolve_of_collected (member q hq)
        obtain ⟨q, hq, he⟩ := List.mem_flatMap.mp he
        obtain ⟨c, i, hr⟩ := resolve_of_collected (before q hq)
        exact ⟨i, standsFor_of_mem_removed hr he⟩
      have count : addSizes { literal with read := read } (fs.without (gone.flatMap (removed fs)))
          bytes dup.tail = bytes + total fs dup.tail := by
        rw [addSizes_eq, total]
        refine congrArg (_ + ·) (congrArg List.sum (List.map_congr_left fun q hq => ?_))
        have away : q ∉ gone := fun hm =>
          (List.nodup_append.mp (List.nodup_append.mp hn).1).2.2 q hm q hq rfl
        change ((fs.without (gone.flatMap (removed fs))).size q).getD 0 = _
        rw [h.size_without before (member q hq), if_neg away]
      rw [List.foldl_cons, duplicateCounted, removal, count, ih hn hg, List.flatMap_cons,
        total_append, Nat.add_assoc, List.append_assoc]

variable [DecidableEq δ]

/-- The duplicates are what is listed behind the first path of a content. -/
theorem Unaliased.mem_duplicates (h : Unaliased perl fs args) :
    p ∈ duplicates literal perl fs args ↔ ∃ c, p ∈ (listed literal perl fs args c).tail :=
  Dup.mem_duplicates (fun _ _ _ => size_of_read) h.digest

/-- The first path of a content is no duplicate, and the others are. -/
theorem Unaliased.duplicate_iff (h : Unaliased perl fs args) {c : Content}
    (hc : fs.read p = some c) {first : Path}
    (hf : (listed literal perl fs args c).head? = some first)
    (hp : p ∈ collected literal perl fs args) :
    p ∈ duplicates literal perl fs args ↔ p ≠ first := by
  have mem : p ∈ listed literal perl fs args c := mem_listed.mpr ⟨hp, hc⟩
  have once : (listed literal perl fs args c).Nodup := h.once.of_map.filter _
  obtain ⟨rest, hl⟩ := List.head?_eq_some_iff.mp hf
  rw [hl] at mem once
  rw [h.mem_duplicates]
  constructor
  · rintro ⟨c', hm⟩ rfl
    -- the content of a listed path is the content it is listed for
    have hc' := (mem_listed.mp (List.mem_of_mem_tail hm)).2
    obtain rfl := Option.some.inj (hc.symm.trans hc')
    rw [hl] at hm
    exact (List.nodup_cons.mp once).1 hm
  · intro hne
    refine ⟨c, ?_⟩
    rw [hl]
    exact (List.mem_cons.mp mem).resolve_left hne

/-- **The first path** of a content is left. -/
theorem Unaliased.read_first (h : Unaliased perl fs args) {c : Content}
    (hf : (listed literal perl fs args c).head? = some p) :
    p ∈ collected literal perl fs args ∧
      (fs.without ((duplicates literal perl fs args).flatMap (removed fs))).read p = some c := by
  obtain ⟨hp, hc⟩ := mem_listed.mp (List.mem_of_mem_head? hf)
  have stays : p ∉ duplicates literal perl fs args := fun hm =>
    (h.duplicate_iff hc hf hp).mp hm rfl
  rw [h.read_without (fun _ => collected_of_mem_duplicates) hp, if_neg stays]
  exact ⟨hp, hc⟩

/-- **No other** is left. -/
theorem Unaliased.eq_first (h : Unaliased perl fs args) {c : Content}
    (hf : (listed literal perl fs args c).head? = some p)
    (hq : q ∈ collected literal perl fs args)
    (hread : (fs.without ((duplicates literal perl fs args).flatMap (removed fs))).read q =
      some c) : q = p := by
  rw [h.read_without (fun _ => collected_of_mem_duplicates) hq] at hread
  by_cases hm : q ∈ duplicates literal perl fs args
  · rw [if_pos hm] at hread
    cases hread
  · rw [if_neg hm] at hread
    by_contra hne
    exact hm ((h.duplicate_iff hread hf hq).mpr hne)

/-- The only path of a content names an entry that no duplicate names. -/
theorem Unaliased.entry_ne_of_single (h : Unaliased perl fs args) {c : Content}
    (hl : listed literal perl fs args c = [p]) (hq : q ∈ duplicates literal perl fs args) :
    fs.entry q ≠ fs.entry p := by
  intro hentry
  have listed : p ∈ listed literal perl fs args c := hl ▸ List.mem_cons_self
  obtain ⟨hp, hc⟩ := mem_listed.mp listed
  obtain rfl := List.inj_on_of_nodup_map h.once (collected_of_mem_duplicates hq) hp hentry
  have hf : (Dup.listed literal perl fs args c).head? = some q := by
    rw [hl]
    rfl
  exact (h.duplicate_iff hc hf hp).mp hq rfl

/-- **Without the duplicates** of the contents the collection is deduplicated. -/
theorem Unaliased.deduplicated (h : Unaliased perl fs args) : Deduplicated perl fs args
    (fs.without ((duplicates literal perl fs args).flatMap (removed fs)))
    (total fs (duplicates literal perl fs args)) := by
  have among : ∀ q ∈ duplicates literal perl fs args, q ∈ collected literal perl fs args :=
    fun _ => collected_of_mem_duplicates
  refine ⟨fun c hc => ?_, fun c p hf => (h.read_first hf).2, fun c p hp => ?_,
    fun c p hl e he => ?_, fun e he => ?_, rfl,
    h.bytes_add (duplicates_nodup h.once.of_map) among⟩
  · obtain ⟨p, hp, hc⟩ := hc
    have listed : p ∈ listed literal perl fs args c := mem_listed.mpr ⟨hp, hc⟩
    obtain ⟨first, hf⟩ := Option.ne_none_iff_exists'.mp
      (mt List.head?_eq_none_iff.mp (List.ne_nil_of_mem listed))
    refine ⟨first, h.read_first hf, ?_⟩
    rintro q ⟨hq, hread⟩
    exact h.eq_first hf hq hread
  · have hm := h.mem_duplicates.mpr ⟨c, hp⟩
    rw [h.resolve_without among (collected_of_mem_duplicates hm), if_pos hm]
  · refine lookup_without_removed fun q hq hentry => ?_
    exact h.entry_ne_of_single hl hq (hentry.trans he.symm)
  · refine lookup_without_removed fun p hp => ?_
    obtain ⟨c, hp⟩ := h.mem_duplicates.mp hp
    exact he c p hp

/-- **Nothing else** is deduplicated: what was removed are the duplicates of the contents. -/
theorem Unaliased.deduplicated_iff (h : Unaliased perl fs args) {gone : List Path}
    (hn : gone.Nodup) (hg : ∀ q ∈ gone, q ∈ collected literal perl fs args) :
    Deduplicated perl fs args (fs.without (gone.flatMap (removed fs))) (total fs gone) ↔
      ∀ p, p ∈ gone ↔ p ∈ duplicates literal perl fs args := by
  constructor
  · intro exact p
    constructor
    · intro hp
      have hc := hg p hp
      obtain ⟨c, hr⟩ := Option.isSome_iff_exists.mp (h.readable p hc)
      have listed : p ∈ listed literal perl fs args c := mem_listed.mpr ⟨hc, hr⟩
      obtain ⟨first, hf⟩ := Option.ne_none_iff_exists'.mp
        (mt List.head?_eq_none_iff.mp (List.ne_nil_of_mem listed))
      refine (h.duplicate_iff hr hf hc).mpr ?_
      rintro rfl
      -- the first of its content is read afterwards
      have left := exact.first c p hf
      rw [h.read_without hg hc, if_pos hp] at left
      cases left
    · intro hp
      have hc : p ∈ collected literal perl fs args := collected_of_mem_duplicates hp
      obtain ⟨c, hp⟩ := h.mem_duplicates.mp hp
      have lead := exact.gone c p hp
      rw [h.resolve_without hg hc] at lead
      by_contra hm
      rw [if_neg hm] at lead
      obtain ⟨c', i, hr⟩ := resolve_of_collected hc
      cases lead.symm.trans hr
  · intro same
    have perm : gone.Perm (duplicates literal perl fs args) :=
      (List.perm_ext_iff_of_nodup hn (duplicates_nodup h.once.of_map)).mpr same
    have left : fs.without (gone.flatMap (removed fs)) =
        fs.without ((duplicates literal perl fs args).flatMap (removed fs)) :=
      without_congr fun e => by simp only [List.mem_flatMap, same]
    rw [left, total_perm perm]
    exact h.deduplicated

/-! ### Size by size -/

section
variable (perl) (fs) (args) (read : FileSystem → Path → Option Content)

/-- What is disposed of at some sizes, when the files of each are read without what was disposed of
before. -/
def disposed (ns : List Nat) : List Path :=
  ns.foldl (fun gone size => gone ++ scheduled perl (read (fs.without (gone.flatMap (removed fs))))
    ((table literal perl fs args).bucket size)) []

variable {perl fs args read} {ns : List Nat} {size : Nat}

theorem disposed_concat : disposed perl fs args read (ns ++ [size]) =
    disposed perl fs args read ns ++
      scheduled perl (read (fs.without ((disposed perl fs args read ns).flatMap (removed fs))))
        ((table literal perl fs args).bucket size) := by
  rw [disposed, List.foldl_concat]
  rfl

/-- Every path is disposed of in the turn of its size. -/
theorem mem_disposed : p ∈ disposed perl fs args read ns ↔
    ∃ seen size rest, ns = seen ++ size :: rest ∧
      p ∈ scheduled perl
        (read (fs.without ((disposed perl fs args read seen).flatMap (removed fs))))
        ((table literal perl fs args).bucket size) := by
  induction ns using List.reverseRecOn with
  | nil =>
      refine iff_of_false List.not_mem_nil ?_
      rintro ⟨seen, size, rest, he, -⟩
      exact List.append_ne_nil_of_right_ne_nil _ (List.cons_ne_nil _ _) he.symm
  | append_singleton ns n ih =>
      rw [disposed_concat, List.mem_append, ih]
      constructor
      · rintro (⟨seen, size, rest, rfl, hp⟩ | hp)
        · exact ⟨seen, size, rest ++ [n], by rw [List.append_assoc, List.cons_append], hp⟩
        · exact ⟨ns, n, [], rfl, hp⟩
      · rintro ⟨seen, size, rest, he, hp⟩
        rcases List.eq_nil_or_concat rest with rfl | ⟨rest, m, rfl⟩
        · obtain ⟨rfl, hm⟩ := List.append_inj' he rfl
          obtain rfl := List.singleton_inj.mp hm
          exact .inr hp
        · rw [List.concat_eq_append, ← List.cons_append, ← List.append_assoc] at he
          exact .inl ⟨seen, size, rest, List.append_inj_left' he rfl, hp⟩

theorem bucket_of_mem_disposed (h : p ∈ disposed perl fs args read ns) :
    ∃ size ∈ ns, p ∈ (table literal perl fs args).bucket size := by
  obtain ⟨seen, size, rest, rfl, hp⟩ := mem_disposed.mp h
  exact ⟨size, List.mem_append_right _ List.mem_cons_self, mem_of_mem_scheduled hp⟩

theorem collected_of_mem_disposed (h : p ∈ disposed perl fs args read ns) :
    p ∈ collected literal perl fs args := by
  obtain ⟨size, -, hp⟩ := bucket_of_mem_disposed h
  exact (mem_bucket_table.mp hp).1

/-- The size of a file is one of those at which it is disposed of. -/
theorem size_of_mem_disposed (h : p ∈ disposed perl fs args read ns)
    (hp : p ∈ (table literal perl fs args).bucket size) : size ∈ ns := by
  obtain ⟨other, hm, ho⟩ := bucket_of_mem_disposed h
  have first := (mem_bucket_table.mp hp).2
  have second := (mem_bucket_table.mp ho).2
  exact Option.some.inj (first.symm.trans second) ▸ hm

theorem disposed_nodup (hn : ns.Nodup) (hc : (collected literal perl fs args).Nodup) :
    (disposed perl fs args read ns).Nodup := by
  induction ns using List.reverseRecOn with
  | nil => exact List.nodup_nil
  | append_singleton ns n ih =>
      obtain ⟨hns, -, apart⟩ := List.nodup_append.mp hn
      rw [disposed_concat]
      refine List.nodup_append.mpr ⟨ih hns, scheduled_nodup (bucket_table_nodup hc n), ?_⟩
      rintro p hp q hq rfl
      exact apart n (size_of_mem_disposed hp (mem_of_mem_scheduled hq)) n List.mem_cons_self rfl

/-- **The sizes**, one after the other. -/
theorem Unaliased.foldl_checkSizeCounted (h : Unaliased perl fs args) (hn : ns.Nodup) :
    ns.foldl (checkSizeCounted { literal with read := read } perl ⟨false, true⟩
        (table literal perl fs args)) (fs, 0) =
      (fs.without ((disposed perl fs args read ns).flatMap (removed fs)),
        total fs (disposed perl fs args read ns)) := by
  induction ns using List.reverseRecOn with
  | nil => simp [disposed, total, FileSystem.without]
  | append_singleton ns n ih =>
      have once : (disposed perl fs args read (ns ++ [n])).Nodup := disposed_nodup hn h.once.of_map
      have among : ∀ q ∈ disposed perl fs args read (ns ++ [n]),
          q ∈ collected literal perl fs args := fun q => collected_of_mem_disposed
      rw [List.foldl_concat, ih (List.nodup_append.mp hn).1, checkSizeCounted]
      rw [disposed_concat] at once among ⊢
      unfold scheduled at once among ⊢
      dsimp only
      split
      · rw [List.append_nil]
      · next long =>
          rw [if_neg long] at once among
          rw [total_append]
          exact h.foldl_duplicateCounted once among

/-- **The run**, with what it counts. -/
theorem Unaliased.mainCounted_eq (h : Unaliased perl fs args) (hd : "-d" ∈ args)
    (hr : "-r" ∉ args) :
    mainCounted { literal with read := read } perl args fs =
      (fs.without ((disposed perl fs args read (sizes literal perl fs args)).flatMap (removed fs)),
        total fs (disposed perl fs args read (sizes literal perl fs args))) := by
  rw [← h.foldl_checkSizeCounted sizes_nodup, mainCounted, if_neg (List.ne_nil_of_mem hd),
    readArgs_eq]
  simp [hd, hr]
  rfl

end

/-! ### What `open` reads -/

/-- `open` reads a file: without the blanks, the name is not special, and not of a directory. -/
def FileSystem.Opens (fs : FileSystem) (p : Path) : Prop :=
  p.trimmed.special = false ∧ match fs.resolve p.trimmed with
    | some (_, .dir _) => False
    | _ => True

/-- **Told apart**: at every size, the largest first, what is read under the names without their
blanks repeats what was read before just where the contents do.  Of the larger sizes, the files that
repeat a content are gone by then. -/
def ToldApart (perl : Perl Path δ) (fs : FileSystem) (args : List String) : Prop :=
  ∀ seen size rest, sizes literal perl fs args = seen ++ size :: rest →
    repeats (fun p => ((fs.without
        ((seen.flatMap (repeated perl fs args)).flatMap (removed fs))).read p.trimmed).map
          perl.hexdigest) ((table literal perl fs args).bucket size) =
      repeated perl fs args size

section
variable {read : FileSystem → Path → Option Content} {ns more : List Nat} {size : Nat}
  {other : FileSystem → Path → Option Content}

/-- The turn of a path is that of its size. -/
theorem mem_disposed_split {seen rest : List Nat} (hn : ns.Nodup) (he : ns = seen ++ size :: rest)
    (hp : p ∈ (table literal perl fs args).bucket size) :
    p ∈ disposed perl fs args read ns ↔ p ∈ scheduled perl
      (read (fs.without ((disposed perl fs args read seen).flatMap (removed fs))))
      ((table literal perl fs args).bucket size) := by
  constructor
  · intro h
    obtain ⟨seen', size', rest', he', hp'⟩ := mem_disposed.mp h
    obtain rfl := size_unique hp (mem_of_mem_scheduled hp')
    have once : (seen ++ size' :: rest).Nodup := he ▸ hn
    obtain ⟨rfl, -, -⟩ := (List.append_cons_inj_of_notMem
      (fun hm => (List.nodup_append.mp once).2.2 _ hm _ List.mem_cons_self rfl)
      (List.nodup_cons.mp (List.nodup_append.mp once).2.1).1).mp (he.symm.trans he')
    exact hp'
  · exact fun h => mem_disposed.mpr ⟨seen, size, rest, he, h⟩

/-- Later sizes add nothing of this one. -/
theorem mem_disposed_append (hn : (ns ++ more).Nodup) (hm : size ∈ ns)
    (hp : p ∈ (table literal perl fs args).bucket size) :
    p ∈ disposed perl fs args read (ns ++ more) ↔ p ∈ disposed perl fs args read ns := by
  obtain ⟨seen, rest, rfl⟩ := List.append_of_mem hm
  rw [mem_disposed_split (List.nodup_append.mp hn).1 rfl hp]
  exact mem_disposed_split hn (List.append_assoc _ _ _) hp

/-- The digest tells the contents apart. -/
theorem Unaliased.repeats_hexdigest (h : Unaliased perl fs args) (size : Nat) :
    repeats (fun q => (fs.read q).map perl.hexdigest)
      ((table literal perl fs args).bucket size) = repeated perl fs args size := by
  have member {q : Path} (hq : q ∈ (table literal perl fs args).bucket size) :
      q ∈ collected literal perl fs args := (mem_bucket_table.mp hq).1
  refine repeats_congr (fun q _ => Option.isSome_map) fun p hp q hq _ => ?_
  obtain ⟨c, hc⟩ := Option.isSome_iff_exists.mp (h.readable p (member hp))
  obtain ⟨c', hc'⟩ := Option.isSome_iff_exists.mp (h.readable q (member hq))
  rw [hc, hc', Option.map_some, Option.map_some, Option.some.injEq, Option.some.injEq]
  exact ⟨h.digest q (member hq) p (member hp) c' c hc' hc, congrArg _⟩

/-- The duplicates are the files that repeat a content. -/
theorem Unaliased.mem_duplicates_iff (h : Unaliased perl fs args) :
    p ∈ duplicates literal perl fs args ↔
      p ∈ (sizes literal perl fs args).flatMap (repeated perl fs args) := by
  rw [duplicates, List.mem_flatMap, List.mem_flatMap]
  refine exists_congr fun size => and_congr_right fun _ => ?_
  rw [due, mem_scheduled_iff_repeats (bucket_table_nodup h.once.of_map size),
    ← h.repeats_hexdigest]
  rfl

/-- **What `open` reads** is read under the names without their blanks. -/
theorem mem_scheduled_opened (hc : (collected literal perl fs args).Nodup)
    (ho : ∀ p ∈ compared literal perl fs args, fs.Opens p) (fs' : FileSystem) :
    p ∈ scheduled perl (fs'.opened other) ((table literal perl fs args).bucket size) ↔
      p ∈ repeats (fun q => (fs'.read q.trimmed).map perl.hexdigest)
        ((table literal perl fs args).bucket size) := by
  have once := bucket_table_nodup hc size
  rw [mem_scheduled_iff_repeats once]
  by_cases long : 2 ≤ ((table literal perl fs args).bucket size).length
  · have same {q : Path} (hq : q ∈ (table literal perl fs args).bucket size) :
        fs'.opened other q = fs'.read q.trimmed := by
      have opens := ho q (mem_compared.mpr ⟨size, hq, long⟩)
      rw [FileSystem.opened, if_neg (Bool.not_eq_true _ ▸ opens.1)]
    rw [repeats_congr (fun q hq => by rw [same hq]) fun p hp q hq _ => by rw [same hp, same hq]]
  · have short := Nat.lt_of_not_le long
    rw [repeats_eq_nil short, repeats_eq_nil short]

/-- **What is disposed of** is what repeats a content, if and only if the files are told apart. -/
theorem Unaliased.toldApart_iff (h : Unaliased perl fs args)
    (ho : ∀ p ∈ compared literal perl fs args, fs.Opens p) :
    (∀ p, p ∈ disposed perl fs args (FileSystem.opened other) (sizes literal perl fs args) ↔
      p ∈ (sizes literal perl fs args).flatMap (repeated perl fs args)) ↔
    ToldApart perl fs args := by
  have among : ∀ ns, (∀ p, p ∈ disposed perl fs args (FileSystem.opened other) ns ↔
      p ∈ ns.flatMap (repeated perl fs args)) →
        fs.without ((disposed perl fs args (FileSystem.opened other) ns).flatMap (removed fs)) =
          fs.without ((ns.flatMap (repeated perl fs args)).flatMap (removed fs)) := by
    intro ns same
    refine without_congr fun e => ?_
    rw [List.mem_flatMap, List.mem_flatMap]
    exact exists_congr fun p => and_congr_left fun _ => same p
  constructor
  · intro all seen size rest he
    have once : (seen ++ size :: rest).Nodup := he ▸ sizes_nodup
    have before : ∀ p, p ∈ disposed perl fs args (FileSystem.opened other) seen ↔
        p ∈ seen.flatMap (repeated perl fs args) := by
      intro p
      have turn {n : Nat} (hm : n ∈ seen) (hp : p ∈ (table literal perl fs args).bucket n) :
          p ∈ disposed perl fs args (FileSystem.opened other) seen ↔
            p ∈ seen.flatMap (repeated perl fs args) := by
        rw [← mem_disposed_append once hm hp, ← he, all p, mem_flatMap_repeated hp,
          mem_flatMap_repeated hp, he]
        simp [hm]
      constructor
      · intro hp
        obtain ⟨n, hm, hb⟩ := bucket_of_mem_disposed hp
        exact (turn hm hb).mp hp
      · intro hp
        obtain ⟨n, hm, hr⟩ := List.mem_flatMap.mp hp
        exact (turn hm (bucket_of_mem_repeated hr)).mpr hp
    refine repeats_ext fun p hp => ?_
    rw [← among seen before, ← mem_scheduled_opened h.once.of_map ho,
      ← mem_disposed_split sizes_nodup he hp, all p, mem_flatMap_repeated hp]
    exact and_iff_right (mem_sizes.mpr ⟨p, mem_bucket_table.mp hp⟩)
  · intro told
    suffices part : ∀ seen rest, sizes literal perl fs args = seen ++ rest →
        ∀ p, p ∈ disposed perl fs args (FileSystem.opened other) seen ↔
          p ∈ seen.flatMap (repeated perl fs args) from part _ [] (List.append_nil _).symm
    intro seen
    induction seen using List.reverseRecOn with
    | nil => exact fun rest _ p => Iff.rfl
    | append_singleton seen size ih =>
        intro rest he p
        rw [List.append_assoc, List.singleton_append] at he
        have before := ih _ he
        rw [disposed_concat, List.mem_append, before, List.flatMap_append, List.mem_append,
          List.flatMap_singleton, ← told seen size rest he, among seen before,
          mem_scheduled_opened h.once.of_map ho]

/-- **Exact deduplication.**  In a collection without aliasing `-d` leaves of every content the
first path and no other, touches nothing else and counts what it removes, if and only if what `open`
reads tells the files apart. -/
theorem dedup_exact_iff (h : Unaliased perl fs args) (hd : "-d" ∈ args) (hr : "-r" ∉ args)
    (ho : ∀ p ∈ compared literal perl fs args, fs.Opens p) :
    Deduplicated perl fs args (mainCounted (linked other) perl args fs).1
      (mainCounted (linked other) perl args fs).2 ↔ ToldApart perl fs args := by
  rw [linked, h.mainCounted_eq hd hr, h.deduplicated_iff (disposed_nodup sizes_nodup h.once.of_map)
    fun _ => collected_of_mem_disposed, ← h.toldApart_iff ho]
  exact forall_congr' fun p => by rw [h.mem_duplicates_iff]

/-- Where names are taken as they are, the files are told apart. -/
theorem Unaliased.toldApart (h : Unaliased perl fs args)
    (hv : ∀ p ∈ compared literal perl fs args, p.Verbatim) : ToldApart perl fs args := by
  intro seen size rest he
  by_cases long : 2 ≤ ((table literal perl fs args).bucket size).length
  · rw [← h.repeats_hexdigest]
    have same {p : Path} (hp : p ∈ (table literal perl fs args).bucket size) :
        (fs.without ((seen.flatMap (repeated perl fs args)).flatMap (removed fs))).read p.trimmed =
          fs.read p := by
      have gone : ∀ q ∈ seen.flatMap (repeated perl fs args),
          q ∈ collected literal perl fs args := by
        intro q hq
        obtain ⟨n, -, hq⟩ := List.mem_flatMap.mp hq
        exact (mem_bucket_table.mp (bucket_of_mem_repeated hq)).1
      have away : p ∉ seen.flatMap (repeated perl fs args) := by
        intro hm
        have once : (seen ++ size :: rest).Nodup := he ▸ sizes_nodup
        exact (List.nodup_append.mp once).2.2 size ((mem_flatMap_repeated hp).mp hm).1 size
          List.mem_cons_self rfl
      rw [(hv p (mem_compared.mpr ⟨size, hp, long⟩)).1,
        h.read_without gone (mem_bucket_table.mp hp).1, if_neg away]
    exact repeats_congr (fun p hp => by rw [same hp]) fun p hp q hq _ => by rw [same hp, same hq]
  · have short := Nat.lt_of_not_le long
    rw [repeated, repeats_eq_nil short, repeats_eq_nil short]

/-- **Names that are taken as they are**: the run is exact. -/
theorem dedup_exact (h : Unaliased perl fs args) (hd : "-d" ∈ args) (hr : "-r" ∉ args)
    (hv : ∀ p ∈ compared literal perl fs args, p.Verbatim) :
    Deduplicated perl fs args (mainCounted (linked other) perl args fs).1
      (mainCounted (linked other) perl args fs).2 := by
  have opens : ∀ p ∈ compared literal perl fs args, fs.Opens p := by
    intro p hp
    obtain ⟨c, i, hr⟩ := resolve_of_collected (collected_of_mem_compared hp)
    obtain ⟨trimmed, special⟩ := hv p hp
    rw [FileSystem.Opens, trimmed, hr]
    exact ⟨special, trivial⟩
  rw [linked, h.mainCounted_eq hd hr]
  refine (h.deduplicated_iff (disposed_nodup sizes_nodup h.once.of_map)
    fun _ => collected_of_mem_disposed).mpr fun p => ?_
  rw [(h.toldApart_iff opens).mpr (h.toldApart hv) p, h.mem_duplicates_iff]

end

end

/-- A directory `d` with the files `x`, `y` and `x ` of the same size; `last` is in the last. -/
private def tray (last : Content) : FileSystem where
  root := 0
  cwd := 0
  links := 8
  lookup e :=
    if e = (0, "d") then some (.node (.dir 1))
    else if e = (1, "x") then some (.node (.file 7))
    else if e = (1, "y") then some (.node (.file 8))
    else if e = (1, "x ") then some (.node (.file 9))
    else none
  content i := if i = 8 then [66] else if i = 9 then last else [65]
  unreadable _ := false
  denied _ := false

/-- `find` in it. -/
private def sorting : Perl Path Content :=
  .exact fun dir =>
    if dir = "d" then [⟨false, ["d", "x"]⟩, ⟨false, ["d", "y"]⟩, ⟨false, ["d", "x "]⟩] else []

/-- Special names are not opened. -/
private def closed (_ : FileSystem) (_ : Path) : Option Content := none

private theorem tray_file {last : Content} {e : Entry} {i : Nat}
    (h : (tray last).lookup e = some (.node (.file i))) :
    e = (1, "x") ∧ i = 7 ∨ e = (1, "y") ∧ i = 8 ∨ e = (1, "x ") ∧ i = 9 := by
  unfold tray at h
  dsimp only at h
  split_ifs at h with hd hx hy hz
  · cases h
  · cases h
    exact .inl ⟨hx, rfl⟩
  · cases h
    exact .inr (.inl ⟨hy, rfl⟩)
  · cases h
    exact .inr (.inr ⟨hz, rfl⟩)

private theorem tray_plain (last : Content) : (tray last).Plain where
  lookup_ne_symlink e t h := by
    unfold tray at h
    dsimp only at h
    split_ifs at h <;> cases h
  inj e e' i h h' := by
    rcases tray_file h with ⟨rfl, rfl⟩ | ⟨rfl, rfl⟩ | ⟨rfl, rfl⟩ <;>
      rcases tray_file h' with ⟨rfl, hi⟩ | ⟨rfl, hi⟩ | ⟨rfl, hi⟩ <;> first | rfl | cases hi
  finite := by
    refine (Set.finite_le_nat 9).subset ?_
    rintro i ⟨e, he⟩
    rcases tray_file he with ⟨-, rfl⟩ | ⟨-, rfl⟩ | ⟨-, rfl⟩ <;> decide

/-- Of the copies `x` and `x ` the first is left: `open` reads the same for both. -/
theorem dedup_exact_sample :
    Deduplicated sorting (tray [65]) ["-d", "d"]
      (mainCounted (linked closed) sorting ["-d", "d"] (tray [65])).1
      (mainCounted (linked closed) sorting ["-d", "d"] (tray [65])).2 := by
  have unaliased : Unaliased sorting (tray [65]) ["-d", "d"] := by
    refine ⟨tray_plain _, ?_, ?_, ?_, ?_⟩
    · decide +kernel
    · decide +kernel
    · decide +kernel
    · exact fun _ _ _ _ _ _ _ _ he => he
  have opens : ∀ p ∈ compared literal sorting (tray [65]) ["-d", "d"], (tray [65]).Opens p := by
    have all : compared literal sorting (tray [65]) ["-d", "d"] =
        [⟨false, ["d", "x"]⟩, ⟨false, ["d", "y"]⟩, ⟨false, ["d", "x "]⟩] := by decide +kernel
    rw [all]
    simp only [List.forall_mem_cons]
    exact ⟨⟨by decide +kernel, trivial⟩, ⟨by decide +kernel, trivial⟩,
      ⟨by decide +kernel, trivial⟩, fun _ h => absurd h List.not_mem_nil⟩
  refine (dedup_exact_iff unaliased (by decide) (by decide) opens).mpr ?_
  have only : sizes literal sorting (tray [65]) ["-d", "d"] = [1] := by decide +kernel
  intro seen size rest he
  rw [only] at he
  obtain ⟨rfl, he⟩ := List.append_eq_singleton_iff.mp he.symm |>.resolve_right fun h => by
    cases h.2
  cases he
  decide +kernel

/-- **A blank at the end**: `x ` is the only file with its content, and is removed for `x`. -/
theorem dedup_blank : Unaliased sorting (tray [67]) ["-d", "d"] ∧
    ¬ Deduplicated sorting (tray [67]) ["-d", "d"]
      (mainCounted (linked closed) sorting ["-d", "d"] (tray [67])).1
      (mainCounted (linked closed) sorting ["-d", "d"] (tray [67])).2 := by
  refine ⟨⟨tray_plain _, ?_, ?_, ?_, ?_⟩, fun exact => ?_⟩
  · decide +kernel
  · decide +kernel
  · decide +kernel
  · exact fun _ _ _ _ _ _ _ _ he => he
  · have left := exact.first [67] ⟨false, ["d", "x "]⟩ (by decide +kernel)
    have lost : (mainCounted (linked closed) sorting ["-d", "d"] (tray [67])).1.read
        ⟨false, ["d", "x "]⟩ = none := by decide +kernel
    cases lost.symm.trans left

end OldStuff.Dup
