import OldStuff.Lib.Buckets

/-!
# Dup — the program

`dup.pl` collects the files below its directory arguments by size, and of every size those that can
be opened by their digest.  Of the files that agree in both, all but the first are renamed or
removed.

The program is stated over what it asks of its surroundings: the file tests and the system calls
(`Os`), `File::Find`, the digest, and the order in which a hash yields its values.  A call that
fails is a warning, and the loop goes on.
-/

namespace OldStuff.Dup
open OldStuff.Lib
open OldStuff.Lib.Buckets (gather bucket)

/-- What is in a file. -/
abbrev Content := List UInt8

/-- File tests and system calls in a file system `σ`, whose files are found by paths `π`. -/
structure Os (σ π : Type) where
  /-- `-f` and `-s`: the size of a plain file -/
  size : σ → π → Option Nat
  /-- what is read from `open FILE,$file`, unless it fails -/
  read : σ → π → Option Content
  /-- `unlink`, unless it fails -/
  unlink : σ → π → Option σ
  /-- `rename`, unless it fails -/
  rename : σ → π → π → Option σ
  /-- `"$file.DUP"` -/
  dup : π → π

/-- `%OPTIONS`. -/
structure Options where
  renameDuplicate : Bool := false
  deleteDuplicate : Bool := false

/-- The rest of the surroundings: the paths that `find` visits below a directory, the digest, and
the values of a hash, in some order. -/
structure Perl (π δ : Type) where
  find : String → List π
  hexdigest : Content → δ
  values : Buckets δ π → List (List π)
  values_perm (t : Buckets δ π) : (values t).Perm (t.entries.map (·.2))

/-- Every content is its own digest, and a hash yields its values in the order of its keys. -/
def Perl.exact {π : Type} (find : String → List π) : Perl π Content where
  find := find
  hexdigest c := c
  values t := t.entries.map (·.2)
  values_perm _ := List.Perm.refl _

section
variable {σ π δ : Type} [DecidableEq δ] (os : Os σ π) (perl : Perl π δ)

/-- `update_table`. -/
def updateTable (s : σ) (dir : String) (table : Buckets Nat π) : Buckets Nat π :=
  gather (os.size s) (perl.find dir) table

/-- The loop over the arguments. -/
def readArgs (s : σ) : List String → Options → Buckets Nat π → Options × Buckets Nat π
  | [], options, table => (options, table)
  | arg :: args, options, table =>
    if arg = "-r" then readArgs s args { options with renameDuplicate := true } table
    else if arg = "-d" then readArgs s args { options with deleteDuplicate := true } table
    else readArgs s args options (updateTable os perl s arg table)

/-- The files of one size by their digests. -/
def checksums (s : σ) (files : List π) : Buckets δ π :=
  gather (fun file => (os.read s file).map perl.hexdigest) files ∅

/-- What becomes of one duplicate. -/
def dispose (options : Options) (s : σ) (file : π) : σ :=
  if options.renameDuplicate then (os.rename s file (os.dup file)).getD s
  else if options.deleteDuplicate then (os.unlink s file).getD s
  else s

/-- `duplicate`. -/
def duplicate (options : Options) (s : σ) (dup : List π) : σ :=
  if options.renameDuplicate || options.deleteDuplicate then
    dup.tail.foldl (dispose os options) s
  else s

/-- The body of the loop in `check_table`: one size. -/
def checkSize (options : Options) (table : Buckets Nat π) (s : σ) (size : Nat) : σ :=
  let files := table.bucket size
  if files.length < 2 then s
  else
    ((perl.values (checksums os perl s files)).filter (1 < ·.length)).foldl
      (duplicate os options) s

/-- `check_table`, the largest size first. -/
def checkTable (options : Options) (table : Buckets Nat π) (s : σ) : σ :=
  (table.keys.mergeSort fun a b => b ≤ a).foldl (checkSize os perl options table) s

/-- The program; without arguments it dies. -/
def main (args : List String) (s : σ) : σ :=
  if args = [] then s
  else
    let (options, table) := readArgs os perl s args {} ∅
    checkTable os perl options table s

end

/-! ### What is collected, and what becomes of it -/

/-- The arguments that are directories. -/
def dirs (args : List String) : List String := args.filter fun arg => arg ≠ "-r" ∧ arg ≠ "-d"

section
variable {σ π δ : Type} (os : Os σ π) (perl : Perl π δ) (s : σ) (args : List String)

/-- The files collected, in the order in which they are visited. -/
def collected : List π := ((dirs args).flatMap perl.find).filter fun p => (os.size s p).isSome

/-- The table when the arguments have been read. -/
def table : Buckets Nat π := gather (os.size s) ((dirs args).flatMap perl.find) ∅

/-- The sizes, the largest first. -/
def sizes : List Nat := (table os perl s args).keys.mergeSort fun a b => b ≤ a

/-- The files that are opened: those of a size that more than one has. -/
def compared : List π :=
  (sizes os perl s args).flatMap fun size =>
    if ((table os perl s args).bucket size).length < 2 then []
    else (table os perl s args).bucket size

/-- The duplicates of one size, if this is how its files can be read. -/
def scheduled [DecidableEq δ] (read : π → Option Content) (files : List π) : List π :=
  if files.length < 2 then []
  else
    ((perl.values (gather (fun p => (read p).map perl.hexdigest) files ∅)).filter
      (1 < ·.length)).flatMap List.tail

/-- The files that are read as one before them is. -/
def repeats {κ : Type} [DecidableEq κ] (key : π → Option κ) [DecidableEq π] (files : List π) :
    List π :=
  files.filter fun p => (key p).isSome ∧ files.find? (fun q => key q = key p) ≠ some p

/-- The duplicates of one size, as the files are read before the run. -/
def due [DecidableEq δ] (size : Nat) : List π :=
  scheduled perl (os.read s) ((table os perl s args).bucket size)

/-- The duplicates, in the order in which `check_table` comes to them. -/
def duplicates [DecidableEq δ] : List π := (sizes os perl s args).flatMap (due os perl s args)

variable {os perl s args}

/-- **The arguments.** -/
theorem readArgs_eq (options : Options) (t : Buckets Nat π) :
    readArgs os perl s args options t =
      (⟨options.renameDuplicate || "-r" ∈ args, options.deleteDuplicate || "-d" ∈ args⟩,
        gather (os.size s) ((dirs args).flatMap perl.find) t) := by
  induction args generalizing options t with
  | nil => simp [readArgs, dirs, gather]
  | cons arg args ih =>
      unfold readArgs
      split
      · next h =>
          subst h
          rw [ih]
          simp [dirs]
      · split
        · next h =>
            subst h
            rw [ih]
            simp [dirs]
        · next hr hd =>
            have apart : dirs (arg :: args) = arg :: dirs args :=
              List.filter_cons_of_pos (by simp [hr, hd])
            rw [ih, apart, List.flatMap_cons, Buckets.gather_append, updateTable]
            simp [Ne.symm hr, Ne.symm hd]

/-- A bucket of the table. -/
theorem bucket_table (size : Nat) : (table os perl s args).bucket size =
    (collected os perl s args).filter fun p => os.size s p = some size := by
  rw [table, Buckets.bucket_gather, Buckets.bucket_empty, List.nil_append, collected,
    List.filter_filter]
  refine List.filter_congr fun p _ => ?_
  cases os.size s p <;> simp

theorem bucket_table_nodup (h : (collected os perl s args).Nodup) (size : Nat) :
    ((table os perl s args).bucket size).Nodup := bucket_table size ▸ h.filter _

theorem mem_bucket_table {size : Nat} {p : π} : p ∈ (table os perl s args).bucket size ↔
    p ∈ collected os perl s args ∧ os.size s p = some size := by
  rw [bucket_table, List.mem_filter, decide_eq_true_iff]

theorem mem_sizes {size : Nat} :
    size ∈ sizes os perl s args ↔ ∃ p ∈ collected os perl s args, os.size s p = some size := by
  rw [sizes, List.mem_mergeSort, ← AList.mem_keys, table, Buckets.mem_gather]
  simp only [AList.notMem_empty, false_or, collected, List.mem_filter]
  refine exists_congr fun p => ?_
  constructor
  · rintro ⟨hp, hs⟩
    exact ⟨⟨hp, by simp [hs]⟩, hs⟩
  · rintro ⟨⟨hp, -⟩, hs⟩
    exact ⟨hp, hs⟩

theorem sizes_nodup : (sizes os perl s args).Nodup :=
  (List.mergeSort_perm _ _).nodup_iff.mpr (AList.keys_nodup _)

theorem mem_compared {p : π} : p ∈ compared os perl s args ↔ ∃ size,
    p ∈ (table os perl s args).bucket size ∧ 2 ≤ ((table os perl s args).bucket size).length := by
  rw [compared, List.mem_flatMap]
  constructor
  · rintro ⟨size, -, hp⟩
    split at hp
    · cases hp
    · next long => exact ⟨size, hp, Nat.le_of_not_lt long⟩
  · rintro ⟨size, hp, long⟩
    refine ⟨size, mem_sizes.mpr ⟨p, mem_bucket_table.mp hp⟩, ?_⟩
    rwa [if_neg (Nat.not_lt.mpr long)]

theorem collected_of_mem_compared {p : π} (h : p ∈ compared os perl s args) :
    p ∈ collected os perl s args := by
  obtain ⟨size, hp, -⟩ := mem_compared.mp h
  exact (mem_bucket_table.mp hp).1

variable [DecidableEq δ]

/-- **One size**, when its files can be read as supposed. -/
theorem checkSize_eq {options : Options} {t : Buckets Nat π} {size : Nat} {u : σ}
    {read : π → Option Content} (ho : options.renameDuplicate || options.deleteDuplicate)
    (hr : ∀ p ∈ t.bucket size, os.read u p = read p) :
    checkSize os perl options t u size =
      (scheduled perl read (t.bucket size)).foldl (dispose os options) u := by
  unfold checkSize scheduled
  dsimp only
  split
  · rfl
  · have same : checksums os perl u (t.bucket size) =
        gather (fun p => (read p).map perl.hexdigest) (t.bucket size) ∅ :=
      Buckets.gather_congr fun p hp => by rw [hr p hp]
    rw [same, List.foldl_flatMap]
    refine congrArg (fun f => List.foldl f u _) (funext₂ fun u dup => ?_)
    rw [duplicate, if_pos ho]

/-- The program is its last loop. -/
theorem main_eq (ha : args ≠ []) : main os perl args s =
    (sizes os perl s args).foldl
      (checkSize os perl ⟨"-r" ∈ args, "-d" ∈ args⟩ (table os perl s args)) s := by
  rw [main, if_neg ha, readArgs_eq]
  simp only [Bool.false_or]
  rfl

/-- **What is not opened** may be read in any way. -/
theorem main_read {read : σ → π → Option Content}
    (h : ∀ p ∈ compared os perl s args, ∀ u, read u p = os.read u p) :
    main { os with read := read } perl args s = main os perl args s := by
  by_cases ha : args = []
  · rw [main, main, if_pos ha, if_pos ha]
  · rw [main_eq ha, main_eq ha]
    refine congrArg (fun f => List.foldl f s _) (funext₂ fun u size => ?_)
    change checkSize { os with read := read } perl _ (table os perl s args) u size = _
    unfold checkSize
    dsimp only
    split
    · rfl
    · next long =>
        have same : checksums { os with read := read } perl u ((table os perl s args).bucket size) =
            checksums os perl u ((table os perl s args).bucket size) :=
          Buckets.gather_congr fun p hp =>
            congrArg (Option.map _) (h p (mem_compared.mpr ⟨size, hp, Nat.le_of_not_lt long⟩) u)
        rw [same]
        rfl

theorem length_of_mem_tail {q : π} {xs : List π} (h : q ∈ xs.tail) : 1 < xs.length := by
  have := List.length_pos_of_mem h
  rw [List.length_tail] at this
  omega

/-- Behind the first of those that are read alike. -/
theorem mem_repeats {κ : Type} [DecidableEq κ] [DecidableEq π] {key : π → Option κ}
    {files : List π} {q : π} (h : files.Nodup) :
    q ∈ repeats key files ↔ ∃ k, q ∈ (files.filter fun p => key p = some k).tail := by
  have behind (k : κ) (hk : key q = some k) : q ∈ (files.filter fun p => key p = some k).tail ↔
      q ∈ files ∧ files.find? (fun p => key p = some k) ≠ some q := by
    have mem : q ∈ files.filter (fun p => key p = some k) ↔ q ∈ files := by simp [hk]
    have once : (files.filter fun p => key p = some k).Nodup := h.filter _
    rw [← List.head?_filter, ← mem]
    cases hf : files.filter fun p => key p = some k with
    | nil => simp
    | cons first rest =>
        rw [hf] at once
        have fresh := (List.nodup_cons.mp once).1
        rw [List.tail_cons, List.head?_cons, Ne, Option.some.injEq, List.mem_cons]
        constructor
        · rintro hq
          exact ⟨.inr hq, fun he => fresh (he ▸ hq)⟩
        · rintro ⟨hq, hne⟩
          exact hq.resolve_left fun he => hne he.symm
  rw [repeats, List.mem_filter, decide_eq_true_iff]
  constructor
  · rintro ⟨hq, hs, hne⟩
    obtain ⟨k, hk⟩ := Option.isSome_iff_exists.mp hs
    rw [hk] at hne
    exact ⟨k, (behind k hk).mpr ⟨hq, hne⟩⟩
  · rintro ⟨k, hq⟩
    have hk := of_decide_eq_true (List.mem_filter.mp (List.mem_of_mem_tail hq)).2
    obtain ⟨hm, hne⟩ := (behind k hk).mp hq
    rw [hk]
    exact ⟨hm, rfl, hne⟩

/-- A single file repeats nothing. -/
theorem repeats_eq_nil {κ : Type} [DecidableEq κ] [DecidableEq π] {key : π → Option κ}
    {files : List π} (h : files.length < 2) : repeats key files = [] := by
  match files, h with
  | [], _ => rfl
  | [p], _ =>
      refine List.filter_eq_nil_iff.mpr fun q hq => ?_
      obtain rfl := List.mem_singleton.mp hq
      simp

/-- Two ways to read that tell the same files apart. -/
theorem repeats_congr {κ κ' : Type} [DecidableEq κ] [DecidableEq κ'] [DecidableEq π]
    {key : π → Option κ} {key' : π → Option κ'} {files : List π}
    (hs : ∀ p ∈ files, (key p).isSome = (key' p).isSome)
    (hk : ∀ p ∈ files, ∀ q ∈ files, (key p).isSome → (key q = key p ↔ key' q = key' p)) :
    repeats key files = repeats key' files := by
  refine List.filter_congr fun p hp => ?_
  rw [decide_eq_decide, ← hs p hp, and_congr_right_iff]
  intro some
  have same : files.find? (fun q => decide (key q = key p)) =
      files.find? (fun q => decide (key' q = key' p)) := by
    rw [← List.head?_filter, ← List.head?_filter]
    exact congrArg List.head? (List.filter_congr fun q hq =>
      decide_eq_decide.mpr (hk p hp q hq some))
  rw [same]

theorem mem_scheduled {read : π → Option Content} {files : List π} {q : π} :
    q ∈ scheduled perl read files ↔
      ∃ d, q ∈ (files.filter fun p => (read p).map perl.hexdigest = some d).tail := by
  have bucket (d : δ) : (gather (fun p => (read p).map perl.hexdigest) files ∅).bucket d =
      files.filter fun p => (read p).map perl.hexdigest = some d := by
    rw [Buckets.bucket_gather, Buckets.bucket_empty, List.nil_append]
  unfold scheduled
  split
  · next hf =>
      refine iff_of_false List.not_mem_nil ?_
      rintro ⟨d, hq⟩
      have long := length_of_mem_tail hq
      exact absurd (long.trans_le (List.length_filter_le _ _)) (by omega)
  · rw [List.mem_flatMap]
    constructor
    · rintro ⟨dup, hd, hq⟩
      have stored := (perl.values_perm _).mem_iff.mp (List.mem_filter.mp hd).1
      obtain ⟨d, -, rfl⟩ := Buckets.mem_values.mp stored
      exact ⟨d, bucket d ▸ hq⟩
    · rintro ⟨d, hq⟩
      have long := length_of_mem_tail hq
      obtain ⟨p, hp⟩ := List.exists_mem_of_length_pos (by omega : 0 < (files.filter fun p =>
        (read p).map perl.hexdigest = some d).length)
      obtain ⟨hp, hk⟩ := List.mem_filter.mp hp
      have key : d ∈ gather (fun p => (read p).map perl.hexdigest) files ∅ :=
        Buckets.mem_gather.mpr (.inr ⟨p, hp, of_decide_eq_true hk⟩)
      have stored := (perl.values_perm _).mem_iff.mpr (Buckets.mem_values.mpr ⟨d, key, bucket d⟩)
      exact ⟨_, List.mem_filter.mpr ⟨stored, decide_eq_true long⟩, hq⟩

/-- The same files are those that repeat one before them. -/
theorem repeats_ext {κ κ' : Type} [DecidableEq κ] [DecidableEq κ'] [DecidableEq π]
    {key : π → Option κ} {key' : π → Option κ'} {files : List π}
    (h : ∀ p ∈ files, p ∈ repeats key files ↔ p ∈ repeats key' files) :
    repeats key files = repeats key' files := by
  refine List.filter_congr fun p hp => ?_
  have same := h p hp
  rw [repeats, repeats, List.mem_filter, List.mem_filter, and_iff_right hp,
    and_iff_right hp] at same
  exact Bool.eq_iff_iff.mpr same

/-- **A duplicate of one size** is read as a file before it is. -/
theorem mem_scheduled_iff_repeats [DecidableEq π] {read : π → Option Content} {files : List π}
    {q : π} (h : files.Nodup) : q ∈ scheduled perl read files ↔
      q ∈ repeats (fun p => (read p).map perl.hexdigest) files := by
  rw [mem_scheduled, mem_repeats h]

theorem mem_of_mem_scheduled {read : π → Option Content} {files : List π} {q : π}
    (h : q ∈ scheduled perl read files) : q ∈ files := by
  obtain ⟨d, hq⟩ := mem_scheduled.mp h
  exact (List.mem_filter.mp (List.mem_of_mem_tail hq)).1

theorem collected_of_mem_duplicates {q : π} (h : q ∈ duplicates os perl s args) :
    q ∈ collected os perl s args := by
  obtain ⟨size, -, hq⟩ := List.mem_flatMap.mp h
  exact (mem_bucket_table.mp (mem_of_mem_scheduled hq)).1

theorem scheduled_nodup {read : π → Option Content} {files : List π} (h : files.Nodup) :
    (scheduled perl read files).Nodup := by
  unfold scheduled
  split
  · exact List.nodup_nil
  · obtain ⟨disjoint, nodup⟩ := Buckets.pairwise_values (fun p => (read p).map perl.hexdigest) h
    have values := perl.values_perm (gather (fun p => (read p).map perl.hexdigest) files ∅)
    rw [List.nodup_flatMap]
    constructor
    · intro dup hdup
      exact (nodup dup (values.mem_iff.mp (List.mem_filter.mp hdup).1)).tail
    · have := (values.pairwise_iff fun h => List.Disjoint.symm h).mpr disjoint
      exact (this.filter _).imp fun h a ha ha' =>
        h (List.mem_of_mem_tail ha) (List.mem_of_mem_tail ha')

/-- No file is a duplicate twice, if none is collected twice. -/
theorem duplicates_nodup (h : (collected os perl s args).Nodup) :
    (duplicates os perl s args).Nodup := by
  rw [duplicates, List.nodup_flatMap]
  constructor
  · exact fun size _ => scheduled_nodup (bucket_table_nodup h size)
  · refine sizes_nodup.imp fun hne p hp hp' => hne ?_
    have first := (mem_bucket_table.mp (mem_of_mem_scheduled hp)).2
    have second := (mem_bucket_table.mp (mem_of_mem_scheduled hp')).2
    exact Option.some.inj (first.symm.trans second)

theorem collected_of_gone {gone rest : List π} (h : duplicates os perl s args = gone ++ rest)
    {q : π} (hq : q ∈ gone) : q ∈ collected os perl s args :=
  collected_of_mem_duplicates (h ▸ List.mem_append_left _ hq)

/-- The duplicates, around those of one size. -/
theorem duplicates_split {seen rest : List Nat} {size : Nat}
    (he : sizes os perl s args = seen ++ size :: rest) :
    duplicates os perl s args = seen.flatMap (due os perl s args) ++
      (due os perl s args size ++ rest.flatMap (due os perl s args)) := by
  rw [duplicates, he, List.flatMap_append, List.flatMap_cons]

/-- The duplicates that come before those of one size are of other sizes. -/
theorem size_ne_of_seen {seen rest : List Nat} {size : Nat}
    (he : sizes os perl s args = seen ++ size :: rest) {p q : π}
    (hp : p ∈ (table os perl s args).bucket size)
    (hq : q ∈ seen.flatMap (due os perl s args)) : os.size s q ≠ os.size s p := by
  have fresh : size ∉ seen := by
    have : (seen ++ size :: rest).Nodup := he ▸ sizes_nodup
    intro hm
    exact (List.nodup_append.mp this).2.2 size hm size List.mem_cons_self rfl
  obtain ⟨other, ho, hq⟩ := List.mem_flatMap.mp hq
  have hq := mem_bucket_table.mp (mem_of_mem_scheduled hq)
  rw [hq.2, (mem_bucket_table.mp hp).2]
  intro hs
  exact fresh (Option.some.inj hs ▸ ho)

/-- What every `dispose` leaves alone, one size leaves alone. -/
theorem checkSize_keep {options : Options} {t : Buckets Nat π} {size : Nat} {Q : σ → Prop}
    (keep : ∀ u p, Q u → Q (dispose os options u p)) {u : σ} (h : Q u) :
    Q (checkSize os perl options t u size) := by
  unfold checkSize
  dsimp only
  split
  · exact h
  · refine List.foldlRecOn _ _ h fun u hu dup _ => ?_
    unfold duplicate
    split
    · exact List.foldlRecOn _ _ hu fun u hu p _ => keep u p hu
    · exact hu

/-- **The run.**  `P` speaks of the duplicates that were disposed of; as long as it holds, the files
of the sizes to come are read as before the run.  If it is broken at some duplicate, then `Q` holds
from there on. -/
theorem main_run {P : List π → σ → Prop} {Q : σ → Prop} {options : Options} (ha : args ≠ [])
    (ho : options = ⟨"-r" ∈ args, "-d" ∈ args⟩)
    (hd : options.renameDuplicate || options.deleteDuplicate) (start : P [] s)
    (same : ∀ gone rest u, duplicates os perl s args = gone ++ rest → P gone u →
      ∀ p ∈ collected os perl s args, (∀ q ∈ gone, os.size s q ≠ os.size s p) →
        os.read u p = os.read s p)
    (step : ∀ gone p rest u, duplicates os perl s args = gone ++ p :: rest → P gone u →
      P (gone ++ [p]) (dispose os options u p) ∨ Q (dispose os options u p))
    (keep : ∀ u p, Q u → Q (dispose os options u p)) :
    P (duplicates os perl s args) (main os perl args s) ∨ Q (main os perl args s) := by
  rw [main_eq ha, ← ho]
  refine foldl_or (P := fun seen u => P (seen.flatMap (due os perl s args)) u) start ?_
    fun u size _ hu => checkSize_keep keep hu
  intro seen size rest u he hu
  have split := duplicates_split he
  rw [checkSize_eq hd fun p hp => same _ _ u split hu p (mem_bucket_table.mp hp).1 fun q hq =>
    size_ne_of_seen he hp hq]
  rw [List.flatMap_append, List.flatMap_singleton]
  refine foldl_or (P := fun gone u => P (seen.flatMap (due os perl s args) ++ gone) u) ?_ ?_
    fun u p _ hu => keep u p hu
  · rw [List.append_nil]
    exact hu
  · intro gone p others u hg hu
    rw [hg, List.append_assoc, List.cons_append, ← List.append_assoc] at split
    rw [← List.append_assoc]
    exact step _ p _ u split hu

/-- The files with a content, in the order in which they are visited. -/
def listed (os : Os σ π) (perl : Perl π δ) (s : σ) (args : List String) (c : Content) : List π :=
  (collected os perl s args).filter fun p => os.read s p = some c

/-- Of one size, the files with one digest are the files with one content. -/
theorem alike_eq_listed
    (hs : ∀ p ∈ collected os perl s args, ∀ c,
      os.read s p = some c → os.size s p = some c.length)
    (hi : ∀ p ∈ collected os perl s args, ∀ q ∈ collected os perl s args, ∀ c c',
      os.read s p = some c → os.read s q = some c' → perl.hexdigest c = perl.hexdigest c' → c = c')
    {r : π} {c : Content} (hr : r ∈ collected os perl s args) (hc : os.read s r = some c) :
    (((table os perl s args).bucket c.length).filter fun p =>
      (os.read s p).map perl.hexdigest = some (perl.hexdigest c)) = listed os perl s args c := by
  rw [bucket_table, List.filter_filter, listed]
  refine List.filter_congr fun p hp => ?_
  rw [Bool.and_eq_decide, decide_eq_decide]
  constructor
  · rintro ⟨hd, -⟩
    obtain ⟨c', hc', he⟩ := Option.map_eq_some_iff.mp (of_decide_eq_true hd)
    rw [hc', hi p hp r hr c' c hc' hc he]
  · intro hc'
    exact ⟨by simp [hc'], by simp [hs p hp c hc']⟩

/-- **A duplicate** is a file that is not the first with its content. -/
theorem mem_duplicates
    (hs : ∀ p ∈ collected os perl s args, ∀ c,
      os.read s p = some c → os.size s p = some c.length)
    (hi : ∀ p ∈ collected os perl s args, ∀ q ∈ collected os perl s args, ∀ c c',
      os.read s p = some c → os.read s q = some c' → perl.hexdigest c = perl.hexdigest c' → c = c')
    {q : π} : q ∈ duplicates os perl s args ↔ ∃ c, q ∈ (listed os perl s args c).tail := by
  rw [duplicates, List.mem_flatMap]
  constructor
  · rintro ⟨size, -, hq⟩
    obtain ⟨d, hq⟩ := mem_scheduled.mp hq
    obtain ⟨hb, hd⟩ := List.mem_filter.mp (List.mem_of_mem_tail hq)
    rw [bucket_table] at hb
    obtain ⟨hm, hz⟩ := List.mem_filter.mp hb
    obtain ⟨c, hc, rfl⟩ := Option.map_eq_some_iff.mp (of_decide_eq_true hd)
    obtain rfl : c.length = size :=
      Option.some.inj ((hs q hm c hc).symm.trans (of_decide_eq_true hz))
    exact ⟨c, alike_eq_listed hs hi hm hc ▸ hq⟩
  · rintro ⟨c, hq⟩
    obtain ⟨hm, hc⟩ := List.mem_filter.mp (List.mem_of_mem_tail hq)
    have hc := of_decide_eq_true hc
    exact ⟨c.length, mem_sizes.mpr ⟨q, hm, hs q hm c hc⟩,
      mem_scheduled.mpr ⟨perl.hexdigest c, (alike_eq_listed hs hi hm hc).symm ▸ hq⟩⟩

end

end OldStuff.Dup
