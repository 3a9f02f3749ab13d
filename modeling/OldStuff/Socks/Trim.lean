import OldStuff.Socks.Positions

/-!
# Socks — where a value ends

`load` cuts the white space behind a value with `std::distance` from a reverse iterator of `value`
to `option.rend()`, the end of another string.  What this comes to is a matter of where the two
strings lie in memory (`Placement`), taken modulo the size of a machine word.

It is always so large that the value is kept, and the character behind it
(`Placement.length_lt_distance`): the white space in front of a value is removed, and some of what
is behind it stays.
-/

namespace OldStuff.Socks
open OldStuff.Io

namespace Text

/-- What is left of a value: no comment, and no white space at either end. -/
def trimmed (text : Text) : Text :=
  ((text.takeWhile (· ≠ '#')).rdropWhile isspace).dropWhile isspace

/-- The white space in front is gone, in any case. -/
theorem dropWhile_isspace_eq_nil {s : Text} :
    s.dropWhile isspace = [] ↔ ∀ c ∈ s, isspace c = true := List.dropWhile_eq_nil_iff

end Text

open Text (isspace trimmed)

/-- Where the characters of `option` and of `value` lie, each with a NUL behind it, in a memory of
`2^w` bytes. -/
structure Placement (w : Nat) (option value : Text) where
  optionAt : Nat
  valueAt : Nat
  option_fits : optionAt + option.length < 2 ^ w
  value_fits : valueAt + value.length < 2 ^ w
  disjoint : optionAt + option.length < valueAt ∨ valueAt + value.length < optionAt

section
variable {w : Nat} {option value text : Text}

/-- `std::distance(std::find_if(value.rbegin(),value.rend(),..),option.rend())`, as the count of
`substr`: from the first character of `option` to behind the last of `value` that is no white
space. -/
def Placement.distance (p : Placement w option value) : Nat :=
  (((p.valueAt + (value.rdropWhile isspace).length : Nat) - p.optionAt : Int) % 2 ^ w).toNat

theorem length_rdropWhile_le (s : Text) : (s.rdropWhile isspace).length ≤ s.length :=
  (List.rdropWhile_prefix _ _).length_le

/-- **More is kept** than the value has characters in front of its last white space, and the option
besides. -/
theorem Placement.length_add_lt_distance (p : Placement w option value) :
    (value.rdropWhile isspace).length + option.length < p.distance := by
  have := length_rdropWhile_le value
  have option_fits := p.option_fits
  have value_fits := p.value_fits
  have size : ((2 ^ w : Nat) : Int) = 2 ^ w := by push_cast; rfl
  rw [distance, ← size]
  rcases p.disjoint with h | h
  · -- `value` lies behind `option`
    rw [Int.emod_eq_of_lt (by omega) (by omega)]
    omega
  · -- `value` lies in front, and the difference is negative
    rw [← Int.add_emod_right, Int.emod_eq_of_lt (by omega) (by omega)]
    omega

theorem Placement.length_lt_distance (p : Placement w option value) :
    (value.rdropWhile isspace).length < p.distance :=
  Nat.lt_of_le_of_lt (Nat.le_add_right _ _) p.length_add_lt_distance

/-- No less can be kept: the value lies right behind the option. -/
theorem Placement.exists_behind (h : option.length + 1 + value.length < 2 ^ w) :
    ∃ p : Placement w option value,
      p.distance = (value.rdropWhile isspace).length + option.length + 1 := by
  have := length_rdropWhile_le value
  have size : ((2 ^ w : Nat) : Int) = 2 ^ w := by push_cast; rfl
  refine ⟨⟨0, option.length + 1, by omega, h, .inl (by omega)⟩, ?_⟩
  rw [distance, ← size, Int.emod_eq_of_lt (by dsimp only; omega) (by dsimp only; omega)]
  dsimp only
  omega

/-- All can be kept: the value lies in front of the option. -/
theorem Placement.exists_front (h : option.length + 1 + value.length < 2 ^ w) :
    ∃ p : Placement w option value,
      p.distance = 2 ^ w + (value.rdropWhile isspace).length - (value.length + 1) := by
  have := length_rdropWhile_le value
  have size : ((2 ^ w : Nat) : Int) = 2 ^ w := by push_cast; rfl
  refine ⟨⟨value.length + 1, 0, by omega, by omega, .inr (by omega)⟩, ?_⟩
  rw [distance, ← size, ← Int.add_emod_right, Int.emod_eq_of_lt (by dsimp only; omega)
    (by dsimp only; omega)]
  dsimp only
  omega

/-! ### What is kept -/

/-- The value ends with something else than white space, or there is nothing else in it. -/
def Tidy (value : Text) : Prop :=
  (∀ c ∈ value.getLast?, isspace c = false) ∨ ∀ c ∈ value, isspace c = true

/-- No white space is behind the value. -/
theorem rtakeWhile_eq_nil :
    value.rtakeWhile isspace = [] ↔ ∀ c ∈ value.getLast?, isspace c = false := by
  rw [List.rtakeWhile_eq_nil_iff]
  constructor
  · intro h c hc
    have some : value ≠ [] := by
      rintro rfl
      cases hc
    rw [List.getLast?_eq_getLast_of_ne_nil some] at hc
    obtain rfl := Option.some.inj hc
    exact Bool.eq_false_of_not_eq_true (h some)
  · intro h some
    rw [h _ (List.getLast?_eq_getLast_of_ne_nil some)]
    exact Bool.false_ne_true

/-- What is kept, and how much white space of what is behind it. -/
theorem take_kept {kept : Nat} (hk : (value.rdropWhile isspace).length < kept) :
    value.take kept = value.rdropWhile isspace ++
      (value.rtakeWhile isspace).take (kept - (value.rdropWhile isspace).length) := by
  have behind : value.rdropWhile isspace ++ value.rtakeWhile isspace = value :=
    List.rdropWhile_append_rtakeWhile
  conv_lhs => rw [← behind]
  rw [List.take_append, List.take_of_length_le (Nat.le_of_lt hk)]

/-- A value that does not end in white space is not all white space. -/
theorem dropWhile_ne_nil (h : value.rdropWhile isspace ≠ []) :
    (value.rdropWhile isspace).dropWhile isspace ≠ [] := by
  intro hnil
  have white := Text.dropWhile_isspace_eq_nil.mp hnil
  exact List.rdropWhile_last_not _ _ h (white _ (List.getLast_mem h))

/-- The white space behind a value, if there is any, is cut off only with the value. -/
theorem kept_iff {kept : Nat} (hk : (value.rdropWhile isspace).length < kept) :
    (value.take kept).dropWhile isspace = (value.rdropWhile isspace).dropWhile isspace ↔
      Tidy value := by
  rw [Tidy, ← rtakeWhile_eq_nil, ← List.rdropWhile_eq_nil_iff]
  by_cases none : value.rdropWhile isspace = []
  · have white := List.rdropWhile_eq_nil_iff.mp none
    rw [none]
    refine iff_of_true ?_ (.inr rfl)
    exact Text.dropWhile_isspace_eq_nil.mpr fun c hc => white c (List.mem_of_mem_take hc)
  · have full : ((value.rdropWhile isspace).dropWhile isspace).isEmpty = false :=
      List.isEmpty_eq_false_iff.mpr (dropWhile_ne_nil none)
    rw [take_kept hk, List.dropWhile_append, full, if_neg Bool.false_ne_true,
      List.append_right_eq_self, List.take_eq_nil_iff, or_iff_left none]
    exact or_iff_right (Nat.sub_ne_zero_of_lt hk)

end

/-! ### White space behind a value -/

namespace Text
variable {s ws : Text} {c : Char} {abi : Abi}

theorem takeWhile_append_white {p : Char → Bool} (hp : ∀ c, isspace c = true → p c = false)
    (hw : ∀ c ∈ ws, isspace c = true) (s : Text) : (s ++ ws).takeWhile p = s.takeWhile p := by
  induction s with
  | nil =>
      cases ws with
      | nil => rfl
      | cons c ws => simp [hp c (hw c List.mem_cons_self)]
  | cons c s ih => rw [List.cons_append, List.takeWhile_cons, List.takeWhile_cons, ih]

theorem integer_cons_white (hc : isspace c = true) (s : Text) : integer (c :: s) = integer s := by
  rw [integer, integer, List.dropWhile_cons_of_pos hc]

/-- **A number** is the same with white space behind it. -/
theorem integer_append_white (hw : ∀ c ∈ ws, isspace c = true) (s : Text) :
    integer (s ++ ws) = integer s := by
  induction s with
  | nil =>
      rw [integer, List.nil_append, dropWhile_isspace_eq_nil.mpr hw]
      rfl
  | cons c s ih =>
      cases hc : isspace c with
      | true => rw [List.cons_append, integer_cons_white hc, integer_cons_white hc, ih]
      | false =>
          have solid (t : Text) : (c :: s ++ t).dropWhile isspace = c :: s ++ t :=
            List.dropWhile_cons_of_neg (by rw [hc]; exact Bool.false_ne_true)
          have alone := solid []
          rw [List.append_nil] at alone
          have sign : (c :: s ++ ws).takeWhile (fun c => c = '+' ∨ c = '-') =
              (c :: s).takeWhile fun c => c = '+' ∨ c = '-' := by
            refine takeWhile_append_white (fun d hd => decide_eq_false ?_) hw _
            rintro (rfl | rfl) <;> exact absurd hd (by decide)
          have front : min ((c :: s).takeWhile fun c => c = '+' ∨ c = '-').length 1 ≤
              (c :: s).length := (Nat.min_le_right ..).trans (Nat.succ_le_succ (Nat.zero_le _))
          have digits {t : Text} : (t ++ ws).takeWhile isdigit = t.takeWhile isdigit := by
            refine takeWhile_append_white (fun d hd => ?_) hw t
            simp only [isspace, List.mem_cons, List.not_mem_nil, or_false, decide_eq_true_iff] at hd
            rcases hd with rfl | rfl | rfl | rfl | rfl | rfl <;> decide
          unfold integer
          dsimp only
          rw [solid ws, alone, sign, List.drop_append_of_le_length front, digits]

theorem atol_append_white (hw : ∀ c ∈ ws, isspace c = true) (s : Text) :
    atol abi (s ++ ws) = atol abi s := by
  rw [atol, atol, integer_append_white hw]

theorem atoi_append_white (hw : ∀ c ∈ ws, isspace c = true) (s : Text) :
    atoi abi (s ++ ws) = atoi abi s := by
  rw [atoi, atoi, atol_append_white hw]

theorem strtoul_append_white (hw : ∀ c ∈ ws, isspace c = true) (s : Text) :
    strtoul abi (s ++ ws) = strtoul abi s := by
  rw [strtoul, strtoul, integer_append_white hw]

theorem find_append_white (hc : isspace c = false) (hw : ∀ c ∈ ws, isspace c = true) (s : Text) :
    find c (s ++ ws) = find c s := by
  have other : c ∉ ws := fun hm => absurd (hw c hm) (by rw [hc]; exact Bool.false_ne_true)
  rcases find_cases c s with ⟨hn, he⟩ | ⟨a, b, rfl, ha, he⟩
  · rw [he, find_eq_of_notMem]
    exact fun hm => (List.mem_append.mp hm).elim hn other
  · rw [he, List.append_assoc, List.cons_append, find_append ha]

theorem substr_append_white (hw : ∀ c ∈ ws, isspace c = true) {s : Text} {pos : Int} (count : Int)
    (hp : pos ≤ s.length) :
    ∃ ws' : Text, (∀ c ∈ ws', isspace c = true) ∧
      substr (s ++ ws) pos count = substr s pos count ++ ws' := by
  have front : pos.toNat ≤ s.length := by omega
  unfold substr
  rw [List.drop_append_of_le_length front]
  split
  · exact ⟨ws, hw, rfl⟩
  · exact ⟨_, fun c hc => hw c (List.mem_of_mem_take hc), List.take_append⟩

theorem clockTime_append_white (hw : ∀ c ∈ ws, isspace c = true) (s : Text) :
    clockTime abi (s ++ ws) = clockTime abi s := by
  have behind := find_lt '.' s
  obtain ⟨ws₁, hw₁, hour⟩ := substr_append_white hw (find '.' s) (by omega : (0 : Int) ≤ s.length)
  obtain ⟨ws₂, hw₂, minute⟩ := substr_append_white hw (-1) (by omega : find '.' s + 1 ≤ s.length)
  rw [clockTime, clockTime, find_append_white (by decide) hw, atoi_append_white hw, hour, minute,
    atoi_append_white hw₁, atoi_append_white hw₂]

/-- **A slice** is the same with white space behind it. -/
theorem timeSlice_append_white (hw : ∀ c ∈ ws, isspace c = true) (s : Text) :
    timeSlice abi (s ++ ws) = timeSlice abi s := by
  have dash := find_lt '-' s
  have eq := find_lt '=' s
  obtain ⟨ws₁, hw₁, start⟩ := substr_append_white hw (find '-' s) (by omega : (0 : Int) ≤ s.length)
  obtain ⟨ws₂, hw₂, stop⟩ := substr_append_white hw (find '=' s - find '-' s - 1)
    (by omega : find '-' s + 1 ≤ s.length)
  obtain ⟨ws₃, hw₃, speed⟩ := substr_append_white hw (-1) (by omega : find '=' s + 1 ≤ s.length)
  rw [timeSlice, timeSlice, find_append_white (by decide) hw, find_append_white (by decide) hw,
    start, stop, speed, clockTime_append_white hw₁, clockTime_append_white hw₂,
    strtoul_append_white hw₃]

/-- **A schedule** is the same with white space behind it, which is behind its last slice. -/
theorem slices_append_white (hw : ∀ c ∈ ws, isspace c = true) (s : Text) :
    ((s ++ ws).splitOn ',').map (timeSlice abi) = (s.splitOn ',').map (timeSlice abi) := by
  have comma : ',' ∉ ws := fun hm => absurd (hw _ hm) (by decide)
  induction hn : s.length using Nat.strongRecOn generalizing s with
  | ind n ih =>
      by_cases hm : ',' ∈ s
      · obtain ⟨a, b, rfl, ha⟩ := List.eq_append_cons_of_mem hm
        rw [List.append_assoc, List.cons_append, splitOn_next ha, splitOn_next ha, List.map_cons,
          List.map_cons]
        refine congrArg _ (ih b.length ?_ b rfl)
        rw [List.length_append, List.length_cons] at hn
        omega
      · rw [List.splitOn_eq_singleton hm, List.splitOn_eq_singleton, List.map_singleton,
          List.map_singleton, timeSlice_append_white hw]
        exact fun h => (List.mem_append.mp h).elim hm comma

end Text

section
variable {w : Nat} {option value text : Text}

/-! ### A line -/

/-- **A line** of the form `option=text`. -/
theorem entry_eq (he : '=' ∉ option) (hc : '#' ∉ option) (kept : Nat) (text : Text) :
    entry kept (option ++ '=' :: text) =
      some (option, ((text.takeWhile (· ≠ '#')).take kept).dropWhile isspace) := by
  have cut : (option ++ '=' :: text).takeWhile (· ≠ '#') =
      option ++ '=' :: text.takeWhile (· ≠ '#') := by
    rw [List.takeWhile_append_of_pos, List.takeWhile_cons_of_pos (by decide)]
    intro c hm
    rw [decide_eq_true_iff]
    rintro rfl
    exact hc hm
  rw [entry, cut, Text.find_append he, if_neg (by omega), Text.substr_front,
    Text.substr_back _ _ (by decide)]

/-- Each value is cut where the strings of its line lie in memory. -/
def PlacedLines (w : Nat) (kept : Nat → Nat) (lines : List Text) : Prop :=
  ∀ i line option value, lines[i]? = some line → '=' ∉ option →
    line.takeWhile (· ≠ '#') = option ++ '=' :: value →
      ∃ p : Placement w option value, kept i = p.distance

/-- **Values are trimmed** as they should be if, up to the comment, they do not end in white space;
or if they are nothing else. -/
theorem entry_trimmed_iff (he : '=' ∉ option) (hc : '#' ∉ option) (text : Text)
    (p : Placement w option (text.takeWhile (· ≠ '#'))) :
    entry p.distance (option ++ '=' :: text) = some (option, trimmed text) ↔
      Tidy (text.takeWhile (· ≠ '#')) := by
  rw [entry_eq he hc, Option.some_inj, Prod.mk.injEq, and_iff_right rfl, trimmed]
  exact kept_iff p.length_lt_distance

end

namespace Sample

/-- The strings of a line `run as= nobody`, and of one with a comment behind it. -/
def runAs : Placement 32 "run as".toList (" nobody".toList.takeWhile (· ≠ '#')) :=
  ⟨1000, 2000, by decide, by decide, by decide⟩

def runAsCommented : Placement 32 "run as".toList
    (" nobody # not root".toList.takeWhile (· ≠ '#')) :=
  ⟨1000, 2000, by decide, by decide, by decide⟩

end Sample

theorem entry_trimmed_sample :
    entry Sample.runAs.distance ("run as".toList ++ '=' :: " nobody".toList) =
      some ("run as".toList, trimmed " nobody".toList) := by
  have last : (" nobody".toList.takeWhile (· ≠ '#')).getLast? = some 'y' := by decide +kernel
  refine (entry_trimmed_iff (by decide) (by decide) " nobody".toList Sample.runAs).mpr
    (.inl fun c hc => ?_)
  rw [last] at hc
  obtain rfl := Option.some.inj hc
  decide

/-- The blank in front of the comment stays. -/
theorem comment_leaves_blank :
    entry Sample.runAsCommented.distance ("run as".toList ++ '=' :: " nobody # not root".toList) =
        some ("run as".toList, "nobody ".toList) ∧
      trimmed " nobody # not root".toList = "nobody".toList ∧
      entry Sample.runAsCommented.distance ("run as".toList ++ '=' :: " nobody # not root".toList) ≠
        some ("run as".toList, trimmed " nobody # not root".toList) := by
  have kept : entry Sample.runAsCommented.distance
      ("run as".toList ++ '=' :: " nobody # not root".toList) =
        some ("run as".toList, "nobody ".toList) := by decide +kernel
  have clean : trimmed " nobody # not root".toList = "nobody".toList := by decide +kernel
  refine ⟨kept, clean, ?_⟩
  rw [kept, clean]
  decide

end OldStuff.Socks
