import OldStuff.Socks.Load

/-!
# Socks — positions in the configuration

`load` and `parse_speed` work with `int` positions.  `npos` becomes -1, a count that comes out
negative is as good as the largest, and `substr` throws when its position is behind the end.  In
`Load.lean` the positions are not looked at, and the loop of `parse_speed` is one over the parts of
the value.  Here the same functions go from position to position, each `substr` checks its own, and
the loop has a bound on its rounds (`speedRounds`).

The two agree: no `substr` throws, and the loop ends (`loadAt_ends`).  What is left to go wrong is
the index of `instance.speed`, and `load_safe_iff` says for which files it does.

Positions are unbounded here: a line has fewer than `2^31` characters.
-/

namespace OldStuff.Socks
open OldStuff.Io
open OldStuff.Lib (Outcome)

/-! ### `find` and `substr` -/

namespace Text

variable {a b s : Text} {c : Char}

theorem neg_one_le_find (c : Char) (s : Text) : -1 ≤ find c s := by
  rw [find]
  cases s.findIdx? (· = c) with
  | none => exact Int.le_refl _
  | some i => exact Int.le_trans (by decide) (Int.natCast_nonneg i)

theorem find_eq_of_notMem (h : c ∉ s) : find c s = -1 := by
  have none : s.findIdx? (· = c) = none := by
    refine List.findIdx?_eq_none_iff.mpr fun x hx => decide_eq_false ?_
    rintro rfl
    exact h hx
  rw [find, none]
  rfl

theorem find_append (h : c ∉ a) (b : Text) : find c (a ++ c :: b) = a.length := by
  have none : a.findIdx? (· = c) = none := by
    refine List.findIdx?_eq_none_iff.mpr fun x hx => decide_eq_false ?_
    rintro rfl
    exact h hx
  rw [find, List.findIdx?_append, none, List.findIdx?_cons, decide_eq_true rfl, if_pos rfl]
  simp

/-- A character is not there, or there is a first one. -/
theorem find_cases (c : Char) (s : Text) : c ∉ s ∧ find c s = -1 ∨
    ∃ a b, s = a ++ c :: b ∧ c ∉ a ∧ find c s = a.length := by
  by_cases h : c ∈ s
  · obtain ⟨a, b, rfl, ha⟩ := List.eq_append_cons_of_mem h
    exact .inr ⟨a, b, rfl, ha, find_append ha b⟩
  · exact .inl ⟨h, find_eq_of_notMem h⟩

theorem takeWhile_of_notMem (h : c ∉ s) : s.takeWhile (· ≠ c) = s := by
  refine List.takeWhile_eq_self_iff.mpr fun x hx => decide_eq_true ?_
  rintro rfl
  exact h hx

theorem takeWhile_append (h : c ∉ a) (b : Text) : (a ++ c :: b).takeWhile (· ≠ c) = a := by
  rw [List.takeWhile_append, takeWhile_of_notMem h, if_pos rfl,
    List.takeWhile_cons_of_neg (by simp), List.append_nil]

theorem dropWhile_append (h : c ∉ a) (b : Text) :
    (a ++ c :: b).dropWhile (· ≠ c) = c :: b := by
  have split := List.takeWhile_append_dropWhile (p := fun x => x ≠ c) (l := a ++ c :: b)
  rw [takeWhile_append h] at split
  exact List.append_cancel_left split

theorem find_lt (c : Char) (s : Text) : find c s < s.length := by
  rcases find_cases c s with ⟨-, h⟩ | ⟨a, b, rfl, -, h⟩
  · rw [h]
    omega
  · rw [h, List.length_append, List.length_cons]
    omega

/-- `find`, from a position on; there is nothing behind the end. -/
def findFrom (c : Char) (s : Text) (pos : Int) : Int :=
  let i := find c (s.drop pos.toNat)
  if pos < 0 ∨ i = -1 then -1 else pos + i

/-- `substr`, which throws `std::out_of_range`. -/
def substrAt (s : Text) (pos count : Int) (c : Instance) : Outcome Instance Text :=
  if 0 ≤ pos ∧ pos ≤ s.length then .ok (substr s pos count) c else .thrown c

theorem substrAt_eq {pos : Int} (count : Int) (c : Instance) (h₀ : 0 ≤ pos) (h : pos ≤ s.length) :
    substrAt s pos count c = .ok (substr s pos count) c := if_pos ⟨h₀, h⟩

theorem substr_front (a b : Text) : substr (a ++ b) 0 a.length = a := by
  rw [substr, if_neg (by omega), Int.toNat_natCast, Int.toNat_zero, List.drop_zero, List.take_left]

theorem substr_between (a b d : Text) :
    substr (a ++ c :: b ++ d) (a.length + 1) b.length = b := by
  rw [substr, if_neg (by omega), show ((a.length : Int) + 1).toNat = a.length + 1 by omega,
    List.append_assoc, List.drop_append, List.drop_of_length_le (by omega),
    Nat.add_sub_cancel_left, Int.toNat_natCast]
  exact List.take_left

theorem substr_back (a b : Text) {count : Int} (h : count < 0) :
    substr (a ++ c :: b) (a.length + 1) count = b := by
  rw [substr, if_pos h, show ((a.length : Int) + 1).toNat = a.length + 1 by omega,
    List.drop_append, List.drop_of_length_le (by omega), Nat.add_sub_cancel_left]
  rfl

end Text

/-! ### `parse_speed`, position by position -/

section
variable (abi : Abi)

/-- `from_hr`, `from_min` and the like. -/
def clockTimeAt (s : Text) (c : Instance) : Outcome Instance (Int × Int) :=
  let dot := Text.find '.' s
  if dot = -1 then .ok (Text.atoi abi s, 0) c
  else
    (Text.substrAt s 0 dot c).bind fun hr c =>
    (Text.substrAt s (dot + 1) (-1) c).bind fun min c =>
    .ok (Text.atoi abi hr, Text.atoi abi min) c

/-- The slice that a part is for. -/
def timeSliceAt (part : Text) (c : Instance) : Outcome Instance TimeSlice :=
  let dash := Text.find '-' part
  let eq := Text.find '=' part
  (Text.substrAt part 0 dash c).bind fun from' c =>
  (Text.substrAt part (dash + 1) (eq - dash - 1) c).bind fun to' c =>
  (Text.substrAt part (eq + 1) (-1) c).bind fun speed c =>
  (clockTimeAt abi from' c).bind fun start c =>
  (clockTimeAt abi to' c).bind fun stop c =>
  .ok ⟨start.1, start.2, stop.1, stop.2, Text.strtoul abi speed⟩ c

/-- One round of the loop: it is the last, or the position from which the next one starts. -/
def speedRound (port : Bool) (day : Int) (value : Text) (pos : Int) (c : Instance) :
    Outcome Instance (Option Int) :=
  let index := Text.findFrom ',' value pos
  (Text.substrAt value pos (index - pos) c).bind fun part c =>
  (timeSliceAt abi part c).bind fun tm c =>
  (pushSlice port day tm c).bind fun _ c =>
  .ok (if index = -1 then none else some (index + 1)) c

/-- `for(;;)`, for so many rounds; `false` if there is another one to come. -/
def speedRounds (port : Bool) (day : Int) (value : Text) :
    Nat → Int → Instance → Outcome Instance Bool
  | 0, _, c => .ok false c
  | n + 1, pos, c =>
    (speedRound abi port day value pos c).bind fun next c =>
      next.elim (.ok true c) fun pos => speedRounds port day value n pos c

/-- `parse_speed`, with a bound on the rounds of its loop. -/
def parseSpeedAt (n : Nat) (option value : Text) (c : Instance) : Outcome Instance Bool :=
  let port := "speed_port".toList.isPrefixOf option
  let idx1 := Text.find '[' option
  let idx2 := Text.find ']' option
  (Text.substrAt option (idx1 + 1) (idx2 - idx1 - 1) c).bind fun day c =>
    speedRounds abi port (Text.atoi abi day) value n 0 c

end

/-! ### `load`, position by position -/

/-- The option and the value of a line. -/
def entryAt (kept : Nat) (line : Text) (c : Instance) : Outcome Instance (Option (Text × Text)) :=
  let hash := Text.find '#' line
  let line := if hash = -1 then line else Text.substr line 0 hash
  let idx := Text.find '=' line
  if idx = -1 then .ok none c
  else
    (Text.substrAt line 0 idx c).bind fun option c =>
    (Text.substrAt line (idx + 1) (-1) c).bind fun value c =>
    (Text.substrAt value 0 kept c).bind fun value c =>
    (Text.substrAt value (value.takeWhile Text.isspace).length (-1) c).bind fun value c =>
    .ok (some (option, value)) c

/-- What is done with a value, except for a schedule. -/
def Key.assign (abi : Abi) (key : Key) (value : Text) (c : Instance) : Instance :=
  match key with
  | .speed => c
  | .acceptFrom => { c with acceptFrom := c.acceptFrom ++ [String.ofList value] }
  | .scalar s => c.set abi s value

section
variable (abi : Abi) (n : Nat)

/-- What is done with a line; `false` if the loop of `parse_speed` is not at its end. -/
def loadLineAt (kept : Nat) (line : Text) (c : Instance) : Outcome Instance Bool :=
  (entryAt kept line c).bind fun entry c =>
    entry.elim (.ok true c) fun e =>
      if Key.of e.1 = some .speed then parseSpeedAt abi n e.1 e.2 c
      else (Key.of e.1).elim (.thrown c) fun key => .ok true (key.assign abi e.2 c)

def loadLinesAt (kept : Nat → Nat) : List Text → Instance → Outcome Instance Bool
  | [], c => .ok true c
  | line :: rest, c =>
    (loadLineAt abi n (kept 0) line c).bind fun done c =>
      if done then loadLinesAt (fun i => kept (i + 1)) rest c else .ok false c

def loadAt (kept : Nat → Nat) (file : Option Text) (c : Instance) : Outcome Instance Bool :=
  file.elim (.thrown c) fun text =>
    loadLinesAt abi n kept (text.splitOn '\n')
      { c with speed := fun _ => [], acceptFrom := [], speedPort := ∅ }

end

/-! ### No `substr` throws -/

section
variable {abi : Abi} {port : Bool} {day : Int} {value : Text} {c c' : Instance} {n m : Nat}

/-- Behind a character that was found, or from the start if it was not. -/
theorem substrAt_find (s : Text) (d : Char) (count : Int) (c : Instance) :
    Text.substrAt s (Text.find d s + 1) count c =
      .ok (Text.substr s (Text.find d s + 1) count) c := by
  have := Text.neg_one_le_find d s
  have := Text.find_lt d s
  exact Text.substrAt_eq count c (by omega) (by omega)

theorem substrAt_zero (s : Text) (count : Int) (c : Instance) :
    Text.substrAt s 0 count c = .ok (Text.substr s 0 count) c :=
  Text.substrAt_eq count c (Int.le_refl 0) (Int.natCast_nonneg _)

theorem clockTimeAt_eq (s : Text) (c : Instance) :
    clockTimeAt abi s c = .ok (clockTime abi s) c := by
  unfold clockTimeAt clockTime
  dsimp only
  split
  · rfl
  · rw [substrAt_zero, Outcome.bind_ok, substrAt_find, Outcome.bind_ok]

theorem timeSliceAt_eq (part : Text) (c : Instance) :
    timeSliceAt abi part c = .ok (timeSlice abi part) c := by
  unfold timeSliceAt
  dsimp only
  rw [substrAt_zero, Outcome.bind_ok, substrAt_find, Outcome.bind_ok, substrAt_find,
    Outcome.bind_ok, clockTimeAt_eq, Outcome.bind_ok, clockTimeAt_eq, Outcome.bind_ok]
  rfl

/-- What is between two positions. -/
theorem substr_from (s : Text) (p : Nat) (count : Int) :
    Text.substr s p count = Text.substr (s.drop p) 0 count := by
  rw [Text.substr, Text.substr, Int.toNat_natCast, Int.toNat_zero, List.drop_zero]

/-- **The last round**: there is no comma left. -/
theorem speedRound_last {p : Nat} (hp : p ≤ value.length) (h : ',' ∉ value.drop p) :
    speedRound abi port day value p c =
      (pushSlice port day (timeSlice abi (value.drop p)) c).bind fun _ c => .ok none c := by
  have index : Text.findFrom ',' value p = -1 := by
    rw [Text.findFrom, Int.toNat_natCast, Text.find_eq_of_notMem h]
    exact if_pos (.inr rfl)
  have part : Text.substr value p (-1 - p) = value.drop p := by
    rw [Text.substr, if_pos (by omega), Int.toNat_natCast]
  rw [speedRound, index]
  rw [Text.substrAt_eq _ _ (Int.natCast_nonneg p) (by omega), Outcome.bind_ok, part,
    timeSliceAt_eq, Outcome.bind_ok]
  rfl

/-- **A round**, up to the next comma. -/
theorem speedRound_next {p : Nat} {front back : Text} (hp : p ≤ value.length)
    (he : value.drop p = front ++ ',' :: back) (h : ',' ∉ front) :
    speedRound abi port day value p c =
      (pushSlice port day (timeSlice abi front) c).bind fun _ c =>
        .ok (some ((p + front.length + 1 : Nat) : Int)) c := by
  have index : Text.findFrom ',' value p = p + front.length := by
    rw [Text.findFrom, Int.toNat_natCast, he, Text.find_append h, if_neg (by omega)]
  have part : Text.substr value p (p + front.length - p) = front := by
    rw [substr_from, he, show (p : Int) + front.length - p = front.length by omega,
      Text.substr_front]
  rw [speedRound, index]
  rw [Text.substrAt_eq _ _ (Int.natCast_nonneg p) (by omega), Outcome.bind_ok, part,
    timeSliceAt_eq, Outcome.bind_ok, if_neg (by omega)]
  rfl

/-! ### The loop of `parse_speed` -/

/-- What is behind a part, and the comma behind it. -/
theorem drop_next {p : Nat} {front back : Text} (he : value.drop p = front ++ ',' :: back) :
    value.drop (p + front.length + 1) = back ∧ p + front.length + 1 ≤ value.length := by
  constructor
  · rw [Nat.add_assoc, ← List.drop_drop, he, List.drop_append, List.drop_of_length_le (by omega),
      Nat.add_sub_cancel_left]
    rfl
  · have := congrArg List.length he
    rw [List.length_drop, List.length_append, List.length_cons] at this
    omega

theorem speedRounds_last {p : Nat} (hp : p ≤ value.length) (h : ',' ∉ value.drop p) :
    speedRounds abi port day value (n + 1) p c =
      Outcome.finish (pushSlices abi port day ((value.drop p).splitOn ',') c) := by
  rw [speedRounds, speedRound_last hp h, List.splitOn_eq_singleton h, pushSlices]
  cases pushSlice port day (timeSlice abi (value.drop p)) c with
  | ok a c => rfl
  | thrown c => rfl
  | fault => rfl

theorem speedRounds_next {p : Nat} {front back : Text} (hp : p ≤ value.length)
    (he : value.drop p = front ++ ',' :: back) (h : ',' ∉ front) :
    speedRounds abi port day value (n + 1) p c =
      (pushSlice port day (timeSlice abi front) c).bind fun _ c =>
        speedRounds abi port day value n ((p + front.length + 1 : Nat) : Int) c := by
  rw [speedRounds, speedRound_next hp he h]
  cases pushSlice port day (timeSlice abi front) c with
  | ok a c => rfl
  | thrown c => rfl
  | fault => rfl

theorem splitOn_next {front back : Text} (h : ',' ∉ front) :
    (front ++ ',' :: back).splitOn ',' = front :: back.splitOn ',' :=
  List.splitOn_append_cons_self_of_not_mem h back

/-- **With a round for every part**, the loop ends, and does what is done part by part. -/
theorem speedRounds_enough {p : Nat} (hp : p ≤ value.length)
    (hn : ((value.drop p).splitOn ',').length ≤ n) :
    speedRounds abi port day value n p c =
      Outcome.finish (pushSlices abi port day ((value.drop p).splitOn ',') c) := by
  induction n generalizing p c with
  | zero => exact absurd (List.length_eq_zero_iff.mp (Nat.le_zero.mp hn)) (List.splitOn_ne_nil _ _)
  | succ n ih =>
      by_cases hm : ',' ∈ value.drop p
      · obtain ⟨front, back, he, h⟩ := List.eq_append_cons_of_mem hm
        obtain ⟨rest, long⟩ := drop_next he
        rw [speedRounds_next hp he h, he, splitOn_next h, pushSlices]
        rw [he, splitOn_next h, List.length_cons] at hn
        cases pushSlice port day (timeSlice abi front) c with
        | ok a c =>
            rw [Outcome.bind_ok, Outcome.bind_ok, ih long (by rw [rest]; omega), rest]
        | thrown c => rfl
        | fault => rfl
      · exact speedRounds_last hp hm

/-- With fewer, it does not get to the end, if nothing else ends it. -/
theorem speedRounds_few {p : Nat} (hp : p ≤ value.length)
    (hn : n < ((value.drop p).splitOn ',').length)
    (ho : pushSlices abi port day ((value.drop p).splitOn ',') c = .ok () c') :
    ∃ c'', speedRounds abi port day value n p c = .ok false c'' := by
  induction n generalizing p c with
  | zero => exact ⟨c, rfl⟩
  | succ n ih =>
      by_cases hm : ',' ∈ value.drop p
      · obtain ⟨front, back, he, h⟩ := List.eq_append_cons_of_mem hm
        obtain ⟨rest, long⟩ := drop_next he
        rw [he, splitOn_next h, pushSlices] at ho
        rw [he, splitOn_next h, List.length_cons] at hn
        obtain ⟨_, c₁, hc, ho⟩ := Outcome.bind_eq_ok.mp ho
        rw [speedRounds_next hp he h, hc, Outcome.bind_ok]
        exact ih long (by rw [rest]; omega) (by rwa [rest])
      · rw [List.splitOn_eq_singleton hm] at hn
        exact absurd hn (by simp)

/-- However many rounds it is given, it is not at its end or it has done what is done part by
part. -/
theorem speedRounds_or {p : Nat} (hp : p ≤ value.length) :
    (∃ c'', speedRounds abi port day value n p c = .ok false c'') ∨
      speedRounds abi port day value n p c =
        Outcome.finish (pushSlices abi port day ((value.drop p).splitOn ',') c) := by
  induction n generalizing p c with
  | zero => exact .inl ⟨c, rfl⟩
  | succ n ih =>
      by_cases hm : ',' ∈ value.drop p
      · obtain ⟨front, back, he, h⟩ := List.eq_append_cons_of_mem hm
        obtain ⟨rest, long⟩ := drop_next he
        rw [speedRounds_next hp he h, he, splitOn_next h, pushSlices]
        cases pushSlice port day (timeSlice abi front) c with
        | ok a c =>
            rw [Outcome.bind_ok, Outcome.bind_ok, ← rest]
            exact ih long
        | thrown c => exact .inr rfl
        | fault => exact .inr rfl
      · exact .inr (speedRounds_last hp hm)

/-- `parse_speed` is its loop, from the start. -/
theorem parseSpeedAt_eq (option : Text) : parseSpeedAt abi n option value c =
    speedRounds abi ("speed_port".toList.isPrefixOf option)
      (Text.atoi abi (Text.substr option (Text.find '[' option + 1)
        (Text.find ']' option - Text.find '[' option - 1))) value n ((0 : Nat) : Int) c := by
  rw [parseSpeedAt, substrAt_find, Outcome.bind_ok]
  rfl

theorem parseSpeedAt_enough {option : Text} (hn : (value.splitOn ',').length ≤ n) :
    parseSpeedAt abi n option value c = Outcome.finish (parseSpeed abi option value c) := by
  rw [parseSpeedAt_eq, speedRounds_enough (Nat.zero_le _) (by rwa [List.drop_zero]),
    List.drop_zero]
  rfl

theorem parseSpeedAt_or {option : Text} :
    (∃ c'', parseSpeedAt abi n option value c = .ok false c'') ∨
      parseSpeedAt abi n option value c = Outcome.finish (parseSpeed abi option value c) := by
  rw [parseSpeedAt_eq]
  have := @speedRounds_or abi ("speed_port".toList.isPrefixOf option)
    (Text.atoi abi (Text.substr option (Text.find '[' option + 1)
      (Text.find ']' option - Text.find '[' option - 1))) value c n 0 (Nat.zero_le _)
  rwa [List.drop_zero] at this

/-- **`parse_speed` ends**, in as many rounds as its value has parts. -/
theorem parseSpeedAt_ends (option value : Text) (c : Instance) :
    Outcome.Ends (fun n => parseSpeedAt abi n option value c) (parseSpeed abi option value c) :=
  ⟨fun _ => parseSpeedAt_or, _, fun _ => parseSpeedAt_enough⟩

theorem parseSpeedAt_few {option : Text} (hn : n < (value.splitOn ',').length)
    (ho : parseSpeed abi option value c = .ok () c') :
    ∃ c'', parseSpeedAt abi n option value c = .ok false c'' := by
  rw [parseSpeedAt_eq]
  exact speedRounds_few (Nat.zero_le _) (by rwa [List.drop_zero]) (by rwa [List.drop_zero])

/-! ### The file -/

variable {line option : Text} {kept : Nat}

/-- What is left of a line without its comment. -/
theorem erase_eq (line : Text) : (if Text.find '#' line = -1 then line
    else Text.substr line 0 (Text.find '#' line)) = line.takeWhile (· ≠ '#') := by
  rcases Text.find_cases '#' line with ⟨h, hf⟩ | ⟨a, b, rfl, h, hf⟩
  · rw [if_pos hf, Text.takeWhile_of_notMem h]
  · rw [hf, if_neg (by omega), Text.substr_front, Text.takeWhile_append h]

theorem entryAt_eq (kept : Nat) (line : Text) (c : Instance) :
    entryAt kept line c = .ok (entry kept line) c := by
  have front (s : Text) : Text.substr s 0 kept = s.take kept := by
    rw [Text.substr, if_neg (by omega), Int.toNat_natCast, Int.toNat_zero, List.drop_zero]
  have back (s : Text) : Text.substr s (s.takeWhile Text.isspace).length (-1) =
      s.dropWhile Text.isspace := by
    rw [Text.substr, if_pos (by decide), Int.toNat_natCast]
    have split := congrArg (List.drop (s.takeWhile Text.isspace).length)
      (List.takeWhile_append_dropWhile (p := Text.isspace) (l := s))
    rwa [List.drop_left, eq_comm] at split
  have inside (s : Text) : ((s.takeWhile Text.isspace).length : Int) ≤ s.length :=
    Int.ofNat_le.mpr (List.takeWhile_prefix _).length_le
  unfold entryAt entry
  dsimp only
  rw [erase_eq]
  split
  · rfl
  · rw [substrAt_zero, Outcome.bind_ok, substrAt_find, Outcome.bind_ok, substrAt_zero,
      Outcome.bind_ok, Text.substrAt_eq _ _ (Int.natCast_nonneg _) (inside _), Outcome.bind_ok,
      front, back]

/-- A line, as in `Load.lean`. -/
theorem loadLine_eq (kept : Nat) (line : Text) (c : Instance) : loadLine abi kept line c =
    (entry kept line).elim (.ok () c) fun e =>
      if Key.of e.1 = some .speed then parseSpeed abi e.1 e.2 c
      else (Key.of e.1).elim (.thrown c) fun key => .ok () (key.assign abi e.2 c) := by
  rw [loadLine]
  cases entry kept line with
  | none => rfl
  | some e =>
      obtain ⟨option, value⟩ := e
      dsimp only [Option.elim]
      cases Key.of option with
      | none => rfl
      | some key =>
          cases key with
          | speed => rfl
          | acceptFrom => rfl
          | scalar s => rfl

theorem loadLineAt_ends (kept : Nat) (line : Text) (c : Instance) :
    Outcome.Ends (fun n => loadLineAt abi n kept line c) (loadLine abi kept line c) := by
  simp only [loadLineAt, entryAt_eq, Outcome.bind_ok, loadLine_eq]
  cases entry kept line with
  | none => exact .of_eq fun _ => rfl
  | some e =>
      dsimp only [Option.elim]
      by_cases hk : Key.of e.1 = some .speed
      · simp only [if_pos hk]
        exact parseSpeedAt_ends e.1 e.2 c
      · simp only [if_neg hk]
        cases Key.of e.1 with
        | none => exact .of_eq fun _ => rfl
        | some key => exact .of_eq fun _ => rfl

theorem loadLinesAt_ends (kept : Nat → Nat) (lines : List Text) (c : Instance) :
    Outcome.Ends (fun n => loadLinesAt abi n kept lines c) (loadLines abi kept lines c) := by
  induction lines generalizing kept c with
  | nil => exact .of_eq fun _ => rfl
  | cons line rest ih => exact (loadLineAt_ends (kept 0) line c).bind fun c => ih _ c

/-- **The file**, position by position: given enough rounds, every loop ends, no `substr` throws,
and what is done is what `load` does. -/
theorem loadAt_ends (kept : Nat → Nat) (file : Option Text) (c : Instance) :
    Outcome.Ends (fun n => loadAt abi n kept file c) (load abi kept file c) := by
  cases file with
  | none => exact .of_eq fun _ => rfl
  | some text => exact loadLinesAt_ends _ _ _

/-! ### The table of seven days -/

/-- The option of a line, if it has an equals sign outside of its comment. -/
def optionOf (line : Text) : Option Text :=
  let line := line.takeWhile (· ≠ '#')
  if '=' ∈ line then some (line.takeWhile (· ≠ '=')) else none

/-- What stands between the brackets: up to the first `]`, if it is behind the first `[`, or there
is no `[`. -/
def bracketed (option : Text) : Text :=
  if '[' ∈ option then
    let behind := (option.dropWhile (· ≠ '[')).tail
    if ']' ∈ option.takeWhile (· ≠ '[') then behind else behind.takeWhile (· ≠ ']')
  else option.takeWhile (· ≠ ']')

/-- `load` does not throw at the line. -/
def Known (line : Text) : Bool := (optionOf line).all fun option => (Key.of option).isSome

/-- If the line is for a day, it is a day of the week. -/
def InTable (abi : Abi) (line : Text) : Prop :=
  ∀ option ∈ optionOf line, "speed".toList.isPrefixOf option = true →
    "speed_port".toList.isPrefixOf option = false →
    0 ≤ Text.atoi abi (bracketed option) ∧ Text.atoi abi (bracketed option) < 7

theorem entry_option (kept : Nat) (line : Text) : (entry kept line).map (·.1) = optionOf line := by
  rw [entry, optionOf]
  generalize line.takeWhile (· ≠ '#') = line
  rcases Text.find_cases '=' line with ⟨h, hf⟩ | ⟨a, b, rfl, h, hf⟩
  · rw [if_pos hf, if_neg h]
    rfl
  · rw [hf, if_neg (by omega), if_pos (by simp), Text.substr_front, Text.takeWhile_append h]
    rfl

/-- `day_s`. -/
theorem substr_bracketed (option : Text) : Text.substr option (Text.find '[' option + 1)
    (Text.find ']' option - Text.find '[' option - 1) = bracketed option := by
  rw [bracketed]
  rcases Text.find_cases '[' option with ⟨h, hf⟩ | ⟨a, b, rfl, h, hf⟩
  · rw [if_neg h, hf]
    rcases Text.find_cases ']' option with ⟨h', hf'⟩ | ⟨x, y, rfl, h', hf'⟩
    · rw [hf', Text.takeWhile_of_notMem h', Text.substr, if_pos (by decide)]
      rfl
    · rw [hf', Text.takeWhile_append h', show (x.length : Int) - -1 - 1 = x.length by omega]
      exact Text.substr_front _ _
  · rw [if_pos (by simp), Text.dropWhile_append h, Text.takeWhile_append h, List.tail_cons, hf]
    by_cases ha : ']' ∈ a
    · -- the brackets are in the wrong order
      rw [if_pos ha, Text.substr_back]
      obtain ⟨x, y, rfl, hx⟩ := List.eq_append_cons_of_mem ha
      rw [List.append_assoc, List.cons_append, Text.find_append hx, List.length_append,
        List.length_cons]
      omega
    · rw [if_neg ha]
      rcases Text.find_cases ']' b with ⟨h', -⟩ | ⟨x, y, rfl, h', -⟩
      · rw [Text.takeWhile_of_notMem h', Text.substr_back]
        rw [Text.find_eq_of_notMem]
        · omega
        · rw [List.mem_append, List.mem_cons, not_or, not_or]
          exact ⟨ha, by decide, h'⟩
      · have inner : ']' ∉ a ++ '[' :: x := by
          rw [List.mem_append, List.mem_cons, not_or, not_or]
          exact ⟨ha, by decide, h'⟩
        have : a ++ '[' :: (x ++ ']' :: y) = a ++ '[' :: x ++ ']' :: y := by simp
        rw [Text.takeWhile_append h', this, Text.find_append inner, List.length_append,
          List.length_cons, show ((a.length + (x.length + 1) : Nat) : Int) - a.length - 1 =
            x.length by omega]
        exact Text.substr_between a x _

theorem key_speed {option : Text} :
    Key.of option = some .speed ↔ "speed".toList.isPrefixOf option = true := by
  rw [Key.of, Key.names, List.find?_cons]
  cases h : "speed".toList.isPrefixOf option with
  | true => exact ⟨fun _ => rfl, fun _ => rfl⟩
  | false =>
      refine ⟨fun hk => ?_, fun h => by cases h⟩
      obtain ⟨n, hn, hs⟩ := Option.map_eq_some_iff.mp hk
      have others : ∀ n ∈ Key.names.tail, n.2 ≠ Key.speed := by decide
      exact absurd hs (others n (List.mem_of_find?_eq_some hn))

/-- A slice is added, or the index is not one of the table. -/
theorem pushSlice_cases (port : Bool) (day : Int) (tm : TimeSlice) (c : Instance) :
    (port = true ∨ 0 ≤ day ∧ day < 7) ∧ (∃ c', pushSlice port day tm c = .ok () c') ∨
      (port = false ∧ ¬ (0 ≤ day ∧ day < 7)) ∧ pushSlice port day tm c = .fault := by
  cases port with
  | true => exact .inl ⟨.inl rfl, _, rfl⟩
  | false =>
      by_cases h : 0 ≤ day ∧ day < 7
      · exact .inl ⟨.inr h, _, (if_neg Bool.false_ne_true).trans (dif_pos ⟨h.1, by omega⟩)⟩
      · refine .inr ⟨⟨rfl, h⟩, (if_neg Bool.false_ne_true).trans (dif_neg ?_)⟩
        omega

theorem pushSlices_ok (h : port = true ∨ 0 ≤ day ∧ day < 7) (parts : List Text) (c : Instance) :
    ∃ c', pushSlices abi port day parts c = .ok () c' := by
  induction parts generalizing c with
  | nil => exact ⟨c, rfl⟩
  | cons part rest ih =>
      rcases pushSlice_cases port day (timeSlice abi part) c with ⟨-, c', hc⟩ | ⟨⟨hp, hd⟩, -⟩
      · rw [pushSlices, hc]
        exact ih c'
      · rw [hp] at h
        exact absurd (h.resolve_left Bool.false_ne_true) hd

theorem pushSlices_fault (hp : port = false) (hd : ¬ (0 ≤ day ∧ day < 7)) {parts : List Text}
    (hne : parts ≠ []) (c : Instance) : pushSlices abi port day parts c = .fault := by
  obtain ⟨part, rest, rfl⟩ := List.exists_cons_of_ne_nil hne
  rcases pushSlice_cases port day (timeSlice abi part) c with ⟨h, -⟩ | ⟨-, hc⟩
  · rw [hp] at h
    exact absurd (h.resolve_left Bool.false_ne_true) hd
  · rw [pushSlices, hc]
    rfl

theorem parseSpeed_eq (option value : Text) (c : Instance) : parseSpeed abi option value c =
    pushSlices abi ("speed_port".toList.isPrefixOf option) (Text.atoi abi (bracketed option))
      (value.splitOn ',') c := by
  rw [parseSpeed, substr_bracketed]

/-- **One line** is unknown, and `load` throws; or it is for a day that is none, and `load` writes
outside of the table; or it is read. -/
theorem loadLine_cases (kept : Nat) (line : Text) (c : Instance) :
    Known line = false ∧ loadLine abi kept line c = .thrown c ∨
      Known line = true ∧ ¬ InTable abi line ∧ loadLine abi kept line c = .fault ∨
      Known line = true ∧ InTable abi line ∧ ∃ c', loadLine abi kept line c = .ok () c' := by
  have option := entry_option kept line
  rw [loadLine_eq, Known, InTable]
  cases he : entry kept line with
  | none =>
      rw [he] at option
      rw [← option]
      exact .inr (.inr ⟨rfl, fun _ h => (by cases h), c, rfl⟩)
  | some e =>
      rw [he] at option
      rw [← option]
      dsimp only [Option.map, Option.elim, Option.all]
      by_cases hk : Key.of e.1 = some .speed
      · have speed := key_speed.mp hk
        rw [if_pos hk, hk, parseSpeed_eq]
        right
        cases hp : "speed_port".toList.isPrefixOf e.1 with
        | true =>
            refine .inr ⟨rfl, fun o ho _ hf => ?_, pushSlices_ok (.inl rfl) _ c⟩
            obtain rfl := Option.some.inj ho
            rw [hp] at hf
            cases hf
        | false =>
            by_cases hd : 0 ≤ Text.atoi abi (bracketed e.1) ∧ Text.atoi abi (bracketed e.1) < 7
            · refine .inr ⟨rfl, fun o ho _ _ => ?_, pushSlices_ok (.inr hd) _ c⟩
              obtain rfl := Option.some.inj ho
              exact hd
            · exact .inl ⟨rfl, fun h => hd (h e.1 rfl speed hp),
                pushSlices_fault rfl hd (List.splitOn_ne_nil _ _) c⟩
      · rw [if_neg hk]
        cases hkey : Key.of e.1 with
        | none => exact .inl ⟨rfl, rfl⟩
        | some key =>
            refine .inr (.inr ⟨rfl, fun o ho hs _ => ?_, _, rfl⟩)
            obtain rfl := Option.some.inj ho
            exact absurd (key_speed.mpr hs) hk

/-- **The lines** up to the first that is unknown. -/
theorem loadLines_fault_iff (kept : Nat → Nat) (lines : List Text) (c : Instance) :
    loadLines abi kept lines c = .fault ↔ ¬ ∀ line ∈ lines.takeWhile Known, InTable abi line := by
  induction lines generalizing kept c with
  | nil => simp [loadLines]
  | cons line rest ih =>
      rw [loadLines]
      obtain ⟨hk, ho⟩ | ⟨hk, hd, ho⟩ | ⟨hk, hd, c', ho⟩ :=
        @loadLine_cases abi (kept 0) line c
      · rw [ho, List.takeWhile_cons_of_neg (by rw [hk]; exact Bool.false_ne_true)]
        simp
      · rw [ho, List.takeWhile_cons_of_pos hk]
        exact ⟨fun _ h => hd (h line List.mem_cons_self), fun _ => rfl⟩
      · rw [ho, List.takeWhile_cons_of_pos hk, Outcome.bind_ok, ih, List.forall_mem_cons,
          and_iff_right hd]

/-- `load` ends, and if it does not throw, all it has written to the table of days has an index from
0 to 6; every `substr` has a position within its string, or has thrown. -/
def Safe (abi : Abi) (kept : Nat → Nat) (file : Option Text) (c : Instance) : Prop :=
  ∃ n, (loadAt abi n kept file c).Sat (fun done _ => done = true) fun _ => True

/-- **A configuration file is safe** if and only if, up to the first line that is unknown, every
line for a day is for a day of the week. -/
theorem load_safe_iff (abi : Abi) (kept : Nat → Nat) (file : Option Text) (c : Instance) :
    Safe abi kept file c ↔
      ∀ text ∈ file, ∀ line ∈ (text.splitOn '\n').takeWhile Known, InTable abi line := by
  have outcome : Safe abi kept file c ↔ load abi kept file c ≠ .fault :=
    (loadAt_ends kept file c).exists_sat
  rw [outcome]
  cases file with
  | none => simp [load]
  | some text =>
      rw [load, ne_eq, loadLines_fault_iff, not_not]
      constructor
      · intro h text' ht
        obtain rfl := Option.some.inj ht
        exact h
      · intro h
        exact h text rfl

end

/-- An eighth day. -/
theorem eighth_day_unsafe :
    ¬ Safe .littleEndian (fun _ => 100) (some "speed[7] = 0 - 24 = 1".toList) {} := by
  intro h
  have fault : load .littleEndian (fun _ => 100) (some "speed[7] = 0 - 24 = 1".toList) {} =
      .fault := rfl
  exact (loadAt_ends _ _ _).exists_sat.mp h fault

end OldStuff.Socks
