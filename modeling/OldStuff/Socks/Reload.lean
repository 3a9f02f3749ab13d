import OldStuff.Socks.Trim

/-!
# Socks — reloading the configuration

A `SIGHUP` calls `load` on the instance that is in use.  The lists are cleared first, and what they
hold afterwards is the new file's alone.  An option with one value is written when the file has a
line for it, and is left alone otherwise (`load_get`).

What a line gives is cut at a `distance` (`Placement`), which may be another one when the same line
is read again.  Numbers and schedules do not depend on it (`slices_take`, `value_take`), and a text
does not if it is `CutAlike`.  `reload_iff` says which files are read alike after any other reading,
wherever the strings lie each time.
-/

namespace OldStuff.Socks
open OldStuff.Io
open OldStuff.Lib (Outcome)
open Text (isspace)

namespace Instance

/-- The same schedules. -/
structure SameSpeeds (c c' : Instance) : Prop where
  speed : c'.speed = c.speed
  speedPort : c'.speedPort = c.speedPort

/-- The lists and the options with one value are all there is. -/
theorem SameSpeeds.eq {c c' : Instance} (h : SameSpeeds c c')
    (ha : c'.acceptFrom = c.acceptFrom) (hs : ∀ s, c'.get s = c.get s) : c' = c := by
  obtain ⟨⟨pipeTimeout, speed, speedPort, acceptFrom⟩, port, httpPort, maxClients, listenInterface,
    httpListenInterface, logfile, runAs⟩ := c
  obtain ⟨⟨pipeTimeout', speed', speedPort', acceptFrom'⟩, port', httpPort', maxClients',
    listenInterface', httpListenInterface', logfile', runAs'⟩ := c'
  obtain ⟨rfl, rfl⟩ := h
  obtain rfl : acceptFrom' = acceptFrom := ha
  obtain rfl := Value.text.inj (hs .listenInterface)
  obtain rfl := Value.text.inj (hs .logfile)
  obtain rfl := Value.number.inj (hs .listenPort)
  obtain rfl := Value.text.inj (hs .runAs)
  obtain rfl := Value.number.inj (hs .maxClients)
  obtain rfl := Value.number.inj (hs .pipeTimeout)
  obtain rfl := Value.text.inj (hs .httpListenInterface)
  obtain rfl := Value.number.inj (hs .httpListenPort)
  rfl

end Instance

/-! ### The lines -/

/-- The option and the value of a line, before the value is cut. -/
def parted (line : Text) : Option (Text × Text) :=
  let line := line.takeWhile (· ≠ '#')
  if '=' ∈ line then some (line.takeWhile (· ≠ '='), (line.dropWhile (· ≠ '=')).tail) else none

/-- The entries of a file in their order, each with its count. -/
def cuts : (Nat → Nat) → List Text → List ((Text × Text) × Nat)
  | _, [] => []
  | kept, line :: rest =>
    ((parted line).map fun ov => (ov, kept 0)).toList ++ cuts (fun i => kept (i + 1)) rest

/-- What is left of a value. -/
def cutValue (x : (Text × Text) × Nat) : Text := (x.1.2.take x.2).dropWhile isspace

/-- The last entry of an option with one value. -/
def lastCut (s : Scalar) (kept : Nat → Nat) (lines : List Text) : Option ((Text × Text) × Nat) :=
  ((cuts kept lines).filter fun x => Key.of x.1.1 = some (.scalar s)).getLast?

/-- The entries that add to `accept from`. -/
def acceptCuts (kept : Nat → Nat) (lines : List Text) : List ((Text × Text) × Nat) :=
  (cuts kept lines).filter fun x => Key.of x.1.1 = some .acceptFrom

/-- The last line that gives an option its one value. -/
def lastOf (s : Scalar) (lines : List Text) : Option (Text × Text) :=
  ((lines.filterMap parted).filter fun ov => Key.of ov.1 = some (.scalar s)).getLast?

/-- The lines that add to `accept from`. -/
def accepting (lines : List Text) : List (Text × Text) :=
  (lines.filterMap parted).filter fun ov => Key.of ov.1 = some .acceptFrom

/-- What is left of the value is the same wherever the strings lie: all the white space behind it is
kept, since there is no more of it than the option is long; or there is nothing else. -/
def CutAlike (ov : Text × Text) : Prop :=
  (ov.2.rtakeWhile isspace).length ≤ ov.1.length + 1 ∨ ∀ c ∈ ov.2, isspace c = true

instance (ov : Text × Text) : Decidable (CutAlike ov) := inferInstanceAs (Decidable (_ ∨ _))

/-- The options that are texts. -/
def Scalar.IsText (s : Scalar) : Prop := s.zero = .text []

/-- What a reload needs to come to the same as a restart: every option with one value is set by the
new file, or not set by the old one, or set to what it is in a new process; and every text that the
new file sets is cut alike. -/
structure Reloads (abi : Abi) (f g : List Text) : Prop where
  left : ∀ s, lastOf s g ≠ none ∨
    ∀ ov ∈ lastOf s f, s.value abi (ov.2.dropWhile isspace) = s.zero
  text : ∀ s : Scalar, s.IsText → ∀ ov ∈ lastOf s g, CutAlike ov
  accept : ∀ ov ∈ accepting g, CutAlike ov

section
variable {abi : Abi} {kept kept' : Nat → Nat} {k k' w : Nat} {c c' r : Instance} {s : Scalar}
  {line option value : Text} {ov : Text × Text} {lines : List Text}

theorem parted_iff : parted line = some (option, value) ↔
    '=' ∉ option ∧ line.takeWhile (· ≠ '#') = option ++ '=' :: value := by
  unfold parted
  dsimp only
  generalize line.takeWhile (· ≠ '#') = body
  constructor
  · intro h
    obtain ⟨hm, h⟩ := (Option.ite_none_right_eq_some).mp h
    obtain ⟨a, b, rfl, ha⟩ := List.eq_append_cons_of_mem hm
    rw [Text.takeWhile_append ha, Text.dropWhile_append ha] at h
    obtain ⟨rfl, rfl⟩ := Prod.mk.inj (Option.some.inj h)
    exact ⟨ha, rfl⟩
  · rintro ⟨ha, rfl⟩
    rw [if_pos (List.mem_append_right _ List.mem_cons_self), Text.takeWhile_append ha,
      Text.dropWhile_append ha]
    rfl

theorem entry_parted (k : Nat) (line : Text) :
    entry k line = (parted line).map fun ov => (ov.1, (ov.2.take k).dropWhile isspace) := by
  unfold entry parted
  dsimp only
  generalize line.takeWhile (· ≠ '#') = body
  rcases Text.find_cases '=' body with ⟨hn, he⟩ | ⟨a, b, rfl, ha, he⟩
  · rw [if_pos he, if_neg hn]
    rfl
  · rw [he, if_neg (by omega), if_pos (List.mem_append_right _ List.mem_cons_self),
      Text.takeWhile_append ha, Text.dropWhile_append ha, Text.substr_front,
      Text.substr_back _ _ (by decide)]
    rfl

theorem PlacedLines.tail (h : PlacedLines w kept (line :: lines)) :
    PlacedLines w (fun i => kept (i + 1)) lines := fun i => h (i + 1)

/-- The count of a line, for its option and its value. -/
def Counts (k : Nat) (ov : Text × Text) : Prop :=
  (ov.2.rdropWhile isspace).length + ov.1.length < k

theorem PlacedLines.head (h : PlacedLines w kept (line :: lines)) (ho : parted line = some ov) :
    Counts (kept 0) ov := by
  obtain ⟨he, hl⟩ := parted_iff.mp ho
  obtain ⟨p, hp⟩ := h 0 line ov.1 ov.2 rfl he hl
  rw [hp]
  exact p.length_add_lt_distance

/-- **Such a value** is kept, whatever the count. -/
theorem CutAlike.take_eq (h : CutAlike ov) (hk : Counts k ov) :
    (ov.2.take k).dropWhile isspace = ov.2.dropWhile isspace := by
  rcases h with short | white
  · have length : ov.2.length = (ov.2.rdropWhile isspace).length +
        (ov.2.rtakeWhile isspace).length := by
      rw [← List.length_append, List.rdropWhile_append_rtakeWhile]
    rw [List.take_of_length_le]
    unfold Counts at hk
    omega
  · rw [Text.dropWhile_isspace_eq_nil.mpr white,
      Text.dropWhile_isspace_eq_nil.mpr fun c hc => white c (List.mem_of_mem_take hc)]

/-- **Any other value** can lose some of what is behind it. -/
theorem cutAlike_of_eq
    (h : (ov.2.take ((ov.2.rdropWhile isspace).length + ov.1.length + 1)).dropWhile isspace =
      ov.2.dropWhile isspace) : CutAlike ov := by
  by_cases none : ov.2.rdropWhile isspace = []
  · exact .inr (List.rdropWhile_eq_nil_iff.mp none)
  · left
    have full : ((ov.2.rdropWhile isspace).dropWhile isspace).isEmpty = false :=
      List.isEmpty_eq_false_iff.mpr (dropWhile_ne_nil none)
    have behind : ov.2.rdropWhile isspace ++ ov.2.rtakeWhile isspace = ov.2 :=
      List.rdropWhile_append_rtakeWhile
    have whole : ov.2.dropWhile isspace =
        (ov.2.rdropWhile isspace).dropWhile isspace ++ ov.2.rtakeWhile isspace := by
      conv_lhs => rw [← behind]
      rw [List.dropWhile_append, full, if_neg Bool.false_ne_true]
    rw [take_kept (by omega), List.dropWhile_append, full, if_neg Bool.false_ne_true, whole] at h
    have same := congrArg List.length (List.append_cancel_left h)
    rw [List.length_take] at same
    omega

/-- White space behind the last character that is none. -/
theorem exists_white (hk : Counts k ov) : ∃ ws : Text, (∀ c ∈ ws, isspace c = true) ∧
    (ov.2.take k).dropWhile isspace = (ov.2.rdropWhile isspace).dropWhile isspace ++ ws := by
  have white : ∀ c ∈ ov.2.rtakeWhile isspace, isspace c = true := fun c =>
    List.mem_rtakeWhile_imp
  rw [take_kept (Nat.lt_of_le_of_lt (Nat.le_add_right _ _) hk), List.dropWhile_append]
  split
  · next empty =>
      refine ⟨[], List.forall_mem_nil _, ?_⟩
      rw [List.isEmpty_iff.mp empty, Text.dropWhile_isspace_eq_nil.mpr]
      · rfl
      · exact fun c hc => white c (List.mem_of_mem_take hc)
  · exact ⟨_, fun c hc => white c (List.mem_of_mem_take hc), rfl⟩

/-- A value that is read by its digits. -/
theorem value_take (hs : ¬ s.IsText) (hk : Counts k ov) (hk' : Counts k' ov) :
    s.value abi ((ov.2.take k).dropWhile isspace) =
      s.value abi ((ov.2.take k').dropWhile isspace) := by
  obtain ⟨ws, hw, he⟩ := exists_white hk
  obtain ⟨ws', hw', he'⟩ := exists_white hk'
  rw [he, he']
  cases s with
  | listenInterface | logfile | runAs | httpListenInterface => exact absurd rfl hs
  | listenPort | httpListenPort =>
      exact congrArg Value.number
        ((Text.atol_append_white hw _).trans (Text.atol_append_white hw' _).symm)
  | maxClients | pipeTimeout =>
      exact congrArg Value.number
        ((Text.atoi_append_white hw _).trans (Text.atoi_append_white hw' _).symm)

/-- It is as without any count. -/
theorem value_whole (hs : ¬ s.IsText) (hk : Counts k ov) :
    s.value abi ((ov.2.take k).dropWhile isspace) = s.value abi (ov.2.dropWhile isspace) := by
  have all : Counts (ov.2.length + ov.1.length + 1) ov := by
    have := length_rdropWhile_le ov.2
    unfold Counts
    omega
  have whole : ov.2.take (ov.2.length + ov.1.length + 1) = ov.2 :=
    List.take_of_length_le (by omega)
  exact (value_take hs hk all).trans (by rw [whole])

theorem Scalar.IsText.value_eq (hs : s.IsText) (t : Text) : s.value abi t = .text t := by
  cases s with
  | listenInterface | logfile | runAs | httpListenInterface => rfl
  | listenPort | httpListenPort | maxClients | pipeTimeout => exact Value.noConfusion hs

/-- Nothing is left of a text just if it is white. -/
theorem value_zero_iff (hk : Counts k ov) :
    s.value abi ((ov.2.take k).dropWhile isspace) = s.zero ↔
      s.value abi (ov.2.dropWhile isspace) = s.zero := by
  by_cases hs : s.IsText
  · have zero : s.zero = .text [] := hs
    rw [hs.value_eq, hs.value_eq, zero, Value.text.injEq, Value.text.injEq]
    constructor
    · intro h
      obtain ⟨ws, -, he⟩ := exists_white hk
      have front := (List.append_eq_nil_iff.mp (he.symm.trans h)).1
      by_contra full
      refine dropWhile_ne_nil (fun none => full ?_) front
      exact Text.dropWhile_isspace_eq_nil.mpr (List.rdropWhile_eq_nil_iff.mp none)
    · intro h
      have white := Text.dropWhile_isspace_eq_nil.mp h
      exact Text.dropWhile_isspace_eq_nil.mpr fun c hc => white c (List.mem_of_mem_take hc)
  · rw [value_whole hs hk]

/-- The slices of a value, whatever the count. -/
theorem slices_take (hk : Counts k ov) (hk' : Counts k' ov) :
    (((ov.2.take k).dropWhile isspace).splitOn ',').map (timeSlice abi) =
      (((ov.2.take k').dropWhile isspace).splitOn ',').map (timeSlice abi) := by
  obtain ⟨ws, hw, he⟩ := exists_white hk
  obtain ⟨ws', hw', he'⟩ := exists_white hk'
  rw [he, he', Text.slices_append_white hw, Text.slices_append_white hw']

/-! ### The entries of a file -/

theorem cuts_fst (kept : Nat → Nat) (lines : List Text) :
    (cuts kept lines).map (·.1) = lines.filterMap parted := by
  induction lines generalizing kept with
  | nil => rfl
  | cons line rest ih =>
      rw [cuts, List.map_append, ih, List.filterMap_cons]
      cases parted line <;> rfl

theorem PlacedLines.counts (h : PlacedLines w kept lines) :
    ∀ x ∈ cuts kept lines, Counts x.2 x.1 := by
  induction lines generalizing kept with
  | nil => exact fun x hx => absurd hx List.not_mem_nil
  | cons line rest ih =>
      intro x hx
      rcases List.mem_append.mp hx with hx | hx
      · obtain ⟨ov, ho, rfl⟩ := Option.map_eq_some_iff.mp (Option.mem_toList.mp hx)
        exact h.head ho
      · exact ih h.tail x hx

theorem lastCut_fst (s : Scalar) (kept : Nat → Nat) (lines : List Text) :
    (lastCut s kept lines).map (·.1) = lastOf s lines := by
  rw [lastCut, lastOf, ← cuts_fst kept lines, List.filter_map, List.getLast?_map]
  rfl

theorem acceptCuts_fst (kept : Nat → Nat) (lines : List Text) :
    (acceptCuts kept lines).map (·.1) = accepting lines := by
  rw [acceptCuts, accepting, ← cuts_fst kept lines, List.filter_map]
  rfl

/-! ### The schedules -/

open Instance (SameSpeeds)

theorem Instance.SameSpeeds.set (h : SameSpeeds c c') (s : Scalar) (t t' : Text) :
    SameSpeeds (c.set abi s t) (c'.set abi s t') := by
  cases s <;> exact ⟨h.speed, h.speedPort⟩

/-- Slices that are read as the same. -/
theorem pushSlices_same {port : Bool} {day : Int} {parts parts' : List Text} (h : SameSpeeds c c')
    (hp : parts.map (timeSlice abi) = parts'.map (timeSlice abi)) :
    (pushSlices abi port day parts c).Same SameSpeeds (pushSlices abi port day parts' c') := by
  induction parts generalizing parts' c c' with
  | nil =>
      obtain rfl := List.map_eq_nil_iff.mp hp.symm
      exact .ok () h
  | cons part rest ih =>
      obtain ⟨part', rest', rfl, slice, hp⟩ := List.map_eq_cons_iff.mp hp.symm
      refine Outcome.Same.bind ?_ fun _ _ _ _ h => ih h hp.symm
      unfold pushSlice
      rw [h.speed, h.speedPort, slice]
      split
      · exact .ok () ⟨rfl, rfl⟩
      · split
        · exact .ok () ⟨rfl, rfl⟩
        · exact .fault

/-- One line, read twice. -/
theorem loadLine_same (h : SameSpeeds c c') (hk : ∀ ov ∈ parted line, Counts k ov)
    (hk' : ∀ ov ∈ parted line, Counts k' ov) :
    (loadLine abi k line c).Same SameSpeeds (loadLine abi k' line c') := by
  unfold loadLine
  rw [entry_parted, entry_parted]
  cases ho : parted line with
  | none => exact .ok () h
  | some ov =>
      dsimp only [Option.map_some]
      cases hkey : Key.of ov.1 with
      | none => exact .thrown h
      | some key =>
          cases key with
          | speed => exact pushSlices_same h (slices_take (hk ov ho) (hk' ov ho))
          | acceptFrom => exact .ok () ⟨h.speed, h.speedPort⟩
          | scalar s => exact .ok () (h.set s _ _)

/-- **The schedules** come to the same in two readings, and both readings end alike. -/
theorem loadLines_same (h : SameSpeeds c c') (hp : PlacedLines w kept lines)
    (hp' : PlacedLines w kept' lines) :
    (loadLines abi kept lines c).Same SameSpeeds (loadLines abi kept' lines c') := by
  induction lines generalizing kept kept' c c' with
  | nil => exact .ok () h
  | cons line rest ih =>
      exact (loadLine_same h (fun ov => hp.head) fun ov => hp'.head).bind
        fun _ _ _ _ h => ih h hp.tail hp'.tail

/-! ### The networks, and the options with one value -/

theorem pushSlices_within {P : Instance → Prop} {port : Bool} {day : Int} {parts : List Text}
    (hc : P c) (step : ∀ tm c, P c → (pushSlice port day tm c).Within P) :
    (pushSlices abi port day parts c).Within P := by
  induction parts generalizing c with
  | nil => exact hc
  | cons part rest ih => exact (step _ c hc).bind fun _ _ h => ih h

theorem pushSlices_keeps {port : Bool} {day : Int} {parts : List Text} :
    (pushSlices abi port day parts c).Within fun r =>
      r.acceptFrom = c.acceptFrom ∧ ∀ s, r.get s = c.get s := by
  refine pushSlices_within ⟨rfl, fun _ => rfl⟩ fun tm c' h => ?_
  unfold pushSlice
  split
  · exact ⟨h.1, fun s => (h.2 s).symm ▸ by cases s <;> rfl⟩
  · split
    · exact ⟨h.1, fun s => (h.2 s).symm ▸ by cases s <;> rfl⟩
    · trivial

/-- **One line**: what it adds to the networks, and what it gives an option. -/
theorem loadLine_ok (hr : loadLine abi k line c = .ok () r) :
    r.acceptFrom = c.acceptFrom ++ (acceptCuts (fun _ => k) [line]).map
        (fun x => String.ofList (cutValue x)) ∧
      ∀ s, r.get s = ((lastCut s (fun _ => k) [line]).map fun x => s.value abi (cutValue x)).getD
        (c.get s) := by
  unfold loadLine at hr
  rw [entry_parted] at hr
  cases ho : parted line with
  | none =>
      rw [ho] at hr
      obtain rfl := (Outcome.ok.inj hr).2
      simp [acceptCuts, lastCut, cuts, ho]
  | some ov =>
      rw [ho] at hr
      dsimp only [Option.map_some] at hr
      cases hkey : Key.of ov.1 with
      | none =>
          rw [hkey] at hr
          cases hr
      | some key =>
          rw [hkey] at hr
          cases key with
          | speed =>
              obtain ⟨same, get⟩ := pushSlices_keeps.of_ok hr
              simp [acceptCuts, lastCut, cuts, ho, hkey, same, get]
          | acceptFrom =>
              obtain rfl := (Outcome.ok.inj hr).2
              refine ⟨by simp [acceptCuts, cuts, ho, hkey, cutValue], fun s => ?_⟩
              cases s <;> simp [lastCut, cuts, ho, hkey, Instance.get]
          | scalar t =>
              obtain rfl := (Outcome.ok.inj hr).2
              refine ⟨?_, fun s => ?_⟩
              · cases t <;> simp [acceptCuts, cuts, ho, hkey, Instance.set]
              · rw [Instance.get_set]
                by_cases hs : s = t
                · subst hs
                  simp [lastCut, cuts, ho, hkey, cutValue]
                · have apart : ¬ (t = s) := fun h => hs h.symm
                  simp [lastCut, cuts, ho, hkey, hs, apart]

theorem cuts_cons (kept : Nat → Nat) (line : Text) (lines : List Text) :
    cuts kept (line :: lines) =
      cuts (fun _ => kept 0) [line] ++ cuts (fun i => kept (i + 1)) lines := by
  rw [cuts, cuts, cuts, List.append_nil]

/-- **A file**: what it adds to the networks, and what it gives an option. -/
theorem loadLines_ok (hr : loadLines abi kept lines c = .ok () r) :
    r.acceptFrom = c.acceptFrom ++ (acceptCuts kept lines).map
        (fun x => String.ofList (cutValue x)) ∧
      ∀ s, r.get s = ((lastCut s kept lines).map fun x => s.value abi (cutValue x)).getD
        (c.get s) := by
  induction lines generalizing kept c with
  | nil =>
      obtain rfl := (Outcome.ok.inj hr).2
      exact ⟨(List.append_nil _).symm, fun s => rfl⟩
  | cons line rest ih =>
      obtain ⟨_, c₁, h₁, hr⟩ := Outcome.bind_eq_ok.mp hr
      obtain ⟨accept, get⟩ := loadLine_ok h₁
      obtain ⟨accept', get'⟩ := ih hr
      constructor
      · rw [accept', accept, acceptCuts, acceptCuts, acceptCuts, cuts_cons kept, List.filter_append,
          List.map_append, List.append_assoc]
      · intro s
        rw [get' s, get s, lastCut, lastCut, lastCut, cuts_cons kept, List.filter_append,
          List.getLast?_append]
        cases ((cuts (fun i => kept (i + 1)) rest).filter fun x =>
          decide (Key.of x.1.1 = some (.scalar s))).getLast? <;> rfl

/-! ### Two readings -/

variable {old new fresh : Nat → Nat} {f g : Text} {a z : Instance}

theorem load_same (hp : PlacedLines w kept (f.splitOn '\n'))
    (hp' : PlacedLines w kept' (f.splitOn '\n')) :
    (load abi kept (some f) c).Same SameSpeeds (load abi kept' (some f) c') :=
  loadLines_same ⟨rfl, rfl⟩ hp hp'

theorem load_acceptFrom (hr : load abi kept (some f) c = .ok () r) :
    r.acceptFrom =
      (acceptCuts kept (f.splitOn '\n')).map fun x => String.ofList (cutValue x) :=
  (loadLines_ok hr).1

/-- What a file leaves of an option with one value. -/
theorem load_get (hr : load abi kept (some f) c = .ok () r) (s : Scalar) :
    r.get s =
      ((lastCut s kept (f.splitOn '\n')).map fun x => s.value abi (cutValue x)).getD (c.get s) := by
  rw [(loadLines_ok hr).2 s]
  cases s <;> rfl

theorem lastCut_counts (hp : PlacedLines w kept lines) {x : (Text × Text) × Nat}
    (hx : x ∈ lastCut s kept lines) : Counts x.2 x.1 :=
  hp.counts x (List.mem_filter.mp (List.mem_of_getLast? hx)).1

/-- The networks, where they are cut alike. -/
theorem acceptCuts_alike (hp : PlacedLines w kept lines)
    (ha : ∀ ov ∈ accepting lines, CutAlike ov) :
    (acceptCuts kept lines).map (fun x => String.ofList (cutValue x)) =
      (accepting lines).map fun ov => String.ofList (ov.2.dropWhile isspace) := by
  rw [← acceptCuts_fst kept lines, List.map_map]
  refine List.map_congr_left fun x hx => congrArg String.ofList ?_
  have alike := ha x.1 (acceptCuts_fst kept lines ▸ List.mem_map_of_mem hx)
  exact alike.take_eq (hp.counts x (List.mem_filter.mp hx).1)

/-- An option with one value, where it is cut alike if it is a text. -/
theorem lastCut_alike (hp : PlacedLines w kept lines)
    (ht : s.IsText → ∀ ov ∈ lastOf s lines, CutAlike ov) :
    (lastCut s kept lines).map (fun x => s.value abi (cutValue x)) =
      (lastOf s lines).map fun ov => s.value abi (ov.2.dropWhile isspace) := by
  rw [← lastCut_fst s kept lines, Option.map_map]
  refine Option.map_congr fun x hx => ?_
  have count := lastCut_counts hp hx
  by_cases text : s.IsText
  · have alike := ht text x.1 (by rw [← lastCut_fst s kept lines, hx]; rfl)
    exact congrArg (s.value abi) (alike.take_eq count)
  · exact value_whole text count

/-- **A reload comes to the same as a restart** if the files are such. -/
theorem Reloads.load_eq (h : Reloads abi (f.splitOn '\n') (g.splitOn '\n'))
    (ho : PlacedLines w old (f.splitOn '\n')) (hn : PlacedLines w new (g.splitOn '\n'))
    (hf : PlacedLines w fresh (g.splitOn '\n')) (ha : load abi old (some f) {} = .ok () a)
    (hz : load abi fresh (some g) {} = .ok () z) : load abi new (some g) a = .ok () z := by
  have same : (load abi fresh (some g) {}).Same SameSpeeds (load abi new (some g) a) :=
    load_same hf hn
  rw [hz] at same
  generalize hb : load abi new (some g) a = o at same
  cases same with
  | @ok _ _ b speeds =>
      refine congrArg _ (speeds.eq ?_ fun s => ?_)
      · rw [load_acceptFrom hb, load_acceptFrom hz, acceptCuts_alike hn h.accept,
          acceptCuts_alike hf h.accept]
      · rw [load_get hb, load_get hz, lastCut_alike hn (h.text s), lastCut_alike hf (h.text s)]
        cases hl : lastOf s (g.splitOn '\n') with
        | some ov => rfl
        | none =>
            -- the old file gives the option its value in a new process, if any
            have zero := (h.left s).resolve_left fun hne => hne hl
            rw [Option.map_none, Option.getD_none, Option.getD_none, Instance.get_zero, load_get ha,
              Instance.get_zero]
            cases hx : lastCut s old (f.splitOn '\n') with
            | none => rfl
            | some x =>
                have last : lastOf s (f.splitOn '\n') = some x.1 := by
                  rw [← lastCut_fst s old, hx]
                  rfl
                exact (value_zero_iff (lastCut_counts ho hx)).mpr (zero x.1 last)

/-! ### The tightest count and a wide one -/

/-- The counts of a file, from one for each entry. -/
def countsOf (count : Text × Text → Nat) (lines : List Text) (i : Nat) : Nat :=
  ((parted (lines.getD i [])).map count).getD 0

/-- The value lies right behind the option. -/
def tight (ov : Text × Text) : Nat := (ov.2.rdropWhile isspace).length + ov.1.length + 1

/-- The option lies right behind the value. -/
def wide (w : Nat) (ov : Text × Text) : Nat :=
  2 ^ w + (ov.2.rdropWhile isspace).length - (ov.2.length + 1)

/-- No line is as long as half of the addresses, as no `std::string` is. -/
def Fits (w : Nat) (lines : List Text) : Prop := ∀ line ∈ lines, 2 * line.length < 2 ^ w

instance (w : Nat) (lines : List Text) : Decidable (Fits w lines) :=
  inferInstanceAs (Decidable (∀ line ∈ lines, 2 * line.length < 2 ^ w))

theorem length_parted (h : parted line = some (option, value)) :
    option.length + 1 + value.length ≤ line.length := by
  have front := (List.takeWhile_prefix (p := fun c => decide (c ≠ '#')) (l := line)).length_le
  rw [(parted_iff.mp h).2, List.length_append, List.length_cons] at front
  omega

theorem placed_countsOf {count : Text × Text → Nat}
    (h : ∀ line ∈ lines, ∀ option value, parted line = some (option, value) →
      ∃ p : Placement w option value, p.distance = count (option, value)) :
    PlacedLines w (countsOf count lines) lines := by
  intro i line option value hi he hl
  have entry : parted line = some (option, value) := parted_iff.mpr ⟨he, hl⟩
  obtain ⟨p, hp⟩ := h line (List.mem_of_getElem? hi) option value entry
  refine ⟨p, ?_⟩
  rw [countsOf, List.getD_eq_getElem?_getD, hi, Option.getD_some, entry, hp]
  rfl

theorem Fits.placed_tight (h : Fits w lines) : PlacedLines w (countsOf tight lines) lines :=
  placed_countsOf fun line hl _ _ entry => Placement.exists_behind <| by
    have := h line hl
    have := length_parted entry
    omega

theorem Fits.placed_wide (h : Fits w lines) : PlacedLines w (countsOf (wide w) lines) lines :=
  placed_countsOf fun line hl _ _ entry => Placement.exists_front <| by
    have := h line hl
    have := length_parted entry
    omega

theorem cuts_countsOf (count : Text × Text → Nat) (lines : List Text) :
    cuts (countsOf count lines) lines = (lines.filterMap parted).map fun ov => (ov, count ov) := by
  induction lines with
  | nil => rfl
  | cons line rest ih =>
      have later : (fun i => countsOf count (line :: rest) (i + 1)) = countsOf count rest := rfl
      rw [cuts, later, ih, List.filterMap_cons]
      cases ho : parted line with
      | none => rfl
      | some ov =>
          have first : countsOf count (line :: rest) 0 = count ov := by
            rw [countsOf, List.getD_cons_zero, ho]
            rfl
          rw [first]
          rfl

theorem acceptCuts_countsOf (count : Text × Text → Nat) (lines : List Text) :
    acceptCuts (countsOf count lines) lines = (accepting lines).map fun ov => (ov, count ov) := by
  rw [acceptCuts, cuts_countsOf, List.filter_map]
  rfl

theorem lastCut_countsOf (count : Text × Text → Nat) (s : Scalar) (lines : List Text) :
    lastCut s (countsOf count lines) lines =
      (lastOf s lines).map fun ov => (ov, count ov) := by
  rw [lastCut, cuts_countsOf, List.filter_map, List.getLast?_map]
  rfl

/-- All of a value is kept by the wide count. -/
theorem take_wide (h : Fits w lines) (ho : ov ∈ lines.filterMap parted) :
    ov.2.take (wide w ov) = ov.2 := by
  obtain ⟨line, hl, entry⟩ := List.mem_filterMap.mp ho
  have := h line hl
  have : ov.1.length + 1 + ov.2.length ≤ line.length := length_parted entry
  refine List.take_of_length_le ?_
  unfold wide
  omega

/-! ### Which files are read alike -/

/-- `load` goes to the end of the file, wherever the strings lie. -/
def Loadable (abi : Abi) (w : Nat) (f : Text) : Prop :=
  ∃ kept c, PlacedLines w kept (f.splitOn '\n') ∧ load abi kept (some f) {} = .ok () c

theorem Loadable.load_ok (h : Loadable abi w f) (hp : PlacedLines w kept (f.splitOn '\n')) :
    ∃ r, load abi kept (some f) {} = .ok () r := by
  obtain ⟨kept₀, c₀, hp₀, h₀⟩ := h
  have same : (load abi kept₀ (some f) {}).Same SameSpeeds (load abi kept (some f) {}) :=
    load_same hp₀ hp
  rw [h₀] at same
  generalize load abi kept (some f) {} = o at same ⊢
  cases same with
  | @ok _ _ r _ => exact ⟨r, rfl⟩

/-- The new file is read with the tightest counts in the reload, and with wide ones in the
restart. -/
theorem reloads_of_load_eq (hg : Fits w (g.splitOn '\n'))
    (ha : load abi (countsOf tight (f.splitOn '\n')) (some f) {} = .ok () a)
    (hz : load abi (countsOf (wide w) (g.splitOn '\n')) (some g) {} = .ok () z)
    (hr : load abi (countsOf tight (g.splitOn '\n')) (some g) a = .ok () z) :
    Reloads abi (f.splitOn '\n') (g.splitOn '\n') where
  left s := by
    cases hl : lastOf s (g.splitOn '\n') with
    | some ov => exact .inl (Option.some_ne_none ov)
    | none =>
        right
        intro ov hov
        have reload := (load_get hr s).symm.trans (load_get hz s)
        rw [lastCut_countsOf, lastCut_countsOf, hl, Instance.get_zero] at reload
        have before := load_get ha s
        rw [lastCut_countsOf, hov] at before
        have count : Counts (tight ov) ov := Nat.lt_succ_self _
        exact (value_zero_iff count).mp (before.symm.trans reload)
  text s hs ov hov := by
    have mem : ov ∈ (g.splitOn '\n').filterMap parted :=
      (List.mem_filter.mp (List.mem_of_getLast? hov)).1
    have reload := (load_get hr s).symm.trans (load_get hz s)
    rw [lastCut_countsOf, lastCut_countsOf, hov] at reload
    have cut : s.value abi ((ov.2.take (tight ov)).dropWhile isspace) =
        s.value abi ((ov.2.take (wide w ov)).dropWhile isspace) := reload
    rw [take_wide hg mem, hs.value_eq, hs.value_eq] at cut
    exact cutAlike_of_eq (Value.text.inj cut)
  accept ov hov := by
    have mem : ov ∈ (g.splitOn '\n').filterMap parted := (List.mem_filter.mp hov).1
    have reload := (load_acceptFrom hr).symm.trans (load_acceptFrom hz)
    rw [acceptCuts_countsOf, acceptCuts_countsOf, List.map_map, List.map_map] at reload
    have cut : (ov.2.take (tight ov)).dropWhile isspace =
        (ov.2.take (wide w ov)).dropWhile isspace :=
      String.ofList_injective (List.map_inj_left.mp reload ov hov)
    rw [take_wide hg mem] at cut
    exact cutAlike_of_eq cut

/-- **A reload and a restart** come to the same, wherever the strings lie in each reading, exactly
if every option with one value is set by the new file, or not set by the old one, or set to what it
is in a new process, and the texts of the new file are cut alike. -/
theorem reload_iff (hf : Loadable abi w f) (hg : Loadable abi w g)
    (fits_f : Fits w (f.splitOn '\n')) (fits_g : Fits w (g.splitOn '\n')) :
    (∀ old new fresh a z, PlacedLines w old (f.splitOn '\n') → PlacedLines w new (g.splitOn '\n') →
        PlacedLines w fresh (g.splitOn '\n') → load abi old (some f) {} = .ok () a →
          load abi fresh (some g) {} = .ok () z → load abi new (some g) a = .ok () z) ↔
      Reloads abi (f.splitOn '\n') (g.splitOn '\n') := by
  constructor
  · intro h
    obtain ⟨a, ha⟩ := hf.load_ok fits_f.placed_tight
    obtain ⟨z, hz⟩ := hg.load_ok fits_g.placed_wide
    exact reloads_of_load_eq fits_g ha hz
      (h _ _ _ a z fits_f.placed_tight fits_g.placed_tight fits_g.placed_wide ha hz)
  · intro h old new fresh a z ho hn hp ha hz
    exact h.load_eq ho hn hp ha hz

end

namespace Sample

/-- Nothing is cut. -/
def whole : Nat → Nat := fun _ => 100

def timeoutConf : Text := "pipe timeout = 180\n".toList

def speedConf : Text :=
  "pipe timeout = 60\nrun as = nobody  # not root\nspeed[0] = 0 - 24 = 1500 # sunday\n".toList

def portConf : Text := "listen port = 1080\n".toList

theorem loadable {f : Text} (h : Fits 32 (f.splitOn '\n'))
    (hr : ∃ c, load .littleEndian (countsOf tight (f.splitOn '\n')) (some f) {} = .ok () c) :
    Loadable .littleEndian 32 f :=
  let ⟨c, hc⟩ := hr
  ⟨_, c, h.placed_tight, hc⟩

theorem timeoutConf_fits : Fits 32 (timeoutConf.splitOn '\n') := by decide +kernel

theorem speedConf_fits : Fits 32 (speedConf.splitOn '\n') := by decide +kernel

theorem portConf_fits : Fits 32 (portConf.splitOn '\n') := by decide +kernel

end Sample

/-- In the reload the strings lie as close as they can, in the restart far from each other. -/
theorem reload_sample :
    ∃ a z, load .littleEndian (countsOf tight (Sample.timeoutConf.splitOn '\n'))
        (some Sample.timeoutConf) {} = .ok () a ∧
      load .littleEndian (countsOf (wide 32) (Sample.speedConf.splitOn '\n'))
        (some Sample.speedConf) {} = .ok () z ∧
      load .littleEndian (countsOf tight (Sample.speedConf.splitOn '\n'))
        (some Sample.speedConf) a = .ok () z := by
  have old := Sample.loadable Sample.timeoutConf_fits ⟨_, rfl⟩
  have new := Sample.loadable Sample.speedConf_fits ⟨_, rfl⟩
  have alike : Reloads .littleEndian (Sample.timeoutConf.splitOn '\n')
      (Sample.speedConf.splitOn '\n') := by
    have before : (Sample.timeoutConf.splitOn '\n').filterMap parted =
        [("pipe timeout ".toList, " 180".toList)] := by decide +kernel
    have after : (Sample.speedConf.splitOn '\n').filterMap parted =
        [("pipe timeout ".toList, " 60".toList), ("run as ".toList, " nobody  ".toList),
          ("speed[0] ".toList, " 0 - 24 = 1500 ".toList)] := by decide +kernel
    refine ⟨fun s => ?_, fun s _ => ?_, ?_⟩
    · rw [lastOf, lastOf, before, after]
      cases s <;> decide +kernel
    · rw [lastOf, after]
      cases s <;> decide +kernel
    · rw [accepting, after]
      decide +kernel
  obtain ⟨a, ha⟩ := old.load_ok Sample.timeoutConf_fits.placed_tight
  obtain ⟨z, hz⟩ := new.load_ok Sample.speedConf_fits.placed_wide
  have same := (reload_iff old new Sample.timeoutConf_fits Sample.speedConf_fits).mpr alike
  exact ⟨a, z, ha, hz, same _ _ _ a z Sample.timeoutConf_fits.placed_tight
    Sample.speedConf_fits.placed_tight Sample.speedConf_fits.placed_wide ha hz⟩

/-- The new file says nothing of the timeout. -/
theorem reload_drifts :
    ∃ old new a z b, PlacedLines 32 old (Sample.timeoutConf.splitOn '\n') ∧
      PlacedLines 32 new (Sample.portConf.splitOn '\n') ∧
      load .littleEndian old (some Sample.timeoutConf) {} = .ok () a ∧
      load .littleEndian new (some Sample.portConf) {} = .ok () z ∧
      load .littleEndian new (some Sample.portConf) a = .ok () b ∧ b ≠ z := by
  refine ⟨_, _, _, _, _, Sample.timeoutConf_fits.placed_tight, Sample.portConf_fits.placed_tight,
    rfl, rfl, rfl, fun h => ?_⟩
  have := congrArg (·.pipeTimeout) h
  exact absurd this (by decide)

end OldStuff.Socks
