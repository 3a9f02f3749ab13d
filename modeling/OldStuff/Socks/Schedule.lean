import OldStuff.Socks.Positions

/-!
# Socks — schedules

A schedule is written as in `socks.conf`: slices with commas between them, each of them two times
and a speed.  A time is an hour, with its minute or without; a number is a decimal numeral with
blanks around it.  `SliceText` is a slice that is written like this, and `slice` what it says.

`parse_speed` reads it back (`schedule_read_back`), in as many rounds as there are slices, and
every slice can be written (`exists_sliceText`).  The numerals have no sign: `parse_speed` would
take the first `-` for the one between the two times.
-/

namespace OldStuff.Socks
open OldStuff.Io
open OldStuff.Lib (Outcome)

/-! ### Numerals -/

/-- A decimal numeral, and the blanks around it. -/
structure Numeral where
  before : Text
  digits : Text
  after : Text
  blank_before : ∀ c ∈ before, Text.isspace c = true
  blank_after : ∀ c ∈ after, Text.isspace c = true
  digit : ∀ c ∈ digits, Text.isdigit c = true
  some_digit : digits ≠ []

namespace Numeral

def text (n : Numeral) : Text := n.before ++ n.digits ++ n.after

def value (n : Numeral) : Nat := Nat.ofDigitChars 10 n.digits 0

/-- What stands between numerals. -/
def marks : List Char := ['+', '-', '.', ',', '=', '[', ']']

/-- They are neither blanks nor digits. -/
theorem other_of_mark {c : Char} (hc : c ∈ marks) :
    Text.isspace c = false ∧ Text.isdigit c = false := by
  have all : marks.all (fun c => !Text.isspace c && !Text.isdigit c) = true := by decide
  simpa using List.all_eq_true.mp all c hc

theorem mark_notMem {c : Char} (hc : c ∈ marks) (n : Numeral) : c ∉ n.text := by
  intro h
  rw [text, List.append_assoc, List.mem_append, List.mem_append] at h
  rcases h with h | h | h
  · exact Bool.false_ne_true ((other_of_mark hc).1.symm.trans (n.blank_before c h))
  · exact Bool.false_ne_true ((other_of_mark hc).2.symm.trans (n.digit c h))
  · exact Bool.false_ne_true ((other_of_mark hc).1.symm.trans (n.blank_after c h))

theorem isdigit_of_isspace {c : Char} (h : Text.isspace c = true) : Text.isdigit c = false := by
  have all : [' ', '\t', '\n', '\x0b', '\x0c', '\r'].all (fun c => !Text.isdigit c) = true := by
    decide
  simpa using List.all_eq_true.mp all c (of_decide_eq_true h)

/-- The first blank ends the numeral. -/
theorem takeWhile_isdigit (n : Numeral) :
    (n.digits ++ n.after).takeWhile Text.isdigit = n.digits := by
  rw [List.takeWhile_append_of_pos n.digit]
  cases h : n.after with
  | nil => rw [List.takeWhile_nil, List.append_nil]
  | cons c rest =>
      have blank : Text.isspace c = true := n.blank_after c (by rw [h]; exact List.mem_cons_self)
      have stop : ¬ Text.isdigit c = true := by
        rw [isdigit_of_isspace blank]
        exact Bool.false_ne_true
      rw [List.takeWhile_cons_of_neg stop, List.append_nil]

/-- **A numeral is read** as what it stands for. -/
theorem integer_text (n : Numeral) : Text.integer n.text = (false, n.value) := by
  obtain ⟨d, rest, hd⟩ := List.exists_cons_of_ne_nil n.some_digit
  have digit : Text.isdigit d = true := n.digit d (by rw [hd]; exact List.mem_cons_self)
  have solid : ¬ Text.isspace d = true := by
    intro h
    rw [isdigit_of_isspace h] at digit
    exact Bool.false_ne_true digit
  have unsigned : ¬ (d = '+' ∨ d = '-') := by
    rintro (rfl | rfl) <;> exact absurd digit (by decide)
  have blanks : n.text.dropWhile Text.isspace = n.digits ++ n.after := by
    rw [text, List.append_assoc, List.dropWhile_append_of_pos n.blank_before, hd, List.cons_append,
      List.dropWhile_cons_of_neg solid]
  have sign : (n.digits ++ n.after).takeWhile (fun c => decide (c = '+' ∨ c = '-')) = [] := by
    rw [hd, List.cons_append, List.takeWhile_cons_of_neg (by simpa using unsigned)]
  rw [Text.integer, blanks, sign]
  rw [List.length_nil, Nat.zero_min, List.drop_zero, takeWhile_isdigit, List.foldl_map, value,
    Nat.ofDigitChars_eq_foldl]
  rfl

variable {abi : Abi}

theorem atoi_text {n : Numeral} (h : n.value < 2 ^ 31) : Text.atoi abi n.text = n.value := by
  have long : (2 : Int) ^ 31 ≤ 2 ^ (8 * abi.longBytes - 1) := by
    rcases abi.long with h | h
    · rw [h]
    · rw [h]
      decide
  rw [Text.atoi, Text.atol, integer_text]
  dsimp only
  rw [if_neg Bool.false_ne_true, min_eq_right (by omega), max_eq_right (by omega)]
  exact Int.bmod_eq_of_le (by omega) (by omega)

theorem strtoul_text {n : Numeral} (h : n.value < 2 ^ (8 * abi.longBytes)) :
    Text.strtoul abi n.text = n.value := by
  rw [Text.strtoul, integer_text]
  dsimp only
  rw [if_neg (Nat.not_le.mpr h), if_neg Bool.false_ne_true]

/-- **Every number** has a numeral. -/
theorem exists_value (n : Nat) : ∃ m : Numeral, m.value = n := by
  have digit : ∀ c ∈ Nat.toDigits 10 n, Text.isdigit c = true := by
    intro c hc
    have := Nat.isDigit_of_mem_toDigits (by decide) (by decide) hc
    rw [Char.isDigit, Bool.and_eq_true, decide_eq_true_iff, decide_eq_true_iff] at this
    exact decide_eq_true this
  refine ⟨⟨[], Nat.toDigits 10 n, [], ?_, ?_, digit, Nat.toDigits_ne_nil⟩,
    Nat.ofDigitChars_ten_toDigits⟩
  · exact List.forall_mem_nil _
  · exact List.forall_mem_nil _

end Numeral

/-! ### Times and slices -/

section
variable {abi : Abi} {a b : Text}

theorem clockTime_hour (h : '.' ∉ a) : clockTime abi a = (Text.atoi abi a, 0) :=
  if_pos (Text.find_eq_of_notMem h)

theorem clockTime_minute (h : '.' ∉ a) :
    clockTime abi (a ++ '.' :: b) = (Text.atoi abi a, Text.atoi abi b) := by
  rw [clockTime, Text.find_append h, if_neg (by omega), Text.substr_front,
    Text.substr_back _ _ (by decide)]

end

/-- An hour, and its minute if it is written. -/
structure TimeText where
  hr : Numeral
  min : Option Numeral

namespace TimeText

def text (t : TimeText) : Text := t.hr.text ++ t.min.elim [] fun m => '.' :: m.text

def minute (t : TimeText) : Nat := t.min.elim 0 Numeral.value

/-- Both are in the range of `int`. -/
def InRange (t : TimeText) : Prop := t.hr.value < 2 ^ 31 ∧ t.minute < 2 ^ 31

theorem notMem_text {c : Char} (hc : c ∈ Numeral.marks) (hd : c ≠ '.') (t : TimeText) :
    c ∉ t.text := by
  rw [text, List.mem_append, not_or]
  refine ⟨Numeral.mark_notMem hc t.hr, ?_⟩
  cases t.min with
  | none => exact List.not_mem_nil
  | some m => exact List.not_mem_cons_of_ne_of_not_mem hd (Numeral.mark_notMem hc m)

/-- **A time is read**, with its minute or without. -/
theorem clockTime_text {abi : Abi} {t : TimeText} (h : t.InRange) :
    clockTime abi t.text = ((t.hr.value : Int), (t.minute : Int)) := by
  obtain ⟨hour, min⟩ := t
  have dot : '.' ∉ hour.text := Numeral.mark_notMem (by decide) hour
  cases min with
  | none =>
      have bare : text ⟨hour, none⟩ = hour.text := List.append_nil _
      rw [bare, clockTime_hour dot, Numeral.atoi_text h.1]
      rfl
  | some m =>
      have full : text ⟨hour, some m⟩ = hour.text ++ '.' :: m.text := rfl
      rw [full, clockTime_minute dot, Numeral.atoi_text h.1, Numeral.atoi_text h.2]
      rfl

theorem exists_time (hr min : Nat) : ∃ t : TimeText, t.hr.value = hr ∧ t.minute = min := by
  obtain ⟨h, rfl⟩ := Numeral.exists_value hr
  obtain ⟨m, rfl⟩ := Numeral.exists_value min
  exact ⟨⟨h, some m⟩, rfl, rfl⟩

end TimeText

/-- `start-stop=speed`. -/
structure SliceText where
  start : TimeText
  stop : TimeText
  speed : Numeral

namespace SliceText

def text (t : SliceText) : Text :=
  t.start.text ++ '-' :: t.stop.text ++ '=' :: t.speed.text

/-- The slice that it says. -/
def slice (t : SliceText) : TimeSlice :=
  ⟨t.start.hr.value, t.start.minute, t.stop.hr.value, t.stop.minute, t.speed.value⟩

/-- The times are in the range of `int`, and the speed in that of `unsigned long`. -/
def InRange (abi : Abi) (t : SliceText) : Prop :=
  t.start.InRange ∧ t.stop.InRange ∧ t.speed.value < 2 ^ (8 * abi.longBytes)

theorem comma_notMem (t : SliceText) : ',' ∉ t.text := by
  have time (t : TimeText) : ',' ∉ t.text := TimeText.notMem_text (by decide) (by decide) t
  have speed : ',' ∉ t.speed.text := Numeral.mark_notMem (by decide) t.speed
  rw [text, List.mem_append, List.mem_append, not_or, not_or]
  refine ⟨⟨time t.start, ?_⟩, ?_⟩
  · exact List.not_mem_cons_of_ne_of_not_mem (by decide) (time t.stop)
  · exact List.not_mem_cons_of_ne_of_not_mem (by decide) (speed)

/-- **A slice is read**: no hour, minute or speed is taken for another. -/
theorem timeSlice_text {abi : Abi} {t : SliceText} (h : t.InRange abi) :
    timeSlice abi t.text = t.slice := by
  obtain ⟨start, stop, speed⟩ := h
  have dash : Text.find '-' t.text = t.start.text.length := by
    rw [text, List.append_assoc, List.cons_append]
    exact Text.find_append (TimeText.notMem_text (by decide) (by decide) t.start) _
  have front : '=' ∉ t.start.text ++ '-' :: t.stop.text := by
    rw [List.mem_append, List.mem_cons, not_or, not_or]
    exact ⟨TimeText.notMem_text (by decide) (by decide) t.start, by decide,
      TimeText.notMem_text (by decide) (by decide) t.stop⟩
  have eq : Text.find '=' t.text = (t.start.text ++ '-' :: t.stop.text).length :=
    Text.find_append front _
  have between : Text.substr t.text (t.start.text.length + 1)
      ((t.start.text ++ '-' :: t.stop.text).length - t.start.text.length - 1) = t.stop.text := by
    have width : ((t.start.text.length + (t.stop.text.length + 1) : Nat) : Int) -
        t.start.text.length - 1 = t.stop.text.length := by omega
    rw [List.length_append, List.length_cons, width]
    exact Text.substr_between _ _ _
  have before : Text.substr t.text 0 t.start.text.length = t.start.text := by
    rw [text, List.append_assoc]
    exact Text.substr_front _ _
  rw [timeSlice, dash, eq, between, before, text, Text.substr_back _ _ (by decide),
    TimeText.clockTime_text start, TimeText.clockTime_text stop, Numeral.strtoul_text speed]
  rfl

/-- **Every slice** without negative numbers can be written. -/
theorem exists_sliceText (fromHr fromMin toHr toMin speed : Nat) :
    ∃ t : SliceText, t.slice = ⟨fromHr, fromMin, toHr, toMin, speed⟩ := by
  obtain ⟨start, rfl, rfl⟩ := TimeText.exists_time fromHr fromMin
  obtain ⟨stop, rfl, rfl⟩ := TimeText.exists_time toHr toMin
  obtain ⟨n, rfl⟩ := Numeral.exists_value speed
  exact ⟨⟨start, stop, n⟩, rfl⟩

end SliceText

/-! ### The value of the option -/

/-- The slices, with commas between them. -/
def scheduleText (ts : List SliceText) : Text := List.intercalate [','] (ts.map SliceText.text)

/-- An option with an index, such as `speed[0]`, and what is in front of the equals sign. -/
def indexed (name : String) (index : Numeral) (rest : Text) : Text :=
  name.toList ++ '[' :: index.text ++ ']' :: rest

section
variable {abi : Abi} {ts : List SliceText} {index : Numeral} {n : Nat} {c c' : Instance}

/-- **The parts** are the slices. -/
theorem scheduleText_parts (hts : ts ≠ []) :
    (scheduleText ts).splitOn ',' = ts.map SliceText.text := by
  refine List.splitOn_intercalate ',' (fun l hl => ?_) (List.map_eq_nil_iff.not.mpr hts)
  obtain ⟨t, -, rfl⟩ := List.mem_map.mp hl
  exact t.comma_notMem

theorem bracketed_indexed {name : String} (ho : '[' ∉ name.toList) (hc : ']' ∉ name.toList)
    (rest : Text) : bracketed (indexed name index rest) = index.text := by
  have close : ']' ∉ index.text := Numeral.mark_notMem (by decide) index
  have first : indexed name index rest = name.toList ++ '[' :: (index.text ++ ']' :: rest) := by
    rw [indexed, List.append_assoc, List.cons_append]
  rw [bracketed, first, if_pos (by simp), Text.takeWhile_append ho, if_neg hc,
    Text.dropWhile_append ho, List.tail_cons, Text.takeWhile_append close]

/-- **The slices are added** to a day, one after the other. -/
theorem pushSlices_day {day : Int} (h₀ : 0 ≤ day) (h : day.toNat < 7)
    (hr : ∀ t ∈ ts, t.InRange abi) (c : Instance) :
    pushSlices abi false day (ts.map SliceText.text) c =
      .ok () { c with
        speed := Function.update c.speed ⟨day.toNat, h⟩
          (c.speed ⟨day.toNat, h⟩ ++ ts.map SliceText.slice) } := by
  induction ts generalizing c with
  | nil => simp [pushSlices]
  | cons t rest ih =>
      obtain ⟨ht, hr⟩ := List.forall_mem_cons.mp hr
      have push : pushSlice false day t.slice c = .ok () { c with
          speed := Function.update c.speed ⟨day.toNat, h⟩ (c.speed ⟨day.toNat, h⟩ ++ [t.slice]) } :=
        (if_neg Bool.false_ne_true).trans (dif_pos ⟨h₀, h⟩)
      rw [List.map_cons, pushSlices, SliceText.timeSlice_text ht, push, Outcome.bind_ok, ih hr]
      simp

/-- **The slices are added** to a port. -/
theorem pushSlices_port {port : Int} (hr : ∀ t ∈ ts, t.InRange abi) (hts : ts ≠ []) (c : Instance) :
    pushSlices abi true port (ts.map SliceText.text) c =
      .ok () { c with
        speedPort := c.speedPort.insert port
          ((c.speedPort.lookup port).getD [] ++ ts.map SliceText.slice) } := by
  induction ts generalizing c with
  | nil => exact absurd rfl hts
  | cons t rest ih =>
      obtain ⟨ht, hr⟩ := List.forall_mem_cons.mp hr
      rw [List.map_cons, pushSlices, SliceText.timeSlice_text ht, pushSlice, if_pos rfl,
        Outcome.bind_ok]
      by_cases hn : rest = []
      · rw [hn]
        rfl
      · rw [ih hr hn]
        simp [AList.insert_insert]

/-- The loop of `parse_speed` has so many rounds and no fewer, and leaves the instance as `P`
says. -/
def ReadIn (abi : Abi) (rounds : Nat) (option value : Text) (c : Instance) (P : Instance → Prop) :
    Prop :=
  (∀ n < rounds, ∃ c', parseSpeedAt abi n option value c = .ok false c') ∧
    ∃ c', P c' ∧ ∀ n ≥ rounds, parseSpeedAt abi n option value c = .ok true c'

theorem readIn_of_ok {option : Text} {P : Instance → Prop} (hts : ts ≠ [])
    (ho : parseSpeed abi option (scheduleText ts) c = .ok () c') (hP : P c') :
    ReadIn abi ts.length option (scheduleText ts) c P := by
  have parts : ((scheduleText ts).splitOn ',').length = ts.length := by
    rw [scheduleText_parts hts, List.length_map]
  refine ⟨fun n hn => parseSpeedAt_few (by rwa [parts]) ho, c', hP, fun n hn => ?_⟩
  rw [parseSpeedAt_enough (by rwa [parts]), ho]
  rfl

/-- `instance.speed` has these slices more for the day, and nothing else is different. -/
def AddedToDay (day : Fin 7) (slices : List TimeSlice) (c c' : Instance) : Prop :=
  c' = { c with speed := c'.speed } ∧ c'.speed day = c.speed day ++ slices ∧
    ∀ d ≠ day, c'.speed d = c.speed d

/-- The same of `instance.speed_port`. -/
def AddedToPort (port : Int) (slices : List TimeSlice) (c c' : Instance) : Prop :=
  c' = { c with speedPort := c'.speedPort } ∧
    c'.speedPort.lookup port = some ((c.speedPort.lookup port).getD [] ++ slices) ∧
    ∀ p ≠ port, c'.speedPort.lookup p = c.speedPort.lookup p

/-- `speed[..]`. -/
theorem parseSpeed_day (hts : ts ≠ []) (hr : ∀ t ∈ ts, t.InRange abi) (h : index.value < 7)
    (rest : Text) (c : Instance) :
    parseSpeed abi (indexed "speed" index rest) (scheduleText ts) c =
      .ok () { c with
        speed := Function.update c.speed ⟨index.value, h⟩
          (c.speed ⟨index.value, h⟩ ++ ts.map SliceText.slice) } := by
  have port : "speed_port".toList.isPrefixOf (indexed "speed" index rest) = false := rfl
  rw [parseSpeed_eq, scheduleText_parts hts, port,
    bracketed_indexed (by decide) (by decide), Numeral.atoi_text (by omega)]
  exact pushSlices_day (Int.natCast_nonneg _) h hr c

/-- `speed_port[..]`. -/
theorem parseSpeed_port (hts : ts ≠ []) (hr : ∀ t ∈ ts, t.InRange abi) (h : index.value < 2 ^ 31)
    (rest : Text) (c : Instance) :
    parseSpeed abi (indexed "speed_port" index rest) (scheduleText ts) c =
      .ok () { c with
        speedPort := c.speedPort.insert (index.value : Int)
          ((c.speedPort.lookup (index.value : Int)).getD [] ++ ts.map SliceText.slice) } := by
  have port : "speed_port".toList.isPrefixOf (indexed "speed_port" index rest) = true := rfl
  rw [parseSpeed_eq, scheduleText_parts hts, port,
    bracketed_indexed (by decide) (by decide), Numeral.atoi_text h]
  exact pushSlices_port hr hts c

/-- **Schedules are read back** as they are written, for a day of the week and for a port, in one
round for each slice. -/
theorem schedule_read_back (hts : ts ≠ []) (hr : ∀ t ∈ ts, t.InRange abi) (index : Numeral)
    (rest : Text) (c : Instance) :
    (∀ h : index.value < 7,
        ReadIn abi ts.length (indexed "speed" index rest) (scheduleText ts) c
          (AddedToDay ⟨index.value, h⟩ (ts.map SliceText.slice) c)) ∧
      (index.value < 2 ^ 31 →
        ReadIn abi ts.length (indexed "speed_port" index rest) (scheduleText ts) c
          (AddedToPort index.value (ts.map SliceText.slice) c)) := by
  constructor
  · intro h
    refine readIn_of_ok hts (parseSpeed_day hts hr h rest c) ⟨rfl, Function.update_self .., ?_⟩
    intro d hd
    exact Function.update_of_ne hd _ _
  · intro h
    refine readIn_of_ok hts (parseSpeed_port hts hr h rest c) ⟨rfl, AList.lookup_insert _, ?_⟩
    intro p hp
    exact AList.lookup_insert_ne hp

end

namespace Sample

def numeral (before digits after : String)
    (h : before.toList.all Text.isspace = true ∧ digits.toList.all Text.isdigit = true ∧
      after.toList.all Text.isspace = true ∧ digits.toList ≠ []) : Numeral :=
  ⟨before.toList, digits.toList, after.toList, List.all_eq_true.mp h.1,
    List.all_eq_true.mp h.2.2.1, List.all_eq_true.mp h.2.1, h.2.2.2⟩

def monday : Numeral := numeral "" "1" "" (by decide)

/-- The schedule of a monday, one of its hours without a minute. -/
def schedule : List SliceText :=
  [⟨⟨numeral "" "00" "" (by decide), some (numeral "" "00" " " (by decide))⟩,
      ⟨numeral " " "05" "" (by decide), some (numeral "" "30" " " (by decide))⟩,
      numeral " " "1500" "" (by decide)⟩,
    ⟨⟨numeral " " "05" "" (by decide), some (numeral "" "30" " " (by decide))⟩,
      ⟨numeral " " "24" " " (by decide), none⟩, numeral " " "20000" " " (by decide)⟩]

end Sample

theorem schedule_read_back_sample :
    scheduleText Sample.schedule = "00.00 - 05.30 = 1500, 05.30 - 24 = 20000 ".toList ∧
      ReadIn .littleEndian 2 (indexed "speed" Sample.monday []) (scheduleText Sample.schedule) {}
        (AddedToDay 1 [⟨0, 0, 5, 30, 1500⟩, ⟨5, 30, 24, 0, 20000⟩] {}) := by
  have inRange : ∀ t ∈ Sample.schedule, t.InRange .littleEndian := by
    refine List.forall_mem_cons.mpr ⟨?_, List.forall_mem_singleton.mpr ?_⟩
    · exact ⟨⟨by decide, by decide⟩, ⟨by decide, by decide⟩, by decide⟩
    · exact ⟨⟨by decide, by decide⟩, ⟨by decide, by decide⟩, by decide⟩
  exact ⟨by decide, (schedule_read_back (List.cons_ne_nil _ _) inRange Sample.monday [] {}).1
    (by decide)⟩

end OldStuff.Socks
