import OldStuff.Socks.Document

/-!
# Socks — writing a configuration file

`Instance.conf` is a file for an instance: a line for each option with one value, for each pattern,
and for each day and each port that has a schedule.  Any instance that can be written down
(`Instance.Writable`) is what `load` makes of its file, whatever was in force before
(`conf_written`).
-/

namespace OldStuff.Socks
open OldStuff.Io
open OldStuff.Lib (Outcome)
open Text (Plain isspace)

/-! ### Numerals and slices -/

/-- The numeral without a blank. -/
def Numeral.ofNat (n : Nat) : Numeral where
  before := []
  digits := Nat.toDigits 10 n
  after := []
  blank_before := blank_nil
  blank_after := blank_nil
  digit := by
    intro c hc
    have := Nat.isDigit_of_mem_toDigits (by decide) (by decide) hc
    rw [Char.isDigit, Bool.and_eq_true, decide_eq_true_iff, decide_eq_true_iff] at this
    exact decide_eq_true this
  some_digit := Nat.toDigits_ne_nil

@[simp] theorem Numeral.value_ofNat (n : Nat) : (ofNat n).value = n :=
  Nat.ofDigitChars_ten_toDigits

theorem Numeral.newline_notMem_ofNat (n : Nat) : '\n' ∉ (ofNat n).text := by
  rw [text, ofNat, List.nil_append, List.append_nil]
  intro h
  exact absurd ((ofNat n).digit _ h) (by decide)

def TimeText.ofInts (hr min : Int) : TimeText := ⟨.ofNat hr.toNat, some (.ofNat min.toNat)⟩

def SliceText.ofSlice (t : TimeSlice) : SliceText :=
  ⟨.ofInts t.fromHr t.fromMin, .ofInts t.toHr t.toMin, .ofNat t.speed⟩

/-- No number is negative or out of range. -/
structure TimeSlice.Writable (abi : Abi) (t : TimeSlice) : Prop where
  times : ∀ n ∈ [t.fromHr, t.fromMin, t.toHr, t.toMin], 0 ≤ n ∧ n < 2 ^ 31
  speed : t.speed < 2 ^ (8 * abi.longBytes)

section
variable {abi : Abi} {t : TimeSlice} {ts : List TimeSlice}

theorem SliceText.slice_ofSlice (h : t.Writable abi) : (ofSlice t).slice = t := by
  have times := h.times
  simp only [List.forall_mem_cons] at times
  obtain ⟨fromHr, fromMin, toHr, toMin, -⟩ := times
  obtain ⟨a, b, c, d, speed⟩ := t
  simp [slice, ofSlice, TimeText.ofInts, TimeText.minute, fromHr.1, fromMin.1, toHr.1, toMin.1]

theorem SliceText.inRange_ofSlice (h : t.Writable abi) : (ofSlice t).InRange abi := by
  have times := h.times
  simp only [List.forall_mem_cons] at times
  obtain ⟨fromHr, fromMin, toHr, toMin, -⟩ := times
  refine ⟨⟨?_, ?_⟩, ⟨?_, ?_⟩, ?_⟩
  · simpa [ofSlice, TimeText.ofInts] using fromHr.2
  · simpa [ofSlice, TimeText.ofInts, TimeText.minute] using fromMin.2
  · simpa [ofSlice, TimeText.ofInts] using toHr.2
  · simpa [ofSlice, TimeText.ofInts, TimeText.minute] using toMin.2
  · simpa [ofSlice] using h.speed

theorem SliceText.map_ofSlice (h : ∀ t ∈ ts, t.Writable abi) :
    (ts.map ofSlice).map slice = ts := by
  rw [List.map_map]
  exact (List.map_congr_left fun t ht => slice_ofSlice (h t ht)).trans (List.map_id ts)

theorem newline_notMem_ofSlices (ts : List TimeSlice) :
    '\n' ∉ scheduleText (ts.map SliceText.ofSlice) := by
  refine notMem_schedule (by decide) fun u hu n hn => ?_
  obtain ⟨t, -, rfl⟩ := List.mem_map.mp hu
  have : ∃ k, n = .ofNat k := by
    simp only [SliceText.numerals, SliceText.ofSlice, TimeText.ofInts] at hn
    simp at hn
    rcases hn with rfl | rfl | rfl | rfl | rfl <;> exact ⟨_, rfl⟩
  obtain ⟨k, rfl⟩ := this
  exact Numeral.newline_notMem_ofNat k

end

/-! ### The file -/

namespace Instance

/-- What the instance is made of, with the ports from the last to the first. -/
def settings (c : Instance) : List Setting :=
  [.listenInterface, .logfile, .runAs, .httpListenInterface].map
      (fun o : TextOption => .text o [' '] (o.get c)) ++
    [.listenPort, .maxClients, .pipeTimeout, .httpListenPort].map
      (fun o : NumberOption => .number o (.ofNat (o.get c).toNat)) ++
    c.acceptFrom.map (fun p => .acceptFrom [' '] p.toList) ++
    ((List.finRange 7).filter fun d => c.speed d ≠ []).map
      (fun d => .day (.ofNat d) ((c.speed d).map .ofSlice)) ++
    c.speedPort.entries.reverse.map (fun e => .port (.ofNat e.1.toNat) (e.2.map .ofSlice))

/-- A file for the instance. -/
def conf (c : Instance) : List Line := c.settings.map fun x => .setting [' '] x none

/-- No text has a comment in it, or more than one line, or white space around it; no number is
negative or out of range; and a port that is there has a slice. -/
structure Writable (abi : Abi) (c : Instance) : Prop where
  texts : ∀ o : TextOption, Plain (o.get c) ∧ '\n' ∉ o.get c
  numbers : ∀ o : NumberOption, 0 ≤ o.get c ∧ o.get c < (o.limit abi : Int)
  patterns : ∀ p ∈ c.acceptFrom, Plain p.toList ∧ '\n' ∉ p.toList
  days : ∀ d, ∀ t ∈ c.speed d, t.Writable abi
  ports : ∀ e ∈ c.speedPort.entries,
    (0 ≤ e.1 ∧ e.1 < 2 ^ 31) ∧ e.2 ≠ [] ∧ ∀ t ∈ e.2, t.Writable abi

end Instance

section
variable {abi : Abi} {c d : Instance} {w : Nat} {kept : Nat → Nat}

/-- A line is one line if its option and its value are. -/
theorem newline_notMem_line {a v : Text} (ha : '\n' ∉ a) (hv : '\n' ∉ v) :
    '\n' ∉ a ++ '=' :: v := by simp [ha, hv]

theorem newline_notMem_indexed {name : String} (hn : '\n' ∉ name.toList) (n : Nat) :
    '\n' ∉ indexed name (.ofNat n) [' '] := by
  simp [indexed, hn, Numeral.newline_notMem_ofNat]

theorem settings_valid (h : d.Writable abi) :
    ∀ x ∈ d.settings, x.Valid abi ∧ '\n' ∉ x.option [' '] ++ '=' :: x.value := by
  have blank : ∀ c ∈ [' '], isspace c = true := List.forall_mem_singleton.mpr (by decide)
  have gap : '\n' ∉ [' '] := by decide
  have slices {ts : List TimeSlice} (some : ts ≠ []) (fits : ∀ t ∈ ts, t.Writable abi) :
      ts.map SliceText.ofSlice ≠ [] ∧ ∀ t ∈ ts.map SliceText.ofSlice, t.InRange abi := by
    refine ⟨List.map_eq_nil_iff.not.mpr some, fun t ht => ?_⟩
    obtain ⟨u, hu, rfl⟩ := List.mem_map.mp ht
    exact SliceText.inRange_ofSlice (fits u hu)
  simp only [Instance.settings, List.forall_mem_append, List.forall_mem_map]
  refine ⟨⟨⟨⟨fun o _ => ?_, fun o _ => ?_⟩, fun p hp => ?_⟩, fun day hd => ?_⟩, fun e he => ?_⟩
  · obtain ⟨plain, line⟩ := h.texts o
    have name : '\n' ∉ o.name.toList := by cases o <;> decide
    exact ⟨⟨blank, plain⟩,
      newline_notMem_line (List.not_mem_append name gap) (List.not_mem_append gap line)⟩
  · obtain ⟨pos, fits⟩ := h.numbers o
    have name : '\n' ∉ o.name.toList := by cases o <;> decide
    refine ⟨?_, newline_notMem_line (List.not_mem_append name gap)
      (Numeral.newline_notMem_ofNat _)⟩
    rw [Setting.Valid, Numeral.value_ofNat]
    omega
  · obtain ⟨plain, line⟩ := h.patterns p hp
    exact ⟨⟨blank, plain⟩,
      newline_notMem_line (List.not_mem_append (by decide) gap) (List.not_mem_append gap line)⟩
  · have some : d.speed day ≠ [] := of_decide_eq_true (List.mem_filter.mp hd).2
    refine ⟨⟨?_, slices some (h.days day)⟩,
      newline_notMem_line (newline_notMem_indexed (by decide) _) (newline_notMem_ofSlices _)⟩
    rw [Numeral.value_ofNat]
    exact day.isLt
  · obtain ⟨fits, some, each⟩ := h.ports e (List.mem_reverse.mp he)
    refine ⟨⟨?_, slices some each⟩,
      newline_notMem_line (newline_notMem_indexed (by decide) _) (newline_notMem_ofSlices _)⟩
    rw [Numeral.value_ofNat]
    omega

theorem foldl_patterns (ps : List String) (c : Instance) :
    (ps.map fun p => Setting.acceptFrom [' '] p.toList).foldl Setting.apply c =
      { c with acceptFrom := c.acceptFrom ++ ps } := by
  induction ps generalizing c with
  | nil => simp
  | cons p ps ih =>
      rw [List.map_cons, List.foldl_cons, ih]
      simp [Setting.apply]

theorem foldl_days (h : d.Writable abi) {days : List (Fin 7)} (hn : days.Nodup) (c : Instance) :
    (days.map fun day : Fin 7 =>
        Setting.day (.ofNat day) ((d.speed day).map .ofSlice)).foldl Setting.apply c =
      { c with
        speed := fun day => if day ∈ days then c.speed day ++ d.speed day else c.speed day } := by
  induction days generalizing c with
  | nil => simp
  | cons day days ih =>
      obtain ⟨new, hn⟩ := List.nodup_cons.mp hn
      rw [List.map_cons, List.foldl_cons, ih hn]
      have added : Setting.apply c (.day (.ofNat day) ((d.speed day).map .ofSlice)) =
          { c with speed := Function.update c.speed day (c.speed day ++ d.speed day) } := by
        simp [Setting.apply, SliceText.map_ofSlice (h.days day), Nat.mod_eq_of_lt day.isLt]
      rw [added]
      congr 2
      funext other
      by_cases ho : other = day
      · subst ho
        simp [new]
      · simp [ho]

theorem foldl_ports {es : List (Sigma fun _ : Int => List TimeSlice)}
    (h : ∀ e ∈ es, 0 ≤ e.1 ∧ ∀ t ∈ e.2, t.Writable abi) (hn : es.NodupKeys)
    (c : Instance) (hc : c.speedPort = ∅) :
    (es.reverse.map fun e =>
        Setting.port (.ofNat e.1.toNat) (e.2.map .ofSlice)).foldl Setting.apply c =
      { c with speedPort := ⟨es, hn⟩ } := by
  rw [List.map_reverse, List.foldl_reverse]
  induction es with
  | nil =>
      have empty : (⟨[], hn⟩ : AList fun _ : Int => List TimeSlice) = ∅ := rfl
      rw [empty, ← hc]
      rfl
  | cons e es ih =>
      obtain ⟨⟨pos, fits⟩, h⟩ := List.forall_mem_cons.mp h
      obtain ⟨new, hn'⟩ := List.nodupKeys_cons.mp hn
      rw [List.map_cons, List.foldr_cons, ih h hn']
      have index : (((Numeral.ofNat e.1.toNat).value : Nat) : Int) = e.1 := by
        rw [Numeral.value_ofNat, Int.toNat_of_nonneg pos]
      have none : AList.lookup e.1 (⟨es, hn'⟩ : AList fun _ : Int => List TimeSlice) = none :=
        List.dlookup_eq_none.mpr new
      have added (c : Instance) :
          Setting.apply c (.port (.ofNat e.1.toNat) (e.2.map .ofSlice)) =
            { c with
              speedPort := c.speedPort.insert e.1
                ((c.speedPort.lookup e.1).getD [] ++ e.2) } := by
        rw [Setting.apply, index, SliceText.map_ofSlice fits]
      rw [added, none, Option.getD_none, List.nil_append, AList.mk_cons_eq_insert]

/-- The options with one value are all written, and the lists are empty to begin with. -/
theorem foldl_scalars (h : d.Writable abi) (c : Instance) :
    ([.listenPort, .maxClients, .pipeTimeout, .httpListenPort].map
        (fun o : NumberOption => Setting.number o (.ofNat (o.get d).toNat))).foldl Setting.apply
        (([.listenInterface, .logfile, .runAs, .httpListenInterface].map
          (fun o : TextOption => Setting.text o [' '] (o.get d))).foldl Setting.apply c.cleared) =
      d.cleared := by
  have number (o : NumberOption) :
      (((Numeral.ofNat (o.get d).toNat).value : Nat) : Int) = o.get d := by
    rw [Numeral.value_ofNat, Int.toNat_of_nonneg (h.numbers o).1]
  simp only [List.map_cons, List.map_nil, List.foldl_cons, List.foldl_nil, Setting.apply, number]
  rfl

/-- What the settings of an instance come to. -/
theorem foldl_settings (h : d.Writable abi) (c : Instance) :
    d.settings.foldl Setting.apply c.cleared = d := by
  have ports : ∀ e ∈ d.speedPort.entries, 0 ≤ e.1 ∧ ∀ t ∈ e.2, t.Writable abi := fun e he =>
    ⟨(h.ports e he).1.1, (h.ports e he).2.2⟩
  have days : (fun day => if day ∈ (List.finRange 7).filter fun d' => d.speed d' ≠ [] then
      d.cleared.speed day ++ d.speed day else d.cleared.speed day) = d.speed := by
    funext day
    by_cases none : d.speed day = []
    · simp [Instance.cleared, none]
    · simp [Instance.cleared, none]
  rw [Instance.settings, List.foldl_append, List.foldl_append, List.foldl_append,
    List.foldl_append, foldl_scalars h, foldl_patterns,
    foldl_days h ((List.nodup_finRange 7).filter _)]
  rw [foldl_ports ports d.speedPort.nodupKeys _ rfl]
  dsimp only
  rw [days]
  rfl

/-- **Every configuration can be written**: `load` makes the instance of its file, whatever was in
force before, and wherever the strings of each line lie in memory. -/
theorem conf_written (h : d.Writable abi) (hp : PlacedLines w kept ((fileText d.conf).splitOn '\n'))
    (c : Instance) : load abi kept (some (fileText d.conf)) c = .ok () d := by
  have valid : ∀ l ∈ d.conf, l.Valid abi := by
    intro l hl
    obtain ⟨x, hx, rfl⟩ := List.mem_map.mp hl
    obtain ⟨valid, line⟩ := settings_valid h x hx
    exact ⟨by decide, valid, by simpa [Line.text] using line⟩
  have nonempty : d.conf ≠ [] := by simp [Instance.conf, Instance.settings]
  have lines := splitOn_fileText valid nonempty
  rw [lines] at hp
  have loaded : load abi kept (some (fileText d.conf)) c =
      .ok () (d.conf.foldl Line.apply c.cleared) := by
    rw [load, lines]
    exact loadLines_document valid hp c.cleared
  rw [loaded, Instance.conf, List.foldl_map]
  exact congrArg _ (foldl_settings h c)

end

namespace Sample

/-- A configuration with a limit for the web. -/
def webLimited : Instance where
  port := 1080
  httpPort := 8082
  maxClients := 256
  pipeTimeout := 180
  listenInterface := "127.0.0.1".toList
  acceptFrom := ["193\\.168\\.40\\..*", "127\\.0\\.0\\.1"]
  speed := fun day => if day.val = 0 then [⟨0, 0, 24, 0, 1500⟩] else []
  speedPort := AList.singleton 80 [⟨8, 30, 17, 0, 20000⟩]

end Sample

theorem conf_written_sample :
    ∃ kept, load .littleEndian kept (some (fileText Sample.webLimited.conf))
      { port := 3128, runAs := "nobody".toList } = .ok () Sample.webLimited := by
  have writable : Sample.webLimited.Writable .littleEndian := by
    refine ⟨fun o => ?_, fun o => ?_, ?_, fun day t ht => ?_, ?_⟩
    · cases o <;> exact ⟨by decide, by decide⟩
    · cases o <;> exact ⟨by decide, by decide⟩
    · refine List.forall_mem_cons.mpr ⟨?_, List.forall_mem_singleton.mpr ?_⟩
      · exact ⟨by decide, by decide⟩
      · exact ⟨by decide, by decide⟩
    · have sunday : day = 0 := by
        by_contra other
        have none : Sample.webLimited.speed day = [] := if_neg fun h => other (Fin.ext h)
        rw [none] at ht
        exact List.not_mem_nil ht
      subst sunday
      obtain rfl := List.mem_singleton.mp ht
      exact ⟨by decide, by decide⟩
    · refine List.forall_mem_singleton.mpr ⟨by decide, List.cons_ne_nil _ _, ?_⟩
      exact List.forall_mem_singleton.mpr ⟨by decide, by decide⟩
  have placed := @Sample.placed_near ((fileText Sample.webLimited.conf).splitOn '\n') (by decide)
  exact ⟨_, conf_written writable placed _⟩

end OldStuff.Socks
