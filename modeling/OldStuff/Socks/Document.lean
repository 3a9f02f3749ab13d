import OldStuff.Socks.Schedule
import OldStuff.Socks.Trim

/-!
# Socks — whole configuration files

A `Line` of a file as `socks.conf` is one: an option with its value, and a comment behind it, or
nothing but a comment.  `Setting.apply` says what an option is for, without a word about positions,
blanks or numerals.

`load` does to the instance what the lines say, one after the other (`conf_read_back`).  It cuts a
value somewhere behind its last character that is no white space (`Text.Cut`); a numeral is the same
with fewer blanks behind it, but a text has to be written without.
-/

namespace OldStuff.Socks
open OldStuff.Io
open OldStuff.Lib (Outcome)

/-! ### What is cut off -/

namespace Text
variable {a s v v' : Text} {c : Char}

theorem rdropWhile_solid (hc : isspace c = false) (a s : Text) :
    (a ++ c :: s).rdropWhile isspace = a ++ c :: s.rdropWhile isspace := by
  induction s using List.reverseRecOn with
  | nil => simp [hc]
  | append_singleton s d ih =>
      rw [← List.cons_append, ← List.append_assoc, List.rdropWhile_concat, List.rdropWhile_concat]
      split
      · exact ih
      · rw [List.append_assoc, List.cons_append]

/-- `v'` is `v` without some of the white space behind it. -/
def Cut (v v' : Text) : Prop :=
  ∃ kept, (v.rdropWhile isspace).length < kept ∧ v.take kept = v'

/-- **What is cut off** is behind the last character that is no white space. -/
theorem Cut.solid (hc : isspace c = false) (h : Cut (a ++ c :: s) v') :
    ∃ s', Cut s s' ∧ v' = a ++ c :: s' := by
  obtain ⟨kept, hk, rfl⟩ := h
  rw [rdropWhile_solid hc, List.length_append, List.length_cons] at hk
  refine ⟨_, ⟨kept - (a.length + 1), by omega, rfl⟩, ?_⟩
  rw [← List.singleton_append, ← List.append_assoc, List.take_append, List.take_of_length_le]
  · simp
  · simp
    omega

/-- Neither a comment, nor white space at either end. -/
structure Plain (t : Text) : Prop where
  no_comment : '#' ∉ t
  front : ∀ c ∈ t.head?, isspace c = false
  back : ∀ c ∈ t.getLast?, isspace c = false

theorem plain_iff {t : Text} : Plain t ↔
    '#' ∉ t ∧ (t.head?.all fun c => !isspace c) = true ∧
      (t.getLast?.all fun c => !isspace c) = true := by
  simp only [Option.all_eq_true, Bool.not_eq_true']
  exact ⟨fun h => ⟨h.no_comment, h.front, h.back⟩, fun h => ⟨h.1, h.2.1, h.2.2⟩⟩

instance (t : Text) : Decidable (Plain t) := decidable_of_iff _ plain_iff.symm

/-- **A text is read** as it is written, without the blanks in front of it. -/
theorem Plain.read {before : Text} {t : Text} (h : Plain t)
    (hb : ∀ c ∈ before, isspace c = true) (hv : Cut (before ++ t) v') :
    v'.dropWhile isspace = t := by
  cases ht : t with
  | nil =>
      obtain ⟨kept, -, rfl⟩ := hv
      rw [ht, List.append_nil, dropWhile_isspace_eq_nil]
      exact fun c hc => hb c (List.mem_of_mem_take hc)
  | cons d rest =>
      obtain ⟨front, last, hl⟩ := List.eq_nil_or_concat' t |>.resolve_left (by simp [ht])
      have solid : isspace last = false := h.back last (by simp [hl])
      rw [hl, ← List.append_assoc] at hv
      obtain ⟨_, ⟨kept, hk, rfl⟩, rfl⟩ := hv.solid solid
      rw [List.take_nil, List.append_assoc, ← hl, List.dropWhile_append_of_pos hb, ht,
        List.dropWhile_cons_of_neg]
      exact Bool.eq_false_iff.mp (h.front d (by simp [ht]))

end Text

open Text (Cut Plain isspace)

namespace Numeral

/-- No other character is in a numeral. -/
theorem notMem_text {c : Char} (hs : isspace c = false) (hd : Text.isdigit c = false)
    (n : Numeral) : c ∉ n.text := by
  intro h
  rw [text, List.append_assoc, List.mem_append, List.mem_append] at h
  rcases h with h | h | h
  · exact Bool.false_ne_true (hs.symm.trans (n.blank_before c h))
  · exact Bool.false_ne_true (hd.symm.trans (n.digit c h))
  · exact Bool.false_ne_true (hs.symm.trans (n.blank_after c h))

theorem cut {n : Numeral} {v : Text} (h : Cut n.text v) :
    ∃ m : Numeral, m.text = v ∧ m.value = n.value := by
  obtain ⟨front, last, hl⟩ := List.eq_nil_or_concat' n.digits |>.resolve_left n.some_digit
  have solid : isspace last = false := by
    refine Bool.eq_false_iff.mpr fun hs => ?_
    have digit := n.digit last (by simp [hl])
    rw [isdigit_of_isspace hs] at digit
    exact Bool.false_ne_true digit
  have shape : n.text = (n.before ++ front) ++ last :: n.after := by simp [text, hl]
  rw [shape] at h
  obtain ⟨_, ⟨kept, -, rfl⟩, rfl⟩ := h.solid solid
  refine ⟨{ n with
    after := n.after.take kept
    blank_after := fun c hc => n.blank_after c (List.mem_of_mem_take hc) }, ?_, rfl⟩
  simp [text, hl]

theorem blank_nil : ∀ c ∈ ([] : Text), isspace c = true := List.forall_mem_nil _

/-- The numeral without the blanks in front of it. -/
def bare (n : Numeral) : Numeral :=
  { n with before := [], blank_before := blank_nil }

theorem dropWhile_text (n : Numeral) (s : Text) :
    (n.text ++ s).dropWhile isspace = n.bare.text ++ s := by
  obtain ⟨d, rest, hd⟩ := List.exists_cons_of_ne_nil n.some_digit
  have solid : ¬ isspace d = true := by
    intro hs
    have digit := n.digit d (by simp [hd])
    rw [isdigit_of_isspace hs] at digit
    exact Bool.false_ne_true digit
  simp only [text, bare, List.append_assoc, List.nil_append]
  rw [List.dropWhile_append_of_pos n.blank_before, hd, List.cons_append,
    List.dropWhile_cons_of_neg solid]

/-- **A numeral is read** wherever it is cut. -/
theorem read {n : Numeral} {v : Text} (h : Cut n.text v) :
    ∃ m : Numeral, m.text = v.dropWhile isspace ∧ m.value = n.value := by
  obtain ⟨m, rfl, value⟩ := cut h
  refine ⟨m.bare, ?_, value⟩
  rw [← List.append_nil m.text, dropWhile_text, List.append_nil]

end Numeral

namespace SliceText
variable {abi : Abi} {t t' : SliceText} {ts : List SliceText} {v : Text}

/-- The slice says what its numbers are. -/
theorem inRange_congr (h : t'.slice = t.slice) : t'.InRange abi ↔ t.InRange abi := by
  simp only [slice, TimeSlice.mk.injEq, Int.natCast_inj] at h
  obtain ⟨h₁, h₂, h₃, h₄, h₅⟩ := h
  simp only [InRange, TimeText.InRange, h₁, h₂, h₃, h₄, h₅]

/-- Nor does it matter where in a list the slices stand. -/
theorem inRange_of_map {ts' : List SliceText} (h : ts'.map slice = ts.map slice)
    (hr : ∀ t ∈ ts, t.InRange abi) : ∀ t ∈ ts', t.InRange abi := by
  intro t ht
  obtain ⟨u, hu, same⟩ := List.mem_map.mp (h ▸ List.mem_map_of_mem (f := slice) ht)
  exact (inRange_congr same).mp (hr u hu)

theorem cut (h : Cut t.text v) : ∃ t' : SliceText, t'.text = v ∧ t'.slice = t.slice := by
  obtain ⟨_, hs, rfl⟩ := h.solid (by decide)
  obtain ⟨m, rfl, value⟩ := hs |> Numeral.cut
  refine ⟨{ t with speed := m }, rfl, ?_⟩
  simp [slice, value]

end SliceText

theorem scheduleText_cons (t u : SliceText) (ts : List SliceText) :
    scheduleText (t :: u :: ts) = t.text ++ ',' :: scheduleText (u :: ts) := by
  simp [scheduleText, List.intercalate]

theorem schedule_cut {ts : List SliceText} {v : Text} (hts : ts ≠ [])
    (h : Cut (scheduleText ts) v) :
    ∃ ts', scheduleText ts' = v ∧ ts'.map SliceText.slice = ts.map SliceText.slice := by
  induction ts generalizing v with
  | nil => exact absurd rfl hts
  | cons t ts ih =>
      cases ts with
      | nil =>
          have one (u : SliceText) : scheduleText [u] = u.text := by
            simp [scheduleText, List.intercalate]
          rw [one] at h
          obtain ⟨t', rfl, same⟩ := SliceText.cut h
          exact ⟨[t'], one t', by simp [same]⟩
      | cons u ts =>
          rw [scheduleText_cons] at h
          obtain ⟨_, hs, rfl⟩ := h.solid (by decide)
          obtain ⟨us, rfl, same⟩ := ih (List.cons_ne_nil _ _) hs
          obtain ⟨u', us, rfl⟩ : ∃ u' us', us = u' :: us' :=
            List.exists_cons_of_ne_nil fun hn => by simp [hn] at same
          exact ⟨t :: u' :: us, scheduleText_cons .., by simpa using same⟩

/-- What is behind the first numeral of a schedule does not depend on it. -/
theorem scheduleText_front (u : SliceText) (us : List SliceText) :
    ∃ rest, ∀ n : Numeral,
      scheduleText ({ u with start := { u.start with hr := n } } :: us) = n.text ++ rest := by
  cases us with
  | nil =>
      refine ⟨u.start.min.elim [] (fun m => '.' :: m.text) ++ '-' :: u.stop.text ++
        '=' :: u.speed.text, fun n => ?_⟩
      simp [scheduleText, List.intercalate, SliceText.text, TimeText.text]
  | cons w us =>
      refine ⟨u.start.min.elim [] (fun m => '.' :: m.text) ++ '-' :: u.stop.text ++
        '=' :: u.speed.text ++ ',' :: scheduleText (w :: us), fun n => ?_⟩
      simp [scheduleText_cons, SliceText.text, TimeText.text]

/-- **A schedule is read** wherever it is cut. -/
theorem schedule_read {ts : List SliceText} {v : Text} (hts : ts ≠ [])
    (h : Cut (scheduleText ts) v) :
    ∃ ts', scheduleText ts' = v.dropWhile isspace ∧
      ts'.map SliceText.slice = ts.map SliceText.slice := by
  obtain ⟨us, rfl, same⟩ := schedule_cut hts h
  obtain ⟨u, us, rfl⟩ : ∃ u us', us = u :: us' :=
    List.exists_cons_of_ne_nil fun hn => by simp [hn, eq_comm, hts] at same
  obtain ⟨rest, front⟩ := scheduleText_front u us
  refine ⟨{ u with start := { u.start with hr := u.start.hr.bare } } :: us, ?_, same⟩
  rw [front, show scheduleText (u :: us) = u.start.hr.text ++ rest from front _,
    Numeral.dropWhile_text]

/-! ### Settings -/

/-- The options with a text. -/
inductive TextOption where
  | listenInterface
  | logfile
  | runAs
  | httpListenInterface

/-- The options with a number. -/
inductive NumberOption where
  | listenPort
  | maxClients
  | pipeTimeout
  | httpListenPort

namespace TextOption

def scalar : TextOption → Scalar
  | listenInterface => .listenInterface
  | logfile => .logfile
  | runAs => .runAs
  | httpListenInterface => .httpListenInterface

def name : TextOption → String
  | listenInterface => "listen interface"
  | logfile => "logfile"
  | runAs => "run as"
  | httpListenInterface => "http listen interface"

def get (c : Instance) : TextOption → Text
  | listenInterface => c.listenInterface
  | logfile => c.logfile
  | runAs => c.runAs
  | httpListenInterface => c.httpListenInterface

def put (t : Text) (c : Instance) : TextOption → Instance
  | listenInterface => { c with listenInterface := t }
  | logfile => { c with logfile := t }
  | runAs => { c with runAs := t }
  | httpListenInterface => { c with httpListenInterface := t }

theorem set_scalar (abi : Abi) (o : TextOption) (t : Text) (c : Instance) :
    c.set abi o.scalar t = o.put t c := by cases o <;> rfl

end TextOption

namespace NumberOption

def scalar : NumberOption → Scalar
  | listenPort => .listenPort
  | maxClients => .maxClients
  | pipeTimeout => .pipeTimeout
  | httpListenPort => .httpListenPort

def name : NumberOption → String
  | listenPort => "listen port"
  | maxClients => "max clients"
  | pipeTimeout => "pipe timeout"
  | httpListenPort => "http listen port"

def get (c : Instance) : NumberOption → Int
  | listenPort => c.port
  | maxClients => c.maxClients
  | pipeTimeout => c.pipeTimeout
  | httpListenPort => c.httpPort

def put (n : Int) (c : Instance) : NumberOption → Instance
  | listenPort => { c with port := n }
  | maxClients => { c with maxClients := n }
  | pipeTimeout => { c with pipeTimeout := n }
  | httpListenPort => { c with httpPort := n }

/-- The ports are of type `long`, and the rest of type `int`. -/
def limit (abi : Abi) : NumberOption → Nat
  | listenPort | httpListenPort => 2 ^ (8 * abi.longBytes - 1)
  | maxClients | pipeTimeout => 2 ^ 31

end NumberOption

/-- What a line is there for. -/
inductive Setting where
  | text (o : TextOption) (before words : Text)
  | number (o : NumberOption) (n : Numeral)
  | acceptFrom (before pattern : Text)
  | day (index : Numeral) (slices : List SliceText)
  | port (index : Numeral) (slices : List SliceText)

namespace Setting

/-- What is in front of the equals sign. -/
def option (gap : Text) : Setting → Text
  | text o _ _ => o.name.toList ++ gap
  | number o _ => o.name.toList ++ gap
  | acceptFrom _ _ => "accept from".toList ++ gap
  | day index _ => indexed "speed" index gap
  | port index _ => indexed "speed_port" index gap

/-- What is behind it. -/
def value : Setting → Text
  | text _ before words => before ++ words
  | number _ n => n.text
  | acceptFrom before pattern => before ++ pattern
  | day _ slices | port _ slices => scheduleText slices

/-- Every number is in the range of its type, and no text has white space around it. -/
def Valid (abi : Abi) : Setting → Prop
  | text _ before words => (∀ c ∈ before, isspace c = true) ∧ Plain words
  | number o n => n.value < o.limit abi
  | acceptFrom before pattern => (∀ c ∈ before, isspace c = true) ∧ Plain pattern
  | day index slices => index.value < 7 ∧ slices ≠ [] ∧ ∀ t ∈ slices, t.InRange abi
  | port index slices => index.value < 2 ^ 31 ∧ slices ≠ [] ∧ ∀ t ∈ slices, t.InRange abi

/-- **What it does** to the instance. -/
def apply (c : Instance) : Setting → Instance
  | text o _ words => o.put words c
  | number o n => o.put n.value c
  | acceptFrom _ pattern => { c with acceptFrom := c.acceptFrom ++ [String.ofList pattern] }
  | day index slices =>
    let day : Fin 7 := ⟨index.value % 7, Nat.mod_lt index.value (by decide)⟩
    { c with
      speed := Function.update c.speed day (c.speed day ++ slices.map SliceText.slice) }
  | port index slices =>
    let port : Int := index.value
    { c with
      speedPort := c.speedPort.insert port
        ((c.speedPort.lookup port).getD [] ++ slices.map SliceText.slice) }

end Setting

/-- A line of the file. -/
inductive Line where
  | remark (text : Text)
  | setting (gap : Text) (setting : Setting) (comment : Option Text)

namespace Line

def text : Line → Text
  | remark text => text
  | setting gap x comment =>
    x.option gap ++ '=' :: (x.value ++ comment.elim [] fun t => '#' :: t)

/-- A remark has no equals sign in front of its comment, and is a line of its own. -/
def Valid (abi : Abi) : Line → Prop
  | remark text => '=' ∉ text.takeWhile (· ≠ '#') ∧ '\n' ∉ text
  | setting gap x comment =>
    ('=' ∉ gap ∧ '#' ∉ gap) ∧ x.Valid abi ∧ '\n' ∉ (setting gap x comment).text

def apply (c : Instance) : Line → Instance
  | remark _ => c
  | setting _ x _ => x.apply c

end Line

/-- The lines of a file, with newlines between them. -/
def fileText (doc : List Line) : Text := List.intercalate ['\n'] (doc.map Line.text)

/-- What `load` starts from. -/
def Instance.cleared (c : Instance) : Instance :=
  { c with speed := fun _ => [], acceptFrom := [], speedPort := ∅ }

/-! ### Reading a line -/

section
variable {abi : Abi} {gap v : Text} {x : Setting} {l : Line} {c : Instance} {w k : Nat}
  {kept : Nat → Nat} {doc : List Line}

theorem Key.of_text (o : TextOption) (gap : Text) :
    Key.of (o.name.toList ++ gap) = some (.scalar o.scalar) := by cases o <;> rfl

theorem Key.of_number (o : NumberOption) (gap : Text) :
    Key.of (o.name.toList ++ gap) = some (.scalar o.scalar) := by cases o <;> rfl

theorem Numeral.atol_text {n : Numeral} (h : n.value < 2 ^ (8 * abi.longBytes - 1)) :
    Text.atol abi n.text = n.value := by
  have fits : (n.value : Int) < 2 ^ (8 * abi.longBytes - 1) := by exact_mod_cast h
  rw [Text.atol, Numeral.integer_text]
  dsimp only
  rw [if_neg Bool.false_ne_true, min_eq_right (by omega), max_eq_right (by omega)]

theorem Key.of_acceptFrom (gap : Text) :
    Key.of ("accept from".toList ++ gap) = some .acceptFrom := rfl

theorem Key.of_day (index : Numeral) (gap : Text) :
    Key.of (indexed "speed" index gap) = some .speed := rfl

theorem Key.of_port (index : Numeral) (gap : Text) :
    Key.of (indexed "speed_port" index gap) = some .speed := rfl

/-- **A number is assigned** as the numeral says. -/
theorem NumberOption.set_scalar {o : NumberOption} {n : Numeral} (h : n.value < o.limit abi)
    (c : Instance) : c.set abi o.scalar n.text = o.put n.value c := by
  cases o with
  | listenPort | httpListenPort =>
      rw [scalar, Instance.set, Numeral.atol_text h]
      rfl
  | maxClients | pipeTimeout =>
      rw [scalar, Instance.set, Numeral.atoi_text h]
      rfl

/-- The numerals of a slice. -/
def SliceText.numerals (t : SliceText) : List Numeral :=
  [t.start.hr, t.stop.hr, t.speed] ++ t.start.min.toList ++ t.stop.min.toList

/-- A character that is no separator is in a schedule only as part of a numeral. -/
theorem notMem_schedule {d : Char} (hd : d ∉ ['.', '-', '=', ',']) {ts : List SliceText}
    (h : ∀ t ∈ ts, ∀ n ∈ t.numerals, d ∉ n.text) : d ∉ scheduleText ts := by
  have time (t : TimeText) (hr : d ∉ t.hr.text) (hm : ∀ m ∈ t.min, d ∉ m.text) : d ∉ t.text := by
    rw [TimeText.text, List.mem_append, not_or]
    refine ⟨hr, ?_⟩
    cases min : t.min with
    | none => exact List.not_mem_nil
    | some m =>
        refine List.not_mem_cons_of_ne_of_not_mem ?_ (hm m min)
        rintro rfl
        exact hd (by simp)
  induction ts with
  | nil => simp [scheduleText]
  | cons t ts ih =>
      obtain ⟨ht, h⟩ := List.forall_mem_cons.mp h
      have slice : d ∉ t.text := by
        have start := time t.start (ht _ (by simp [SliceText.numerals]))
          fun m hm => ht m (by simp [SliceText.numerals, Option.mem_def.mp hm])
        have stop := time t.stop (ht _ (by simp [SliceText.numerals]))
          fun m hm => ht m (by simp [SliceText.numerals, Option.mem_def.mp hm])
        have speed := ht t.speed (by simp [SliceText.numerals])
        simp only [List.mem_cons, not_or] at hd
        simp [SliceText.text, start, stop, speed, hd]
      cases ts with
      | nil => simp [scheduleText, List.intercalate, slice]
      | cons u ts =>
          rw [scheduleText_cons, List.mem_append, not_or]
          refine ⟨slice, List.not_mem_cons_of_ne_of_not_mem ?_ (ih h)⟩
          rintro rfl
          exact hd (by simp)

theorem hash_notMem_schedule (ts : List SliceText) : '#' ∉ scheduleText ts :=
  notMem_schedule (by decide) fun _ _ n _ => n.notMem_text (by decide) (by decide)

namespace Setting

theorem hash_notMem_value (h : x.Valid abi) : '#' ∉ x.value := by
  have blanks {before : Text} (hb : ∀ c ∈ before, isspace c = true) : '#' ∉ before :=
    fun hm => absurd (hb _ hm) (by decide)
  cases x with
  | text o before words => exact List.not_mem_append (blanks h.1) h.2.no_comment
  | number o n => exact n.notMem_text (by decide) (by decide)
  | acceptFrom before pattern => exact List.not_mem_append (blanks h.1) h.2.no_comment
  | day index slices => exact hash_notMem_schedule slices
  | port index slices => exact hash_notMem_schedule slices

/-- Neither an equals sign nor a number sign is in front of the equals sign. -/
theorem notMem_option {d : Char} (hd : d = '=' ∨ d = '#') (hg : d ∉ gap) (x : Setting) :
    d ∉ x.option gap := by
  have numeral (n : Numeral) : d ∉ n.text := by
    rcases hd with rfl | rfl <;> exact n.notMem_text (by decide) (by decide)
  have bracket (name : String) (hn : d ∉ name.toList) (index : Numeral) :
      d ∉ indexed name index gap := by
    have marks : d ≠ '[' ∧ d ≠ ']' := by rcases hd with rfl | rfl <;> decide
    simp [indexed, numeral index, marks, hg, hn]
  cases x with
  | text o =>
      refine List.not_mem_append ?_ hg
      rcases hd with rfl | rfl <;> cases o <;> decide
  | number o =>
      refine List.not_mem_append ?_ hg
      rcases hd with rfl | rfl <;> cases o <;> decide
  | acceptFrom =>
      refine List.not_mem_append ?_ hg
      rcases hd with rfl | rfl <;> decide
  | day index => exact bracket "speed" (by rcases hd with rfl | rfl <;> decide) index
  | port index => exact bracket "speed_port" (by rcases hd with rfl | rfl <;> decide) index

/-- Up to the comment. -/
theorem takeWhile_value (h : x.Valid abi) (comment : Option Text) :
    (x.value ++ comment.elim [] fun t => '#' :: t).takeWhile (· ≠ '#') = x.value := by
  have clean := hash_notMem_value h
  cases comment with
  | none =>
      rw [Option.elim_none, List.append_nil]
      exact Text.takeWhile_of_notMem clean
  | some t => exact Text.takeWhile_append clean t

theorem loadLine_scalar {line o : Text} {s : Scalar} (he : entry k line = some (o, v))
    (hk : Key.of o = some (.scalar s)) : loadLine abi k line c = .ok () (c.set abi s v) := by
  rw [loadLine, he]
  dsimp only
  rw [hk]

theorem loadLine_acceptFrom {line o : Text} (he : entry k line = some (o, v))
    (hk : Key.of o = some .acceptFrom) :
    loadLine abi k line c =
      .ok () { c with acceptFrom := c.acceptFrom ++ [String.ofList v] } := by
  rw [loadLine, he]
  dsimp only
  rw [hk]

theorem loadLine_speed {line o : Text} (he : entry k line = some (o, v))
    (hk : Key.of o = some .speed) : loadLine abi k line c = parseSpeed abi o v c := by
  rw [loadLine, he]
  dsimp only
  rw [hk]

/-- **What is read** does what the setting says. -/
theorem loadLine_read {line : Text} (h : x.Valid abi) (hv : Cut x.value v)
    (he : entry k line = some (x.option gap, v.dropWhile isspace)) :
    loadLine abi k line c = .ok () (x.apply c) := by
  cases x with
  | text o before words =>
      rw [loadLine_scalar he (Key.of_text o gap), h.2.read h.1 hv, o.set_scalar]
      rfl
  | number o n =>
      obtain ⟨m, read, value⟩ := Numeral.read hv
      have fits : m.value < o.limit abi := value ▸ h
      rw [loadLine_scalar he (Key.of_number o gap), ← read, NumberOption.set_scalar fits, value]
      rfl
  | acceptFrom before pattern =>
      rw [loadLine_acceptFrom he (Key.of_acceptFrom gap), h.2.read h.1 hv]
      rfl
  | day index slices =>
      obtain ⟨small, some, fits⟩ := h
      obtain ⟨ts, read, same⟩ := schedule_read some hv
      have some' : ts ≠ [] := fun hn => some (List.map_eq_nil_iff.mp (by rw [← same, hn]; rfl))
      have today : (⟨index.value, small⟩ : Fin 7) = ⟨index.value % 7, Nat.mod_lt _ (by decide)⟩ :=
        Fin.ext (Nat.mod_eq_of_lt small).symm
      rw [loadLine_speed he (Key.of_day index gap), ← read]
      refine (parseSpeed_day some' (SliceText.inRange_of_map same fits) small gap c).trans ?_
      rw [same, today]
      rfl
  | port index slices =>
      obtain ⟨small, some, fits⟩ := h
      obtain ⟨ts, read, same⟩ := schedule_read some hv
      have some' : ts ≠ [] := fun hn => some (List.map_eq_nil_iff.mp (by rw [← same, hn]; rfl))
      rw [loadLine_speed he (Key.of_port index gap), ← read]
      refine (parseSpeed_port some' (SliceText.inRange_of_map same fits) small gap c).trans ?_
      rw [same]
      rfl

end Setting

/-- **A line does** what it says. -/
theorem Line.load (h : l.Valid abi) (hp : ∀ option value, '=' ∉ option →
      l.text.takeWhile (· ≠ '#') = option ++ '=' :: value →
        ∃ p : Placement w option value, k = p.distance) :
    loadLine abi k l.text c = .ok () (l.apply c) := by
  cases l with
  | remark text =>
      have silent : entry k text = none := by
        rw [entry]
        exact if_pos (Text.find_eq_of_notMem h.1)
      rw [Line.text, loadLine, silent]
      rfl
  | setting gap x comment =>
      obtain ⟨⟨noEquals, noHash⟩, valid, -⟩ := h
      have equals := Setting.notMem_option (.inl rfl) noEquals x
      have hash := Setting.notMem_option (.inr rfl) noHash x
      have value := Setting.takeWhile_value valid comment
      have plain : ∀ d ∈ x.option gap, decide (d ≠ '#') = true := by
        intro d hd
        refine decide_eq_true ?_
        rintro rfl
        exact hash hd
      have cut : (text (setting gap x comment)).takeWhile (· ≠ '#') =
          x.option gap ++ '=' :: x.value := by
        rw [text, List.takeWhile_append_of_pos plain, List.takeWhile_cons_of_pos (by decide), value]
      obtain ⟨p, hk⟩ := hp _ _ equals cut
      have read : entry k (text (setting gap x comment)) =
          some (x.option gap, (x.value.take k).dropWhile isspace) := by
        rw [text, entry_eq equals hash, value]
      exact Setting.loadLine_read valid ⟨k, hk ▸ p.length_lt_distance, rfl⟩ read

/-- The lines are done one after the other. -/
theorem loadLines_document (h : ∀ l ∈ doc, l.Valid abi)
    (hp : PlacedLines w kept (doc.map Line.text)) (c : Instance) :
    loadLines abi kept (doc.map Line.text) c = .ok () (doc.foldl Line.apply c) := by
  induction doc generalizing kept c with
  | nil => rfl
  | cons l doc ih =>
      obtain ⟨hl, h⟩ := List.forall_mem_cons.mp h
      have first := Line.load (c := c) hl fun option value => hp 0 l.text option value rfl
      have rest : PlacedLines w (fun i => kept (i + 1)) (doc.map Line.text) := fun i => hp (i + 1)
      rw [List.map_cons, loadLines, first, Outcome.bind_ok, ih h rest]
      rfl

theorem Line.Valid.one_line (h : l.Valid abi) : '\n' ∉ l.text := by
  cases l with
  | remark text => exact h.2
  | setting gap x comment => exact h.2.2

theorem splitOn_fileText (h : ∀ l ∈ doc, l.Valid abi) (hd : doc ≠ []) :
    (fileText doc).splitOn '\n' = doc.map Line.text := by
  refine List.splitOn_intercalate '\n' (fun t ht => ?_) (List.map_eq_nil_iff.not.mpr hd)
  obtain ⟨l, hl, rfl⟩ := List.mem_map.mp ht
  exact (h l hl).one_line

/-- **A configuration file is read** as it is written: `load` makes of the instance what the lines
say, one after the other, wherever the strings of each line lie in memory. -/
theorem conf_read_back (h : ∀ l ∈ doc, l.Valid abi)
    (hp : PlacedLines w kept ((fileText doc).splitOn '\n')) (c : Instance) :
    Socks.load abi kept (some (fileText doc)) c = .ok () (doc.foldl Line.apply c.cleared) := by
  cases doc with
  | nil => rfl
  | cons l doc =>
      have lines := splitOn_fileText h (List.cons_ne_nil l doc)
      rw [lines] at hp
      rw [Socks.load, lines]
      exact loadLines_document h hp c.cleared

end

namespace Sample

/-- The counts if the options lie at the address 1000, and the values at 2000. -/
def near (lines : List Text) (i : Nat) : Nat :=
  let value := (((lines.getD i []).takeWhile (· ≠ '#')).dropWhile (· ≠ '=')).tail
  1000 + (value.rdropWhile isspace).length

theorem placed_near {lines : List Text} (h : ∀ line ∈ lines, line.length < 1000) :
    PlacedLines 32 (near lines) lines := by
  intro i line option value hi he hs
  have short : line.length < 1000 := h line (List.mem_of_getElem? hi)
  have parts : option.length + (value.length + 1) ≤ line.length := by
    have front := (List.takeWhile_prefix (p := fun c => decide (c ≠ '#')) (l := line)).length_le
    rwa [hs, List.length_append, List.length_cons] at front
  have trimmed := length_rdropWhile_le value
  refine ⟨⟨1000, 2000, by omega, by omega, .inl (by omega)⟩, ?_⟩
  have behind : (((lines.getD i []).takeWhile (· ≠ '#')).dropWhile (· ≠ '=')).tail = value := by
    rw [List.getD_eq_getElem?_getD, hi, Option.getD_some, hs, Text.dropWhile_append he,
      List.tail_cons]
  simp only [near, behind, Placement.distance]
  omega

/-- A small network, with a schedule for the monday. -/
def document : List Line :=
  [.remark "# our network".toList,
    .setting [' '] (.number .listenPort (numeral " " "1080" "  " (by decide))) (some []),
    .setting [' '] (.acceptFrom [' '] ".*".toList) none,
    .setting [] (.day monday schedule) (some " monday".toList)]

end Sample

theorem conf_read_back_sample :
    ∃ kept, load .littleEndian kept (some ("# our network\nlisten port = 1080  #\n" ++
        "accept from = .*\nspeed[1]=00.00 - 05.30 = 1500, 05.30 - 24 = 20000 # monday").toList) {} =
      .ok () { ({} : Instance) with
        port := 1080
        acceptFrom := [".*"]
        speed := Function.update (fun _ => []) 1
          [⟨0, 0, 5, 30, 1500⟩, ⟨5, 30, 24, 0, 20000⟩] } := by
  have valid : ∀ l ∈ Sample.document, l.Valid .littleEndian := by
    have blank : ∀ c ∈ [' '], isspace c = true := List.forall_mem_singleton.mpr (by decide)
    simp only [Sample.document, List.forall_mem_cons]
    refine ⟨⟨by decide, by decide⟩, ⟨by decide, ?_, by decide⟩, ⟨by decide, ?_, by decide⟩,
      ⟨by decide, ?_, by decide⟩, List.forall_mem_nil _⟩
    · show _ < 2 ^ 63
      decide
    · exact ⟨blank, by decide⟩
    · refine ⟨by decide, List.cons_ne_nil _ _, ?_⟩
      refine List.forall_mem_cons.mpr ⟨?_, List.forall_mem_singleton.mpr ?_⟩
      · exact ⟨⟨by decide, by decide⟩, ⟨by decide, by decide⟩, by decide⟩
      · exact ⟨⟨by decide, by decide⟩, ⟨by decide, by decide⟩, by decide⟩
  have placed := @Sample.placed_near ((fileText Sample.document).splitOn '\n') (by decide)
  exact ⟨_, conf_read_back valid placed {}⟩

end OldStuff.Socks
