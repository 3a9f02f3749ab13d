import OldStuff.Dup.Program

/-!
# Dup — a file system with links

A directory has named entries: a file or a directory by its number, or a symbolic link.  A file with
several entries has several hard links.  `.` and `..` are entries like any other.  A path names one
entry, in the directory that all but its last name lead to; when that is a symbolic link, the path
leads on through other entries.  `walk` collects the entries that a path goes through, and
`Walks.frame` says that these are all it depends on.

`unlink` removes the entry that a path names, and follows no link for it.  Some entries it may not
remove, and some files cannot be opened.

`open FILE,$file` does not take a name as it is: blanks at both ends are dropped, and what is left
may ask for a mode or a command (`Path.special`).  `linked` are the calls of the program; `literal`
are those of a program that opens what it names, and where no name that is opened is changed the
two do the same (`main_linked`).
-/

namespace OldStuff.Dup

/-- A path, by its names. -/
structure Path where
  absolute : Bool
  names : List String
  deriving DecidableEq

/-- What a path leads to, by its number. -/
inductive Node where
  | file (i : Nat)
  | dir (i : Nat)
  deriving DecidableEq

/-- A directory, and a name in it. -/
abbrev Entry := Nat × String

/-- What an entry stands for. -/
inductive Object where
  | node (n : Node)
  | symlink (target : Path)

/-- A file system, and the directory in which the program runs.  A path may go through `links`
symbolic links. -/
structure FileSystem where
  root : Nat
  cwd : Nat
  links : Nat
  lookup : Entry → Option Object
  content : Nat → Content
  unreadable : Nat → Bool
  denied : Entry → Bool

namespace FileSystem

variable (fs : FileSystem)

/-- Where a path starts that is met in the directory `d`. -/
def start (p : Path) (d : Nat) : Nat := if p.absolute then fs.root else d

/-- The names one by one, up to the first symbolic link; `next` goes on from there. -/
def walkWith (next : Nat → List String → Option (List Entry × Node)) (d : Nat) :
    List String → Option (List Entry × Node)
  | [] => some ([], .dir d)
  | n :: rest =>
    match fs.lookup (d, n) with
    | none => none
    | some (.node (.file i)) => if rest = [] then some ([(d, n)], .file i) else none
    | some (.node (.dir d')) => (walkWith next d' rest).map fun r => ((d, n) :: r.1, r.2)
    | some (.symlink t) => (next (fs.start t d) (t.names ++ rest)).map fun r => ((d, n) :: r.1, r.2)

/-- The entries that the names lead through from a directory, and what they lead to, by way of at
most so many symbolic links. -/
def walk : Nat → Nat → List String → Option (List Entry × Node)
  | 0 => fs.walkWith fun _ _ => none
  | k + 1 => fs.walkWith (walk k)

def resolve (p : Path) : Option (List Entry × Node) :=
  fs.walk fs.links (fs.start p fs.cwd) p.names

/-- The entries a path goes through. -/
def chain (p : Path) : List Entry := ((fs.resolve p).map (·.1)).getD []

/-- The entry a path names. -/
def entry (p : Path) : Option Entry :=
  match p.names.getLast?, fs.walk fs.links (fs.start p fs.cwd) p.names.dropLast with
  | some n, some (_, .dir d) => some (d, n)
  | _, _ => none

def size (p : Path) : Option Nat :=
  match fs.resolve p with
  | some (_, .file i) => some (fs.content i).length
  | _ => none

def read (p : Path) : Option Content :=
  match fs.resolve p with
  | some (_, .file i) => if fs.unreadable i then none else some (fs.content i)
  | _ => none

/-- The same without some entries. -/
def without (es : List Entry) : FileSystem :=
  { fs with lookup := fun e => if e ∈ es then none else fs.lookup e }

/-- `unlink`; a directory is not removed. -/
def unlink (p : Path) : Option FileSystem :=
  match fs.entry p with
  | none => none
  | some e =>
    if fs.denied e then none
    else
      match fs.lookup e with
      | none | some (.node (.dir _)) => none
      | _ => some (fs.without [e])

/-- `rename`: what was at the new name is gone.  Two names of one file are left alone, and a
directory neither replaces nor is replaced. -/
def rename (p q : Path) : Option FileSystem :=
  match fs.entry p, fs.entry q with
  | some e, some e' =>
    if fs.denied e || fs.denied e' then none
    else
      match fs.lookup e, fs.lookup e' with
      | none, _ | some (.node (.dir _)), _ | _, some (.node (.dir _)) => none
      | some (.node (.file i)), some (.node (.file j)) =>
        if i = j then some fs
        else some { fs with lookup := Function.update (fs.without [e]).lookup e' (fs.lookup e) }
      | _, _ =>
        some { fs with lookup := Function.update (fs.without [e]).lookup e' (fs.lookup e) }
  | _, _ => none

end FileSystem

/-- `"$file.DUP"`. -/
def Path.dup (p : Path) : Path :=
  match p.names.getLast? with
  | some n => { p with names := p.names.dropLast ++ [n ++ ".DUP"] }
  | none => p

/-- The calls of `dup.pl` in such a file system, if names were opened as they are. -/
def literal : Os FileSystem Path where
  size := FileSystem.size
  read := FileSystem.read
  unlink := fun fs p => fs.unlink p
  rename := fun fs p q => fs.rename p q
  dup := Path.dup

/-! ### The names that are opened -/

/-- White space, at the ends of a name. -/
def blank (c : Char) : Bool := c = ' ' || (9 ≤ c.toNat && c.toNat ≤ 13)

/-- The name begins with a mode, or is empty. -/
def beginsSpecial (n : String) : Bool :=
  match n.toList with
  | [] | '<' :: _ | '>' :: _ | '|' :: _ | '+' :: '<' :: _ | '+' :: '>' :: _ => true
  | _ => false

/-- The name ends as a command does, or is empty. -/
def endsSpecial (n : String) : Bool :=
  match n.toList.getLast? with
  | none | some '|' => true
  | _ => false

/-- The path without the blanks at its ends. -/
def Path.trimmed (p : Path) : Path :=
  let names := match p.names with
    | n :: rest =>
      if p.absolute then n :: rest else String.ofList (n.toList.dropWhile blank) :: rest
    | [] => []
  match names.getLast? with
  | some n => { p with names := names.dropLast ++ [String.ofList (n.toList.rdropWhile blank)] }
  | none => p

/-- What `open` takes for standard input, a mode, a command or another path. -/
def Path.special (p : Path) : Bool :=
  !p.absolute && (p.names = ["-"] || p.names.head?.any beginsSpecial) ||
    p.names.getLast?.any endsSpecial

/-- What `open` takes as it is. -/
def Path.Verbatim (p : Path) : Prop := p.trimmed = p ∧ p.special = false

instance (p : Path) : Decidable p.Verbatim := inferInstanceAs (Decidable (_ ∧ _))

/-- What is read from `open FILE,$file`; `other` is for the special names. -/
def FileSystem.opened (other : FileSystem → Path → Option Content) (fs : FileSystem) (p : Path) :
    Option Content :=
  if p.trimmed.special then other fs p.trimmed else fs.read p.trimmed

/-- The calls of `dup.pl`. -/
def linked (other : FileSystem → Path → Option Content) : Os FileSystem Path :=
  { literal with read := FileSystem.opened other }

theorem opened_of_verbatim {other : FileSystem → Path → Option Content} {fs : FileSystem} {p : Path}
    (h : p.Verbatim) : fs.opened other p = fs.read p := by
  rw [FileSystem.opened, h.1, if_neg (Bool.not_eq_true _ ▸ h.2)]

/-- **Names that are taken as they are**: the files are opened as they are named. -/
theorem main_linked {δ : Type} [DecidableEq δ] {perl : Perl Path δ} {fs : FileSystem}
    {args : List String} {other : FileSystem → Path → Option Content}
    (h : ∀ p ∈ compared literal perl fs args, p.Verbatim) :
    main (linked other) perl args fs = main literal perl args fs :=
  main_read fun p hp _ => opened_of_verbatim (h p hp)

/-! ### The way of a path -/

/-- `names`, from the directory `d` and by way of at most `k` symbolic links, go through the entries
`c` and lead to `node`. -/
inductive Walks (fs : FileSystem) : Nat → Nat → List String → List Entry → Node → Prop where
  | here (k d : Nat) : Walks fs k d [] [] (.dir d)
  | file {k d i : Nat} {n : String} (h : fs.lookup (d, n) = some (.node (.file i))) :
      Walks fs k d [n] [(d, n)] (.file i)
  | dir {k d d' : Nat} {n : String} {rest : List String} {c : List Entry} {node : Node}
      (h : fs.lookup (d, n) = some (.node (.dir d'))) (w : Walks fs k d' rest c node) :
      Walks fs k d (n :: rest) ((d, n) :: c) node
  | symlink {k d : Nat} {n : String} {t : Path} {rest : List String} {c : List Entry} {node : Node}
      (h : fs.lookup (d, n) = some (.symlink t))
      (w : Walks fs k (fs.start t d) (t.names ++ rest) c node) :
      Walks fs (k + 1) d (n :: rest) ((d, n) :: c) node

section
variable {fs : FileSystem} {k k' d d' i : Nat} {n : String} {names rest : List String}
  {c c' : List Entry} {node node' : Node} {e : Entry} {p q : Path} {es : List Entry}

theorem walkWith_cons {next : Nat → List String → Option (List Entry × Node)} :
    fs.walkWith next d (n :: rest) = match fs.lookup (d, n) with
      | none => none
      | some (.node (.file i)) => if rest = [] then some ([(d, n)], .file i) else none
      | some (.node (.dir d')) =>
        (fs.walkWith next d' rest).map fun r => ((d, n) :: r.1, r.2)
      | some (.symlink t) =>
        (next (fs.start t d) (t.names ++ rest)).map fun r => ((d, n) :: r.1, r.2) := rfl

/-- The names up to the first symbolic link, when `next` goes on as it should. -/
theorem walks_of_walkWith {next : Nat → List String → Option (List Entry × Node)}
    (hk : ∀ d n t rest c node, fs.lookup (d, n) = some (.symlink t) →
      next (fs.start t d) (t.names ++ rest) = some (c, node) →
        Walks fs k d (n :: rest) ((d, n) :: c) node)
    (h : fs.walkWith next d names = some (c, node)) : Walks fs k d names c node := by
  induction names generalizing d c with
  | nil =>
      cases h
      exact .here k d
  | cons n rest ih =>
      rw [walkWith_cons] at h
      split at h
      · cases h
      · next hl =>
          split at h
          · next hr =>
              subst hr
              cases h
              exact .file hl
          · cases h
      · next hl =>
          obtain ⟨r, hr, he⟩ := Option.map_eq_some_iff.mp h
          cases he
          exact .dir hl (ih hr)
      · next hl =>
          obtain ⟨r, hr, he⟩ := Option.map_eq_some_iff.mp h
          cases he
          exact hk _ _ _ _ _ _ hl hr

theorem walks_of_walk (h : fs.walk k d names = some (c, node)) : Walks fs k d names c node := by
  induction k generalizing d names c node with
  | zero => exact walks_of_walkWith (fun _ _ _ _ _ _ _ hr => by cases hr) h
  | succ k ih => exact walks_of_walkWith (fun _ _ _ _ _ _ hl hr => .symlink hl (ih hr)) h

theorem Walks.walk (h : Walks fs k d names c node) : fs.walk k d names = some (c, node) := by
  induction h with
  | here k d => cases k <;> rfl
  | @file k d i n h =>
      have (next : Nat → List String → Option (List Entry × Node)) :
          fs.walkWith next d [n] = some ([(d, n)], .file i) := by
        rw [walkWith_cons, h]
        rfl
      cases k <;> exact this _
  | @dir k d d' n rest c node h _ ih =>
      cases k <;> rw [FileSystem.walk, walkWith_cons, h] <;>
        exact Option.map_eq_some_iff.mpr ⟨_, ih, rfl⟩
  | symlink h _ ih =>
      rw [FileSystem.walk, walkWith_cons, h]
      exact Option.map_eq_some_iff.mpr ⟨_, ih, rfl⟩

/-- A path leads to one place. -/
theorem walks_iff : fs.walk k d names = some (c, node) ↔ Walks fs k d names c node :=
  ⟨walks_of_walk, Walks.walk⟩

/-- More links may be followed. -/
theorem Walks.mono (h : Walks fs k d names c node) (hk : k ≤ k') : Walks fs k' d names c node := by
  induction h generalizing k' with
  | here => exact .here _ _
  | file h => exact .file h
  | dir h _ ih => exact .dir h (ih hk)
  | symlink h _ ih =>
      obtain ⟨j, rfl⟩ := Nat.exists_eq_add_of_le' (Nat.one_le_of_lt hk)
      exact .symlink h (ih (Nat.le_of_succ_le_succ hk))

theorem Walks.det (h : Walks fs k d names c node) (h' : Walks fs k' d names c' node') :
    c' = c ∧ node' = node := by
  have first := (h.mono (Nat.le_max_left k k')).walk
  have second := (h'.mono (Nat.le_max_right k k')).walk
  exact Prod.mk.inj (Option.some.inj (second.symm.trans first))

/-- **The first names** of a path lead to a directory, from which the others go on. -/
theorem Walks.split {front back : List String} (h : Walks fs k d (front ++ back) c node)
    (hb : back ≠ []) : ∃ j d₁ c₁ c₂, Walks fs k d front c₁ (.dir d₁) ∧
      Walks fs j d₁ back c₂ node ∧ c = c₁ ++ c₂ := by
  generalize hn : front ++ back = names at h
  induction h generalizing front with
  | here => exact absurd (List.append_eq_nil_iff.mp hn).2 hb
  | @file k d i n h =>
      cases front with
      | nil =>
          obtain rfl : back = [n] := hn
          exact ⟨k, d, [], _, .here k d, .file h, rfl⟩
      | cons m front =>
          obtain ⟨-, hr⟩ := List.cons.inj hn
          exact absurd (List.append_eq_nil_iff.mp hr).2 hb
  | @dir k d d' n rest c node h w ih =>
      cases front with
      | nil =>
          obtain rfl : back = n :: rest := hn
          exact ⟨k, d, [], _, .here k d, .dir h w, rfl⟩
      | cons m front =>
          obtain ⟨rfl, hr⟩ := List.cons.inj hn
          obtain ⟨j, d₁, c₁, c₂, first, second, rfl⟩ := ih hr
          exact ⟨j, d₁, _, c₂, .dir h first, second, rfl⟩
  | @symlink k d n t rest c node h w ih =>
      cases front with
      | nil =>
          obtain rfl : back = n :: rest := hn
          exact ⟨k + 1, d, [], _, .here _ d, .symlink h w, rfl⟩
      | cons m front =>
          obtain ⟨rfl, hr⟩ := List.cons.inj hn
          have names : (t.names ++ front) ++ back = t.names ++ rest := by
            rw [List.append_assoc, ← hr]
            rfl
          obtain ⟨j, d₁, c₁, c₂, first, second, rfl⟩ := ih names
          exact ⟨j, d₁, _, c₂, .symlink h first, second, rfl⟩

/-- From each of its entries a path leads on to the same place. -/
theorem Walks.from_entry (h : Walks fs k d names c node) (he : e ∈ c) :
    ∃ j rest c', Walks fs j e.1 (e.2 :: rest) c' node := by
  induction h with
  | here => cases he
  | @file k d i n h =>
      obtain rfl := List.mem_singleton.mp he
      exact ⟨k, [], _, .file h⟩
  | dir h w ih =>
      rcases List.mem_cons.mp he with rfl | he
      · exact ⟨_, _, _, .dir h w⟩
      · exact ih he
  | symlink h w ih =>
      rcases List.mem_cons.mp he with rfl | he
      · exact ⟨_, _, _, .symlink h w⟩
      · exact ih he

/-- **A path depends on its entries** and on nothing else. -/
theorem Walks.frame {fs' : FileSystem} (h : Walks fs k d names c node) (hr : fs'.root = fs.root)
    (hc : ∀ e ∈ c, fs'.lookup e = fs.lookup e) : Walks fs' k d names c node := by
  induction h with
  | here k d => exact .here k d
  | file h => exact .file ((hc _ List.mem_cons_self).trans h)
  | dir h _ ih =>
      exact .dir ((hc _ List.mem_cons_self).trans h)
        (ih fun e he => hc e (List.mem_cons_of_mem _ he))
  | @symlink k d n t rest c node h _ ih =>
      have same : fs'.start t d = fs.start t d := by rw [FileSystem.start, FileSystem.start, hr]
      exact .symlink ((hc _ List.mem_cons_self).trans h)
        (same ▸ ih fun e he => hc e (List.mem_cons_of_mem _ he))

theorem read_iff {content : Content} : fs.read p = some content ↔
    ∃ c i, fs.resolve p = some (c, .file i) ∧ fs.unreadable i = false ∧ fs.content i = content := by
  unfold FileSystem.read
  constructor
  · intro h
    split at h
    · next c i hr =>
        obtain ⟨hu, hc⟩ := ite_eq_iff.mp h |>.resolve_left (fun h => by cases h.2)
        exact ⟨c, i, hr, Bool.eq_false_of_not_eq_true hu, Option.some.inj hc⟩
    · cases h
  · rintro ⟨c, i, hr, hu, rfl⟩
    rw [hr]
    exact if_neg (by rw [hu]; exact Bool.false_ne_true)

theorem size_iff {size : Nat} : fs.size p = some size ↔
    ∃ c i, fs.resolve p = some (c, .file i) ∧ (fs.content i).length = size := by
  unfold FileSystem.size
  constructor
  · intro h
    split at h
    · next c i hr => exact ⟨c, i, hr, Option.some.inj h⟩
    · cases h
  · rintro ⟨c, i, hr, rfl⟩
    rw [hr]

theorem size_of_read {content : Content} (h : fs.read p = some content) :
    fs.size p = some content.length := by
  obtain ⟨c, i, hr, -, rfl⟩ := read_iff.mp h
  exact size_iff.mpr ⟨c, i, hr, rfl⟩

theorem chain_of_resolve (h : fs.resolve p = some (c, node)) : fs.chain p = c := by
  rw [FileSystem.chain, h]
  rfl

theorem resolve_iff : fs.resolve p = some (c, node) ↔
    Walks fs fs.links (fs.start p fs.cwd) p.names c node := walks_iff

theorem entry_iff : fs.entry p = some e ↔ ∃ front c, p.names = front ++ [e.2] ∧
    Walks fs fs.links (fs.start p fs.cwd) front c (.dir e.1) := by
  unfold FileSystem.entry
  constructor
  · intro h
    split at h
    · next n c d hn hw =>
        cases h
        exact ⟨_, c, (List.dropLast_append_getLast? n hn).symm, walks_of_walk hw⟩
    · cases h
  · rintro ⟨front, c, hn, w⟩
    rw [hn, List.getLast?_append, List.dropLast_concat, w.walk]
    rfl

/-! ### The entry that a path names -/

/-- The entry, by itself or through links, stands for the file `i`. -/
def StandsFor (fs : FileSystem) (e : Entry) (i : Nat) : Prop :=
  ∃ k c, Walks fs k e.1 [e.2] c (.file i)

/-- A path that leads to a file goes through the entry that it names. -/
theorem exists_entry (h : fs.resolve p = some (c, .file i)) :
    ∃ e, fs.entry p = some e ∧ e ∈ c ∧ StandsFor fs e i := by
  have w := resolve_iff.mp h
  rcases List.eq_nil_or_concat p.names with hn | ⟨front, n, hn⟩
  · rw [hn] at w
    generalize fs.links = k at w
    cases w
  · rw [List.concat_eq_append] at hn
    rw [hn] at w
    obtain ⟨j, d, c₁, c₂, first, second, rfl⟩ := w.split (List.cons_ne_nil n [])
    refine ⟨(d, n), entry_iff.mpr ⟨front, c₁, hn, first⟩, ?_, j, c₂, second⟩
    cases second <;> exact List.mem_append_right _ List.mem_cons_self

/-- A path through an entry that stands for a file leads to this file. -/
theorem StandsFor.through (he : StandsFor fs e i) (h : Walks fs k d names c node) (hc : e ∈ c) :
    node = .file i := by
  obtain ⟨j, c₀, w⟩ := he
  obtain ⟨k', rest, c', w'⟩ := h.from_entry hc
  cases rest with
  | nil => exact (w.det w').2
  | cons m rest =>
      have names : Walks fs k' e.1 ([e.2] ++ m :: rest) c' node := w'
      obtain ⟨_, d', _, _, first, -, -⟩ := names.split (List.cons_ne_nil m rest)
      cases (w.det first).2

theorem StandsFor.resolve (he : StandsFor fs e i) (hc : e ∈ fs.chain p) :
    fs.resolve p = some (fs.chain p, .file i) := by
  cases hr : fs.resolve p with
  | none =>
      rw [FileSystem.chain, hr] at hc
      cases hc
  | some r =>
      obtain ⟨c, node⟩ := r
      rw [chain_of_resolve hr] at hc ⊢
      rw [he.through (resolve_iff.mp hr) hc]

theorem StandsFor.lookup_ne_dir (he : StandsFor fs e i) : fs.lookup e ≠ some (.node (.dir d)) := by
  intro h
  cases he.through (.dir h (.here 0 d)) List.mem_cons_self

theorem StandsFor.lookup_ne_none (he : StandsFor fs e i) : fs.lookup e ≠ none := by
  obtain ⟨k, c, w⟩ := he
  intro h
  cases w with
  | file hl | dir hl | symlink hl => cases h.symm.trans hl

/-! ### Removing entries -/

/-- **Without some entries** the paths that go through none of them are as they were, and the others
lead nowhere. -/
theorem walks_without : Walks (fs.without es) k d names c node ↔
    Walks fs k d names c node ∧ ∀ e ∈ c, e ∉ es := by
  have still {e : Entry} {o : Object} :
      (fs.without es).lookup e = some o ↔ fs.lookup e = some o ∧ e ∉ es := by
    simp [FileSystem.without, and_comm]
  constructor
  · intro h
    induction h with
    | here k d => exact ⟨.here k d, fun _ he => absurd he List.not_mem_nil⟩
    | file h =>
        obtain ⟨h, hn⟩ := still.mp h
        exact ⟨.file h, List.forall_mem_singleton.mpr hn⟩
    | dir h _ ih =>
        obtain ⟨h, hn⟩ := still.mp h
        exact ⟨.dir h ih.1, List.forall_mem_cons.mpr ⟨hn, ih.2⟩⟩
    | symlink h _ ih =>
        obtain ⟨h, hn⟩ := still.mp h
        exact ⟨.symlink h ih.1, List.forall_mem_cons.mpr ⟨hn, ih.2⟩⟩
  · rintro ⟨h, hn⟩
    exact h.frame rfl fun e he => if_neg (hn e he)

@[simp] theorem lookup_without :
    (fs.without es).lookup e = if e ∈ es then none else fs.lookup e := rfl

theorem without_without {es' : List Entry} :
    (fs.without es).without es' = fs.without (es ++ es') := by
  refine congrArg (fun l => { fs with lookup := l }) (funext fun e => ?_)
  by_cases he : e ∈ es <;> by_cases he' : e ∈ es' <;> simp [FileSystem.without, he, he']

theorem without_congr {es' : List Entry} (h : ∀ e, e ∈ es ↔ e ∈ es') :
    fs.without es = fs.without es' :=
  congrArg (fun l => { fs with lookup := l }) (funext fun e => if_congr (h e) rfl rfl)

/-- Entries that are gone already change nothing. -/
theorem without_append_of_subset {es' : List Entry} (h : ∀ e ∈ es', e ∈ es) :
    fs.without (es ++ es') = fs.without es := by
  refine without_congr fun e => ?_
  rw [List.mem_append]
  exact or_iff_left_of_imp (h e)

theorem resolve_without : (fs.without es).resolve p = some (c, node) ↔
    fs.resolve p = some (c, node) ∧ ∀ e ∈ c, e ∉ es := by
  rw [resolve_iff, resolve_iff]
  exact walks_without

/-- **What is read** without some entries: a path that goes through none of them reads as before,
the others read nothing. -/
theorem read_without {content : Content} : (fs.without es).read p = some content ↔
    fs.read p = some content ∧ ∀ e ∈ fs.chain p, e ∉ es := by
  rw [read_iff, read_iff]
  constructor
  · rintro ⟨c, i, hr, hu, hc⟩
    obtain ⟨hr, hn⟩ := resolve_without.mp hr
    exact ⟨⟨c, i, hr, hu, hc⟩, chain_of_resolve hr ▸ hn⟩
  · rintro ⟨⟨c, i, hr, hu, hc⟩, hn⟩
    exact ⟨c, i, resolve_without.mpr ⟨hr, chain_of_resolve hr ▸ hn⟩, hu, hc⟩

/-- A path that is collected leads to a file. -/
theorem resolve_of_collected {δ : Type} {perl : Perl Path δ} {args : List String}
    (h : p ∈ collected literal perl fs args) : ∃ c i, fs.resolve p = some (c, .file i) := by
  obtain ⟨size, hs⟩ := Option.isSome_iff_exists.mp (List.mem_filter.mp h).2
  obtain ⟨c, i, hr, -⟩ := size_iff.mp hs
  exact ⟨c, i, hr⟩

end

end OldStuff.Dup
