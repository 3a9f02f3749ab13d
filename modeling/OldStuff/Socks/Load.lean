import OldStuff.Lib.Outcome
import OldStuff.Socks.Config

/-!
# Socks — reading the configuration file

`config::load` goes through the file line by line and writes into the static instance as it goes, so
that an unknown option throws in the middle of it.  `Instance` is the whole of the instance: what
the connections consult (`Config`) and what only `main` does.

Most options are one assignment each (`Scalar`).  `speed[..]`, `speed_port[..]` and `accept from`
add to lists, which `load` clears before it reads anything.

`value` is cut at a `std::distance` between an iterator of `value` and one of `option`, for which
the language promises nothing: `kept` says how many characters it comes to in each line.  A number
is read as by a C library that stops at the limits of `long`.
-/

namespace OldStuff.Socks
open OldStuff.Io
open OldStuff.Lib (Outcome)

/-- A `std::string`, by its characters. -/
abbrev Text := List Char

namespace Text

/-- `find`; `npos` is -1. -/
def find (c : Char) (s : Text) : Int := ((s.findIdx? (· = c)).map Int.ofNat).getD (-1)

/-- `substr`.  A negative count is as good as the largest. -/
def substr (s : Text) (pos : Int) (count : Int) : Text :=
  if count < 0 then s.drop pos.toNat else (s.drop pos.toNat).take count.toNat

def isspace (c : Char) : Bool := c ∈ [' ', '\t', '\n', '\x0b', '\x0c', '\r']

def isdigit (c : Char) : Bool := '0' ≤ c ∧ c ≤ '9'

/-- What `strtol` and `strtoul` make of the text: the sign, and the number behind it. -/
def integer (s : Text) : Bool × Nat :=
  let s := s.dropWhile isspace
  let sign := s.takeWhile fun c => c = '+' ∨ c = '-'
  let digits := ((s.drop (min sign.length 1)).takeWhile isdigit).map fun c => c.toNat - '0'.toNat
  (sign.head? = some '-', digits.foldl (fun n d => 10 * n + d) 0)

/-- `atol`. -/
def atol (abi : Abi) (s : Text) : Int :=
  let limit : Int := 2 ^ (8 * abi.longBytes - 1)
  let n : Int := if (integer s).1 then -(integer s).2 else (integer s).2
  max (-limit) (min (limit - 1) n)

/-- `atoi`: the same, as an `int`. -/
def atoi (abi : Abi) (s : Text) : Int := (atol abi s).bmod (2 ^ 32)

/-- `strtoul`: a sign is taken modulo the size of the type. -/
def strtoul (abi : Abi) (s : Text) : Nat :=
  let size := 2 ^ (8 * abi.longBytes)
  if size ≤ (integer s).2 then size - 1
  else if (integer s).1 then (size - (integer s).2) % size
  else (integer s).2

end Text

/-! ### The instance -/

/-- `config::instance`; the static object starts out zeroed. -/
structure Instance extends Config where
  port : Int := 0
  httpPort : Int := 0
  maxClients : Int := 0
  listenInterface : Text := []
  httpListenInterface : Text := []
  logfile : Text := []
  runAs : Text := []

/-- The options with one value. -/
inductive Scalar where
  | listenInterface
  | logfile
  | listenPort
  | runAs
  | maxClients
  | pipeTimeout
  | httpListenInterface
  | httpListenPort
  deriving DecidableEq

/-- What an option stands for. -/
inductive Key where
  | speed
  | acceptFrom
  | scalar (s : Scalar)
  deriving DecidableEq

namespace Key

/-- The comparisons of `load`, in its order. -/
def names : List (String × Key) :=
  [("speed", .speed), ("listen interface", .scalar .listenInterface), ("logfile", .scalar .logfile),
    ("listen port", .scalar .listenPort), ("run as", .scalar .runAs),
    ("max clients", .scalar .maxClients), ("accept from", .acceptFrom),
    ("pipe timeout", .scalar .pipeTimeout),
    ("http listen interface", .scalar .httpListenInterface),
    ("http listen port", .scalar .httpListenPort)]

/-- `option.find(name)==0`, for the first name of which it is true. -/
def of (option : Text) : Option Key :=
  (names.find? fun n => n.1.toList.isPrefixOf option).map (·.2)

end Key

/-- A number or a string. -/
inductive Value where
  | number (n : Int)
  | text (s : Text)
  deriving DecidableEq

namespace Scalar

/-- What the text behind the equals sign comes to. -/
def value (abi : Abi) (s : Scalar) (t : Text) : Value :=
  match s with
  | .listenInterface | .logfile | .runAs | .httpListenInterface => .text t
  | .listenPort | .httpListenPort => .number (Text.atol abi t)
  | .maxClients | .pipeTimeout => .number (Text.atoi abi t)

/-- The value in an instance that is all zeroes. -/
def zero : Scalar → Value
  | .listenInterface | .logfile | .runAs | .httpListenInterface => .text []
  | .listenPort | .httpListenPort | .maxClients | .pipeTimeout => .number 0

end Scalar

namespace Instance

/-- The assignment behind an option. -/
def set (abi : Abi) (s : Scalar) (t : Text) (c : Instance) : Instance :=
  match s with
  | .listenInterface => { c with listenInterface := t }
  | .logfile => { c with logfile := t }
  | .listenPort => { c with port := Text.atol abi t }
  | .runAs => { c with runAs := t }
  | .maxClients => { c with maxClients := Text.atoi abi t }
  | .pipeTimeout => { c with pipeTimeout := Text.atoi abi t }
  | .httpListenInterface => { c with httpListenInterface := t }
  | .httpListenPort => { c with httpPort := Text.atol abi t }

def get (s : Scalar) (c : Instance) : Value :=
  match s with
  | .listenInterface => .text c.listenInterface
  | .logfile => .text c.logfile
  | .listenPort => .number c.port
  | .runAs => .text c.runAs
  | .maxClients => .number c.maxClients
  | .pipeTimeout => .number c.pipeTimeout
  | .httpListenInterface => .text c.httpListenInterface
  | .httpListenPort => .number c.httpPort

theorem get_set (abi : Abi) (s t : Scalar) (v : Text) (c : Instance) :
    (c.set abi s v).get t = if t = s then s.value abi v else c.get t := by
  cases s <;> cases t <;> rfl

@[simp] theorem get_zero (s : Scalar) : get s {} = s.zero := by cases s <;> rfl

end Instance

/-! ### `parse_speed` -/

/-- `from_hr`, `from_min` and the like. -/
def clockTime (abi : Abi) (s : Text) : Int × Int :=
  let dot := Text.find '.' s
  if dot = -1 then (Text.atoi abi s, 0)
  else (Text.atoi abi (Text.substr s 0 dot), Text.atoi abi (Text.substr s (dot + 1) (-1)))

/-- One slice, `from - to = speed`. -/
def timeSlice (abi : Abi) (part : Text) : TimeSlice :=
  let dash := Text.find '-' part
  let eq := Text.find '=' part
  let start := clockTime abi (Text.substr part 0 dash)
  let stop := clockTime abi (Text.substr part (dash + 1) (eq - dash - 1))
  ⟨start.1, start.2, stop.1, stop.2, Text.strtoul abi (Text.substr part (eq + 1) (-1))⟩

example : timeSlice .littleEndian "07.30 - 24.00 = 20000".toList = ⟨7, 30, 24, 0, 20000⟩ := by
  decide

/-- `instance.speed_port[day].push_back(tm)`, or the same of `instance.speed`, an array of
seven. -/
def pushSlice (port : Bool) (day : Int) (tm : TimeSlice) (c : Instance) : Outcome Instance Unit :=
  if port then
    .ok () { c with
      speedPort := c.speedPort.insert day ((c.speedPort.lookup day).getD [] ++ [tm]) }
  else if h : 0 ≤ day ∧ day.toNat < 7 then
    let day : Fin 7 := ⟨day.toNat, h.2⟩
    .ok () { c with speed := Function.update c.speed day (c.speed day ++ [tm]) }
  else .fault

/-- The loop over the parts between two commas. -/
def pushSlices (abi : Abi) (port : Bool) (day : Int) :
    List Text → Instance → Outcome Instance Unit
  | [], c => .ok () c
  | part :: rest, c =>
    (pushSlice port day (timeSlice abi part) c).bind fun _ c => pushSlices abi port day rest c

/-- `parse_speed`. -/
def parseSpeed (abi : Abi) (option value : Text) (c : Instance) : Outcome Instance Unit :=
  let port := "speed_port".toList.isPrefixOf option
  let idx1 := Text.find '[' option
  let idx2 := Text.find ']' option
  let day := Text.atoi abi (Text.substr option (idx1 + 1) (idx2 - idx1 - 1))
  pushSlices abi port day (value.splitOn ',') c

/-! ### `load` -/

/-- The option and the value of a line, if it has an equals sign outside of its comment. -/
def entry (kept : Nat) (line : Text) : Option (Text × Text) :=
  let line := line.takeWhile (· ≠ '#')
  let idx := Text.find '=' line
  if idx = -1 then none
  else
    some (Text.substr line 0 idx,
      ((Text.substr line (idx + 1) (-1)).take kept).dropWhile Text.isspace)

/-- What is done with a line. -/
def loadLine (abi : Abi) (kept : Nat) (line : Text) (c : Instance) : Outcome Instance Unit :=
  match entry kept line with
  | none => .ok () c
  | some (option, value) =>
    match Key.of option with
    | none => .thrown c
    | some .speed => parseSpeed abi option value c
    | some .acceptFrom => .ok () { c with acceptFrom := c.acceptFrom ++ [String.ofList value] }
    | some (.scalar s) => .ok () (c.set abi s value)

/-- The loop over the lines; `kept i` belongs to the line `i`. -/
def loadLines (abi : Abi) (kept : Nat → Nat) : List Text → Instance → Outcome Instance Unit
  | [], c => .ok () c
  | line :: rest, c =>
    (loadLine abi (kept 0) line c).bind fun _ c => loadLines abi (fun i => kept (i + 1)) rest c

/-- `load`; a file that cannot be opened is `none`. -/
def load (abi : Abi) (kept : Nat → Nat) (file : Option Text) (c : Instance) :
    Outcome Instance Unit :=
  match file with
  | none => .thrown c
  | some text =>
    loadLines abi kept (text.splitOn '\n')
      { c with speed := fun _ => [], acceptFrom := [], speedPort := ∅ }

end OldStuff.Socks
