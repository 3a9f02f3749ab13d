import OldStuff.Io.Descriptor

/-!
# Socks — the configuration in force

`config::instance` is a global that a `SIGHUP` may replace between any two steps of the server.
Here are its lookups: the addresses let in (`can_connect`), and the speed a relayed connection is
held to (`get_speed`), from the slices of the destination port if it has any and from those of
the weekday otherwise.

The regular expressions of `accept from` are matched by the C library: `regcomp` is a parameter
that compiles a pattern, or fails, and yields the predicate `regexec` decides.
-/

namespace OldStuff.Socks
open OldStuff.Io

/-- `config::time_slice`. -/
structure TimeSlice where
  fromHr : Int
  fromMin : Int
  toHr : Int
  toMin : Int
  speed : Nat
  deriving DecidableEq

/-- What the program reads of `struct tm`. -/
structure Tm where
  wday : Fin 7
  hour : Nat
  min : Nat

/-- The configuration data the connections consult; the static instance starts out zeroed. -/
structure Config where
  pipeTimeout : Int := 0
  speed : Fin 7 → List TimeSlice := fun _ => []
  speedPort : AList (fun _ : Int => List TimeSlice) := ∅
  acceptFrom : List String := []

namespace Config

/-- `can_connect`: the first pattern that matches admits the address; a pattern that does not
compile throws (`none`). -/
def canConnect (regcomp : String → Option (String → Bool)) (ip : String) :
    List String → Option Bool
  | [] => some false
  | pattern :: rest =>
    match regcomp pattern with
    | none => none
    | some regexec => if regexec ip then some true else canConnect regcomp ip rest

/-- `get_speed_time`: the speed of the first slice around the current minute, or 0. -/
def getSpeedTime (now : Tm) : List TimeSlice → Nat
  | [] => 0
  | slice :: rest =>
    let start := slice.fromHr * 60 + slice.fromMin
    let stop := slice.toHr * 60 + slice.toMin
    let tmNow : Int := now.hour * 60 + now.min
    if start ≤ tmNow ∧ tmNow < stop then slice.speed else getSpeedTime now rest

/-- `get_speed`.  `instance.speed_port[port]` enters an empty list for a port that has none. -/
def getSpeed (now : Tm) (port : Int) (cfg : Config) : Nat × Config :=
  let speed := getSpeedTime now (cfg.speed now.wday)
  let foo := (cfg.speedPort.lookup port).getD []
  let cfg := { cfg with speedPort := cfg.speedPort.insert port foo }
  (if foo.length ≠ 0 then getSpeedTime now foo else speed, cfg)

end Config

end OldStuff.Socks
