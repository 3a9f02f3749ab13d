import OldStuff.Lib.Wild
import OldStuff.Socks.Literal

/-!
# Socks — networks in `accept from`

Besides a host, `socks.conf` lets in a network, by the octets that its addresses begin with, a dot
behind each and `.*` behind the last (`193\.168\.40\..*`); and everybody, by `.*`.  `Rule` is an
entry of one of these kinds, and `Rule.Admits` tells the addresses that its pattern matches in.

The octets of a network are found wherever they stand in an address, if not at its end, and the
first of them may have more digits in front: `10\..*` lets in `192.10.1.1` and `210.0.0.1`.  So an
entry admits its network and nobody else just if it has three octets, the first of them with three
digits (`network_entries`), as the one in `socks.conf` does.
-/

namespace OldStuff.Socks
open OldStuff.Lib OldStuff.Io

/-- The octets of an address, as the network has them. -/
def octets (abi : Abi) (a : UInt32) : Bytes := abi.store 4 a.toNat

/-- An entry of `accept from`, of the kinds in `socks.conf`. -/
inductive Rule where
  | host (a : UInt32)
  | network (first : UInt8) (rest : Bytes)
  | everyone

namespace Rule

def pattern (abi : Abi) : Rule → String
  | host a => literal abi a
  | network first rest =>
    String.ofList (Ere.quote ((first :: rest).flatMap fun o => digits o ++ ['.']) ++ ['.', '*'])
  | everyone => ".*"

example : (network 193 [168, 40]).pattern .littleEndian = "193\\.168\\.40\\..*" := by decide

/-- The pattern of the entry matches in the text of `b`. -/
def Admits (abi : Abi) (b : UInt32) : Rule → Prop
  | host a => Within abi a b
  | network first rest => ∃ i < 3 - rest.length, digits first <:+ digits (octetAt abi b i) ∧
      ((octets abi b).drop (i + 1)).take rest.length = rest
  | everyone => True

instance (abi : Abi) (b : UInt32) (e : Rule) : Decidable (e.Admits abi b) := by
  cases e <;> unfold Admits <;> infer_instance

end Rule

/-! ### The text of an address -/

section
variable {abi : Abi} {b : UInt32} {first o : UInt8} {rest : Bytes}
  {regcomp : String → Option (String → Bool)}

@[simp] theorem length_octets : (octets abi b).length = 4 := abi.length_store 4 b.toNat

theorem octets_getElem? {i : Nat} (hi : i < 4) : (octets abi b)[i]? = some (octetAt abi b i) := by
  have there : i < (octets abi b).length := by simpa using hi
  rw [List.getElem?_eq_getElem there, octetAt, List.getD_eq_getElem?_getD]
  show _ = some (((octets abi b)[i]?).getD 0)
  rw [List.getElem?_eq_getElem there, Option.getD_some]

theorem dottedQuad_octets :
    (dottedQuad abi b).toList = ['.'].intercalate ((octets abi b).map digits) := by
  rw [toList_dottedQuad]
  congr 1
  have four : octets abi b = [octetAt abi b 0, octetAt abi b 1, octetAt abi b 2, octetAt abi b 3] :=
    List.ext_getElem? fun i => by
      by_cases hi : i < 4
      · rw [octets_getElem? hi]
        rcases i with _ | _ | _ | _ | i <;> first | rfl | omega
      · rw [List.getElem?_eq_none (by simp; omega), List.getElem?_eq_none (by simp; omega)]
  rw [four]
  rfl

theorem exists_octets (abi : Abi) {os : Bytes} (h : os.length = 4) : ∃ b, octets abi b = os := by
  refine ⟨UInt32.ofNat (abi.load os), ?_⟩
  have small : abi.load os < 2 ^ 32 := by
    have := abi.load_lt os
    rwa [h] at this
  rw [octets, UInt32.toNat_ofNat', Nat.mod_eq_of_lt small, abi.store_load h]

/-- **A network in an address.** -/
theorem network_infix_iff : ((first :: rest).flatMap fun o => digits o ++ ['.']) <:+:
    (dottedQuad abi b).toList ↔ (Rule.network first rest).Admits abi b := by
  have free (os : Bytes) : ∀ field ∈ os.map digits, '.' ∉ field :=
    List.forall_mem_map.mpr fun o _ => dot_not_mem_digits o
  have text : ((first :: rest).flatMap fun o => digits o ++ ['.']) =
      (digits first :: rest.map digits).flatMap (· ++ ['.']) := by
    simp [List.flatMap_map]
  rw [text, dottedQuad_octets, ended_infix_iff (free (first :: rest)) (free (octets abi b))]
  constructor
  · rintro ⟨init, field, next, more, fields, ends⟩
    have total : init.length + (rest.length + (more.length + 1) + 1) = 4 := by
      have := congrArg List.length fields
      simpa using this.symm
    refine ⟨init.length, by omega, ?_, ?_⟩
    · have here := congrArg (fun l : List (List Char) => l[init.length]?) fields
      simp only [List.getElem?_map, octets_getElem? (by omega : init.length < 4),
        List.getElem?_append_right (Nat.le_refl _), Nat.sub_self,
        List.getElem?_cons_zero, Option.map_some, Option.some_inj] at here
      rwa [here]
    · have behind := congrArg (fun l => (l.drop (init.length + 1)).take rest.length) fields
      have inj : Function.Injective digits := fun _ _ => digits_inj.mp
      refine List.map_injective_iff.mpr inj ?_
      simpa [List.map_take, List.map_drop, List.drop_append, List.drop_eq_nil_of_le] using behind
  · rintro ⟨i, hi, ends, row⟩
    have there : i < (octets abi b).length := by simp; omega
    obtain ⟨next, more, last⟩ := List.exists_cons_of_ne_nil
      (l := ((octets abi b).drop (i + 1)).drop rest.length)
      (List.ne_nil_of_length_pos (by simp; omega))
    refine ⟨((octets abi b).take i).map digits, digits (octetAt abi b i), digits next,
      more.map digits, ?_, ends⟩
    have here : (octets abi b)[i] = octetAt abi b i :=
      Option.some.inj ((List.getElem?_eq_getElem there).symm.trans (octets_getElem? (by omega)))
    have all : octets abi b =
        (octets abi b).take i ++ octetAt abi b i :: (rest ++ next :: more) := by
      rw [← row, ← last, List.take_append_drop, ← here, List.getElem_cons_drop,
        List.take_append_drop]
    have := congrArg (List.map digits) all
    simpa using this

/-! ### Who is let in -/

theorem Rule.regcomp_pattern (h : Ere.Search regcomp) (abi : Abi) (e : Rule) :
    ∃ regexec, regcomp (e.pattern abi) = some regexec ∧
      ∀ b, regexec (dottedQuad abi b) = decide (e.Admits abi b) := by
  cases e with
  | host a => exact regcomp_literal h.posix abi a
  | network first rest =>
      have text : ((first :: rest).flatMap fun o => digits o ++ ['.']) ≠ [] := by simp
      obtain ⟨regexec, hc, hs⟩ := h.quote_any text
      refine ⟨regexec, hc, fun b => ?_⟩
      rw [Bool.eq_iff_iff, hs, decide_eq_true_iff, network_infix_iff]
  | everyone =>
      obtain ⟨regexec, hc, hs⟩ := h.any
      exact ⟨regexec, hc, fun b => (hs _).trans (decide_eq_true trivial).symm⟩

/-- A list of entries lets in whom one of them admits. -/
theorem canConnect_entries (h : Ere.Search regcomp) (abi : Abi) (entries : List Rule)
    (b : UInt32) : Config.canConnect regcomp (dottedQuad abi b) (entries.map (Rule.pattern abi)) =
      some (decide (∃ e ∈ entries, e.Admits abi b)) := by
  induction entries with
  | nil => simp [Config.canConnect]
  | cons e entries ih =>
      obtain ⟨regexec, hc, hs⟩ := e.regcomp_pattern h abi
      rw [List.map_cons, Config.canConnect, hc]
      by_cases he : e.Admits abi b
      · simp [hs, he]
      · simp [hs, he, ih]

/-! ### When it is the network -/

/-- An octet of three digits is the end of no other. -/
theorem digits_suffix (h : 100 ≤ first) (hs : digits first <:+ digits o) : first = o := by
  have three (o : UInt8) : (digits o).length ≤ 3 ∧ (100 ≤ o → 3 ≤ (digits o).length) := by
    rw [digits]
    revert o
    decide +kernel
  have long := (three first).2 h
  have short := (three o).1
  exact digits_inj.mp (hs.eq_of_length_le (by omega))

/-- One of fewer digits is the end of another. -/
theorem exists_suffix (h : ¬ 100 ≤ first) : ∃ o, first ≠ o ∧ digits first <:+ digits o := by
  refine ⟨first + 100, ?_⟩
  have each : ∀ o : UInt8, ¬ 100 ≤ o → o ≠ o + 100 ∧ digits o <:+ digits (o + 100) := by
    decide +kernel
  exact each first h

/-- Who is let in besides the network. -/
theorem exists_stranger (h : rest.length ≤ 2) (hn : ¬ (rest.length = 2 ∧ 100 ≤ first)) (abi : Abi) :
    ∃ b, (Rule.network first rest).Admits abi b ∧ ¬ first :: rest <+: octets abi b := by
  have pad (os : Bytes) (hos : os.length ≤ 4) :
      ∃ b, octets abi b = os ++ List.replicate (4 - os.length) 0 :=
    exists_octets abi (by simp; omega)
  have at' {b : UInt32} {i : Nat} {o : UInt8} (hi : (octets abi b)[i]? = some o) :
      octetAt abi b i = o := by
    have inside : i < 4 := by
      obtain ⟨bound, -⟩ := List.getElem?_eq_some_iff.mp hi
      simpa using bound
    exact Option.some.inj ((octets_getElem? inside).symm.trans hi)
  by_cases short : rest.length = 2
  · -- the first octet has another digit in front
    obtain ⟨o, other, ends⟩ := exists_suffix fun big => hn ⟨short, big⟩
    obtain ⟨b, hb⟩ := pad (o :: rest) (by simp; omega)
    refine ⟨b, ⟨0, by omega, ?_, by simp [hb]⟩, fun starts => ?_⟩
    · rwa [at' (o := o) (by simp [hb])]
    · rw [hb] at starts
      exact other (List.cons_prefix_cons.mp starts).1
  · -- the network stands behind the first octet
    obtain ⟨b, hb⟩ := pad ((first + 1) :: first :: rest) (by simp; omega)
    refine ⟨b, ⟨1, by omega, ?_, by simp [hb]⟩, fun starts => ?_⟩
    · rw [at' (o := first) (by simp [hb])]
    · rw [hb] at starts
      have same := (List.cons_prefix_cons.mp starts).1
      have apart : ∀ o : UInt8, o ≠ o + 1 := by decide +kernel
      exact apart first same

/-- **What the entries for networks let in.**  A list of entries for hosts and networks and for
everybody lets in the addresses that one of them admits; and one for a network lets in that network
only just if it has three octets, the first of them with three digits. -/
theorem network_entries (h : Ere.Search regcomp) (abi : Abi) :
    (∀ (entries : List Rule) b,
      Config.canConnect regcomp (dottedQuad abi b) (entries.map (Rule.pattern abi)) =
        some (decide (∃ e ∈ entries, e.Admits abi b))) ∧
    ∀ first rest, rest.length ≤ 2 →
      ((∀ b, Config.canConnect regcomp (dottedQuad abi b) [(Rule.network first rest).pattern abi] =
          some (decide (first :: rest <+: octets abi b))) ↔ rest.length = 2 ∧ 100 ≤ first) := by
  refine ⟨canConnect_entries h abi, fun first rest hr => ?_⟩
  have one (b : UInt32) : Config.canConnect regcomp (dottedQuad abi b)
      [(Rule.network first rest).pattern abi] =
        some (decide ((Rule.network first rest).Admits abi b)) := by
    have := canConnect_entries h abi [.network first rest] b
    simpa using this
  simp only [one, Option.some_inj, decide_eq_decide]
  constructor
  · intro exact'
    by_contra hn
    obtain ⟨b, admitted, strange⟩ := exists_stranger hr hn abi
    exact strange ((exact' b).mp admitted)
  · rintro ⟨two, big⟩ b
    have zero : (octets abi b)[0]? = some (octetAt abi b 0) := octets_getElem? (by decide)
    obtain ⟨o, os, hos⟩ := List.exists_cons_of_ne_nil
      (List.ne_nil_of_length_pos (by simp : 0 < (octets abi b).length))
    rw [hos, List.getElem?_cons_zero, Option.some_inj] at zero
    constructor
    · rintro ⟨i, hi, ends, row⟩
      obtain rfl : i = 0 := by omega
      rw [← zero] at ends
      rw [hos, List.drop_succ_cons, List.drop_zero] at row
      rw [hos, digits_suffix big ends, ← row]
      exact (List.prefix_cons_inj o).mpr (List.take_prefix _ _)
    · rw [hos]
      intro starts
      obtain ⟨rfl, behind⟩ := List.cons_prefix_cons.mp starts
      refine ⟨0, by omega, by rw [← zero], ?_⟩
      rw [hos, List.drop_succ_cons, List.drop_zero]
      exact (List.prefix_iff_eq_take.mp behind).symm

end

/-- The network of `socks.conf` lets in `193.168.40.7` and not `10.0.0.1`; and that of the
addresses from `10.0.0.0` lets in `210.0.0.1`. -/
theorem network_entries_sample :
    (Config.canConnect Ere.wildSearch (dottedQuad .littleEndian 0x0728A8C1)
        [(Rule.network 193 [168, 40]).pattern .littleEndian] = some true ∧
      Config.canConnect Ere.wildSearch (dottedQuad .littleEndian 0x0100000A)
        [(Rule.network 193 [168, 40]).pattern .littleEndian] = some false) ∧
      Config.canConnect Ere.wildSearch (dottedQuad .littleEndian 0x010000D2)
        ([Rule.network 10 []].map (Rule.pattern .littleEndian)) = some true := by
  obtain ⟨lists, networks⟩ := network_entries Ere.search_wildSearch .littleEndian
  have own := (networks 193 [168, 40] (by decide)).mpr (by decide)
  refine ⟨⟨?_, ?_⟩, ?_⟩
  · rw [own]
    decide
  · rw [own]
    decide
  · rw [lists]
    decide

end OldStuff.Socks
