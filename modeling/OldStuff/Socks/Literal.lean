import OldStuff.Lib.Ere
import OldStuff.Lib.Fields
import OldStuff.Socks.Config

/-!
# Socks — literal entries of `accept from`

`socks.conf` shows how one host is let in: by its address in dotted quads, with the dots escaped.
But `can_connect` asks whether the pattern matches *in* the address, and nobody puts `^` before it
and `$` behind it.  So the entry lets in every host in whose address the given one occurs.

Where that is follows from the octets (`Within`): the two in the middle are the same, the first has
perhaps more digits in front and the last perhaps more behind.  `127\.0\.0\.1` lets in
`127.0.0.10`, too.
-/

namespace OldStuff.Socks
open OldStuff.Lib OldStuff.Io

/-- What `get_remote_address_dotted_quad` gives for a peer with this address. -/
def dottedQuad (abi : Abi) (a : UInt32) : String :=
  FileDescriptor.getRemoteAddressDottedQuad abi ⟨0, 0, ⟨0, a⟩⟩

/-- The entry for this address: its text, with the dots escaped. -/
def literal (abi : Abi) (a : UInt32) : String :=
  String.ofList ((dottedQuad abi a).toList.flatMap fun c => if c = '.' then ['\\', c] else [c])

/-- An octet of an address, as the network has them. -/
def octetAt (abi : Abi) (a : UInt32) (i : Nat) : UInt8 := (abi.store 4 a.toNat).getD i 0

/-- The decimal digits of an octet. -/
def digits (o : UInt8) : List Char := Nat.toDigits 10 o.toNat

/-- The text of `a` occurs in the text of `b`. -/
def Within (abi : Abi) (a b : UInt32) : Prop :=
  digits (octetAt abi a 0) <:+ digits (octetAt abi b 0) ∧ octetAt abi a 1 = octetAt abi b 1 ∧
    octetAt abi a 2 = octetAt abi b 2 ∧ digits (octetAt abi a 3) <+: digits (octetAt abi b 3)

instance (abi : Abi) (a b : UInt32) : Decidable (Within abi a b) :=
  inferInstanceAs (Decidable (_ <:+ _ ∧ _ = _ ∧ _ = _ ∧ _ <+: _))

/-! ### The text of an address -/

theorem dot_not_mem_digits (o : UInt8) : '.' ∉ digits o := by
  intro h
  have := Nat.isDigit_of_mem_toDigits (by decide) (by decide) h
  revert this
  decide

theorem digits_inj {o o' : UInt8} : digits o = digits o' ↔ o = o' := by
  refine ⟨fun h => UInt8.toNat_inj.mp ?_, fun h => h ▸ rfl⟩
  have read (o : UInt8) : Nat.ofDigitChars 10 (digits o) 0 = o.toNat :=
    Nat.ofDigitChars_ten_toDigits
  rw [← read o, h, read o']

/-- Four octets with dots between them. -/
theorem toList_dottedQuad (abi : Abi) (a : UInt32) :
    (dottedQuad abi a).toList = ['.'].intercalate
      (digits (octetAt abi a 0) ::
        ([digits (octetAt abi a 1), digits (octetAt abi a 2)] ++ [digits (octetAt abi a 3)])) := by
  have four := abi.length_store 4 a.toNat
  rw [dottedQuad, FileDescriptor.getRemoteAddressDottedQuad, String.toList_intercalate]
  unfold octetAt
  revert four
  generalize abi.store 4 a.toNat = os
  intro four
  obtain ⟨o₀, o₁, o₂, o₃, rfl⟩ := List.length_eq_four.mp four
  simp [digits, Nat.toString_eq_repr]

/-- **One address in another.** -/
theorem dottedQuad_infix_iff (abi : Abi) (a b : UInt32) :
    (dottedQuad abi a).toList <:+: (dottedQuad abi b).toList ↔ Within abi a b := by
  have free (c : UInt32) : ∀ field ∈ digits (octetAt abi c 0) ::
      ([digits (octetAt abi c 1), digits (octetAt abi c 2)] ++ [digits (octetAt abi c 3)]),
      '.' ∉ field := by
    intro field hf
    simp only [List.cons_append, List.nil_append, List.mem_cons, List.not_mem_nil, or_false] at hf
    rcases hf with rfl | rfl | rfl | rfl <;> exact dot_not_mem_digits _
  rw [toList_dottedQuad, toList_dottedQuad, intercalate_infix_iff (free a) (free b) rfl, Within]
  simp [digits_inj, and_assoc]

/-- It is a digit or a dot. -/
theorem mem_dottedQuad {abi : Abi} {a : UInt32} {c : Char} (hc : c ∈ (dottedQuad abi a).toList) :
    c = '.' ∨ c.isDigit = true := by
  have digit {o : UInt8} (h : c ∈ digits o) : c.isDigit = true :=
    Nat.isDigit_of_mem_toDigits (by decide) (by decide) h
  simp only [toList_dottedQuad, List.cons_append, List.nil_append, List.intercalate_cons_cons,
    List.intercalate_singleton, List.mem_append, List.mem_singleton] at hc
  rcases hc with (h | h) | (h | h) | (h | h) | h
  · exact .inr (digit h)
  · exact .inl h
  · exact .inr (digit h)
  · exact .inl h
  · exact .inr (digit h)
  · exact .inl h
  · exact .inr (digit h)

/-- Of its characters only the dots are special. -/
theorem literal_eq_quote (abi : Abi) (a : UInt32) :
    literal abi a = String.ofList (Ere.quote (dottedQuad abi a).toList) := by
  rw [literal, Ere.quote]
  congr 1
  refine List.flatMap_congr fun c hc => ?_
  rcases mem_dottedQuad hc with rfl | hd
  · rfl
  · have plain : c ∉ Ere.special := by
      intro hs
      have none' : Ere.special.all fun c => ! c.isDigit := by decide
      have := List.all_eq_true.mp none' c hs
      rw [hd] at this
      cases this
    have dot : c ≠ '.' := fun e => plain (e ▸ by decide)
    rw [if_neg dot, if_neg plain]

/-! ### Who is let in -/

section
variable {regcomp : String → Option (String → Bool)}

/-- One entry matches the addresses in which its own occurs. -/
theorem regcomp_literal (h : Ere.Posix regcomp) (abi : Abi) (a : UInt32) :
    ∃ regexec, regcomp (literal abi a) = some regexec ∧
      ∀ b, regexec (dottedQuad abi b) = decide (Within abi a b) := by
  have text : (dottedQuad abi a).toList ≠ [] := by
    rw [toList_dottedQuad]
    simp
  obtain ⟨regexec, hc, hs⟩ := h.quote text
  refine ⟨regexec, literal_eq_quote abi a ▸ hc, fun b => ?_⟩
  rw [Bool.eq_iff_iff, hs, decide_eq_true_iff, dottedQuad_infix_iff]

/-- **A list of literal entries** lets in the addresses in which one of its own occurs. -/
theorem canConnect_literals (h : Ere.Posix regcomp) (abi : Abi) (as : List UInt32) (b : UInt32) :
    Config.canConnect regcomp (dottedQuad abi b) (as.map (literal abi)) =
      some (decide (∃ a ∈ as, Within abi a b)) := by
  induction as with
  | nil => simp [Config.canConnect]
  | cons a as ih =>
      obtain ⟨regexec, hc, hs⟩ := regcomp_literal h abi a
      rw [List.map_cons, Config.canConnect, hc]
      by_cases hw : Within abi a b
      · simp [hs, hw]
      · simp [hs, hw, ih]

theorem Within.refl (abi : Abi) (a : UInt32) : Within abi a a :=
  ⟨List.suffix_rfl, rfl, rfl, List.prefix_rfl⟩

/-- **When a literal entry admits one host.**  Of two hosts the entry for the first lets in the
first only, if the text of its address does not occur in that of the other; and a list of such
entries, in any order, lets in exactly the listed hosts, if an address in which a listed one occurs
is listed, too. -/
theorem literal_entries (h : Ere.Posix regcomp) (abi : Abi) :
    (∀ a b, a ≠ b →
      ((Config.canConnect regcomp (dottedQuad abi a) [literal abi a] = some true ∧
        Config.canConnect regcomp (dottedQuad abi b) [literal abi a] = some false) ↔
          ¬ Within abi a b)) ∧
    ∀ as : List UInt32,
      (∀ as' : List UInt32, as'.Perm as → ∀ b,
        Config.canConnect regcomp (dottedQuad abi b) (as'.map (literal abi)) =
          some (decide (b ∈ as))) ↔
        ∀ a ∈ as, ∀ b, Within abi a b → b ∈ as := by
  have one (a b : UInt32) : Config.canConnect regcomp (dottedQuad abi b) [literal abi a] =
      some (decide (Within abi a b)) := by
    have := canConnect_literals h abi [a] b
    simpa using this
  constructor
  · intro a b _
    rw [one, one]
    simp [Within.refl]
  · intro as
    constructor
    · intro all a ha b hw
      have := all as (.refl as) b
      rw [canConnect_literals h, Option.some_inj, decide_eq_decide] at this
      exact this.mp ⟨a, ha, hw⟩
    · intro closed as' hp b
      rw [canConnect_literals h, Option.some_inj, decide_eq_decide]
      constructor
      · rintro ⟨a, ha, hw⟩
        exact closed a (hp.mem_iff.mp ha) b hw
      · intro hb
        exact ⟨b, hp.mem_iff.mpr hb, .refl abi b⟩

end

/-- `10.0.0.1` is let in by its entry, and `127.0.0.1` is not. -/
theorem literal_entries_apart :
    Config.canConnect Ere.literalSearch (dottedQuad .littleEndian 0x0100000A)
        [literal .littleEndian 0x0100000A] = some true ∧
      Config.canConnect Ere.literalSearch (dottedQuad .littleEndian 0x0100007F)
        [literal .littleEndian 0x0100000A] = some false :=
  ((literal_entries Ere.posix_literalSearch .littleEndian).1 0x0100000A 0x0100007F
    (by decide)).mpr (by decide)

/-- `127.0.0.10` is let in by the entry for `127.0.0.1`. -/
theorem localhost_lets_in_another :
    (0x0100007F : UInt32) ≠ 0x0A00007F ∧
      Config.canConnect Ere.literalSearch (dottedQuad .littleEndian 0x0A00007F)
        [literal .littleEndian 0x0100007F] = some true := by
  refine ⟨by decide, ?_⟩
  have within : Within .littleEndian 0x0100007F 0x0A00007F := by decide
  have := canConnect_literals Ere.posix_literalSearch .littleEndian [0x0100007F] 0x0A00007F
  rw [List.map_singleton] at this
  rw [this]
  simp [within]

end OldStuff.Socks
