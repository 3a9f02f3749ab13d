import Mathlib

/-!
# Lib — extended regular expressions without operators

The part of the POSIX grammar that spells out a text: an ordinary character stands for itself, a
special one for itself behind a backslash, and what follows one another is concatenated.  `Reads`
relates such a pattern to the regular expression it is.

`Posix` is what a matcher promises of these patterns: they compile, and a subject is accepted if
some part of it matches; nothing ties the match to the ends of the subject.  So a quoted text is
found wherever it occurs (`Posix.quote`).  `literalSearch` is a matcher for them
(`posix_literalSearch`).
-/

namespace OldStuff.Lib.Ere

/-- The characters that stand for something else where they are not quoted. -/
def special : List Char := ['^', '.', '[', '$', '(', ')', '|', '*', '+', '?', '\x7b', '\\']

/-- A pattern without operators, and what it means. -/
inductive Reads : List Char → RegularExpression Char → Prop where
  | ordinary {c : Char} (h : c ∉ special) : Reads [c] (.char c)
  | quoted {c : Char} (h : c ∈ special) : Reads ['\\', c] (.char c)
  | comp {p q : List Char} {r s : RegularExpression Char} (hp : Reads p r) (hq : Reads q s) :
      Reads (p ++ q) (r * s)

/-- The matcher compiles the patterns, and accepts a subject of which some part matches. -/
structure Posix (regcomp : String → Option (String → Bool)) : Prop where
  search : ∀ {pattern : List Char} {r : RegularExpression Char}, Reads pattern r →
    ∃ regexec, regcomp (String.ofList pattern) = some regexec ∧
      ∀ subject, regexec subject = true ↔ ∃ part ∈ r.matches', part <:+: subject.toList

/-- The text with its special characters quoted. -/
def quote (text : List Char) : List Char :=
  text.flatMap fun c => if c ∈ special then ['\\', c] else [c]

/-- A quoted text is a pattern for this text only. -/
theorem reads_quote {text : List Char} (h : text ≠ []) :
    ∃ r, Reads (quote text) r ∧ ∀ part, part ∈ r.matches' ↔ part = text := by
  have one (c : Char) : Reads (if c ∈ special then ['\\', c] else [c]) (.char c) := by
    split
    · next hc => exact .quoted hc
    · next hc => exact .ordinary hc
  induction text with
  | nil => exact absurd rfl h
  | cons c rest ih =>
      cases rest with
      | nil =>
          refine ⟨.char c, ?_, fun part => Iff.rfl⟩
          rw [quote, List.flatMap_singleton]
          exact one c
      | cons d rest =>
          obtain ⟨r, hr, hm⟩ := ih (List.cons_ne_nil d rest)
          refine ⟨.char c * r, .comp (one c) hr, fun part => ?_⟩
          rw [RegularExpression.matches'_mul, Language.mem_mul]
          constructor
          · rintro ⟨a, rfl, b, hb, rfl⟩
            rw [(hm b).mp hb]
            rfl
          · rintro rfl
            exact ⟨[c], rfl, d :: rest, (hm _).mpr rfl, rfl⟩

/-- **A quoted text is searched for**: it is accepted wherever it occurs. -/
theorem Posix.quote {regcomp : String → Option (String → Bool)} (h : Posix regcomp)
    {text : List Char} (ht : text ≠ []) :
    ∃ regexec, regcomp (String.ofList (quote text)) = some regexec ∧
      ∀ subject, regexec subject = true ↔ text <:+: subject.toList := by
  obtain ⟨r, hr, hm⟩ := reads_quote ht
  obtain ⟨regexec, hc, hs⟩ := h.search hr
  refine ⟨regexec, hc, fun subject => (hs subject).trans ?_⟩
  simp [hm]

/-! ### A matcher -/

/-- The text that a pattern spells out. -/
def unquote : List Char → Option (List Char)
  | [] => some []
  | [c] => if c ∈ special then none else some [c]
  | c :: d :: rest =>
    if c = '\\' then if d ∈ special then (unquote rest).map (d :: ·) else none
    else if c ∈ special then none else (unquote (d :: rest)).map (c :: ·)

/-- It compiles patterns that spell out a text, and searches for the text. -/
def literalSearch (pattern : String) : Option (String → Bool) :=
  (unquote pattern.toList).map fun text subject => decide (text <:+: subject.toList)

theorem unquote_cons {c : Char} (h : c ∉ special) (rest : List Char) :
    unquote (c :: rest) = (unquote rest).map (c :: ·) := by
  have back : c ≠ '\\' := fun e => h (e ▸ by decide)
  cases rest with
  | nil => simp [unquote, h]
  | cons d rest => simp [unquote, h, back]

theorem unquote_quoted {c : Char} (h : c ∈ special) (rest : List Char) :
    unquote ('\\' :: c :: rest) = (unquote rest).map (c :: ·) := by
  simp [unquote, h]

/-- A pattern spells out a text, whatever follows. -/
theorem Reads.exists_text {pattern : List Char} {r : RegularExpression Char} (h : Reads pattern r) :
    ∃ text, (∀ part, part ∈ r.matches' ↔ part = text) ∧
      ∀ rest, unquote (pattern ++ rest) = (unquote rest).map (text ++ ·) := by
  induction h with
  | @ordinary c h => exact ⟨[c], fun part => Iff.rfl, unquote_cons h⟩
  | @quoted c h => exact ⟨[c], fun part => Iff.rfl, unquote_quoted h⟩
  | @comp p q r s _ _ ihp ihq =>
      obtain ⟨a, ha, ua⟩ := ihp
      obtain ⟨b, hb, ub⟩ := ihq
      refine ⟨a ++ b, fun part => ?_, fun rest => ?_⟩
      · rw [RegularExpression.matches'_mul, Language.mem_mul]
        simp [ha, hb, eq_comm]
      · rw [List.append_assoc, ua, ub, Option.map_map]
        simp [Function.comp_def]

theorem posix_literalSearch : Posix literalSearch := by
  refine ⟨fun h => ?_⟩
  obtain ⟨text, ht, hu⟩ := h.exists_text
  have whole := hu []
  rw [List.append_nil] at whole
  refine ⟨fun subject => decide (text <:+: subject.toList), ?_, fun subject => ?_⟩
  · rw [literalSearch, String.toList_ofList, whole]
    simp [unquote]
  · simp [ht]

end OldStuff.Lib.Ere
