import OldStuff.Lib.Ere

/-!
# Lib — patterns with wild cards

A little more of the POSIX grammar: `.` is any character, and a `*` behind a character stands for
any number of it.  `Spells` relates such a pattern to the pieces it is made of, and `Match` says
which texts they match, one piece after the other.

`Search` is what a matcher promises of these patterns, as `Posix` does of those without operators
(`Search.posix`).  As nothing ties a match to the ends of the subject, `.*` accepts everything, and
behind a quoted text it makes no difference (`Search.quote_any`).  `wildSearch` is a matcher for
them (`search_wildSearch`).
-/

namespace OldStuff.Lib.Ere

/-! ### Patterns -/

/-- A given character, or any. -/
inductive Single where
  | this (c : Char)
  | any
  deriving DecidableEq

namespace Single

def is : Single → Char → Bool
  | this c, d => c = d
  | any, _ => true

/-- How it is written. -/
inductive Named : List Char → Single → Prop where
  | ordinary {c : Char} (h : c ∉ special) : Named [c] (.this c)
  | quoted {c : Char} (h : c ∈ special) : Named ['\\', c] (.this c)
  | any : Named ['.'] .any

end Single

/-- A character, once or any number of times. -/
structure Piece where
  single : Single
  star : Bool

/-- The texts that it takes. -/
def Piece.Takes (p : Piece) (part : List Char) : Prop :=
  (∀ c ∈ part, p.single.is c = true) ∧ (p.star = true ∨ part.length = 1)

/-- A pattern, and its pieces. -/
inductive Spells : List Char → List Piece → Prop where
  | once {p : List Char} {a : Single} (h : a.Named p) : Spells p [⟨a, false⟩]
  | star {p : List Char} {a : Single} (h : a.Named p) : Spells (p ++ ['*']) [⟨a, true⟩]
  | comp {p q : List Char} {ps qs : List Piece} (hp : Spells p ps) (hq : Spells q qs) :
      Spells (p ++ q) (ps ++ qs)

/-- What the pieces match. -/
def Match : List Piece → List Char → Prop
  | [], part => part = []
  | p :: ps, part => ∃ a b, part = a ++ b ∧ p.Takes a ∧ Match ps b

/-- The matcher compiles the patterns, and accepts a subject of which some part matches. -/
structure Search (regcomp : String → Option (String → Bool)) : Prop where
  search : ∀ {pattern : List Char} {ps : List Piece}, Spells pattern ps →
    ∃ regexec, regcomp (String.ofList pattern) = some regexec ∧
      ∀ subject, regexec subject = true ↔ ∃ part, Match ps part ∧ part <:+: subject.toList

section
variable {p q part : List Char} {ps qs : List Piece} {a : Single}
  {regcomp : String → Option (String → Bool)}

theorem match_append : Match (ps ++ qs) part ↔ ∃ a b, part = a ++ b ∧ Match ps a ∧ Match qs b := by
  induction ps generalizing part with
  | nil => simp [Match]
  | cons p ps ih =>
      simp only [List.cons_append, Match, ih]
      constructor
      · rintro ⟨a, _, rfl, ha, b, c, rfl, hb, hc⟩
        exact ⟨a ++ b, c, (List.append_assoc ..).symm, ⟨a, b, rfl, ha, hb⟩, hc⟩
      · rintro ⟨_, c, rfl, ⟨a, b, rfl, ha, hb⟩, hc⟩
        exact ⟨a, b ++ c, List.append_assoc .., ha, b, c, rfl, hb, hc⟩

theorem match_this {c : Char} : Match [⟨.this c, false⟩] part ↔ part = [c] := by
  constructor
  · rintro ⟨a, _, rfl, ⟨is, one⟩, rfl⟩
    obtain ⟨d, rfl⟩ := List.length_eq_one_iff.mp (one.resolve_left Bool.false_ne_true)
    have same : c = d := of_decide_eq_true (is d List.mem_cons_self)
    rw [same, List.append_nil]
  · rintro rfl
    exact ⟨[c], [], rfl, ⟨by simp [Single.is], .inr rfl⟩, rfl⟩

theorem match_any : Match [⟨.any, true⟩] part :=
  ⟨part, [], (List.append_nil part).symm, ⟨fun _ _ => rfl, .inl rfl⟩, rfl⟩

/-- A pattern without operators is one of these. -/
theorem Reads.spells {r : RegularExpression Char} (h : Reads p r) :
    ∃ ps, Spells p ps ∧ ∀ part, Match ps part ↔ part ∈ r.matches' := by
  induction h with
  | ordinary h => exact ⟨_, .once (.ordinary h), fun _ => match_this⟩
  | quoted h => exact ⟨_, .once (.quoted h), fun _ => match_this⟩
  | comp _ _ ihp ihq =>
      obtain ⟨ps, sp, mp⟩ := ihp
      obtain ⟨qs, sq, mq⟩ := ihq
      refine ⟨ps ++ qs, .comp sp sq, fun part => ?_⟩
      rw [match_append, RegularExpression.matches'_mul, Language.mem_mul]
      simp only [mp, mq]
      constructor
      · rintro ⟨a, b, rfl, ha, hb⟩
        exact ⟨a, ha, b, hb, rfl⟩
      · rintro ⟨a, ha, b, hb, rfl⟩
        exact ⟨a, b, rfl, ha, hb⟩

theorem Search.posix (h : Search regcomp) : Posix regcomp where
  search hr := by
    obtain ⟨ps, spells, same⟩ := hr.spells
    obtain ⟨regexec, hc, hs⟩ := h.search spells
    refine ⟨regexec, hc, fun subject => (hs subject).trans ?_⟩
    simp only [same]

/-- **`.*`** accepts everything. -/
theorem Search.any (h : Search regcomp) :
    ∃ regexec, regcomp ".*" = some regexec ∧ ∀ subject, regexec subject = true := by
  obtain ⟨regexec, hc, hs⟩ := h.search (.star .any)
  exact ⟨regexec, hc, fun subject => (hs subject).mpr ⟨[], match_any, List.nil_infix⟩⟩

/-- **A quoted text with `.*` behind it** is searched for as it is without. -/
theorem Search.quote_any (h : Search regcomp) {text : List Char} (ht : text ≠ []) :
    ∃ regexec, regcomp (String.ofList (quote text ++ ['.', '*'])) = some regexec ∧
      ∀ subject, regexec subject = true ↔ text <:+: subject.toList := by
  obtain ⟨r, hr, only⟩ := reads_quote ht
  obtain ⟨ps, spells, same⟩ := hr.spells
  obtain ⟨regexec, hc, hs⟩ := h.search (spells.comp (.star .any))
  refine ⟨regexec, hc, fun subject => (hs subject).trans ?_⟩
  simp only [match_append, same, only]
  constructor
  · rintro ⟨_, ⟨_, b, rfl, rfl, -⟩, found⟩
    exact (List.infix_append' [] _ b).trans found
  · intro found
    exact ⟨text, ⟨text, [], (List.append_nil text).symm, rfl, match_any⟩, found⟩

end

/-! ### A matcher -/

/-- The rest matches behind some of the characters in front, each of which is `a`. -/
def skip (rest : List Char → Bool) (a : Single) : List Char → Bool
  | [] => rest []
  | c :: s => rest (c :: s) || (a.is c && skip rest a s)

/-- A match begins here. -/
def hits : List Piece → List Char → Bool
  | [], _ => true
  | ⟨a, true⟩ :: ps, s => skip (hits ps) a s
  | ⟨_, false⟩ :: _, [] => false
  | ⟨a, false⟩ :: ps, c :: s => a.is c && hits ps s

/-- A single character, or the star (`none`). -/
def token (c : Char) : Option (Option Single) :=
  if c = '*' then some none
  else if c = '.' then some (some .any)
  else if c ∈ special then none
  else some (some (.this c))

def tokens : List Char → Option (List (Option Single))
  | [] => some []
  | [c] => (token c).map fun t => [t]
  | c :: d :: rest =>
    if c = '\\' then if d ∈ special then (tokens rest).map (some (.this d) :: ·) else none
    else (token c).bind fun t => (tokens (d :: rest)).map (t :: ·)

def pieces : List (Option Single) → Option (List Piece)
  | [] => some []
  | none :: _ => none
  | some a :: none :: rest => (pieces rest).map (⟨a, true⟩ :: ·)
  | some a :: rest => (pieces rest).map (⟨a, false⟩ :: ·)

/-- It compiles the patterns with wild cards, and tries them at every place. -/
def wildSearch (pattern : String) : Option (String → Bool) :=
  ((tokens pattern.toList).bind pieces).map fun ps subject => subject.toList.tails.any (hits ps)

section
variable {p q part s : List Char} {ps qs : List Piece} {a : Single}

theorem skip_iff {rest : List Char → Bool} : skip rest a s = true ↔
    ∃ front back, s = front ++ back ∧ (∀ c ∈ front, a.is c = true) ∧ rest back = true := by
  induction s with
  | nil => simp [skip]
  | cons c s ih =>
      rw [skip, Bool.or_eq_true, Bool.and_eq_true, ih]
      constructor
      · rintro (here | ⟨is, front, back, rfl, all, there⟩)
        · exact ⟨[], c :: s, rfl, List.forall_mem_nil _, here⟩
        · exact ⟨c :: front, back, rfl, List.forall_mem_cons.mpr ⟨is, all⟩, there⟩
      · rintro ⟨front, back, text, all, there⟩
        cases front with
        | nil => exact .inl (text ▸ there)
        | cons d front =>
            obtain ⟨rfl, rfl⟩ := List.cons.inj text
            obtain ⟨is, all⟩ := List.forall_mem_cons.mp all
            exact .inr ⟨is, front, back, rfl, all, there⟩

/-- **A match** that begins here. -/
theorem hits_iff : hits ps s = true ↔ ∃ part, Match ps part ∧ part <+: s := by
  induction ps generalizing s with
  | nil => simp [hits, Match]
  | cons p ps ih =>
      obtain ⟨a, star⟩ := p
      cases star with
      | true =>
          rw [hits, skip_iff]
          constructor
          · rintro ⟨front, back, rfl, all, there⟩
            obtain ⟨part, hm, hp⟩ := ih.mp there
            exact ⟨front ++ part, ⟨front, part, rfl, ⟨all, .inl rfl⟩, hm⟩,
              (List.prefix_append_right_inj front).mpr hp⟩
          · rintro ⟨_, ⟨front, part, rfl, ⟨all, -⟩, hm⟩, back, rfl⟩
            exact ⟨front, part ++ back, List.append_assoc .., all,
              ih.mpr ⟨part, hm, List.prefix_append part back⟩⟩
      | false =>
          cases s with
          | nil =>
              refine iff_of_false Bool.false_ne_true ?_
              rintro ⟨_, ⟨front, part, rfl, ⟨-, one⟩, -⟩, hp⟩
              have none := (List.append_eq_nil_iff.mp (List.prefix_nil.mp hp)).1
              rw [none] at one
              exact one.elim nofun nofun
          | cons c s =>
              rw [hits, Bool.and_eq_true, ih]
              constructor
              · rintro ⟨is, part, hm, hp⟩
                refine ⟨c :: part, ⟨[c], part, rfl, ⟨by simpa using is, .inr rfl⟩, hm⟩, ?_⟩
                exact (List.prefix_cons_inj c).mpr hp
              · rintro ⟨_, ⟨front, part, rfl, ⟨all, one⟩, hm⟩, hp⟩
                obtain ⟨d, rfl⟩ := List.length_eq_one_iff.mp (one.resolve_left Bool.false_ne_true)
                obtain ⟨rfl, rest⟩ := List.cons_prefix_cons.mp hp
                exact ⟨all d List.mem_cons_self, part, hm, rest⟩

theorem tokens_plain {c : Char} (h : c ≠ '\\') (rest : List Char) :
    tokens (c :: rest) = (token c).bind fun t => (tokens rest).map (t :: ·) := by
  cases rest with
  | nil =>
      have last : tokens [c] = (token c).map fun t => [t] := by rw [tokens]
      rw [last]
      cases token c <;> rfl
  | cons d rest => rw [tokens, if_neg h]

theorem Single.Named.tokens (h : a.Named p) (rest : List Char) :
    tokens (p ++ rest) = (tokens rest).map (some a :: ·) := by
  cases h with
  | @ordinary c h =>
      have star : c ≠ '*' := fun e => h (e ▸ by decide)
      have dot : c ≠ '.' := fun e => h (e ▸ by decide)
      have back : c ≠ '\\' := fun e => h (e ▸ by decide)
      rw [List.singleton_append, tokens_plain back, token, if_neg star, if_neg dot, if_neg h]
      rfl
  | @quoted c h => simp [Ere.tokens, h]
  | any =>
      rw [List.singleton_append, tokens_plain (by decide)]
      rfl

/-- **A pattern is taken apart** into its pieces, whatever follows but a star. -/
theorem Spells.exists_tokens (h : Spells p ps) : ∃ a ts,
    (∀ rest, tokens (p ++ rest) = (tokens rest).map (some a :: ts ++ ·)) ∧
      ∀ us : List (Option Single), us.head? ≠ some none →
        pieces (some a :: ts ++ us) = (pieces us).map (ps ++ ·) := by
  induction h with
  | @once p a h =>
      refine ⟨a, [], h.tokens, fun us hu => ?_⟩
      cases us with
      | nil => rfl
      | cons u us =>
          cases u with
          | none => exact absurd rfl hu
          | some b => rfl
  | @star p a h =>
      refine ⟨a, [none], fun rest => ?_, fun us _ => rfl⟩
      rw [List.append_assoc, h.tokens, List.singleton_append, tokens_plain (by decide)]
      simp [token, Function.comp_def]
  | @comp p q ps qs _ _ ihp ihq =>
      obtain ⟨a, ts, tp, pp⟩ := ihp
      obtain ⟨b, us, tq, pq⟩ := ihq
      refine ⟨a, ts ++ some b :: us, fun rest => ?_, fun vs hv => ?_⟩
      · rw [List.append_assoc, tp, tq, Option.map_map]
        simp [Function.comp_def]
      · have front := pp (some b :: us ++ vs) (by simp)
        rw [pq vs hv, Option.map_map] at front
        simpa [Function.comp_def] using front

theorem search_wildSearch : Search wildSearch where
  search {pattern ps} h := by
    obtain ⟨a, ts, ht, hp⟩ := h.exists_tokens
    have text := ht []
    have parts := hp [] (by simp)
    rw [List.append_nil] at text parts
    have compiled : wildSearch (String.ofList pattern) =
        some fun subject => subject.toList.tails.any (hits ps) := by
      rw [wildSearch, String.toList_ofList, text]
      simp [tokens, parts, pieces]
    refine ⟨_, compiled, fun subject => ?_⟩
    simp only [List.any_eq_true, List.mem_tails, hits_iff, List.infix_iff_prefix_suffix]
    constructor
    · rintro ⟨t, ht, part, hm, hp⟩
      exact ⟨part, hm, t, hp, ht⟩
    · rintro ⟨part, hm, t, hp, ht⟩
      exact ⟨t, ht, part, hm, hp⟩

end

end OldStuff.Lib.Ere
