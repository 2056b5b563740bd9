/-
Conformance/Proofs/PackagePatterns.lean

Package patterns mean what one would take them to mean.

A reader of a pattern sees words and runs of dots.  A single dot only keeps
words apart; two dots or more are a gap, which any number of segments may fill,
and the word `**` is a gap as well; the word `*` stands for one segment, and
every other word for itself (`reading`).  A package is described by the pattern
if its segments can be cut into one piece per token such that each token takes
its piece (`Covers`).

Matching goes another way.  It rewrites pairs of dots from the left into words
`**` and drops what is empty between dots, so that a run of dots becomes as many
gaps as it has pairs (`tokens_eq_flatMap_runs`).  Gaps that follow each other are
as good as one (`covers_tokensOfRun`), which is why it makes no difference how
long a run is, from two dots on.
-/
import Mathlib.Data.List.Forall2
import Mathlib.Data.List.SplitBy
import Conformance.Package

namespace Conformance.Package

/-! ### Patterns as they are read -/

/-- The text cut into runs of dots and the words between them, each as long as
can be. -/
def runs (pattern : List Char) : List (List Char) :=
  pattern.splitBy fun c d => (c == '.') == (d == '.')

/-- What a run of dots or a word stands for; a single dot stands for nothing. -/
def Token.ofRun? : List Char → Option Token
  | ['.'] => none
  | '.' :: _ => some .many
  | ['*'] => some .one
  | ['*', '*'] => some .many
  | word => some (.literal word)

/-- The tokens that a reader sees in a pattern. -/
def reading (pattern : String) : List Token :=
  (runs pattern.toList).filterMap Token.ofRun?

/-- The pieces of a package that a token may stand for. -/
def Token.Takes : Token → List (List Char) → Prop
  | .many, _ => True
  | .one, piece => piece.length = 1
  | .literal word, piece => piece = [word]

/-- Segments can be cut, in order, into one piece per token that the token
takes. -/
def Covers (tokens : List Token) (segments : List (List Char)) : Prop :=
  ∃ cut : List (List (List Char)), cut.flatten = segments
    ∧ List.Forall₂ Token.Takes tokens cut

/-! ### Cutting -/

section Covers

variable {t : Token} {ts ts' : List Token} {segments : List (List Char)}

theorem covers_nil : Covers [] segments ↔ segments = [] := by
  constructor
  · rintro ⟨cut, rfl, hcut⟩
    cases hcut
    rfl
  · rintro rfl
    exact ⟨[], rfl, .nil⟩

theorem covers_cons :
    Covers (t :: ts) segments ↔
      ∃ piece rest, segments = piece ++ rest ∧ t.Takes piece ∧ Covers ts rest := by
  constructor
  · rintro ⟨cut, rfl, hcut⟩
    cases hcut with
    | @cons _ piece _ cut htakes hrest =>
      exact ⟨piece, cut.flatten, rfl, htakes, cut, rfl, hrest⟩
  · rintro ⟨piece, rest, rfl, htakes, cut, rfl, hcut⟩
    exact ⟨piece :: cut, rfl, .cons htakes hcut⟩

theorem covers_append :
    Covers (ts ++ ts') segments ↔
      ∃ front back, segments = front ++ back ∧ Covers ts front ∧ Covers ts' back := by
  induction ts generalizing segments with
  | nil =>
    simp only [List.nil_append, covers_nil]
    constructor
    · exact fun h => ⟨[], segments, rfl, rfl, h⟩
    · rintro ⟨front, back, rfl, rfl, h⟩
      exact h
  | cons t ts ih =>
    rw [List.cons_append, covers_cons]
    constructor
    · rintro ⟨piece, rest, rfl, htakes, hrest⟩
      obtain ⟨front, back, rfl, hfront, hback⟩ := ih.mp hrest
      refine ⟨piece ++ front, back, (List.append_assoc _ _ _).symm, ?_, hback⟩
      exact covers_cons.mpr ⟨piece, front, rfl, htakes, hfront⟩
    · rintro ⟨front, back, rfl, hfront, hback⟩
      obtain ⟨piece, rest, rfl, htakes, hrest⟩ := covers_cons.mp hfront
      refine ⟨piece, rest ++ back, List.append_assoc _ _ _, htakes, ?_⟩
      exact ih.mpr ⟨rest, back, rfl, hrest, hback⟩

/-- Matching tries all cuts. -/
theorem matchSegments_iff_covers :
    matchSegments ts segments = true ↔ Covers ts segments := by
  induction ts generalizing segments with
  | nil => rw [matchSegments, List.isEmpty_iff, covers_nil]
  | cons t ts ih =>
    rw [covers_cons]
    cases t with
    | many =>
      simp only [matchSegments, List.any_eq_true, List.mem_range, ih]
      constructor
      · rintro ⟨i, -, hrest⟩
        exact ⟨segments.take i, segments.drop i, (List.take_append_drop i _).symm,
          trivial, hrest⟩
      · rintro ⟨piece, rest, rfl, -, hrest⟩
        -- the cut after a piece is at the piece's length
        refine ⟨piece.length, ?_, ?_⟩
        · simp only [List.length_append]
          omega
        · rwa [List.drop_left]
    | one =>
      cases segments with
      | nil =>
        simp only [matchSegments, Bool.false_eq_true, false_iff]
        rintro ⟨piece, rest, hsegments, htakes, -⟩
        obtain ⟨rfl, -⟩ := List.nil_eq_append_iff.mp hsegments
        cases htakes
      | cons segment segments =>
        rw [matchSegments, ih]
        constructor
        · exact fun h => ⟨[segment], segments, rfl, rfl, h⟩
        · rintro ⟨piece, rest, hsegments, htakes, hrest⟩
          obtain ⟨word, rfl⟩ := List.length_eq_one_iff.mp htakes
          obtain ⟨-, rfl⟩ := List.cons.inj hsegments
          exact hrest
    | literal word =>
      cases segments with
      | nil =>
        simp only [matchSegments, Bool.false_eq_true, false_iff]
        rintro ⟨piece, rest, hsegments, rfl, -⟩
        cases hsegments
      | cons segment segments =>
        rw [matchSegments, Bool.and_eq_true, beq_iff_eq, ih]
        constructor
        · rintro ⟨rfl, hrest⟩
          exact ⟨[segment], segments, rfl, rfl, hrest⟩
        · rintro ⟨piece, rest, hsegments, rfl, hrest⟩
          obtain ⟨rfl, rfl⟩ := List.cons.inj hsegments
          exact ⟨rfl, hrest⟩

/-- One gap or more may be filled with anything. -/
theorem covers_replicate_many (n : Nat) (segments : List (List Char)) :
    Covers (List.replicate (n + 1) .many) segments := by
  induction n with
  | zero => exact covers_cons.mpr ⟨segments, [], by simp, trivial, covers_nil.mpr rfl⟩
  | succ n ih => exact covers_cons.mpr ⟨[], segments, rfl, trivial, ih⟩

end Covers

/-! ### Runs of dots and words -/

/-- A run of at least one dot, or a word without dots. -/
def IsRun (run : List Char) : Prop :=
  (∃ n, run = List.replicate (n + 1) '.') ∨ run ≠ [] ∧ '.' ∉ run

/-- Characters that are each dots or not like the next one are all dots or all
not. -/
theorem eq_dot_iff_of_isChain {c : Char} {cs : List Char}
    (h : (c :: cs).IsChain fun a b => ((a == '.') == (b == '.')) = true) :
    ∀ d ∈ c :: cs, d = '.' ↔ c = '.' := by
  induction cs generalizing c with
  | nil =>
    intro d hd
    rw [List.mem_singleton.mp hd]
  | cons b cs ih =>
    obtain ⟨hcb, hrest⟩ := List.isChain_cons_cons.mp h
    have hsame : c = '.' ↔ b = '.' := by
      rwa [beq_iff_eq, Bool.eq_iff_iff, beq_iff_eq, beq_iff_eq] at hcb
    intro d hd
    rcases List.mem_cons.mp hd with rfl | hd
    · rfl
    · exact (ih hrest d hd).trans hsame.symm

theorem isRun_of_mem_runs {pattern run : List Char} (h : run ∈ runs pattern) :
    IsRun run := by
  have hne : run ≠ [] := List.ne_nil_of_mem_splitBy h
  have hchain := List.isChain_of_mem_splitBy h
  obtain ⟨c, cs, rfl⟩ := List.exists_cons_of_ne_nil hne
  have hsame := eq_dot_iff_of_isChain hchain
  by_cases hc : c = '.'
  · left
    refine ⟨cs.length, List.eq_replicate_iff.mpr ⟨rfl, ?_⟩⟩
    exact fun d hd => (hsame d hd).mpr hc
  · right
    exact ⟨hne, fun hdot => hc ((hsame '.' hdot).mp rfl)⟩

/-- A run is all dots if it ends in one. -/
theorem IsRun.getLast_eq_dot_iff {run : List Char} (h : IsRun run)
    (hne : run ≠ []) : run.getLast hne = '.' ↔ '.' ∈ run := by
  constructor
  · intro hlast
    rw [← hlast]
    exact List.getLast_mem hne
  · rcases h with ⟨n, rfl⟩ | ⟨-, hno⟩
    · intro _
      exact List.getLast_replicate _
    · exact fun hdot => absurd hdot hno

/-- A run is followed by nothing, or by a character that would not be part of
it. -/
def EndsBefore (run rest : List Char) : Prop :=
  ∀ c ∈ rest.head?, c = '.' ↔ '.' ∉ run

/-- Runs that follow each other are of different sorts. -/
def Alternating (rs : List (List Char)) : Prop :=
  rs.IsChain fun run next => ∃ hrun hnext,
    ((run.getLast hrun == '.') == (next.head hnext == '.')) = false

theorem Alternating.endsBefore {run : List Char} {rs : List (List Char)}
    (h : Alternating (run :: rs)) (hrun : IsRun run) : EndsBefore run rs.flatten := by
  cases rs with
  | nil =>
    intro c hc
    cases hc
  | cons next rs =>
    obtain ⟨⟨hne, hnext, hdiffer⟩, -⟩ := List.isChain_cons_cons.mp h
    intro c hc
    have hhead : c = next.head hnext := by
      rw [List.flatten_cons, List.head?_append_of_ne_nil _ hnext,
        List.head?_eq_some_head hnext] at hc
      exact (Option.some.inj hc).symm
    have hiff : ¬ (run.getLast hne = '.' ↔ next.head hnext = '.') := by
      rwa [beq_eq_false_iff_ne, ne_eq, Bool.eq_iff_iff, beq_iff_eq, beq_iff_eq] at hdiffer
    rw [hrun.getLast_eq_dot_iff hne] at hiff
    rw [hhead]
    tauto

/-! ### Patterns as they are rewritten -/

theorem expand_dots (cs : List Char) :
    expand ('.' :: '.' :: cs) = '.' :: '*' :: '*' :: '.' :: expand cs := by
  rw [expand]

/-- A dot that has no pair stays. -/
theorem expand_dot {cs : List Char} (h : '.' ∉ cs.head?) :
    expand ('.' :: cs) = '.' :: expand cs := by
  rcases cs with - | ⟨c, cs⟩
  · rfl
  · rw [expand]
    intro _ _ hpair
    obtain ⟨rfl, -⟩ := List.cons.inj hpair
    exact h rfl

theorem expand_append {word : List Char} (h : '.' ∉ word) (rest : List Char) :
    expand (word ++ rest) = word ++ expand rest := by
  induction word with
  | nil => rfl
  | cons c word ih =>
    rw [List.mem_cons, not_or] at h
    rw [List.cons_append, expand, ih h.2, List.cons_append]
    intro _ hdot
    exact absurd hdot.symm h.1

/-- Of a run of dots, each pair becomes a word `**`, and one that is left over
only separates. -/
theorem segments_expand_dots {rest : List Char} (h : '.' ∉ rest.head?) :
    ∀ n, Text.segments '.' (expand (List.replicate n '.' ++ rest))
      = List.replicate (n / 2) ['*', '*'] ++ Text.segments '.' (expand rest)
  | 0 => rfl
  | 1 => by
    rw [List.replicate_one, List.singleton_append, expand_dot h,
      Text.segments_cons_sep]
    rfl
  | n + 2 => by
    have hword : Text.segments '.' ('*' :: '*' :: '.' :: expand (List.replicate n '.' ++ rest))
        = ['*', '*'] :: Text.segments '.' (expand (List.replicate n '.' ++ rest)) :=
      Text.segments_append_sep '.' ['*', '*'] _
    rw [List.replicate_succ, List.replicate_succ, List.cons_append, List.cons_append,
      expand_dots, Text.segments_cons_sep, hword, segments_expand_dots h n,
      Nat.add_div_right n (Nat.succ_pos 1), List.replicate_succ, List.cons_append]

/-- A word that a dot follows, or nothing, is a segment. -/
theorem segments_expand_word {word rest : List Char} (hne : word ≠ [])
    (hword : '.' ∉ word) (hrest : ∀ c ∈ rest.head?, c = '.') :
    Text.segments '.' (expand (word ++ rest))
      = word :: Text.segments '.' (expand rest) := by
  have hself : Text.segments '.' word = [word] := Text.segments_of_not_mem hne hword
  rw [expand_append hword]
  rcases rest with - | ⟨c, rest⟩
  · rw [expand, List.append_nil, hself]
    rfl
  · obtain rfl : c = '.' := hrest c rfl
    -- whether or not the dot has a pair, a dot comes first
    obtain ⟨cs, hcs⟩ : ∃ cs, expand ('.' :: rest) = '.' :: cs := by
      unfold expand
      split
      · exact ⟨_, rfl⟩
      · rename_i heq
        obtain ⟨rfl, -⟩ := List.cons.inj heq
        exact ⟨_, rfl⟩
      · rename_i heq
        cases heq
    rw [hcs, Text.segments_append_sep, Text.segments_cons_sep, hself]
    rfl

/-- The tokens that a run of dots or a word becomes. -/
def tokensOfRun (run : List Char) : List Token :=
  if '.' ∈ run then List.replicate (run.length / 2) .many
  else [Token.ofSegment run]

/-- One run after the other is turned into its tokens. -/
theorem tokens_of_run {run rest : List Char} (hrun : IsRun run)
    (hends : EndsBefore run rest) :
    (Text.segments '.' (expand (run ++ rest))).map Token.ofSegment
      = tokensOfRun run ++ (Text.segments '.' (expand rest)).map Token.ofSegment := by
  rcases hrun with ⟨n, rfl⟩ | ⟨hne, hword⟩
  · have hdot : '.' ∈ List.replicate (n + 1) '.' := by simp
    have hrest : '.' ∉ rest.head? := fun hin => (hends '.' hin).mp rfl hdot
    rw [segments_expand_dots hrest, List.map_append, List.map_replicate, tokensOfRun,
      if_pos hdot, List.length_replicate]
    rfl
  · have hrest : ∀ c ∈ rest.head?, c = '.' := fun c hc => (hends c hc).mpr hword
    rw [segments_expand_word hne hword hrest, tokensOfRun, if_neg hword]
    rfl

theorem tokens_of_flatten {rs : List (List Char)} (hrs : ∀ run ∈ rs, IsRun run)
    (halt : Alternating rs) :
    (Text.segments '.' (expand rs.flatten)).map Token.ofSegment
      = rs.flatMap tokensOfRun := by
  induction rs with
  | nil => rfl
  | cons run rs ih =>
    obtain ⟨hrun, hrest⟩ := List.forall_mem_cons.mp hrs
    rw [List.flatten_cons, tokens_of_run hrun (halt.endsBefore hrun),
      ih hrest halt.tail, List.flatMap_cons]

/-- The tokens of a pattern are those of its runs. -/
theorem tokens_eq_flatMap_runs (pattern : String) :
    tokens pattern = (runs pattern.toList).flatMap tokensOfRun := by
  have hflatten : (runs pattern.toList).flatten = pattern.toList :=
    List.flatten_splitBy _ _
  have halt : Alternating (runs pattern.toList) :=
    List.isChain_getLast_head_splitBy (fun c d => (c == '.') == (d == '.')) _
  rw [tokens, ← tokens_of_flatten (fun _ => isRun_of_mem_runs) halt, hflatten]

/-! ### Both ways of reading agree -/

/-- A run describes the same segments, however it is read. -/
theorem covers_tokensOfRun {run : List Char} (h : IsRun run)
    (segments : List (List Char)) :
    Covers (tokensOfRun run) segments ↔ Covers (Token.ofRun? run).toList segments := by
  rcases h with ⟨n, rfl⟩ | ⟨hne, hword⟩
  · rw [tokensOfRun, if_pos (by simp), List.length_replicate]
    rcases n with - | n
    · -- a single dot is no gap
      rfl
    · -- from two dots on there is a gap, and more of them make no difference
      have hpairs : (n + 1 + 1) / 2 = n / 2 + 1 := Nat.add_div_right n (Nat.succ_pos 1)
      have hmany : Covers (Token.ofRun? (List.replicate (n + 1 + 1) '.')).toList segments :=
        covers_replicate_many 0 segments
      rw [hpairs]
      exact iff_of_true (covers_replicate_many (n / 2) segments) hmany
  · have hsame : Token.ofRun? run = some (Token.ofSegment run) := by
      unfold Token.ofRun? Token.ofSegment
      split
      · exact absurd List.mem_cons_self hword
      · exact absurd List.mem_cons_self hword
      · rfl
      · rfl
      · rename_i hone htwo
        rw [if_neg htwo, if_neg hone]
    rw [tokensOfRun, if_neg hword, hsame]
    rfl

theorem covers_flatMap_tokensOfRun {rs : List (List Char)}
    (hrs : ∀ run ∈ rs, IsRun run) (segments : List (List Char)) :
    Covers (rs.flatMap tokensOfRun) segments
      ↔ Covers (rs.filterMap Token.ofRun?) segments := by
  rw [List.filterMap_eq_flatMap_toList]
  induction rs generalizing segments with
  | nil => rfl
  | cons run rs ih =>
    obtain ⟨hrun, hrest⟩ := List.forall_mem_cons.mp hrs
    rw [List.flatMap_cons, List.flatMap_cons, covers_append, covers_append]
    simp only [covers_tokensOfRun hrun, ih hrest]

/-- **Package patterns mean what they say.**  A pattern is read as words and runs
of dots, where a single dot only separates, two dots or more are a gap, `**` is
a gap too, `*` stands for one segment and any other word for itself.  A package
is one of those that the pattern describes if and only if its segments, which are
what is not empty between its dots, can be cut in order into one piece per token:
any number of segments for a gap, exactly one for `*`, exactly that one for a
word. -/
theorem admits_iff_cut (pattern package : String) :
    admits pattern package = true ↔
      ∃ cut : List (List (List Char)),
        cut.flatten = (package.toList.splitOn '.').filter (fun segment => segment ≠ [])
        ∧ List.Forall₂ Token.Takes (reading pattern) cut := by
  have hsegments : Text.segments '.' package.toList
      = (package.toList.splitOn '.').filter (fun segment => segment ≠ []) := by
    rw [Text.segments, Text.pieces_eq_splitOn]
    apply List.filter_congr
    intro segment _
    cases segment <;> rfl
  rw [admits, matchSegments_iff_covers, tokens_eq_flatMap_runs,
    covers_flatMap_tokensOfRun fun _ => isRun_of_mem_runs, hsegments]
  rfl

example : reading "..a...*.b**..**" =
    [.many, .literal ['a'], .many, .one, .literal ['b', '*', '*'], .many, .many] := by
  decide

end Conformance.Package
