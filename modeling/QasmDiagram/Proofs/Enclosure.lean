/-
Module: QasmDiagram.Proofs.Enclosure
Purpose: The texts that may hold any character: blanks, comments and strings, closed or not. A
  comment is followed by its stars, since its pattern is written so that `*/` can only end it.
Trusted boundary: none
Main exports: Rule.enclosing, Rule.staysOpen, Rule.closesAtEnd, Rule.matches_closedComment,
  Rule.matches_openComment, Rule.shapeOf?_of_prefix_enclosing
-/
import QasmDiagram.Proofs.Segmentation

namespace QasmDiagram

namespace Rule

open Pattern

/-- A run of blanks. -/
def blanks : Pattern :=
  atLeastOnce (one (.of " \t\r\n"))

/-- A comment up to the end of its line. -/
def lineComment : Pattern :=
  both (word "//") (many (one (.except "\n")))

/-- What follows the opening of a comment that is closed. -/
def closedTail : Pattern :=
  Pattern.sequence [many (one (.except "*")), atLeastOnce (one (.of "*")),
    many (Pattern.sequence [one (.except "/*"), many (one (.except "*")), atLeastOnce (one (.of "*"))]),
    word "/"]

/-- A comment with its opening and its end. -/
def closedComment : Pattern :=
  both (word "/*") closedTail

/-- What follows the opening of a comment that is not closed. -/
def openTail : Pattern :=
  Pattern.sequence [many (either (one (.except "*"))
    (both (atLeastOnce (one (.of "*"))) (one (.except "*/")))), many (one (.of "*"))]

/-- A string with both quotes. -/
def closedString : Pattern :=
  Pattern.sequence [word "\"", many (one (.except "\"")), word "\""]

/-- A string without its second quote. -/
def openString : Pattern :=
  both (word "\"") (many (one (.except "\"")))

/-- The patterns whose texts may hold any character. -/
def enclosing : List Pattern :=
  [blanks, lineComment, closedComment, closedString, openString, openComment]

/-! ### Blanks, line comments and strings -/

theorem matches_blanks {w : List Char} :
    blanks.Matches w ↔ w ≠ [] ∧ ∀ c ∈ w, c ∈ " \t\r\n".toList := by
  unfold blanks atLeastOnce
  rw [matches_both]
  constructor
  · rintro ⟨u, v, rfl, hu, hv⟩
    rcases matches_one.mp hu with ⟨c, rfl, hc⟩
    refine ⟨by simp, ?_⟩
    intro d hd
    rcases List.mem_append.mp hd with hd | hd
    · rw [List.mem_singleton.mp hd]
      exact CharSet.contains_of_iff.mp hc
    · exact CharSet.contains_of_iff.mp (matches_many_one.mp hv d hd)
  · rintro ⟨nonempty, blank⟩
    cases w with
    | nil => exact absurd rfl nonempty
    | cons c w =>
        refine ⟨[c], w, rfl, .one (CharSet.contains_of_iff.mpr (blank c (by simp))), ?_⟩
        rw [matches_many_one]
        intro d hd
        exact CharSet.contains_of_iff.mpr (blank d (by simp [hd]))

/-- A repetition of all characters but those of `text` matches the texts without these. -/
theorem matches_many_except {text : String} {w : List Char} :
    Matches (.many (one (.except text))) w ↔ ∀ c ∈ w, c ∉ text.toList := by
  rw [matches_many_one]
  simp only [CharSet.contains_except_iff]

theorem matches_lineComment {w : List Char} :
    lineComment.Matches w ↔ ∃ t, w = '/' :: '/' :: t ∧ '\n' ∉ t := by
  unfold lineComment
  rw [matches_both]
  simp only [matches_word, matches_many_except]
  constructor
  · rintro ⟨u, t, rfl, rfl, ht⟩
    exact ⟨t, rfl, fun h => ht '\n' h (by decide)⟩
  · rintro ⟨t, rfl, ht⟩
    refine ⟨_, t, rfl, rfl, ?_⟩
    intro c hc hmem
    have : c = '\n' := by simpa using hmem
    exact ht (this ▸ hc)

theorem matches_openString {w : List Char} :
    openString.Matches w ↔ ∃ t, w = '"' :: t ∧ '"' ∉ t := by
  unfold openString
  rw [matches_both]
  simp only [matches_word, matches_many_except]
  constructor
  · rintro ⟨u, t, rfl, rfl, ht⟩
    exact ⟨t, rfl, fun h => ht '"' h (by decide)⟩
  · rintro ⟨t, rfl, ht⟩
    refine ⟨_, t, rfl, rfl, ?_⟩
    intro c hc hmem
    have : c = '"' := by simpa using hmem
    exact ht (this ▸ hc)

theorem matches_closedString {w : List Char} :
    closedString.Matches w ↔ ∃ t, w = '"' :: (t ++ ['"']) ∧ '"' ∉ t := by
  unfold closedString
  simp only [matches_sequence_cons, matches_sequence_nil, matches_word, matches_many_except]
  constructor
  · rintro ⟨_, _, rfl, rfl, t, _, rfl, ht, _, _, rfl, rfl, rfl⟩
    exact ⟨t, rfl, fun h => ht '"' h (by decide)⟩
  · rintro ⟨t, rfl, ht⟩
    refine ⟨_, _, rfl, rfl, t, _, rfl, ?_, _, _, (List.append_nil _).symm, rfl, rfl⟩
    intro c hc hmem
    have : c = '"' := by simpa using hmem
    exact ht (this ▸ hc)

/-! ### Comments between `/*` and `*/` -/

/-- Whether a text, read behind the opening of a comment, leaves the comment open. `afterStar` says
whether a star stands right before the text. -/
def staysOpen (afterStar : Bool) : List Char → Bool
  | [] => true
  | c :: t => !(afterStar && c == '/') && staysOpen (c == '*') t

/-- Whether a text, read behind the opening of a comment, closes the comment with its last
character and not before. -/
def closesAtEnd (afterStar : Bool) : List Char → Bool
  | [] => false
  | c :: t => if afterStar && c == '/' then t.isEmpty else closesAtEnd (c == '*') t

/-- What opens a comment stays open until the comment is closed. -/
theorem staysOpen_of_closesAtEnd {afterStar : Bool} {u v : List Char}
    (h : closesAtEnd afterStar (u ++ v) = true) (hv : v ≠ []) : staysOpen afterStar u = true := by
  induction u generalizing afterStar with
  | nil => rfl
  | cons c u ih =>
      rw [List.cons_append, closesAtEnd] at h
      split at h
      · simp [hv] at h
      · rename_i inside
        simp only [Bool.not_eq_true] at inside
        rw [staysOpen, inside, ih h]
        rfl

theorem staysOpen_append {afterStar : Bool} {u v : List Char}
    (h : staysOpen afterStar (u ++ v) = true) : staysOpen afterStar u = true := by
  induction u generalizing afterStar with
  | nil => rfl
  | cons c u ih =>
      rw [List.cons_append, staysOpen, Bool.and_eq_true] at h
      rw [staysOpen, h.1, ih h.2]
      rfl

section

variable {c : Char}

private theorem star_ne (h : c ≠ '*') : (CharSet.of "*").contains c = false := by
  rw [← Bool.not_eq_true, CharSet.contains_of_iff]
  simpa using h

private theorem except_star (h : c ≠ '*') : (CharSet.except "*").contains c = true := by
  rw [CharSet.contains_except_iff]
  simpa using h

private theorem except_slash_star (h : c ≠ '*') (h' : c ≠ '/') :
    (CharSet.except "/*").contains c = true := by
  rw [CharSet.contains_except_iff]
  simp [h, h']

private theorem except_star_slash (h : c ≠ '*') (h' : c ≠ '/') :
    (CharSet.except "*/").contains c = true := by
  rw [CharSet.contains_except_iff]
  simp [h, h']

private theorem slash_ne (h : c ≠ '/') : (CharSet.of "/").contains c = false := by
  rw [← Bool.not_eq_true, CharSet.contains_of_iff]
  simpa using h

end

theorem derive_openTail {c : Char} (h : c ≠ '*') : openTail.derive c = openTail := by
  simp [openTail, Pattern.sequence, derive, atLeastOnce, star_ne h, except_star h, acceptsEmpty,
    andThen, orElse, isNever]

/-- A star that no slash follows leaves the comment open as before. -/
theorem derive_openTail_star {c : Char} (h : c ≠ '*') (h' : c ≠ '/') :
    (openTail.derive '*').derive c = openTail := by
  have unfolded : openTail.derive '*' = either (both (both (both (many (one (.of "*")))
      (one (.except "*/"))) (many (either (one (.except "*"))
      (both (atLeastOnce (one (.of "*"))) (one (.except "*/"))))))
      (both (many (one (.of "*"))) .empty)) (both (many (one (.of "*"))) .empty) := by decide
  rw [unfolded]
  simp [openTail, Pattern.sequence, derive, star_ne h, except_star_slash h h', acceptsEmpty, andThen,
    orElse, isNever]

/-- The text behind the opening of a comment, read while no star precedes, and the same text read
behind a star, are the two states in which a comment is open. -/
theorem matches_openTail (t : List Char) :
    (openTail.Matches t ↔ staysOpen false t = true) ∧
      ((openTail.derive '*').Matches t ↔ staysOpen true t = true) := by
  have star : (openTail.derive '*').derive '*' = openTail.derive '*' := by decide
  have slash : (openTail.derive '*').derive '/' = .never := by decide
  induction t with
  | nil =>
      simp only [← acceptsEmpty_iff, staysOpen, iff_true]
      decide
  | cons c t ih =>
      rw [← matches_derive, ← matches_derive (p := openTail.derive '*')]
      by_cases hstar : c = '*'
      · subst hstar
        rw [star, ih.2]
        simp [staysOpen]
      · by_cases hslash : c = '/'
        · subst hslash
          rw [slash, derive_openTail (by decide), ih.1]
          simp [staysOpen]
        · have plain : (c == '*') = false := beq_eq_false_iff_ne.mpr hstar
          rw [derive_openTail hstar, derive_openTail_star hstar hslash, ih.1]
          simp [staysOpen, plain, hslash]

theorem matches_openComment {w : List Char} :
    openComment.Matches w ↔ ∃ t, w = '/' :: '*' :: t ∧ staysOpen false t = true := by
  have split : openComment = both (word "/*") openTail := rfl
  rw [split, matches_both]
  simp only [matches_word, (matches_openTail _).1]
  constructor
  · rintro ⟨u, t, rfl, rfl, ht⟩
    exact ⟨t, rfl, ht⟩
  · rintro ⟨t, rfl, ht⟩
    exact ⟨_, t, rfl, rfl, ht⟩

/-- What follows a star and another character inside a comment that is closed: the same parts as in
`closedTail`, grouped from the left. -/
def reopenedTail : Pattern :=
  both (both (Pattern.sequence [many (one (.except "*")), atLeastOnce (one (.of "*"))])
    (many (Pattern.sequence [one (.except "/*"), many (one (.except "*")), atLeastOnce (one (.of "*"))])))
    (Pattern.sequence [word "/"])

theorem matches_reopenedTail {w : List Char} : reopenedTail.Matches w ↔ closedTail.Matches w := by
  have cut : closedTail = Pattern.sequence
      ([many (one (.except "*")), atLeastOnce (one (.of "*"))] ++ [many (Pattern.sequence
        [one (.except "/*"), many (one (.except "*")), atLeastOnce (one (.of "*"))]), word "/"]) := rfl
  rw [cut, matches_sequence_append]
  exact matches_both_assoc

theorem derive_closedTail {c : Char} (h : c ≠ '*') : closedTail.derive c = closedTail := by
  simp [closedTail, Pattern.sequence, derive, atLeastOnce, star_ne h, except_star h, acceptsEmpty,
    andThen, orElse, isNever]

/-- A star that no slash follows reopens the comment. -/
theorem derive_closedTail_star {c : Char} (h : c ≠ '*') (h' : c ≠ '/') :
    (closedTail.derive '*').derive c = reopenedTail := by
  have unfolded : closedTail.derive '*' = both (many (one (.of "*"))) (both (many (Pattern.sequence
      [one (.except "/*"), many (one (.except "*")), atLeastOnce (one (.of "*"))]))
      (both (both (one (.of "/")) .empty) .empty)) := by decide
  rw [unfolded]
  simp [reopenedTail, Pattern.sequence, derive, atLeastOnce, star_ne h, slash_ne h',
    except_slash_star h h', acceptsEmpty, andThen, orElse, isNever]
  decide

/-- The text behind the opening of a comment that is closed, read while no star precedes, and the
same text read behind a star. -/
theorem matches_closedTail (t : List Char) :
    (closedTail.Matches t ↔ closesAtEnd false t = true) ∧
      ((closedTail.derive '*').Matches t ↔ closesAtEnd true t = true) := by
  have star : (closedTail.derive '*').derive '*' = closedTail.derive '*' := by decide
  have slash : (closedTail.derive '*').derive '/' = .empty := by decide
  induction t with
  | nil =>
      simp only [← acceptsEmpty_iff, closesAtEnd]
      decide
  | cons c t ih =>
      rw [← matches_derive, ← matches_derive (p := closedTail.derive '*')]
      by_cases hstar : c = '*'
      · subst hstar
        rw [star, ih.2]
        simp [closesAtEnd]
      · have plain : (c == '*') = false := beq_eq_false_iff_ne.mpr hstar
        rw [derive_closedTail hstar, ih.1]
        by_cases hslash : c = '/'
        · subst hslash
          rw [slash]
          simp [closesAtEnd]
        · rw [derive_closedTail_star hstar hslash, matches_reopenedTail, ih.1]
          simp [closesAtEnd, plain, hslash]

theorem matches_closedComment {w : List Char} :
    closedComment.Matches w ↔ ∃ t, w = '/' :: '*' :: t ∧ closesAtEnd false t = true := by
  unfold closedComment
  rw [matches_both]
  simp only [matches_word, (matches_closedTail _).1]
  constructor
  · rintro ⟨u, t, rfl, rfl, ht⟩
    exact ⟨t, rfl, ht⟩
  · rintro ⟨t, rfl, ht⟩
    exact ⟨_, t, rfl, rfl, ht⟩

/-! ### Every beginning of an enclosing text has a shape -/

/-- Layout patterns stand in the table, and so do the other enclosing patterns. -/
theorem mem_table_of_enclosing {p : Pattern} (h : p ∈ enclosing) :
    ∃ rule ∈ table, rule.pattern = p := by
  revert p
  decide

theorem shapeOf?_ne_none_of_matches {p : Pattern} (h : p ∈ enclosing) {w : List Char}
    (hw : p.Matches w) : shapeOf? table w ≠ none := by
  obtain ⟨rule, hrule, rfl⟩ := mem_table_of_enclosing h
  intro none
  exact shapeOf?_eq_none_iff.mp none rule hrule hw

/-- A slash alone is a token. -/
theorem shapeOf?_slash : shapeOf? table ['/'] = some (.token (.mark .slash)) := by decide

/-- A beginning of a comment is its slash, in which the opening is still incomplete, or holds the
opening. -/
theorem prefix_of_comment {u v t : List Char} {d : Char} (hu : u ≠ [])
    (h : u ++ v = '/' :: d :: t) : u = ['/'] ∨ ∃ u', u = '/' :: d :: u' ∧ t = u' ++ v := by
  cases u with
  | nil => exact absurd rfl hu
  | cons c u =>
      simp only [List.cons_append, List.cons.injEq] at h
      obtain ⟨rfl, h⟩ := h
      cases u with
      | nil => exact .inl rfl
      | cons e u =>
          simp only [List.cons_append, List.cons.injEq] at h
          exact .inr ⟨u, by rw [h.1], h.2.symm⟩

/-- A beginning of a string that lacks something of it does not hold the closing quote. -/
theorem prefix_of_string {u v t : List Char} (hu : u ≠ []) (hv : v ≠ [])
    (h : u ++ v = '"' :: (t ++ ['"'])) : ∃ u', u = '"' :: u' ∧ u' <+: t := by
  cases u with
  | nil => exact absurd rfl hu
  | cons c u =>
      simp only [List.cons_append, List.cons.injEq] at h
      obtain ⟨rfl, h⟩ := h
      refine ⟨u, rfl, ?_⟩
      rcases List.append_eq_append_iff.mp h with ⟨m, hm, _⟩ | ⟨m, hm, hv'⟩
      · exact ⟨m, hm.symm⟩
      · rcases List.append_eq_singleton_iff.mp hv'.symm with ⟨rfl, _⟩ | ⟨_, hv''⟩
        · simp [hm]
        · exact absurd hv'' hv

/-- A beginning of an enclosing text has a shape of its own, so a longest match that ends inside
such a text ends it. -/
theorem shapeOf?_of_prefix_enclosing {p : Pattern} (hp : p ∈ enclosing) {u v : List Char}
    (hu : u ≠ []) (h : p.Matches (u ++ v)) : shapeOf? table u ≠ none := by
  by_cases hv : v = []
  · subst hv
    rw [List.append_nil] at h
    exact shapeOf?_ne_none_of_matches hp h
  simp only [enclosing, List.mem_cons, List.not_mem_nil, or_false] at hp
  rcases hp with rfl | rfl | rfl | rfl | rfl | rfl
  · refine shapeOf?_ne_none_of_matches (p := blanks) (by decide) (matches_blanks.mpr ⟨hu, ?_⟩)
    intro c hc
    exact (matches_blanks.mp h).2 c (List.mem_append_left v hc)
  · rcases matches_lineComment.mp h with ⟨t, ht, line⟩
    rcases prefix_of_comment hu ht with rfl | ⟨u', rfl, rfl⟩
    · simp [shapeOf?_slash]
    · refine shapeOf?_ne_none_of_matches (p := lineComment) (by decide)
        (matches_lineComment.mpr ⟨u', rfl, ?_⟩)
      exact fun hn => line (List.mem_append_left v hn)
  · rcases matches_closedComment.mp h with ⟨t, ht, closed⟩
    rcases prefix_of_comment hu ht with rfl | ⟨u', rfl, rfl⟩
    · simp [shapeOf?_slash]
    · exact shapeOf?_ne_none_of_matches (p := openComment) (by decide)
        (matches_openComment.mpr ⟨u', rfl, staysOpen_of_closesAtEnd closed hv⟩)
  · rcases matches_closedString.mp h with ⟨t, ht, inside⟩
    obtain ⟨u', rfl, initial⟩ := prefix_of_string hu hv ht
    refine shapeOf?_ne_none_of_matches (p := openString) (by decide)
      (matches_openString.mpr ⟨u', rfl, ?_⟩)
    exact fun hn => inside (initial.subset hn)
  · rcases matches_openString.mp h with ⟨t, ht, inside⟩
    cases u with
    | nil => exact absurd rfl hu
    | cons c u =>
        simp only [List.cons_append, List.cons.injEq] at ht
        obtain ⟨rfl, rfl⟩ := ht
        refine shapeOf?_ne_none_of_matches (p := openString) (by decide)
          (matches_openString.mpr ⟨u, rfl, ?_⟩)
        exact fun hn => inside (List.mem_append_left v hn)
  · rcases matches_openComment.mp h with ⟨t, ht, opened⟩
    rcases prefix_of_comment hu ht with rfl | ⟨u', rfl, rfl⟩
    · simp [shapeOf?_slash]
    · exact shapeOf?_ne_none_of_matches (p := openComment) (by decide)
        (matches_openComment.mpr ⟨u', rfl, staysOpen_append opened⟩)

end Rule

end QasmDiagram
