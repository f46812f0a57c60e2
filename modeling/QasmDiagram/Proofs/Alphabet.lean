/-
Module: QasmDiagram.Proofs.Alphabet
Purpose: Which characters may open and close a text of a pattern, which may stand later in it, and
  which may stand before a given one. The sets are computed from the pattern, so a question about
  all texts of a rule becomes a check of the table.
Trusted boundary: none
Main exports: CharSet.within, CharSet.apart, CharSet.avoids, Pattern.opens, Pattern.classes,
  Pattern.later, Pattern.closes, Pattern.before
-/
import QasmDiagram.Proofs.Derivative

namespace QasmDiagram

namespace CharSet

/-- Whether some range of one set meets a range of the other. -/
def overlaps (s t : CharSet) : Bool :=
  s.ranges.any fun a => t.ranges.any fun b => decide (a.1 ≤ b.2) && decide (b.1 ≤ a.2)

/-- Whether every range of a set lies in a range of another; neither set is complemented. -/
def within (s t : CharSet) : Bool :=
  !s.complemented && !t.complemented &&
    s.ranges.all fun a => t.ranges.any fun b => decide (b.1 ≤ a.1) && decide (a.2 ≤ b.2)

/-- Whether two sets, neither complemented, have no range in common. -/
def apart (s t : CharSet) : Bool :=
  !s.complemented && !t.complemented && !s.overlaps t

/-- Whether no set of a list has any of the characters. -/
def avoids (sets : List CharSet) (chars : List Char) : Bool :=
  sets.all fun set => chars.all fun c => !set.contains c

theorem not_contains_of_avoids {sets : List CharSet} {chars : List Char}
    (h : avoids sets chars = true) {set : CharSet} (hset : set ∈ sets) {c : Char}
    (hc : c ∈ chars) : set.contains c = false := by
  simp only [avoids, List.all_eq_true, Bool.not_eq_true'] at h
  exact h set hset c hc

theorem mem_range_of_contains {s : CharSet} {c : Char} (plain : s.complemented = false)
    (h : s.contains c = true) : ∃ a ∈ s.ranges, a.1 ≤ c ∧ c ≤ a.2 := by
  rw [contains, plain] at h
  simpa using h

theorem contains_of_mem_range {s : CharSet} {c : Char} {a : Char × Char}
    (plain : s.complemented = false) (ha : a ∈ s.ranges) (lower : a.1 ≤ c) (upper : c ≤ a.2) :
    s.contains c = true := by
  rw [contains, plain]
  simp only [Bool.bne_false, List.any_eq_true]
  exact ⟨a, ha, by simp [lower, upper]⟩

/-- Sets that are apart share no character. -/
theorem not_contains_of_apart {s t : CharSet} {c : Char} (far : s.apart t = true)
    (hs : s.contains c = true) : t.contains c = false := by
  simp only [apart, Bool.and_eq_true, Bool.not_eq_true'] at far
  obtain ⟨⟨plain_s, plain_t⟩, disjoint⟩ := far
  by_contra ht
  obtain ⟨a, ha, lower, upper⟩ := mem_range_of_contains plain_s hs
  obtain ⟨b, hb, lower', upper'⟩ := mem_range_of_contains plain_t (by simpa using ht)
  have meets : s.overlaps t = true := by
    simp only [overlaps, List.any_eq_true]
    refine ⟨a, ha, b, hb, ?_⟩
    simp [Char.le_trans lower upper', Char.le_trans lower' upper]
  rw [meets] at disjoint
  simp at disjoint

/-- A set within another has no character outside it. -/
theorem contains_of_within {s t : CharSet} {c : Char} (inside : s.within t = true)
    (hs : s.contains c = true) : t.contains c = true := by
  simp only [within, Bool.and_eq_true, Bool.not_eq_true', List.all_eq_true,
    List.any_eq_true] at inside
  obtain ⟨⟨plain_s, plain_t⟩, covered⟩ := inside
  obtain ⟨a, ha, lower, upper⟩ := mem_range_of_contains plain_s hs
  obtain ⟨b, hb, hab⟩ := covered a ha
  simp only [decide_eq_true_eq] at hab
  exact contains_of_mem_range plain_t hb (Char.le_trans hab.1 lower) (Char.le_trans upper hab.2)

end CharSet

namespace Pattern

/-- The sets that the first character of a text is taken from. -/
def opens : Pattern → List CharSet
  | .never => []
  | .empty => []
  | .one set => [set]
  | .both p q => p.opens ++ (if p.acceptsEmpty then q.opens else [])
  | .either p q => p.opens ++ q.opens
  | .many p => p.opens

/-- The sets that the last character of a text is taken from. -/
def closes : Pattern → List CharSet
  | .never => []
  | .empty => []
  | .one set => [set]
  | .both p q => q.closes ++ (if q.acceptsEmpty then p.closes else [])
  | .either p q => p.closes ++ q.closes
  | .many p => p.closes

/-- All sets of a pattern. -/
def classes : Pattern → List CharSet
  | .never => []
  | .empty => []
  | .one set => [set]
  | .both p q => p.classes ++ q.classes
  | .either p q => p.classes ++ q.classes
  | .many p => p.classes

/-- The sets that characters behind the first are taken from. -/
def later : Pattern → List CharSet
  | .never => []
  | .empty => []
  | .one _ => []
  | .both p q => p.later ++ q.classes
  | .either p q => p.later ++ q.later
  | .many p => p.classes

/-- The sets that a character right before `y` is taken from. -/
def before (y : Char) : Pattern → List CharSet
  | .never => []
  | .empty => []
  | .one _ => []
  | .both p q =>
      p.before y ++ q.before y ++ (if q.opens.any (·.contains y) then p.closes else [])
  | .either p q => p.before y ++ q.before y
  | .many p => p.before y ++ (if p.opens.any (·.contains y) then p.closes else [])

/-- Whether a character is in one of several sets. -/
def covers (sets : List CharSet) (c : Char) : Prop :=
  ∃ set ∈ sets, set.contains c = true

theorem covers_append {left right : List CharSet} {c : Char} :
    covers (left ++ right) c ↔ covers left c ∨ covers right c := by
  simp [covers, or_and_right, exists_or]

/-- A text without characters is accepted only where the pattern says so. -/
theorem acceptsEmpty_of_matches_nil {p : Pattern} (h : p.Matches []) : p.acceptsEmpty = true :=
  (acceptsEmpty_iff p).mpr h

theorem covers_opens {p : Pattern} {c : Char} {w : List Char} (h : p.Matches (c :: w)) :
    covers p.opens c := by
  induction p generalizing w with
  | never => simp at h
  | empty => simp at h
  | one set =>
      rcases matches_one.mp h with ⟨d, hd, hset⟩
      simp only [List.cons.injEq] at hd
      exact ⟨set, by simp [opens], by rw [hd.1]; exact hset⟩
  | both p q ihp ihq =>
      rw [opens, covers_append]
      rcases matches_both_cons.mp h with ⟨u, v, _, hp, _⟩ | ⟨hp, hq⟩
      · exact .inl (ihp hp)
      · right
        rw [if_pos (acceptsEmpty_of_matches_nil hp)]
        exact ihq hq
  | either p q ihp ihq =>
      rw [opens, covers_append]
      rcases matches_either.mp h with hp | hq
      · exact .inl (ihp hp)
      · exact .inr (ihq hq)
  | many p ih =>
      rcases matches_many_cons.mp h with ⟨u, v, _, hp, _⟩
      exact ih hp

theorem covers_classes {p : Pattern} {w : List Char} (h : p.Matches w) :
    ∀ c ∈ w, covers p.classes c := by
  induction h with
  | empty => simp
  | one hc => simpa [covers, classes] using hc
  | both _ _ ihp ihq =>
      intro c hc
      rw [classes, covers_append]
      rcases List.mem_append.mp hc with hu | hv
      · exact .inl (ihp c hu)
      · exact .inr (ihq c hv)
  | left _ ih =>
      intro c hc
      exact covers_append.mpr (.inl (ih c hc))
  | right _ ih =>
      intro c hc
      exact covers_append.mpr (.inr (ih c hc))
  | stop => simp
  | more _ _ ihp ihrest =>
      intro c hc
      rcases List.mem_append.mp hc with hu | hv
      · exact ihp c hu
      · exact ihrest c hv

theorem covers_later {p : Pattern} {c : Char} {w : List Char} (h : p.Matches (c :: w)) :
    ∀ d ∈ w, covers p.later d := by
  induction p generalizing w with
  | never => simp at h
  | empty => simp at h
  | one set =>
      rcases matches_one.mp h with ⟨d, hd, _⟩
      simp only [List.cons.injEq] at hd
      simp [hd.2]
  | both p q ihp ihq =>
      intro d hd
      rw [later, covers_append]
      rcases matches_both_cons.mp h with ⟨u, v, rfl, hp, hq⟩ | ⟨_, hq⟩
      · rcases List.mem_append.mp hd with hu | hv
        · exact .inl (ihp hp d hu)
        · exact .inr (covers_classes hq d hv)
      · exact .inr (covers_classes hq d (List.mem_cons_of_mem c hd))
  | either p q ihp ihq =>
      intro d hd
      rw [later, covers_append]
      rcases matches_either.mp h with hp | hq
      · exact .inl (ihp hp d hd)
      · exact .inr (ihq hq d hd)
  | many p _ =>
      intro d hd
      exact covers_classes h d (List.mem_cons_of_mem c hd)

theorem covers_closes {p : Pattern} {w : List Char} (h : p.Matches w) :
    ∀ u c, w = u ++ [c] → covers p.closes c := by
  induction h with
  | empty => simp
  | @one set d hd =>
      intro u c hw
      cases u with
      | nil =>
          simp only [List.nil_append, List.cons.injEq, and_true] at hw
          exact ⟨set, by simp [closes], by rw [← hw]; exact hd⟩
      | cons e u => simp at hw
  | @both p q u v hp hq ihp ihq =>
      intro t c hw
      rw [closes, covers_append]
      rcases List.eq_nil_or_concat v with rfl | ⟨v, d, rfl⟩
      · right
        rw [if_pos (acceptsEmpty_of_matches_nil hq)]
        exact ihp t c (by simpa using hw)
      · left
        rw [List.concat_eq_append, ← List.append_assoc] at hw
        obtain ⟨_, hcd⟩ := List.append_inj' hw rfl
        exact ihq v c (by rw [List.concat_eq_append, hcd])
  | left _ ih =>
      intro u c hw
      exact covers_append.mpr (.inl (ih u c hw))
  | right _ ih =>
      intro u c hw
      exact covers_append.mpr (.inr (ih u c hw))
  | stop => simp
  | @more p u v _ _ ihp ihrest =>
      intro t c hw
      rcases List.eq_nil_or_concat v with rfl | ⟨v, d, rfl⟩
      · exact ihp t c (by simpa using hw)
      · rw [List.concat_eq_append, ← List.append_assoc] at hw
        obtain ⟨_, hcd⟩ := List.append_inj' hw rfl
        exact ihrest v c (by rw [List.concat_eq_append, hcd])

/-- Neighbours in a concatenation stand in one of its parts or on the seam. -/
theorem neighbours_append {x y : Char} {s t u v : List Char} (h : s ++ x :: y :: t = u ++ v) :
    (∃ t', u = s ++ x :: y :: t') ∨ (∃ s', v = s' ++ x :: y :: t) ∨
      (u = s ++ [x] ∧ v = y :: t) := by
  rcases List.append_eq_append_iff.mp h with ⟨m, hu, hv⟩ | ⟨m, hs, hv⟩
  · cases m with
    | nil => exact .inr (.inl ⟨[], by simpa using hv.symm⟩)
    | cons a m =>
        simp only [List.cons_append, List.cons.injEq] at hv
        obtain ⟨rfl, hv⟩ := hv
        cases m with
        | nil => exact .inr (.inr ⟨hu, by simpa using hv.symm⟩)
        | cons b m =>
            simp only [List.cons_append, List.cons.injEq] at hv
            obtain ⟨rfl, _⟩ := hv
            exact .inl ⟨m, hu⟩
  · exact .inr (.inl ⟨m, hv⟩)

theorem covers_before {p : Pattern} {y : Char} {w : List Char} (h : p.Matches w) :
    ∀ s x t, w = s ++ x :: y :: t → covers (p.before y) x := by
  induction h with
  | empty => simp
  | one _ =>
      intro s x t hw
      have := congrArg List.length hw
      simp only [List.length_append, List.length_cons, List.length_nil] at this
      omega
  | @both p q u v hp hq ihp ihq =>
      intro s x t hw
      rw [before, covers_append, covers_append]
      rcases neighbours_append hw.symm with ⟨t', hu⟩ | ⟨s', hv⟩ | ⟨hu, hv⟩
      · exact .inl (.inl (ihp s x t' hu))
      · exact .inl (.inr (ihq s' x t hv))
      · right
        have opened : q.opens.any (·.contains y) = true := by
          obtain ⟨set, hset, hy⟩ := covers_opens (hv ▸ hq)
          exact List.any_eq_true.mpr ⟨set, hset, hy⟩
        rw [if_pos opened]
        exact covers_closes hp s x hu
  | left _ ih =>
      intro s x t hw
      exact covers_append.mpr (.inl (ih s x t hw))
  | right _ ih =>
      intro s x t hw
      exact covers_append.mpr (.inr (ih s x t hw))
  | stop => simp
  | @more p u v hp hrest ihp ihrest =>
      intro s x t hw
      rcases neighbours_append hw.symm with ⟨t', hu⟩ | ⟨s', hv⟩ | ⟨hu, hv⟩
      · rw [before, covers_append]
        exact .inl (ihp s x t' hu)
      · exact ihrest s' x t hv
      · rw [before, covers_append]
        right
        have opened : p.opens.any (·.contains y) = true := by
          obtain ⟨set, hset, hy⟩ := covers_opens (hv ▸ hrest)
          exact List.any_eq_true.mpr ⟨set, hset, hy⟩
        rw [if_pos opened]
        exact covers_closes hp s x hu

end Pattern

end QasmDiagram
