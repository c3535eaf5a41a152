import PlainNotes.Pattern.Basic

/-!
# Ways through a pattern

`Pattern.run` tries the ways to match a pattern in the order of preference.  `p.Way s s' c c'` says
what one way is, whatever its rank: it leads from `s` to the rest `s'`, and turns the captures `c`
of what follows into `c'`.

* `exists_way_of_run`: every answer of `run` comes from a way to a rest that the continuation
  accepts.
* `exists_way_of_search`: every answer of a search comes from a way that begins somewhere in the
  text.
* `search_of_run`: an answer at the very beginning of a text is the answer of the search.
* `Way.exists_append`: a way leaves an end of the text it began with.
-/

namespace PlainNotes.Pattern

/-- A way through the pattern from `s` to the rest `s'`, where what follows captures `c`. -/
def Way : Pattern → List Char → List Char → Captures → Captures → Prop
  | empty, s, s', c, c' => s = s' ∧ c = c'
  | one cls, s, s', c, c' => ∃ x, s = x :: s' ∧ cls x = true ∧ c = c'
  | seq p q, s, s', c, c' => ∃ m d, p.Way s m d c' ∧ q.Way m s' c d
  | alt p q, s, s', c, c' => p.Way s s' c c' ∨ q.Way s s' c c'
  | many cls, s, s', c, c' => ∃ u, s = u ++ s' ∧ (∀ x ∈ u, cls x = true) ∧ c = c'
  | few cls, s, s', c, c' => ∃ u, s = u ++ s' ∧ (∀ x ∈ u, cls x = true) ∧ c = c'
  | mark m, s, s', c, c' => s = s' ∧ c.set m s = c'
  | atEnd, s, s', c, c' => s = [] ∧ s' = [] ∧ c = c'

section

variable {s s' : List Char} {c c' : Captures} {cls : Char → Bool} {p q : Pattern}

theorem way_many1 :
    (many1 cls).Way s s' c c' ↔ ∃ u, u ≠ [] ∧ s = u ++ s' ∧ (∀ x ∈ u, cls x = true) ∧ c = c' := by
  constructor
  · rintro ⟨m, d, ⟨x, rfl, hx, rfl⟩, u, rfl, hu, rfl⟩
    exact ⟨x :: u, by simp, rfl, by simpa [hx] using hu, rfl⟩
  · rintro ⟨u, hne, rfl, hu, rfl⟩
    cases u with
    | nil => exact absurd rfl hne
    | cons x u =>
      exact ⟨u ++ s', c, ⟨x, rfl, hu x (by simp), rfl⟩, u, rfl,
        fun y hy => hu y (List.mem_cons_of_mem x hy), rfl⟩

/-- A way does not see how many characters a repetition would rather have. -/
theorem way_few1 :
    (few1 cls).Way s s' c c' ↔ ∃ u, u ≠ [] ∧ s = u ++ s' ∧ (∀ x ∈ u, cls x = true) ∧ c = c' :=
  way_many1

/-! ## Sequences and choices -/

@[simp] theorem way_all_cons {ps : List Pattern} :
    (all (p :: ps)).Way s s' c c' ↔ ∃ m d, p.Way s m d c' ∧ (all ps).Way m s' c d := by
  cases ps with
  | nil =>
    constructor
    · intro h
      exact ⟨s', c, h, rfl, rfl⟩
    · rintro ⟨m, d, h, rfl, rfl⟩
      exact h
  | cons q qs => exact Iff.rfl

@[simp] theorem way_any_nil : ¬ (any []).Way s s' c c' := by
  rintro ⟨x, -, hx, -⟩
  exact Bool.noConfusion hx

@[simp] theorem way_any_cons {ps : List Pattern} :
    (any (p :: ps)).Way s s' c c' ↔ p.Way s s' c c' ∨ (any ps).Way s s' c c' := by
  cases ps with
  | nil =>
    constructor
    · exact Or.inl
    · rintro (h | h)
      · exact h
      · exact absurd h way_any_nil
  | cons q qs => exact Iff.rfl

@[simp] theorem run_all_cons (p : Pattern) (ps : List Pattern) (k : List Char → Option Captures)
    (s : List Char) : (all (p :: ps)).run k s = p.run ((all ps).run k) s := by
  cases ps with
  | nil => rfl
  | cons q qs => rfl

@[simp] theorem run_any_nil (k : List Char → Option Captures) (s : List Char) :
    (any []).run k s = none := by
  cases s <;> rfl

@[simp] theorem run_any_cons (p : Pattern) (ps : List Pattern) (k : List Char → Option Captures)
    (s : List Char) : (any (p :: ps)).run k s = (p.run k s).or ((any ps).run k s) := by
  cases ps with
  | nil => rw [run_any_nil, Option.or_none]; rfl
  | cons q qs => rfl

/-- A way leaves an end of the text it began with. -/
theorem Way.exists_append (h : p.Way s s' c c') : ∃ u, s = u ++ s' := by
  induction p generalizing s s' c c' with
  | empty => exact ⟨[], h.1⟩
  | one cls =>
    obtain ⟨x, rfl, -, -⟩ := h
    exact ⟨[x], rfl⟩
  | seq p q ihp ihq =>
    obtain ⟨m, d, hp, hq⟩ := h
    obtain ⟨u, rfl⟩ := ihp hp
    obtain ⟨v, rfl⟩ := ihq hq
    exact ⟨u ++ v, (List.append_assoc u v s').symm⟩
  | alt p q ihp ihq =>
    rcases h with h | h
    · exact ihp h
    · exact ihq h
  | many cls =>
    obtain ⟨u, hu, -⟩ := h
    exact ⟨u, hu⟩
  | few cls =>
    obtain ⟨u, hu, -⟩ := h
    exact ⟨u, hu⟩
  | mark m => exact ⟨[], h.1⟩
  | atEnd =>
    obtain ⟨rfl, rfl, -⟩ := h
    exact ⟨[], rfl⟩

end

/-! ## Runs follow ways -/

section

variable {k : List Char → Option Captures} {s : List Char} {c' : Captures} {cls : Char → Bool}

theorem exists_of_runOne (h : runOne cls k s = some c') :
    ∃ x s', s = x :: s' ∧ cls x = true ∧ k s' = some c' := by
  cases s with
  | nil => exact absurd h (by simp [runOne])
  | cons x s =>
    by_cases hx : cls x = true
    · exact ⟨x, s, rfl, hx, by simpa [runOne, hx] using h⟩
    · exact absurd h (by simp [runOne, hx])

theorem exists_of_runMany (h : runMany cls k s = some c') :
    ∃ u s', s = u ++ s' ∧ (∀ x ∈ u, cls x = true) ∧ k s' = some c' := by
  induction s with
  | nil => exact ⟨[], [], rfl, by simp, h⟩
  | cons x s ih =>
    by_cases hx : cls x = true
    · simp only [runMany, hx, if_true, Option.or_eq_some_iff] at h
      rcases h with h | ⟨-, h⟩
      · obtain ⟨u, s', rfl, hu, hk⟩ := ih h
        exact ⟨x :: u, s', rfl, by simpa [hx] using hu, hk⟩
      · exact ⟨[], x :: s, rfl, by simp, h⟩
    · exact ⟨[], x :: s, rfl, by simp, by simpa [runMany, hx] using h⟩

theorem exists_of_runFew (h : runFew cls k s = some c') :
    ∃ u s', s = u ++ s' ∧ (∀ x ∈ u, cls x = true) ∧ k s' = some c' := by
  induction s with
  | nil => exact ⟨[], [], rfl, by simp, h⟩
  | cons x s ih =>
    simp only [runFew, Option.or_eq_some_iff] at h
    rcases h with h | ⟨-, h⟩
    · exact ⟨[], x :: s, rfl, by simp, h⟩
    · by_cases hx : cls x = true
      · obtain ⟨u, s', rfl, hu, hk⟩ := ih (by simpa [hx] using h)
        exact ⟨x :: u, s', rfl, by simpa [hx] using hu, hk⟩
      · exact absurd h (by simp [hx])

end

/-- **Every answer of a run comes from a way** to a rest that the continuation accepts. -/
theorem exists_way_of_run {p : Pattern} {k : List Char → Option Captures} {s : List Char}
    {c' : Captures} (h : p.run k s = some c') : ∃ s' c, k s' = some c ∧ p.Way s s' c c' := by
  induction p generalizing k s c' with
  | empty => exact ⟨s, c', h, rfl, rfl⟩
  | one cls =>
    obtain ⟨x, s', rfl, hx, hk⟩ := exists_of_runOne h
    exact ⟨s', c', hk, x, rfl, hx, rfl⟩
  | seq p q ihp ihq =>
    obtain ⟨m, d, hm, hp⟩ := ihp h
    obtain ⟨s', c, hk, hq⟩ := ihq hm
    exact ⟨s', c, hk, m, d, hp, hq⟩
  | alt p q ihp ihq =>
    rcases Option.or_eq_some_iff.1 h with h | ⟨-, h⟩
    · obtain ⟨s', c, hk, hp⟩ := ihp h
      exact ⟨s', c, hk, Or.inl hp⟩
    · obtain ⟨s', c, hk, hq⟩ := ihq h
      exact ⟨s', c, hk, Or.inr hq⟩
  | many cls =>
    obtain ⟨u, s', rfl, hu, hk⟩ := exists_of_runMany h
    exact ⟨s', c', hk, u, rfl, hu, rfl⟩
  | few cls =>
    obtain ⟨u, s', rfl, hu, hk⟩ := exists_of_runFew h
    exact ⟨s', c', hk, u, rfl, hu, rfl⟩
  | mark m =>
    obtain ⟨c, hk, rfl⟩ := Option.map_eq_some_iff.1 h
    exact ⟨s, c, hk, rfl, rfl⟩
  | atEnd =>
    cases s with
    | nil => exact ⟨[], c', h, rfl, rfl, rfl⟩
    | cons x s => exact absurd h (by simp [run])

/-! ## Searches -/

theorem exists_append_of_mem_tails {t s : List Char} (h : t ∈ tails s) : ∃ u, s = u ++ t := by
  induction s with
  | nil =>
    obtain rfl : t = [] := by simpa using h
    exact ⟨[], rfl⟩
  | cons x s ih =>
    rcases List.mem_cons.1 h with rfl | h
    · exact ⟨[], rfl⟩
    · obtain ⟨u, rfl⟩ := ih h
      exact ⟨x :: u, rfl⟩

/-- **Every answer of a search comes from a way** that begins somewhere in the text. -/
theorem exists_way_of_search {p : Pattern} {s : List Char} {c : Captures}
    (h : p.search s = some c) : ∃ u t s', s = u ++ t ∧ p.Way t s' {} c := by
  rw [search_eq] at h
  obtain ⟨t, ht, hrun⟩ := List.exists_of_findSome?_eq_some h
  obtain ⟨u, rfl⟩ := exists_append_of_mem_tails ht
  obtain ⟨s', d, hd, hway⟩ := exists_way_of_run hrun
  obtain rfl : {} = d := Option.some.inj hd
  exact ⟨u, t, s', rfl, hway⟩

/-- An answer at the very beginning of a text is the answer of the search. -/
theorem search_of_run {p : Pattern} {s : List Char} {c : Captures} (h : p.run accept s = some c) :
    p.search s = some c := by
  rw [search_eq]
  cases s with
  | nil => simp [h]
  | cons x s => simp [h]

end PlainNotes.Pattern
