import Mathlib.Computability.Language
import PlainNotes.Proofs.Pattern.Way

/-!
# The languages of patterns

A pattern without marks stands for a language.  `p.Speaks l` says that the ways through `p` lead
behind the texts of `l`, all of them and no others, and capture nothing.  A sequence speaks the
product of the languages of its parts, and a choice speaks their sum.

* `Speaks.cons`, `Speaks.or`, `Speaks.optional`: the language of a pattern from those of its parts.
-/

namespace PlainNotes.Pattern

/-- The ways through the pattern lead behind the texts of the language. -/
def Speaks (p : Pattern) (l : Language Char) : Prop :=
  ∀ (s s' : List Char) (c c' : Captures), p.Way s s' c c' ↔ c = c' ∧ ∃ u ∈ l, s = u ++ s'

variable {p q : Pattern} {l m : Language Char} {ps : List Pattern} {cls : Char → Bool}
  {s s' : List Char} {c c' : Captures}

theorem Speaks.way_iff (hp : p.Speaks l) : p.Way s s' c c' ↔ c = c' ∧ ∃ u ∈ l, s = u ++ s' :=
  hp s s' c c'

theorem speaks_empty : empty.Speaks 1 := by
  intro s s' c c'
  constructor
  · rintro ⟨rfl, rfl⟩
    exact ⟨rfl, [], Language.nil_mem_one, rfl⟩
  · rintro ⟨rfl, u, hu, rfl⟩
    obtain rfl := (Language.mem_one u).1 hu
    exact ⟨rfl, rfl⟩

theorem Speaks.seq (hp : p.Speaks l) (hq : q.Speaks m) : (Pattern.seq p q).Speaks (l * m) := by
  intro s s' c c'
  constructor
  · rintro ⟨t, d, hpway, hqway⟩
    obtain ⟨rfl, u, hu, rfl⟩ := hp.way_iff.1 hpway
    obtain ⟨rfl, v, hv, rfl⟩ := hq.way_iff.1 hqway
    exact ⟨rfl, u ++ v, Language.mem_mul.2 ⟨u, hu, v, hv, rfl⟩, (List.append_assoc u v s').symm⟩
  · rintro ⟨rfl, w, hw, rfl⟩
    obtain ⟨u, hu, v, hv, rfl⟩ := Language.mem_mul.1 hw
    exact ⟨v ++ s', c, hp.way_iff.2 ⟨rfl, u, hu, List.append_assoc u v s'⟩,
      hq.way_iff.2 ⟨rfl, v, hv, rfl⟩⟩

theorem Speaks.alt (hp : p.Speaks l) (hq : q.Speaks m) : (Pattern.alt p q).Speaks (l + m) := by
  intro s s' c c'
  constructor
  · rintro (hway | hway)
    · obtain ⟨rfl, u, hu, rfl⟩ := hp.way_iff.1 hway
      exact ⟨rfl, u, (Language.mem_add l m u).2 (Or.inl hu), rfl⟩
    · obtain ⟨rfl, u, hu, rfl⟩ := hq.way_iff.1 hway
      exact ⟨rfl, u, (Language.mem_add l m u).2 (Or.inr hu), rfl⟩
  · rintro ⟨rfl, u, hu, rfl⟩
    rcases (Language.mem_add l m u).1 hu with hu | hu
    · exact Or.inl (hp.way_iff.2 ⟨rfl, u, hu, rfl⟩)
    · exact Or.inr (hq.way_iff.2 ⟨rfl, u, hu, rfl⟩)

theorem Speaks.optional (hp : p.Speaks l) : (Pattern.optional p).Speaks (l + 1) :=
  hp.alt speaks_empty

theorem speaks_many1 : (many1 cls).Speaks {u | u ≠ [] ∧ ∀ x ∈ u, cls x = true} := by
  intro s s' c c'
  rw [way_many1]
  constructor
  · rintro ⟨u, hne, rfl, hu, rfl⟩
    exact ⟨rfl, u, ⟨hne, hu⟩, rfl⟩
  · rintro ⟨rfl, u, ⟨hne, hu⟩, rfl⟩
    exact ⟨u, hne, rfl, hu, rfl⟩

/-- One pattern after the other speaks the product of the languages. -/
theorem Speaks.cons (hp : p.Speaks l) (hps : (Pattern.all ps).Speaks m) :
    (Pattern.all (p :: ps)).Speaks (l * m) := by
  intro s s' c c'
  rw [way_all_cons]
  exact (hp.seq hps).way_iff

theorem Speaks.single (hp : p.Speaks l) : (Pattern.all [p]).Speaks l := hp

/-- A choice of patterns speaks the sum of the languages. -/
theorem Speaks.or (hp : p.Speaks l) (hps : (Pattern.any ps).Speaks m) :
    (Pattern.any (p :: ps)).Speaks (l + m) := by
  intro s s' c c'
  rw [way_any_cons]
  exact (hp.alt hps).way_iff

theorem Speaks.last (hp : p.Speaks l) : (Pattern.any [p]).Speaks l := hp

end PlainNotes.Pattern
