import PlainNotes.Proofs.Pattern.Way

/-!
# Where patterns occur

A search finds something wherever there is a way through the pattern, so that a pattern that is not
found has no ways at all.

* `isSome_search_of_way`: a way that begins somewhere in a text makes a search succeed.
* `Way.cut`: a way sees nothing of what it leaves, unless the pattern asks for the end of the text.
* `isSome_search_of_cut`: a pattern without such a question occurs in every text that a way stays
  inside of.
* `search_eq_some_iff`: the answer of a search is that of the leftmost place with an answer.
-/

namespace PlainNotes.Pattern

variable {p : Pattern} {s s' t r : List Char} {c c' : Captures} {cls : Char → Bool}
  {k : List Char → Option Captures}

/-! ## Ways make runs succeed -/

theorem isSome_runMany {u : List Char} (hu : ∀ x ∈ u, cls x = true) (hk : (k s).isSome) :
    (runMany cls k (u ++ s)).isSome := by
  induction u with
  | nil =>
    cases s with
    | nil => exact hk
    | cons x s =>
      by_cases hx : cls x = true
      · simp [runMany, hx, hk]
      · simp [runMany, hx, hk]
  | cons x u ih =>
    have hrest := ih fun y hy => hu y (List.mem_cons_of_mem x hy)
    simp [runMany, hu x (by simp), hrest]

theorem isSome_runFew {u : List Char} (hu : ∀ x ∈ u, cls x = true) (hk : (k s).isSome) :
    (runFew cls k (u ++ s)).isSome := by
  induction u with
  | nil =>
    cases s with
    | nil => exact hk
    | cons x s => simp [runFew, hk]
  | cons x u ih =>
    have hrest := ih fun y hy => hu y (List.mem_cons_of_mem x hy)
    simp [runFew, hu x (by simp), hrest]

/-- A way to a rest that the continuation accepts makes a run succeed, though perhaps by a way of
higher rank. -/
theorem isSome_run_of_way (h : p.Way s s' c c') (hk : (k s').isSome) : (p.run k s).isSome := by
  induction p generalizing k s s' c c' with
  | empty =>
    obtain ⟨rfl, -⟩ := h
    exact hk
  | one cls =>
    obtain ⟨x, rfl, hx, -⟩ := h
    simpa [run, runOne, hx] using hk
  | seq p q ihp ihq =>
    obtain ⟨m, d, hp, hq⟩ := h
    exact ihp hp (ihq hq hk)
  | alt p q ihp ihq =>
    rw [run, Option.isSome_or, Bool.or_eq_true]
    rcases h with h | h
    · exact Or.inl (ihp h hk)
    · exact Or.inr (ihq h hk)
  | many cls =>
    obtain ⟨u, rfl, hu, -⟩ := h
    exact isSome_runMany hu hk
  | few cls =>
    obtain ⟨u, rfl, hu, -⟩ := h
    exact isSome_runFew hu hk
  | mark m =>
    obtain ⟨rfl, -⟩ := h
    simpa [run] using hk
  | atEnd =>
    obtain ⟨rfl, rfl, -⟩ := h
    exact hk

theorem mem_tails_append (u s : List Char) : s ∈ tails (u ++ s) := by
  induction u with
  | nil =>
    cases s with
    | nil => simp
    | cons x s => simp
  | cons x u ih => exact List.mem_cons_of_mem _ ih

/-- **A way that begins somewhere in a text makes a search succeed.** -/
theorem isSome_search_of_way (h : p.Way s s' c c') (u : List Char) :
    (p.search (u ++ s)).isSome := by
  rw [search_eq, List.findSome?_isSome_iff]
  exact ⟨s, mem_tails_append u s, isSome_run_of_way h rfl⟩

/-! ## Parts of texts -/

theorem way_all_append {ps qs : List Pattern} :
    (all (ps ++ qs)).Way s s' c c' ↔ ∃ m d, (all ps).Way s m d c' ∧ (all qs).Way m s' c d := by
  induction ps generalizing s c' with
  | nil =>
    constructor
    · intro h
      exact ⟨s, c', ⟨rfl, rfl⟩, h⟩
    · rintro ⟨m, d, ⟨rfl, rfl⟩, h⟩
      exact h
  | cons p ps ih =>
    rw [List.cons_append, way_all_cons]
    constructor
    · rintro ⟨m, d, hp, h⟩
      obtain ⟨m', d', hps, hqs⟩ := ih.1 h
      exact ⟨m', d', way_all_cons.2 ⟨m, d, hp, hps⟩, hqs⟩
    · rintro ⟨m', d', h, hqs⟩
      obtain ⟨m, d, hp, hps⟩ := way_all_cons.1 h
      exact ⟨m, d, hp, ih.2 ⟨m', d', hps, hqs⟩⟩

/-- The pattern does not ask for the end of the text. -/
def endFree : Pattern → Bool
  | seq p q | alt p q => p.endFree && q.endFree
  | atEnd => false
  | empty | one _ | many _ | few _ | mark _ => true

/-- **A way sees nothing of what it leaves**, so that this can be cut off. -/
theorem Way.cut (hp : p.endFree = true) (h : p.Way (s ++ r) (s' ++ r) c c') (d : Captures) :
    ∃ d', p.Way s s' d d' := by
  induction p generalizing s s' c c' d with
  | empty => exact ⟨d, List.append_cancel_right h.1, rfl⟩
  | one cls =>
    obtain ⟨x, heq, hx, -⟩ := h
    rw [← List.cons_append] at heq
    exact ⟨d, x, List.append_cancel_right heq, hx, rfl⟩
  | seq p q ihp ihq =>
    rw [endFree, Bool.and_eq_true] at hp
    obtain ⟨m, e, hpway, hqway⟩ := h
    obtain ⟨u, rfl⟩ := hqway.exists_append
    rw [← List.append_assoc] at hpway hqway
    obtain ⟨e', hq⟩ := ihq hp.2 hqway d
    obtain ⟨d', hp⟩ := ihp hp.1 hpway e'
    exact ⟨d', u ++ s', e', hp, hq⟩
  | alt p q ihp ihq =>
    rw [endFree, Bool.and_eq_true] at hp
    rcases h with h | h
    · obtain ⟨d', h⟩ := ihp hp.1 h d
      exact ⟨d', Or.inl h⟩
    · obtain ⟨d', h⟩ := ihq hp.2 h d
      exact ⟨d', Or.inr h⟩
  | many cls =>
    obtain ⟨u, heq, hu, -⟩ := h
    rw [← List.append_assoc] at heq
    exact ⟨d, u, List.append_cancel_right heq, hu, rfl⟩
  | few cls =>
    obtain ⟨u, heq, hu, -⟩ := h
    rw [← List.append_assoc] at heq
    exact ⟨d, u, List.append_cancel_right heq, hu, rfl⟩
  | mark m => exact ⟨d.set m s, List.append_cancel_right h.1, rfl⟩
  | atEnd => exact absurd hp (by simp [endFree])

/-- A pattern occurs in a text that a way stays inside of, whatever stands behind. -/
theorem isSome_search_of_cut (hp : p.endFree = true) (h : p.Way (s ++ r) (s' ++ r) c c')
    (u : List Char) : (p.search (u ++ s)).isSome := by
  obtain ⟨d', hway⟩ := h.cut hp {}
  exact isSome_search_of_way hway u

/-! ## The leftmost place -/

theorem exists_leftmost (h : (tails s).findSome? k = some c) :
    ∃ a t, s = a ++ t ∧ k t = some c ∧
      ∀ a' t', s = a' ++ t' → a'.length < a.length → k t' = none := by
  induction s with
  | nil =>
    rw [tails_nil, List.findSome?_singleton] at h
    exact ⟨[], [], rfl, h, fun a' t' _ hlt => absurd hlt (Nat.not_lt_zero _)⟩
  | cons x s ih =>
    rw [tails_cons, List.findSome?_cons] at h
    cases hk : k (x :: s) with
    | some d =>
      rw [hk] at h
      exact ⟨[], x :: s, rfl, hk.trans h, fun a' t' _ hlt => absurd hlt (Nat.not_lt_zero _)⟩
    | none =>
      rw [hk] at h
      obtain ⟨a, t, rfl, ht, hleft⟩ := ih h
      refine ⟨x :: a, t, rfl, ht, ?_⟩
      intro a' t' heq hlt
      cases a' with
      | nil =>
        obtain rfl : x :: (a ++ t) = t' := heq
        exact hk
      | cons y a' => exact hleft a' t' (List.cons.inj heq).2 (Nat.lt_of_succ_lt_succ hlt)

theorem findSome?_tails_of_leftmost {a : List Char} (h : k t = some c)
    (hleft : ∀ a' t', a ++ t = a' ++ t' → a'.length < a.length → k t' = none) :
    (tails (a ++ t)).findSome? k = some c := by
  induction a with
  | nil => cases t <;> simp [h]
  | cons x a ih =>
    have hnone : k (x :: (a ++ t)) = none := hleft [] (x :: (a ++ t)) rfl (Nat.succ_pos _)
    rw [List.cons_append, tails_cons, List.findSome?_cons, hnone]
    exact ih fun a' t' heq hlt =>
      hleft (x :: a') t' (congrArg (x :: ·) heq) (Nat.succ_lt_succ hlt)

/-- **A search finds the leftmost place** of the text at which the pattern matches. -/
theorem search_eq_some_iff :
    p.search s = some c ↔ ∃ a t, s = a ++ t ∧ p.run accept t = some c ∧
      ∀ a' t', s = a' ++ t' → a'.length < a.length → p.run accept t' = none := by
  rw [search_eq]
  constructor
  · exact exists_leftmost
  · rintro ⟨a, t, rfl, ht, hleft⟩
    exact findSome?_tails_of_leftmost ht hleft

theorem search_eq_none_iff :
    p.search s = none ↔ ∀ a t, s = a ++ t → p.run accept t = none := by
  rw [search_eq, List.findSome?_eq_none_iff]
  constructor
  · rintro h a t rfl
    exact h t (mem_tails_append a t)
  · intro h t ht
    obtain ⟨a, heq⟩ := exists_append_of_mem_tails ht
    exact h a t heq

end PlainNotes.Pattern
