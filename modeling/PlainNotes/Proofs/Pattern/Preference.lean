import PlainNotes.Proofs.Pattern.Capture

/-!
# What patterns prefer

`p.Takes u s` says that the pattern, in front of `u ++ s`, takes `u` first of all, if what follows
accepts `s`.  Patterns without marks are followed through a text in this way, one after the other;
groups record what they take.

* `Takes.cons`, `Takes.run_all`: sequences.
* `Takes.run_group`, `run_group_few1`: groups.
-/

namespace PlainNotes

namespace Captures

/-- Records the stretch `u` in front of the rest `s` for a group. -/
def record (c : Captures) (g : Group) (u s : List Char) : Captures :=
  (c.set (.closing g) s).set (.opening g) (u ++ s)

@[simp] theorem text_record (c : Captures) (g : Group) (u s : List Char) :
    (c.record g u s).text g = some u :=
  c.text_group g u s

theorem text_record_of_ne (c : Captures) {g g' : Group} (h : g' ≠ g) (u s : List Char) :
    (c.record g' u s).text g = c.text g := by
  have hopening : (Mark.opening g').group ≠ g := h
  have hclosing : (Mark.closing g').group ≠ g := h
  rw [record, text_set_of_ne _ hopening, text_set_of_ne _ hclosing]

end Captures

namespace Pattern

variable {p q : Pattern} {ps qs : List Pattern} {u v s : List Char} {cls : Char → Bool}
  {c : Captures}
  {g : Group} {k : List Char → Option Captures}

/-- In front of `u ++ s` the pattern takes `u` first, if what follows accepts `s`. -/
def Takes (p : Pattern) (u s : List Char) : Prop :=
  ∀ ⦃k c⦄, k s = some c → p.run k (u ++ s) = some c

/-! ## Single characters -/

theorem takes_one {x : Char} (h : cls x = true) (s : List Char) : (one cls).Takes [x] s := by
  intro k c hk
  simpa [run, runOne, h] using hk

/-- The text does not begin with a character of the class. -/
def StartsOutside (cls : Char → Bool) (s : List Char) : Prop :=
  ∀ x ∈ s.head?, cls x = false

theorem takes_many (hu : ∀ x ∈ u, cls x = true) (hs : StartsOutside cls s) :
    (many cls).Takes u s := by
  intro k c hk
  rw [run]
  induction u with
  | nil =>
    cases s with
    | nil => exact hk
    | cons x s => simpa [runMany, hs x rfl] using hk
  | cons x u ih =>
    have hrest := ih fun y hy => hu y (List.mem_cons_of_mem x hy)
    rw [List.cons_append, runMany, if_pos (hu x (by simp)), hrest, Option.some_or]

/-- Nothing is given back where what follows never begins with a character of the class. -/
theorem runMany_of_stuck (hk : ∀ x s, cls x = true → k (x :: s) = none) (s : List Char) :
    runMany cls k s = k (s.dropWhile cls) := by
  induction s with
  | nil => rfl
  | cons x s ih =>
    by_cases hx : cls x = true
    · rw [runMany, if_pos hx, hk x s hx, Option.or_none, ih, List.dropWhile_cons_of_pos hx]
    · rw [runMany, if_neg hx, List.dropWhile_cons_of_neg hx]

theorem startsOutside_dropWhile (cls : Char → Bool) (s : List Char) :
    StartsOutside cls (s.dropWhile cls) := by
  intro x hx
  have hnot := List.head?_dropWhile_not cls s
  rw [Option.mem_def.1 hx] at hnot
  exact hnot

theorem dropWhile_of_startsOutside (hs : StartsOutside cls s) : s.dropWhile cls = s := by
  cases s with
  | nil => rfl
  | cons x s => exact List.dropWhile_cons_of_neg (by simp [hs x rfl])

theorem takeWhile_of_startsOutside (hs : StartsOutside cls s) : s.takeWhile cls = [] := by
  cases s with
  | nil => rfl
  | cons x s => exact List.takeWhile_cons_of_neg (by simp [hs x rfl])

theorem takes_many1 (hne : u ≠ []) (hu : ∀ x ∈ u, cls x = true) (hs : StartsOutside cls s) :
    (many1 cls).Takes u s := by
  cases u with
  | nil => exact absurd rfl hne
  | cons x u =>
    intro k c hk
    have hmany := takes_many (fun y hy => hu y (List.mem_cons_of_mem x hy)) hs hk
    exact takes_one (hu x (by simp)) (u ++ s) hmany

/-! ## Sequences and choices -/

theorem Takes.seq (hp : p.Takes u (v ++ s)) (hq : q.Takes v s) :
    (Pattern.seq p q).Takes (u ++ v) s := by
  intro k c hk
  rw [run, List.append_assoc]
  exact hp (hq hk)

theorem takes_all_nil (s : List Char) : (all []).Takes [] s := fun _ _ hk => hk

theorem Takes.cons (hp : p.Takes u (v ++ s)) (hps : (all ps).Takes v s) :
    (all (p :: ps)).Takes (u ++ v) s := by
  intro k c hk
  rw [run_all_cons, List.append_assoc]
  exact hp (hps hk)

theorem Takes.single (hp : p.Takes u s) : (all [p]).Takes u s := hp

theorem run_all_append (k : List Char → Option Captures) (s : List Char) :
    (all (ps ++ qs)).run k s = (all ps).run ((all qs).run k) s := by
  induction ps generalizing s with
  | nil => rfl
  | cons p ps ih =>
    rw [List.cons_append, run_all_cons, run_all_cons]
    exact congrArg (p.run · s) (funext ih)

/-- What follows a sequence is matched behind what the sequence takes. -/
theorem Takes.run_all (hps : (all ps).Takes u s) (h : (all qs).run k s = some c) :
    (all (ps ++ qs)).run k (u ++ s) = some c := by
  rw [run_all_append]
  exact hps h

theorem Takes.alt (hp : p.Takes u s) (q : Pattern) : (Pattern.alt p q).Takes u s := by
  intro k c hk
  rw [run, hp hk, Option.some_or]

theorem Takes.any (hp : p.Takes u s) (ps : List Pattern) : (Pattern.any (p :: ps)).Takes u s := by
  intro k c hk
  rw [run_any_cons, hp hk, Option.some_or]

theorem Takes.any_tail (hp : ∀ k, p.run k (u ++ s) = none) (hps : (Pattern.any ps).Takes u s) :
    (Pattern.any (p :: ps)).Takes u s := by
  intro k c hk
  rw [run_any_cons, hp, Option.none_or]
  exact hps hk

theorem Takes.optional (hp : p.Takes u s) : (Pattern.optional p).Takes u s :=
  hp.alt empty

/-- What may be left out takes nothing where it does not match. -/
theorem takes_optional_nil (h : ∀ k, p.run k s = none) : (Pattern.optional p).Takes [] s := by
  intro k c hk
  rw [Pattern.optional, run, List.nil_append, h, Option.none_or]
  exact hk

/-! ## Groups -/

theorem Takes.run_group (hp : p.Takes u s) (g : Group) (h : k s = some c) :
    (group g p).run k (u ++ s) = some (c.record g u s) := by
  have hclosing : (mark (.closing g)).run k s = some (c.set (.closing g) s) := by
    rw [run, h, Option.map_some]
  rw [group, run, run, run, hp hclosing, Option.map_some, Captures.record]

/-- A group of as many characters as possible goes on to the end of the text. -/
theorem run_group_many1 (g : Group) (hne : u ≠ []) (hu : ∀ x ∈ u, cls x = true) :
    (group g (many1 cls)).run accept u = some (({} : Captures).record g u []) := by
  have hend : StartsOutside cls [] := by
    intro x hx
    cases hx
  have hgroup := (takes_many1 hne hu hend).run_group g (k := accept) (c := {}) rfl
  rwa [List.append_nil] at hgroup

/-- As few characters as possible are as many as it needs until what follows accepts. -/
theorem runFew_append (hu : ∀ x ∈ u, cls x = true)
    (hskip : ∀ a b, u = a ++ b → b ≠ [] → k (b ++ s) = none) (h : k s = some c) :
    runFew cls k (u ++ s) = some c := by
  induction u with
  | nil =>
    cases s with
    | nil => exact h
    | cons x s => rw [List.nil_append, runFew, h, Option.some_or]
  | cons x u ih =>
    have hnone : k (x :: (u ++ s)) = none := hskip [] (x :: u) rfl (by simp)
    have hrest := ih (fun y hy => hu y (List.mem_cons_of_mem x hy)) fun a b heq =>
      hskip (x :: a) b (by rw [heq, List.cons_append])
    rw [List.cons_append, runFew, hnone, if_pos (hu x (by simp)), hrest, Option.none_or]

/-- A group of at least one character, as few as possible, up to the first place where what follows
accepts. -/
theorem run_group_few1 (g : Group) (hne : u ≠ []) (hu : ∀ x ∈ u, cls x = true)
    (hskip : ∀ a b, u = a ++ b → a ≠ [] → b ≠ [] → k (b ++ s) = none) (h : k s = some c) :
    (group g (few1 cls)).run k (u ++ s) = some (c.record g u s) := by
  cases u with
  | nil => exact absurd rfl hne
  | cons x u =>
    have hclosing : (mark (.closing g)).run k s = some (c.set (.closing g) s) := by
      rw [run, h, Option.map_some]
    have hfew : runFew cls ((mark (.closing g)).run k) (u ++ s) =
        some (c.set (.closing g) s) := by
      refine runFew_append (fun y hy => hu y (List.mem_cons_of_mem x hy)) ?_ hclosing
      intro a b heq hb
      rw [run, hskip (x :: a) b (by rw [heq, List.cons_append]) (by simp) hb, Option.map_none]
    rw [group, run, run, run, few1, run, List.cons_append, run, runOne, if_pos (hu x (by simp)),
      run, hfew, Option.map_some]
    rfl

end Pattern

end PlainNotes
