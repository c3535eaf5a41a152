import PlainNotes.Proofs.Pattern.Way

/-!
# Patterns and changed characters

A pattern whose classes do not tell a character from its image under `f` is blind to `f`: in the
text with all characters changed it finds the same match at the same places.

* `run_map`: runs, by induction on the pattern.
* `search_map`: searches.
* `Captures.text_map`: what the groups hold is changed as the text is.
-/

namespace PlainNotes

namespace Captures

variable (f : Char → Char)

/-- The captures of the same places in the changed text. -/
def map (c : Captures) : Captures where
  firstOpening := c.firstOpening.map (List.map f)
  firstClosing := c.firstClosing.map (List.map f)
  secondOpening := c.secondOpening.map (List.map f)
  secondClosing := c.secondClosing.map (List.map f)

theorem map_set (c : Captures) (m : Mark) (s : List Char) :
    (c.set m s).map f = (c.map f).set m (s.map f) := by
  cases m with
  | opening g => cases g <;> rfl
  | closing g => cases g <;> rfl

theorem before_map (rest s : List Char) :
    before (rest.map f) (s.map f) = (before rest s).map f := by
  rw [before, before, List.length_map, List.length_map, List.map_take]

theorem text_map (c : Captures) (g : Group) : (c.map f).text g = (c.text g).map (List.map f) := by
  obtain ⟨a, b, a', b'⟩ := c
  cases g with
  | first => cases a <;> cases b <;> simp [text, map, before_map]
  | second => cases a' <;> cases b' <;> simp [text, map, before_map]

end Captures

namespace Pattern

variable {f : Char → Char} {cls : Char → Bool} {p q : Pattern}

/-- The classes of the pattern do not tell a character from its image. -/
def Blind (f : Char → Char) : Pattern → Prop
  | seq p q | alt p q => p.Blind f ∧ q.Blind f
  | one cls | many cls | few cls => ∀ x, cls (f x) = cls x
  | empty | mark _ | atEnd => True

@[simp] theorem blind_seq : (seq p q).Blind f ↔ p.Blind f ∧ q.Blind f := Iff.rfl

@[simp] theorem blind_alt : (alt p q).Blind f ↔ p.Blind f ∧ q.Blind f := Iff.rfl

@[simp] theorem blind_all {ps : List Pattern} : (all ps).Blind f ↔ ∀ p ∈ ps, p.Blind f := by
  induction ps with
  | nil => simp [all, Blind]
  | cons p ps ih =>
    cases ps with
    | nil => simp [all]
    | cons q qs =>
      rw [all, Blind, ih]
      exact List.forall_mem_cons.symm

/-- No pattern at all is a class without characters. -/
@[simp] theorem blind_any {ps : List Pattern} : (any ps).Blind f ↔ ∀ p ∈ ps, p.Blind f := by
  induction ps with
  | nil => simp [any, Blind]
  | cons p ps ih =>
    cases ps with
    | nil => simp [any]
    | cons q qs =>
      rw [any, Blind, ih]
      exact List.forall_mem_cons.symm

@[simp] theorem blind_optional : p.optional.Blind f ↔ p.Blind f := and_iff_left trivial

theorem blind_many1 (h : ∀ x, cls (f x) = cls x) : (many1 cls).Blind f := ⟨h, h⟩

theorem blind_few1 (h : ∀ x, cls (f x) = cls x) : (few1 cls).Blind f := ⟨h, h⟩

@[simp] theorem blind_group {g : Group} : (group g p).Blind f ↔ p.Blind f :=
  (and_iff_right trivial).trans (and_iff_left trivial)

/-! ## Runs -/

variable {k k' : List Char → Option Captures}

theorem runOne_map (hcls : ∀ x, cls (f x) = cls x)
    (hk : ∀ s, k' (s.map f) = (k s).map (Captures.map f)) (s : List Char) :
    runOne cls k' (s.map f) = (runOne cls k s).map (Captures.map f) := by
  cases s with
  | nil => rfl
  | cons x s =>
    rw [List.map_cons, runOne, runOne, hcls, hk]
    split <;> rfl

theorem runMany_map (hcls : ∀ x, cls (f x) = cls x)
    (hk : ∀ s, k' (s.map f) = (k s).map (Captures.map f)) (s : List Char) :
    runMany cls k' (s.map f) = (runMany cls k s).map (Captures.map f) := by
  induction s with
  | nil => exact hk []
  | cons x s ih =>
    have hcons := hk (x :: s)
    rw [List.map_cons] at hcons
    rw [List.map_cons, runMany, runMany, hcls, ih, hcons]
    split
    · exact Option.map_or.symm
    · rfl

theorem runFew_map (hcls : ∀ x, cls (f x) = cls x)
    (hk : ∀ s, k' (s.map f) = (k s).map (Captures.map f)) (s : List Char) :
    runFew cls k' (s.map f) = (runFew cls k s).map (Captures.map f) := by
  induction s with
  | nil => exact hk []
  | cons x s ih =>
    have hcons := hk (x :: s)
    rw [List.map_cons] at hcons
    rw [List.map_cons, runFew, runFew, hcls, ih, hcons, Option.map_or]
    split <;> rfl

/-- **A run in the changed text** goes the same way, if what follows does. -/
theorem run_map (hp : p.Blind f) (hk : ∀ s, k' (s.map f) = (k s).map (Captures.map f))
    (s : List Char) : p.run k' (s.map f) = (p.run k s).map (Captures.map f) := by
  induction p generalizing k k' s with
  | empty => exact hk s
  | one cls => exact runOne_map hp hk s
  | seq p q ihp ihq => exact ihp hp.1 (fun t => ihq hp.2 hk t) s
  | alt p q ihp ihq => rw [run, run, ihp hp.1 hk, ihq hp.2 hk, Option.map_or]
  | many cls => exact runMany_map hp hk s
  | few cls => exact runFew_map hp hk s
  | mark m =>
    rw [run, run, hk, Option.map_map, Option.map_map]
    exact congrArg (Option.map · (k s)) (funext fun c => (c.map_set f m s).symm)
  | atEnd =>
    rw [run, run, List.isEmpty_map, hk]
    split <;> rfl

theorem tails_map (f : Char → Char) (s : List Char) :
    tails (s.map f) = (tails s).map (List.map f) := by
  induction s with
  | nil => rfl
  | cons x s ih => rw [List.map_cons, tails_cons, ih, tails_cons, List.map_cons, List.map_cons]

/-- **A search in the changed text** finds the same places. -/
theorem search_map (hp : p.Blind f) (s : List Char) :
    p.search (s.map f) = (p.search s).map (Captures.map f) := by
  have haccept : ∀ t : List Char, accept (t.map f) = (accept t).map (Captures.map f) := fun _ => rfl
  rw [search_eq, search_eq, tails_map, List.findSome?_map, List.map_findSome?]
  exact congrArg (List.findSome? · (tails s)) (funext fun t => run_map hp haccept t)

end Pattern

end PlainNotes
