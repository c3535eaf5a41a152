import Mathlib.Logic.Function.Basic
import PlainNotes.Files.Disk
import PlainNotes.Proofs.Text.Pieces

/-!
# Entries of directories

What stands in a directory, entry by entry, and how a disk changes at one of them.  A disk may change
at every place that is no directory, and all paths through its directories lead where they led before.

* `parts_join`: the parts of the path of an entry.
* `find_join_eq_ok_iff`: what is found under that path.
* `entry_put`, `entry_remove`: a change at an entry is one at no other.
-/

namespace PlainNotes.Files

open Text

/-- A text that names an entry of a directory. -/
structure Name where
  text : String
  slashFree : '/' ∉ text.toList
  ne_empty : text.toList ≠ []
  ne_here : text.toList ≠ ['.']
  ne_up : text.toList ≠ ['.', '.']
  short : text.utf8ByteSize ≤ Disk.nameLimit
  deriving DecidableEq

theorem Name.eq_of_text {name name' : Name} (h : name.text = name'.text) : name = name' := by
  cases name
  cases name'
  simpa using h

/-! ## Paths of entries -/

/-- Where a path begins, if its first piece does not say it by a name. -/
def lead : List (List Char) → List Part
  | [] => []
  | p :: ps => if p = [] ∧ ps ≠ [] then [.root] else if p = ['.'] then [.here] else []

/-- The parts of a path that falls into these pieces. -/
def partsOf (ps : List (List Char)) : List Part :=
  lead ps ++ ps.filterMap Part.ofPiece

theorem parts_eq (path : String) : parts path = partsOf (pieces (· == '/') path.toList) := by
  rw [parts, partsOf]
  split
  case h_1 hps => rw [hps, lead, if_pos ⟨rfl, List.cons_ne_nil _ _⟩, List.singleton_append]
  case h_2 hps => rw [hps, lead, if_neg (by simp), if_pos rfl, List.singleton_append]
  case h_3 hroot hhere =>
    obtain ⟨p, ps, hps⟩ := List.exists_cons_of_ne_nil (pieces_ne_nil (· == '/') path.toList)
    rw [hps, lead, if_neg, if_neg, List.nil_append]
    · rintro rfl
      exact hhere _ hps
    · rintro ⟨rfl, hne⟩
      obtain ⟨q, qs, rfl⟩ := List.exists_cons_of_ne_nil hne
      exact hroot _ _ hps

/-- What stands last does not matter to the beginning, unless it is all there is. -/
theorem lead_concat {ps : List (List Char)} (hne : ps ≠ []) (hblank : ps ≠ [[]]) (p : List Char) :
    lead (ps ++ [p]) = lead ps := by
  obtain ⟨q, qs, rfl⟩ := List.exists_cons_of_ne_nil hne
  rw [List.cons_append, lead, lead]
  refine if_ctx_congr ?_ (fun _ => rfl) fun _ => rfl
  refine and_congr_right ?_
  rintro rfl
  simpa using hblank

theorem lead_concat_congr {ps : List (List Char)} (hne : ps ≠ []) (p p' : List Char) :
    lead (ps ++ [p]) = lead (ps ++ [p']) := by
  by_cases hblank : ps = [[]]
  · rw [hblank]
    rfl
  · rw [lead_concat hne hblank, lead_concat hne hblank]

/-- A slash behind a path does not count. -/
theorem partsOf_concat_nil {ps : List (List Char)} (hne : ps ≠ []) (hblank : ps ≠ [[]]) :
    partsOf (ps ++ [[]]) = partsOf ps := by
  have hnone : ([[]] : List (List Char)).filterMap Part.ofPiece = [] := rfl
  rw [partsOf, partsOf, lead_concat hne hblank, List.filterMap_append, hnone, List.append_nil]

namespace Name

theorem ofPiece_text (name : Name) : Part.ofPiece name.text.toList = some (.name name.text) := by
  have hshort : ¬ (decide (name.text.toList = []) || decide (name.text.toList = ['.'])) = true := by
    simp [name.ne_empty, name.ne_here]
  rw [Part.ofPiece, if_neg hshort, if_neg name.ne_up, String.ofList_toList]

theorem pieces_text (name : Name) : pieces (· == '/') name.text.toList = [name.text.toList] :=
  pieces_of_not_mem name.slashFree

theorem parts_text (name : Name) : parts name.text = [.name name.text] := by
  rw [parts_eq, name.pieces_text, partsOf, lead, if_neg (by simp), if_neg name.ne_here,
    List.filterMap_cons_some name.ofPiece_text]
  rfl

theorem isAbsolute_text (name : Name) : isAbsolute name.text = false := by
  rw [isAbsolute, beq_eq_false_iff_ne]
  intro hhead
  exact name.slashFree (List.mem_of_head? hhead)

/-- A name behind a slash is one part more. -/
theorem partsOf_concat (name : Name) {ps : List (List Char)} (hne : ps ≠ []) :
    partsOf (ps ++ [name.text.toList]) = partsOf (ps ++ [[]]) ++ [.name name.text] := by
  have hnone : ([[]] : List (List Char)).filterMap Part.ofPiece = [] := rfl
  rw [partsOf, partsOf, lead_concat_congr hne name.text.toList [], List.filterMap_append,
    List.filterMap_append, List.filterMap_cons_some name.ofPiece_text, hnone, List.append_nil,
    List.filterMap_nil, List.append_assoc]

end Name

/-- **The path of an entry** has one part more than that of its directory. -/
theorem parts_join (directory : String) (name : Name) :
    parts (join directory name.text) = parts directory ++ [.name name.text] := by
  rw [join, name.isAbsolute_text, Bool.false_or]
  by_cases hempty : directory = ""
  · rw [if_pos (by simpa using hempty), name.parts_text, hempty]
    rfl
  rw [if_neg (by simpa using hempty), parts_eq directory]
  by_cases hslash : directory.toList.getLast? = some '/'
  · obtain ⟨front, hfront⟩ := List.getLast?_eq_some_iff.1 hslash
    rw [if_pos hslash, parts_eq, String.toList_append, hfront, List.append_assoc,
      List.singleton_append, pieces_append_cut rfl, pieces_append_cut rfl, name.pieces_text,
      pieces_nil, name.partsOf_concat (pieces_ne_nil _ front)]
  · have hblank : pieces (· == '/') directory.toList ≠ [[]] := by
      intro hpieces
      have hjoined := intercalate_pieces '/' directory.toList
      rw [hpieces, List.intercalate_singleton] at hjoined
      exact hempty (String.toList_eq_nil_iff.1 hjoined.symm)
    have htext : (directory ++ "/" ++ name.text).toList =
        directory.toList ++ '/' :: name.text.toList := by
      rw [String.toList_append, String.toList_append, List.append_assoc]
      rfl
    rw [if_neg hslash, parts_eq, htext, pieces_append_cut rfl, name.pieces_text,
      name.partsOf_concat (pieces_ne_nil _ _), partsOf_concat_nil (pieces_ne_nil _ _) hblank]

/-! ## Following a path -/

namespace Disk

variable {disk disk' : Disk} {place found target : Place} {p : Part} {ps qs : List Part}
  {node : Node} {directory : String} {name : Name}

theorem followFrom_append (disk : Disk) (place : Place) (ps qs : List Part) :
    disk.followFrom place (ps ++ qs) =
      (disk.followFrom place ps).bind fun place => disk.followFrom place qs := by
  induction ps generalizing place with
  | nil => rfl
  | cons p ps ih =>
    rw [List.cons_append, followFrom, followFrom]
    cases disk.next place p with
    | error e => rfl
    | ok place => exact ih place

theorem followFrom_singleton (disk : Disk) (place : Place) (p : Part) :
    disk.followFrom place [p] = disk.next place p := by
  rw [followFrom]
  cases disk.next place p <;> rfl

theorem find_eq_ok_iff :
    disk.find ps = .ok (place, node) ↔ disk.follow ps = .ok place ∧ disk.at? place = some node := by
  rw [find]
  cases disk.follow ps with
  | error e => simp
  | ok found =>
    simp only [Except.ok.injEq]
    constructor
    · cases hat : disk.at? found with
      | none => simp
      | some node' =>
        simp only [Except.ok.injEq, Prod.mk.injEq]
        rintro ⟨rfl, rfl⟩
        exact ⟨rfl, hat⟩
    · rintro ⟨rfl, hat⟩
      rw [hat]

/-- A name leads on from directories only. -/
theorem next_name_eq_ok_iff :
    disk.next place (.name name.text) = .ok found ↔
      disk.at? place = some .directory ∧ found = place ++ [name.text] := by
  rw [next, if_neg (Nat.not_lt.2 name.short)]
  cases disk.at? place with
  | none => simp
  | some node =>
    cases node with
    | file bytes => simp
    | directory => simp [eq_comm]

/-- What is found under the path of an entry stands in a directory that is found. -/
theorem find_join_eq_ok_iff :
    disk.find (parts (join directory name.text)) = .ok (found, node) ↔
      ∃ place, disk.find (parts directory) = .ok (place, .directory) ∧
        found = place ++ [name.text] ∧ disk.at? found = some node := by
  rw [find_eq_ok_iff, parts_join, follow, followFrom_append]
  constructor
  · rintro ⟨hfollow, hat⟩
    cases hplace : disk.followFrom disk.working (parts directory) with
    | error e =>
      rw [hplace] at hfollow
      cases hfollow
    | ok place =>
      rw [hplace] at hfollow
      have hnext : disk.next place (.name name.text) = .ok found := by
        rw [← followFrom_singleton]
        exact hfollow
      obtain ⟨hdirectory, hfound⟩ := next_name_eq_ok_iff.1 hnext
      exact ⟨place, find_eq_ok_iff.2 ⟨hplace, hdirectory⟩, hfound, hat⟩
  · rintro ⟨place, hplace, hfound, hat⟩
    obtain ⟨hfollow, hdirectory⟩ := find_eq_ok_iff.1 hplace
    have hfollow : disk.followFrom disk.working (parts directory) = .ok place := hfollow
    refine ⟨?_, hat⟩
    rw [hfollow, ← next_name_eq_ok_iff.2 ⟨hdirectory, hfound⟩, ← followFrom_singleton]
    rfl

/-! ## Changes at one place -/

/-- The second disk holds what the first one holds, but perhaps at one place. -/
structure Agrees (disk disk' : Disk) (target : Place) : Prop where
  working : disk'.working = disk.working
  elsewhere : ∀ place ≠ target, disk'.at? place = disk.at? place

theorem next_congr (h : disk'.at? place = disk.at? place) (p : Part) :
    disk'.next place p = disk.next place p := by
  cases p <;> simp only [next, h]

theorem directory_of_next (h : disk.next place p = .ok found) :
    p = .root ∨ p = .here ∨ disk.at? place = some .directory := by
  cases p with
  | root => exact Or.inl rfl
  | here => exact Or.inr (Or.inl rfl)
  | up | name text =>
    refine Or.inr (Or.inr ?_)
    rw [next] at h
    cases hat : disk.at? place with
    | none =>
      rw [hat] at h
      cases h
    | some node =>
      cases node with
      | directory => rfl
      | file bytes =>
        rw [hat] at h
        cases h

theorem Agrees.followFrom_eq (h : Agrees disk disk' target)
    (htarget : disk.at? target ≠ some .directory)
    (hfollow : disk.followFrom place ps = .ok found) : disk'.followFrom place ps = .ok found := by
  induction ps generalizing place with
  | nil => exact hfollow
  | cons p ps ih =>
    rw [followFrom] at hfollow ⊢
    cases hnext : disk.next place p with
    | error e => simp [hnext] at hfollow
    | ok there =>
      have hnext' : disk'.next place p = .ok there := by
        rcases directory_of_next hnext with rfl | rfl | hdirectory
        · exact hnext
        · exact hnext
        · have hne : place ≠ target := by
            rintro rfl
            exact htarget hdirectory
          rw [next_congr (h.elsewhere place hne), hnext]
      rw [hnext] at hfollow
      rw [hnext']
      exact ih hfollow

/-- Directories are found where they were if something else than a directory changes. -/
theorem Agrees.find_directory (h : Agrees disk disk' target)
    (htarget : disk.at? target ≠ some .directory)
    (hfind : disk.find ps = .ok (place, .directory)) : disk'.find ps = .ok (place, .directory) := by
  obtain ⟨hfollow, hdirectory⟩ := find_eq_ok_iff.1 hfind
  have hne : place ≠ target := by
    rintro rfl
    exact htarget hdirectory
  refine find_eq_ok_iff.2 ⟨?_, ?_⟩
  · rw [follow, h.working]
    exact h.followFrom_eq htarget hfollow
  · rw [h.elsewhere place hne, hdirectory]

theorem lookup_filter_self (target : Place) (entries : List (Place × Node)) :
    (entries.filter (·.1 != target)).lookup target = none := by
  induction entries with
  | nil => rfl
  | cons entry entries ih =>
    obtain ⟨place, node⟩ := entry
    by_cases hplace : place = target
    · rw [List.filter_cons_of_neg (by simp [hplace]), ih]
    · have hbeq : (target == place) = false := beq_eq_false_iff_ne.2 (Ne.symm hplace)
      rw [List.filter_cons_of_pos (by simp [hplace]), List.lookup_cons, hbeq]
      exact ih

theorem lookup_filter_of_ne (hne : place ≠ target) (entries : List (Place × Node)) :
    (entries.filter (·.1 != target)).lookup place = entries.lookup place := by
  induction entries with
  | nil => rfl
  | cons entry entries ih =>
    obtain ⟨there, node⟩ := entry
    by_cases hthere : there = target
    · have hbeq : (place == there) = false := beq_eq_false_iff_ne.2 (hthere ▸ hne)
      rw [List.filter_cons_of_neg (by simp [hthere]), ih, List.lookup_cons, hbeq]
    · rw [List.filter_cons_of_pos (by simp [hthere]), List.lookup_cons, List.lookup_cons, ih]

theorem agrees_put (disk : Disk) (target : Place) (node : Node) :
    Agrees disk (disk.put target node) target := by
  refine ⟨rfl, fun place hne => ?_⟩
  have hbeq : (place == target) = false := beq_eq_false_iff_ne.2 hne
  rw [at?, at?, put, List.lookup_append, lookup_filter_of_ne hne, List.lookup_cons, hbeq,
    List.lookup_nil, Option.or_none]

theorem at?_put_self (htarget : target ≠ []) : (disk.put target node).at? target = some node := by
  rw [at?, if_neg htarget, put, List.lookup_append, lookup_filter_self, Option.none_or,
    List.lookup_cons, beq_self_eq_true]

theorem agrees_remove (disk : Disk) (target : Place) : Agrees disk (disk.remove target) target := by
  refine ⟨rfl, fun place hne => ?_⟩
  rw [at?, at?, remove, lookup_filter_of_ne hne]

theorem at?_remove_self (htarget : target ≠ []) : (disk.remove target).at? target = none := by
  rw [at?, if_neg htarget, remove, lookup_filter_self]

/-! ## Entries -/

/-- What stands in a directory under a name. -/
def entry (disk : Disk) (directory : String) (name : Name) : Option Node :=
  match disk.find (parts directory) with
  | .ok (place, .directory) => disk.at? (place ++ [name.text])
  | _ => none

theorem entry_eq (h : disk.find (parts directory) = .ok (place, .directory)) (name : Name) :
    disk.entry directory name = disk.at? (place ++ [name.text]) := by
  rw [entry, h]

/-- A change at an entry that is no directory is a change at no other entry. -/
theorem Agrees.entry_eq (h : Agrees disk disk' (place ++ [name.text]))
    (hplace : disk.find (parts directory) = .ok (place, .directory))
    (hentry : disk.entry directory name ≠ some .directory) :
    disk'.entry directory =
      Function.update (disk.entry directory) name (disk'.at? (place ++ [name.text])) := by
  rw [Disk.entry_eq hplace] at hentry
  have hplace' := h.find_directory hentry hplace
  funext other
  rw [Disk.entry_eq hplace']
  by_cases hother : other = name
  · rw [hother, Function.update_self]
  · rw [Function.update_of_ne hother, Disk.entry_eq hplace]
    refine h.elsewhere _ fun heq => hother (Name.eq_of_text ?_)
    simpa using heq

theorem entry_put (hplace : disk.find (parts directory) = .ok (place, .directory))
    (hentry : disk.entry directory name ≠ some .directory) (node : Node) :
    (disk.put (place ++ [name.text]) node).entry directory =
      Function.update (disk.entry directory) name (some node) := by
  rw [(agrees_put disk _ node).entry_eq hplace hentry, at?_put_self (by simp)]

theorem entry_remove (hplace : disk.find (parts directory) = .ok (place, .directory))
    (hentry : disk.entry directory name ≠ some .directory) :
    (disk.remove (place ++ [name.text])).entry directory =
      Function.update (disk.entry directory) name none := by
  rw [(agrees_remove disk _).entry_eq hplace hentry, at?_remove_self (by simp)]

end Disk

end PlainNotes.Files
