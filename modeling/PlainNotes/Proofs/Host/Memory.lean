import Mathlib.Data.Nat.Digits.Defs
import PlainNotes.Host.Memory
import PlainNotes.Proofs.Host.Directory

/-!
# Hosts in memory keep their directories

A host in memory makes, fills and takes away files as a runner relies on, in any directory and
whatever stands there.

* `scriptEntry`: the names of script files are names of entries.
* `createFile_cases`, `run_writeFile`, `entries_removeFile`: what happens to a directory.
* `memory_keeps`: the host keeps each directory.
* `memory_copies`: one of its programs copies its file.
-/

namespace PlainNotes.Host

open Files

namespace Memory

variable {m m' : Memory} {directory : String} {name : Name} {old : List UInt8}

/-! ## Names of scripts -/

/-- The count in the name of a script file. -/
def countText (made : Nat) : List Char :=
  let digits := Nat.toDigits 10 (made % 1000000)
  List.replicate (6 - digits.length) '0' ++ digits

theorem scriptName_eq (made : Nat) :
    scriptName made = "notescript_" ++ String.ofList (countText made) ++ ".scpt" := rfl

theorem length_countText (made : Nat) : (countText made).length = 6 := by
  have hdigits : (Nat.toDigits 10 (made % 1000000)).length ≤ 6 :=
    Nat.toDigits_length 10 _ 6 (by decide) (Nat.mod_lt made (by decide))
  rw [countText, List.length_append, List.length_replicate]
  omega

theorem isDigit_of_mem_countText {made : Nat} {c : Char} (h : c ∈ countText made) :
    c.isDigit = true := by
  rcases List.mem_append.1 h with h | h
  · rw [List.eq_of_mem_replicate h]
    rfl
  · exact Nat.isDigit_of_mem_toDigits (by decide) (by decide) h

theorem toList_scriptName (made : Nat) :
    (scriptName made).toList = "notescript_".toList ++ (countText made ++ ".scpt".toList) := by
  have hcount : (String.ofList (countText made)).toList = countText made := String.toList_ofList
  rw [scriptName_eq, String.toList_append, String.toList_append, hcount, List.append_assoc]

theorem head?_scriptName (made : Nat) : (scriptName made).toList.head? = some 'n' := by
  rw [toList_scriptName]
  rfl

theorem utf8ByteSize_ofList_le (s : List Char) : (String.ofList s).utf8ByteSize ≤ 4 * s.length := by
  induction s with
  | nil => decide
  | cons c s ih =>
    have hc := c.utf8Size_le_four
    rw [String.ofList_cons, String.utf8ByteSize_append, String.utf8ByteSize_singleton,
      List.length_cons]
    omega

/-- The entry of a script file. -/
def scriptEntry (made : Nat) : Name where
  text := scriptName made
  slashFree := by
    intro h
    rw [toList_scriptName, List.mem_append, List.mem_append] at h
    rcases h with h | h | h
    · exact absurd h (by decide)
    · exact absurd (isDigit_of_mem_countText h) (by decide)
    · exact absurd h (by decide)
  ne_empty := by
    intro h
    have hhead := head?_scriptName made
    rw [h] at hhead
    cases hhead
  ne_here := by
    intro h
    have hhead := head?_scriptName made
    rw [h] at hhead
    cases hhead
  ne_up := by
    intro h
    have hhead := head?_scriptName made
    rw [h] at hhead
    cases hhead
  short := by
    have hcount := utf8ByteSize_ofList_le (countText made)
    have hfront : "notescript_".utf8ByteSize = 11 := by decide
    have hback : ".scpt".utf8ByteSize = 5 := by decide
    rw [length_countText] at hcount
    rw [scriptName_eq, String.utf8ByteSize_append, String.utf8ByteSize_append, Disk.nameLimit]
    omega

theorem text_scriptEntry (made : Nat) : (scriptEntry made).text = scriptName made := rfl

theorem at?_of_freeCount {disk : Disk} {place : Place} {tries made free : Nat}
    (h : freeCount disk place tries made = some free) : disk.at? (place ++ [scriptName free]) = none := by
  induction tries generalizing made with
  | zero => cases h
  | succ tries ih =>
    rw [freeCount] at h
    split at h
    case isTrue hnone =>
      obtain rfl := Option.some.inj h
      exact Option.isNone_iff_eq_none.1 hnone
    case isFalse => exact ih h

/-! ## Files on a disk -/

/-- What stands in a directory. -/
def entries (directory : String) (m : Memory) : Entries :=
  m.disk.entry directory

/-- What stands in a directory is found under its path. -/
theorem find_of_entry {node : Node} (h : entries directory m name = some node) :
    ∃ place, m.disk.find (parts directory) = .ok (place, .directory) ∧
      m.disk.find (parts (join directory name.text)) = .ok (place ++ [name.text], node) := by
  rw [entries, Disk.entry] at h
  split at h
  case h_1 place hplace =>
    exact ⟨place, hplace, Disk.find_join_eq_ok_iff.2 ⟨place, hplace, rfl, h⟩⟩
  case h_2 => cases h

theorem entry_of_find {found : Place} {node : Node}
    (h : m.disk.find (parts (join directory name.text)) = .ok (found, node)) :
    entries directory m name = some node := by
  obtain ⟨place, hplace, rfl, hat⟩ := Disk.find_join_eq_ok_iff.1 h
  rw [entries, Disk.entry_eq hplace, hat]

/-- Either nothing happens, or a file is made under a name that is free. -/
theorem createFile_cases {answer : Except String String}
    (h : (createFile directory).run m = (answer, m')) :
    (∃ cause, answer = .error cause ∧ m' = m) ∨
      ∃ place made, m.disk.find (parts directory) = .ok (place, .directory) ∧
        m.disk.at? (place ++ [scriptName made]) = none ∧
        answer = .ok (join directory (scriptName made)) ∧
        m' = { m with
          disk := m.disk.put (place ++ [scriptName made]) (.file []), made := made + 1 } := by
  rw [createFile, run_get_bind] at h
  cases hfind : m.disk.find (parts directory) with
  | error e =>
    rw [hfind] at h
    obtain ⟨rfl, rfl⟩ := Prod.mk.inj h
    exact Or.inl ⟨_, rfl, rfl⟩
  | ok found =>
    obtain ⟨place, node⟩ := found
    rw [hfind] at h
    cases node with
    | file bytes =>
      obtain ⟨rfl, rfl⟩ := Prod.mk.inj h
      exact Or.inl ⟨_, rfl, rfl⟩
    | directory =>
      dsimp only at h
      cases hfree : freeCount m.disk place nameTries m.made with
      | none =>
        rw [hfree] at h
        obtain ⟨rfl, rfl⟩ := Prod.mk.inj h
        exact Or.inl ⟨_, rfl, rfl⟩
      | some made =>
        rw [hfree] at h
        obtain ⟨rfl, rfl⟩ := Prod.mk.inj h
        exact Or.inr ⟨place, made, rfl, at?_of_freeCount hfree, rfl, rfl⟩

/-- A file that is there is filled. -/
theorem run_writeFile (hold : entries directory m name = some (.file old)) (bytes : List UInt8) :
    ∃ m', (writeFile (join directory name.text) bytes).run m = (.ok (), m') ∧
      entries directory m' = Function.update (entries directory m) name (some (.file bytes)) := by
  obtain ⟨place, hplace, hfind⟩ := find_of_entry hold
  rw [writeFile, run_get_bind, hfind]
  refine ⟨_, rfl, Disk.entry_put hplace ?_ (.file bytes)⟩
  rw [← entries, hold]
  simp

theorem entries_removeFile (h : (removeFile (join directory name.text)).run m = ((), m')) :
    entries directory m' = (entries directory m).without name := by
  obtain rfl := (Prod.mk.inj h).2
  beta_reduce
  cases hentry : entries directory m name with
  | none =>
    have hnone : Function.update (entries directory m) name none = entries directory m := by
      rw [← hentry, Function.update_eq_self]
    rw [Entries.without, hentry, if_neg (by simp), hnone]
    split
    case h_1 hfind =>
      rw [entry_of_find hfind] at hentry
      cases hentry
    case h_2 => rfl
  | some node =>
    obtain ⟨place, hplace, hfind⟩ := find_of_entry hentry
    rw [hfind]
    cases node with
    | directory => rw [Entries.without, if_pos hentry]
    | file bytes =>
      rw [Entries.without_file hentry]
      refine Disk.entry_remove hplace ?_
      rw [← entries, hentry]
      simp

end Memory

/-- **A host in memory keeps every directory** as a runner relies on. -/
theorem memory_keeps (directory : String) :
    memory.Keeps directory (fun name => join directory name.text) (Memory.entries directory) where
  created {m m' p} h := by
    rcases Memory.createFile_cases h with ⟨cause, hp, -⟩ | ⟨place, made, hplace, hnew, hp, rfl⟩
    · cases hp
    · obtain rfl := Except.ok.inj hp
      rw [← Memory.text_scriptEntry] at hnew ⊢
      have hnone : Memory.entries directory m (Memory.scriptEntry made) = none := by
        rw [Memory.entries, Disk.entry_eq hplace, hnew]
      refine ⟨Memory.scriptEntry made, rfl, hnone, ?_⟩
      exact Disk.entry_put hplace (by rw [← Memory.entries, hnone]; simp) (.file [])
  uncreated {m m' cause} h := by
    rcases Memory.createFile_cases h with ⟨cause, -, rfl⟩ | ⟨place, made, -, -, hcause, -⟩
    · rfl
    · cases hcause
  written {m m' name old bytes} hold h := by
    obtain ⟨m'', hrun, hentries⟩ := Memory.run_writeFile hold bytes
    obtain ⟨-, rfl⟩ := Prod.mk.inj (hrun.symm.trans h)
    exact hentries
  unwritten {m m' name old bytes cause} hold h := by
    obtain ⟨m'', hrun, hentries⟩ := Memory.run_writeFile hold bytes
    cases (Prod.mk.inj (hrun.symm.trans h)).1
  removed h := Memory.entries_removeFile h

/-- One of the programs in memory copies its file to its output. -/
theorem memory_copies (directory : String) :
    memory.Copies "cat" (fun name => join directory name.text) (Memory.entries directory) := by
  intro m name bytes hentry
  obtain ⟨place, -, hfind⟩ := Memory.find_of_entry hentry
  have hcontents : Memory.contents m.disk (join directory name.text) = .ok bytes := by
    rw [Memory.contents, hfind]
  have hprogram : Memory.findProgram m.disk "cat" = .ok "cat" := by
    rw [Memory.findProgram, if_neg (by decide), if_pos (by decide)]
  have hperform : Memory.perform m.disk "cat" (join directory name.text) =
      ({ status := some 0, stdout := bytes, stderr := [] }, m.disk) := by
    rw [Memory.perform, hcontents]
  refine ⟨{ status := some 0, stdout := bytes, stderr := [] }, m, ?_, rfl, rfl⟩
  show (Memory.launch "cat" (join directory name.text)).run m = _
  rw [Memory.launch, run_get_bind, if_neg (by decide), hprogram]
  dsimp only
  rw [hperform]
  rfl

end PlainNotes.Host
