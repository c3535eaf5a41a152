import PlainNotes.Proofs.Script.Layout

/-!
# Scripts tell their requests apart

A text may end with a backslash, and then the quote that closes its literal looks like one that
belongs to the text.  So the end of a literal cannot be told from what stands in front of it.  Two
readings of a whole script agree all the same: once one of them takes a literal to end where the
other goes on, each quote that opens a literal for the one closes a literal for the other, and
neither comes to the end of the script.

* `not_out_of_step`: no script is code for one reading where it is inside of a literal for another.
* `eq_of_escape_append`: two readings of a literal agree on its text.
* `tokens_eq_of_chars_eq`: fragments with the same text have the same tokens.
* `text_eq_iff`: requests have the same script only if they ask for the same.
* `script_tells_request`: requests by the names of their actions, and commands.
-/

namespace PlainNotes.Script

open Statement

variable {fs gs : List Fragment} {s t r r' : List Char}

/-! ## Two readings of a literal -/

theorem escape_quote (s : List Char) : escape ('"' :: s) = '\\' :: '"' :: escape s := rfl

theorem escape_of_ne {c : Char} (h : c ≠ '"') (s : List Char) : escape (c :: s) = c :: escape s := by
  rw [escape_cons, escapeChar, if_neg h, List.singleton_append]

/-- A quote without a backslash in front does not belong to a text. -/
theorem eq_nil_of_escape_append (h : escape s ++ '"' :: r = '"' :: r') : s = [] ∧ r = r' := by
  cases s with
  | nil => exact ⟨rfl, (List.cons.inj h).2⟩
  | cons c s =>
    by_cases hc : c = '"'
    · subst hc
      rw [escape_quote] at h
      exact absurd (List.cons.inj h).1 (by decide)
    · rw [escape_of_ne hc] at h
      exact absurd (List.cons.inj h).1 hc

/-- Code inside of a literal is part of its text. -/
theorem exists_of_code_append (hquote : '"' ∉ t) (hslash : '\\' ∉ t)
    (h : t ++ r = escape s ++ '"' :: r') : ∃ s', r = escape s' ++ '"' :: r' := by
  induction t generalizing s with
  | nil => exact ⟨s, h⟩
  | cons c t ih =>
    have hcq : c ≠ '"' := fun heq => hquote (by simp [heq])
    have hcs : c ≠ '\\' := fun heq => hslash (by simp [heq])
    have hquote' : '"' ∉ t := fun hmem => hquote (List.mem_cons_of_mem c hmem)
    have hslash' : '\\' ∉ t := fun hmem => hslash (List.mem_cons_of_mem c hmem)
    cases s with
    | nil => exact absurd (List.cons.inj h).1 hcq
    | cons d s =>
      by_cases hd : d = '"'
      · subst hd
        rw [escape_quote] at h
        exact absurd (List.cons.inj h).1 hcs
      · rw [escape_of_ne hd] at h
        exact ih hquote' hslash' (List.cons.inj h).2

/-- Neither double quotes nor backslashes stand in the code among the fragments. -/
def Unmarked (fs : List Fragment) : Prop :=
  Avoids '"' fs ∧ Avoids '\\' fs

theorem Unmarked.tail {f : Fragment} (h : Unmarked (f :: fs)) : Unmarked fs :=
  ⟨fun t ht => h.1 t (List.mem_cons_of_mem f ht), fun t ht => h.2 t (List.mem_cons_of_mem f ht)⟩

/-- **No two readings are out of step.**  Where one reads code up to a quote, the other takes that
quote to close its literal; so they change places, and one of them has a fragment less. -/
theorem not_out_of_step (hf : Unmarked fs) (hg : Unmarked gs) (s : List Char) :
    chars fs ≠ escape s ++ '"' :: chars gs := by
  induction hn : fs.length + gs.length using Nat.strongRecOn generalizing fs gs s with
  | _ n ih =>
    intro h
    cases fs with
    | nil => simp at h
    | cons f fs =>
      have hlt : fs.length + gs.length < n := by
        rw [← hn, List.length_cons]
        omega
      cases f with
      | code t =>
        obtain ⟨s', hs'⟩ := exists_of_code_append (hf.1 t (by simp)) (hf.2 t (by simp)) h
        exact ih _ hlt hf.tail hg s' rfl hs'
      | literal t =>
        have hquote : escape s ++ '"' :: chars gs = '"' :: (escape t.toList ++ '"' :: chars fs) := by
          rw [← h]
          simp
        obtain ⟨-, hrest⟩ := eq_nil_of_escape_append hquote
        rw [Nat.add_comm] at hlt
        exact ih _ hlt hg hf.tail t.toList rfl hrest

/-- A text does not go on behind a quote at which another reading closes the literal. -/
theorem not_closed (hf : Unmarked fs) (hg : Unmarked gs) (s t : List Char) :
    '"' :: (escape s ++ '"' :: chars fs) ≠ escape t ++ '"' :: chars gs := by
  intro h
  obtain ⟨-, hrest⟩ := eq_nil_of_escape_append h.symm
  exact not_out_of_step hg hf s hrest

/-- **Two readings of a literal agree on its text.** -/
theorem eq_of_escape_append (hf : Unmarked fs) (hg : Unmarked gs)
    (h : escape s ++ '"' :: chars fs = escape t ++ '"' :: chars gs) :
    s = t ∧ chars fs = chars gs := by
  induction s generalizing t with
  | nil =>
    obtain ⟨rfl, hrest⟩ := eq_nil_of_escape_append h.symm
    exact ⟨rfl, hrest.symm⟩
  | cons c s ih =>
    cases t with
    | nil =>
      obtain ⟨hnil, -⟩ := eq_nil_of_escape_append h
      cases hnil
    | cons d t =>
      by_cases hc : c = '"'
      · by_cases hd : d = '"'
        · subst hc hd
          rw [escape_quote, escape_quote] at h
          obtain ⟨rfl, hrest⟩ := ih (List.cons.inj (List.cons.inj h).2).2
          exact ⟨rfl, hrest⟩
        · subst hc
          rw [escape_quote, escape_of_ne hd] at h
          exact absurd (List.cons.inj h).2 (not_closed hf hg s t)
      · by_cases hd : d = '"'
        · subst hd
          rw [escape_of_ne hc, escape_quote] at h
          exact absurd (List.cons.inj h).2.symm (not_closed hg hf t s)
        · rw [escape_of_ne hc, escape_of_ne hd] at h
          obtain ⟨rfl, htail⟩ := List.cons.inj h
          obtain ⟨rfl, hrest⟩ := ih htail
          exact ⟨rfl, hrest⟩

theorem escape_injective : Function.Injective escape := by
  intro s t h
  have hnil : Unmarked [] := ⟨avoids_nil, avoids_nil⟩
  exact (eq_of_escape_append hnil hnil (by rw [h])).1

/-! ## Two readings of a script -/

theorem eq_of_code_append {u v : List Char} (hu : '"' ∉ u) (hv : '"' ∉ v)
    (h : u ++ '"' :: r = v ++ '"' :: r') : u = v ∧ r = r' := by
  induction u generalizing v with
  | nil =>
    cases v with
    | nil => exact ⟨rfl, (List.cons.inj h).2⟩
    | cons d v =>
      obtain rfl : '"' = d := (List.cons.inj h).1
      exact absurd (by simp) hv
  | cons c u ih =>
    cases v with
    | nil =>
      obtain rfl : c = '"' := (List.cons.inj h).1
      exact absurd (by simp) hu
    | cons d v =>
      obtain ⟨rfl, htail⟩ := List.cons.inj h
      obtain ⟨rfl, hrest⟩ := ih (fun hmem => hu (List.mem_cons_of_mem c hmem))
        (fun hmem => hv (List.mem_cons_of_mem c hmem)) htail
      exact ⟨rfl, hrest⟩

/-- Code up to the same quote is the same code. -/
theorem tokensAfter_eq {u v : List Char} (hf : Unmarked fs) (hg : Unmarked gs) (hu : '"' ∉ u)
    (hv : '"' ∉ v) (h : u ++ chars fs = v ++ chars gs) : tokensAfter u fs = tokensAfter v gs := by
  induction fs generalizing u v gs with
  | nil =>
    induction gs generalizing v with
    | nil =>
      obtain rfl : u = v := by simpa using h
      rfl
    | cons g gs ihg =>
      cases g with
      | code t =>
        have hvt : '"' ∉ v ++ t.toList := by simp [hv, hg.1 t (by simp)]
        exact ihg hg.tail hvt (by rw [h, chars_cons, List.append_assoc]; rfl)
      | literal t =>
        rw [chars_nil, List.append_nil] at h
        exact absurd (by simp [h]) hu
  | cons f fs ihf =>
    cases f with
    | code t =>
      have hut : '"' ∉ u ++ t.toList := by simp [hu, hf.1 t (by simp)]
      exact ihf hf.tail hg hut hv (by rw [← h, chars_cons, List.append_assoc]; rfl)
    | literal s =>
      induction gs generalizing v with
      | nil =>
        rw [chars_nil, List.append_nil] at h
        exact absurd (by simp [← h]) hv
      | cons g gs ihg =>
        cases g with
        | code t =>
          have hvt : '"' ∉ v ++ t.toList := by simp [hv, hg.1 t (by simp)]
          exact ihg hg.tail hvt (by rw [h, chars_cons, List.append_assoc]; rfl)
        | literal t =>
          simp only [chars_cons, toList_literal, List.cons_append, List.append_assoc,
            List.nil_append] at h
          obtain ⟨rfl, hlit⟩ := eq_of_code_append hu hv h
          obtain ⟨htext, hrest⟩ := eq_of_escape_append hf.tail hg.tail hlit
          have htail := ihf hf.tail hg.tail List.not_mem_nil List.not_mem_nil hrest
          rw [tokensAfter, tokensAfter, htext, htail]

/-- **Fragments with the same text have the same tokens.** -/
theorem tokens_eq_of_chars_eq (hf : Unmarked fs) (hg : Unmarked gs) (h : chars fs = chars gs) :
    tokens fs = tokens gs :=
  tokensAfter_eq hf hg List.not_mem_nil List.not_mem_nil h

/-! ## Requests -/

section

variable {a b : Action} {t u : String} {c d : List String}

theorem unmarked_scriptFragments (a : Action) (t : String) (c : List String) :
    Unmarked (scriptFragments a t c) :=
  ⟨avoids_fragmentsAll rfl (by decide) 0 _, avoids_fragmentsAll rfl (by decide) 0 _⟩

theorem tokens_eq_of_text_eq (h : text a t c = text b u d) :
    tokens (scriptFragments a t c) = tokens (scriptFragments b u d) := by
  refine tokens_eq_of_chars_eq (unmarked_scriptFragments a t c) (unmarked_scriptFragments b u d) ?_
  rw [← toList_text, ← toList_text, h]

/-- Scripts with the same text hold the same texts. -/
theorem embedded_eq_of_text_eq (h : text a t c = text b u d) : embedded a t c = embedded b u d := by
  have hliterals := congrArg literals (tokens_eq_of_text_eq h)
  rw [tokens, tokens, literals_tokensAfter, literals_tokensAfter, texts_scriptFragments,
    texts_scriptFragments] at hliterals
  have hinj : ∀ x y : String, escape x.toList = escape y.toList → x = y := fun x y heq =>
    String.toList_inj.1 (escape_injective heq)
  exact (List.cons.inj ((List.map_inj_right hinj).1 hliterals)).2

/-- The code between the name of the application and the first text of a request. -/
def codeInFront (a : Action) : Option (List Char) :=
  (codes (tokens (scriptFragments a "" [])))[1]?

theorem getElem?_codes (a : Action) (t : String) (c : List String) :
    (codes (tokens (scriptFragments a t c)))[1]? = codeInFront a := by
  cases a with
  | create | update | delete | search =>
    simp only [codeInFront, scriptFragments, statements, body, createNote, updateNote,
      Script.deleteNote, searchNotes, fragmentsAll, fragments, blockFragments, lineFragments,
      opening, List.cons_append, List.nil_append, List.append_assoc, tokens, tokensAfter, codes,
      List.getElem?_cons_succ, List.getElem?_cons_zero]

theorem eq_or_of_codeInFront (h : codeInFront a = codeInFront b) :
    a = b ∨ a = .update ∧ b = .delete ∨ a = .delete ∧ b = .update := by
  revert h
  cases a <;> cases b <;> decide

/-- The scripts that update and delete begin alike, but a script that deletes holds one text. -/
theorem embedded_update_ne : embedded .update t c ≠ embedded .delete u d := by
  intro h
  have hlen := congrArg List.length h
  simp [embedded] at hlen

theorem action_eq_of_text_eq (h : text a t c = text b u d) : a = b := by
  have hcode : codeInFront a = codeInFront b := by
    rw [← getElem?_codes a t c, ← getElem?_codes b u d, tokens_eq_of_text_eq h]
  have htexts := embedded_eq_of_text_eq h
  rcases eq_or_of_codeInFront hcode with heq | ⟨rfl, rfl⟩ | ⟨rfl, rfl⟩
  · exact heq
  · exact absurd htexts embedded_update_ne
  · exact absurd htexts.symm embedded_update_ne

/-- The action uses the items of a request. -/
def UsesItems (a : Action) : Prop :=
  a = .create ∨ a = .update

theorem eq_of_embedded_eq (h : embedded a t c = embedded a u d) :
    t = u ∧ (UsesItems a → c = d) := by
  cases a with
  | create =>
    obtain ⟨rfl, rfl⟩ := List.cons.inj h
    exact ⟨rfl, fun _ => rfl⟩
  | update =>
    have hlen : (t :: c).length = (u :: d).length := by
      have hall := congrArg List.length h
      simp [embedded] at hall
      simp
      omega
    obtain ⟨rfl, rfl⟩ := List.cons.inj (List.append_inj_left h hlen)
    exact ⟨rfl, fun _ => rfl⟩
  | delete | search =>
    obtain ⟨rfl, -⟩ := List.cons.inj h
    exact ⟨rfl, by rintro (h | h) <;> cases h⟩

/-- What a request does not use leaves no trace in its script. -/
theorem text_eq_of_not_usesItems (h : ¬ UsesItems a) (t : String) (c d : List String) :
    text a t c = text a t d := by
  cases a with
  | create => exact absurd (Or.inl rfl) h
  | update => exact absurd (Or.inr rfl) h
  | delete | search => rfl

/-- Requests have the same script exactly if they agree on the action, the title, and the items if
these are used. -/
theorem text_eq_iff :
    text a t c = text b u d ↔ a = b ∧ t = u ∧ (UsesItems a → c = d) := by
  constructor
  · intro h
    obtain rfl := action_eq_of_text_eq h
    exact ⟨rfl, eq_of_embedded_eq (embedded_eq_of_text_eq h)⟩
  · rintro ⟨rfl, rfl, hitems⟩
    by_cases ha : UsesItems a
    · rw [hitems ha]
    · exact text_eq_of_not_usesItems ha t c d

end

/-- **Scripts are told apart.**  Whatever the texts of two requests are, the requests have the same
script exactly if they are for the same action, with the same title and, where a note is filled, with
the same items.  The same holds for commands. -/
theorem script_tells_request :
    (∀ (a b : Action) (t u : String) (c d : List String),
      textNamed a.name t c = textNamed b.name u d ↔
        a = b ∧ t = u ∧ (a = .create ∨ a = .update → c = d)) ∧
    (∀ c d : Command, c.script = d.script ↔
      c.action = d.action ∧ c.title = d.title ∧
        (c.action = .create ∨ c.action = .update → c.content = d.content)) := by
  constructor
  · intro a b t u c d
    rw [textNamed, textNamed, Action.ofName?_name, Action.ofName?_name]
    exact text_eq_iff
  · intro c d
    exact text_eq_iff

end PlainNotes.Script
