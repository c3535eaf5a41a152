import PlainNotes.Payload
import PlainNotes.Proofs.Json.Written

/-!
# Wrapped requests

Which bytes wrap a request, and what is wrong with any others.

* `field?_eq_some_iff`: a field is looked up from the end of an object.
* `requestText_eq_ok_iff`: a request is taken from a body exactly if the body is accepted.
* `rejected_of_requestText`: what is wrong with any other body, with its code and its path.
* `requestText_sent`, `unwrap_wrap`: what is wrapped comes out again, by the strict reading and by
  the lenient one.
-/

namespace PlainNotes

open Json

/-! ## Fields -/

namespace Json

/-- The last field of a name in an object. -/
def LastField (name : String) (value x : Json) : Prop :=
  ∃ before after, value = .object (before ++ (name, x) :: after) ∧ ∀ f ∈ after, f.1 ≠ name

theorem field?_eq_some_iff {name : String} {value x : Json} :
    value.field? name = some x ↔ LastField name value x := by
  cases value with
  | object fields =>
    simp only [field?, LastField, Option.map_eq_some_iff, List.find?_eq_some_iff_append,
      Json.object.injEq]
    constructor
    · rintro ⟨⟨n, y⟩, ⟨hn, after, before, hsplit, hafter⟩, rfl⟩
      obtain rfl : n = name := by simpa using hn
      refine ⟨before.reverse, after.reverse, ?_, ?_⟩
      · rw [← List.reverse_reverse fields, hsplit]
        simp
      · intro f hf
        simpa using hafter f (List.mem_reverse.1 hf)
    · rintro ⟨before, after, rfl, hafter⟩
      refine ⟨(name, x), ⟨by simp, after.reverse, before.reverse, by simp, ?_⟩, rfl⟩
      intro f hf
      simpa using hafter f (List.mem_reverse.1 hf)
  | _ => simp [field?, LastField]

end Json

/-! ## Bodies -/

namespace Payload

variable {body : List UInt8} {text : String}

/-- The bytes wrap a text: they are an object whose last field `text` is the text, which is not
empty. -/
def Accepted (body : List UInt8) (text : String) : Prop :=
  ∃ value, Json.ofBytes body = .ok value ∧ LastField "text" value (.str text) ∧ text ≠ ""

/-- The bytes wrap no text, for a reason with a code, a path and a message. -/
inductive Rejected (body : List UInt8) : String → List String → String → Prop
  | malformed {fault : Json.Fault} (h : Json.ofBytes body = .error fault) :
      Rejected body "invalid_json" [] ("Malformed JSON body: " ++ fault.message)
  | missing {value : Json} (h : Json.ofBytes body = .ok value)
      (hmissing : ∀ x, ¬ LastField "text" value x) :
      Rejected body "invalid_type" ["text"] "Required"
  | notText {value x : Json} (h : Json.ofBytes body = .ok value)
      (hfield : LastField "text" value x) (hkind : ∀ text, x ≠ .str text) :
      Rejected body "invalid_type" ["text"] ("Expected string, received " ++ x.kind)
  | empty {value : Json} (h : Json.ofBytes body = .ok value)
      (hfield : LastField "text" value (.str "")) :
      Rejected body "too_small" ["text"] "String must contain at least 1 character(s)"

theorem textOf_eq_ok_iff {value : Json} :
    textOf value = .ok text ↔ LastField "text" value (.str text) ∧ text ≠ "" := by
  rw [← field?_eq_some_iff]
  unfold textOf
  split
  case h_1 hnone => simp [hnone]
  case h_2 found hfound =>
    rw [hfound]
    by_cases hempty : found = ""
    · subst hempty
      rw [if_pos rfl]
      constructor
      · intro h
        cases h
      · rintro ⟨h, hne⟩
        cases h
        exact absurd rfl hne
    · rw [if_neg hempty]
      constructor
      · intro h
        cases h
        exact ⟨rfl, hempty⟩
      · rintro ⟨h, -⟩
        cases h
        rfl
  case h_3 other hother hfound =>
    rw [hfound]
    constructor
    · intro h
      cases h
    · rintro ⟨h, -⟩
      cases h
      exact absurd rfl (hother text)

theorem requestText_eq_ok_iff : requestText body = .ok text ↔ Accepted body text := by
  unfold requestText Accepted
  cases Json.ofBytes body with
  | error fault => simp
  | ok value => simp [textOf_eq_ok_iff]

/-- A body that is not accepted is rejected for the reason that its fault describes. -/
theorem rejected_of_requestText {fault : Fault} (h : requestText body = .error fault) :
    Rejected body fault.code fault.path fault.message := by
  unfold requestText at h
  split at h
  case h_2 malformed hbytes =>
    cases h
    exact .malformed hbytes
  case h_1 value hbytes =>
    unfold textOf at h
    split at h
    case h_1 hnone =>
      cases h
      refine .missing hbytes fun x hx => ?_
      rw [field?_eq_some_iff.2 hx] at hnone
      cases hnone
    case h_2 found hfound =>
      split at h
      case isTrue hempty =>
        cases h
        subst hempty
        exact .empty hbytes (field?_eq_some_iff.1 hfound)
      case isFalse => cases h
    case h_3 other hother hfound =>
      cases h
      exact .notText hbytes (field?_eq_some_iff.1 hfound) hother

/-! ## Wrapping -/

/-- The bytes that are sent for a request. -/
def sent (text : String) : List UInt8 :=
  Utf8.encode (wrap text).render.toList

theorem fits_wrap (text : String) : Fits depthLimit (wrap text) := by
  refine .object fun f hf => ?_
  rw [List.mem_singleton.1 hf]
  exact .str _ text

theorem textOf_wrap (h : text ≠ "") : textOf (wrap text) = .ok text :=
  textOf_eq_ok_iff.2 ⟨⟨[], [], rfl, by simp⟩, h⟩

theorem requestText_sent (h : text ≠ "") : requestText (sent text) = .ok text := by
  have hread : Json.ofBytes (sent text) = .ok (wrap text) := ofText_render (fits_wrap text)
  rw [requestText, hread]
  exact textOf_wrap h

theorem looksWrapped_wrap (text : String) : looksWrapped (wrap text).render = true := by
  rw [looksWrapped, render, String.toList_ofList]
  rfl

theorem unwrap_wrap (h : text ≠ "") : unwrap (wrap text).render = text := by
  rw [unwrap, if_pos (looksWrapped_wrap text), ofText_render (fits_wrap text)]
  dsimp only
  rw [textOf_wrap h]

theorem render_wrap_ne_empty (text : String) : (wrap text).render ≠ "" := by
  intro h
  have hlooks := looksWrapped_wrap text
  rw [h] at hlooks
  exact absurd hlooks (by decide)

end Payload

end PlainNotes
