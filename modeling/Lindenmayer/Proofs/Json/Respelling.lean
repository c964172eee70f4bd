import Lindenmayer.Json.Value
import Lindenmayer.Proofs.Json.NumeralReading
import Mathlib.Data.List.Forall2

/-!
# Respelled documents

A document tells its singles by their exact numerals, but others name them as well. `Json.Respelled`
relates a document to those that differ from it in nothing but the numerals of its singles: lists
have as many items, objects have the same keys in the same order, and whatever is not the exact
numeral of a single stands as it was. Which numerals must not be chosen is a parameter. Counts are
among what stands as it was, because they are written as plain numerals and the exact numeral of a
single is not plain (`Json.Respelled.number_of_plain`).

`Json.at?` is what stands in a document at a place inside it. In a respelled document a respelled
value stands there (`Json.Respelled.at?`).
-/

set_option autoImplicit false

namespace Lindenmayer.Json

/-! ### Places -/

/-- One step into a document. -/
inductive Step
  /-- To the value of a key of an object. -/
  | key (key : String)
  /-- To an item of a list. -/
  | item (index : Nat)
deriving DecidableEq

/-- A place inside a document: the steps to it from the outside. -/
abbrev Place := List Step

/-- What a single step leads to. -/
def step? : Json → Step → Option Json
  | object entries, .key key => entries.lookup (some key)
  | array items, .item index => items[index]?
  | _, _ => none

/-- What stands at a place of a document. -/
def at? (json : Json) : Place → Option Json
  | [] => some json
  | step :: place => (json.step? step).bind fun inner ↦ inner.at? place

/-! ### Other numerals for the same singles -/

/-- The second document is the first, but a numeral that is the exact one of a single may have been
replaced by another one that names the single and is not among the excluded ones. -/
inductive Respelled (excluded : Numeral → Prop) : Json → Json → Prop
  | null : Respelled excluded null null
  | bool (value : Bool) : Respelled excluded (bool value) (bool value)
  | number (numeral : Numeral) : Respelled excluded (number numeral) (number numeral)
  | single {single : Float32} {exact written : Numeral}
      (hexact : Numeral.ofSingle? single = some exact) (hnames : written.Names single)
      (hallowed : ¬ excluded written) : Respelled excluded (number exact) (number written)
  | string (literal : Literal) : Respelled excluded (string literal) (string literal)
  | array {items items' : List Json} (hitems : List.Forall₂ (Respelled excluded) items items') :
      Respelled excluded (array items) (array items')
  | object {entries entries' : List (Literal × Json)}
      (hkeys : entries.map Prod.fst = entries'.map Prod.fst)
      (hvalues : List.Forall₂ (Respelled excluded) (entries.map Prod.snd)
        (entries'.map Prod.snd)) :
      Respelled excluded (object entries) (object entries')

namespace Respelled

variable {excluded : Numeral → Prop}

mutual

/-- A document need not be changed. -/
protected theorem refl : (json : Json) → json.Respelled excluded json
  | .null => .null
  | .bool value => .bool value
  | .number numeral => .number numeral
  | .string literal => .string literal
  | .array items => .array (refl_items items)
  | .object entries => .object rfl (refl_values entries)

theorem refl_items : (items : List Json) → List.Forall₂ (Respelled excluded) items items
  | [] => .nil
  | item :: items => .cons (.refl item) (refl_items items)

theorem refl_values : (entries : List (Literal × Json)) →
    List.Forall₂ (Respelled excluded) (entries.map Prod.snd) (entries.map Prod.snd)
  | [] => .nil
  | (_, value) :: entries => .cons (.refl value) (refl_values entries)

end

/-- The exact numeral of a single is not plain. -/
theorem plain_of_ofSingle? {single : Float32} {exact : Numeral}
    (h : Numeral.ofSingle? single = some exact) : exact.plain = false := by
  rw [Numeral.ofSingle?] at h
  split at h
  · split_ifs at h <;> (obtain rfl := Option.some.inj h; rfl)
  · obtain rfl := Option.some.inj h
    rfl
  · cases h

/-- A plain numeral stays as it is. -/
theorem number_of_plain {numeral : Numeral} {json : Json}
    (h : (Json.number numeral).Respelled excluded json) (hplain : numeral.plain = true) :
    json = .number numeral := by
  cases h with
  | number => rfl
  | single hexact =>
    rw [plain_of_ofSingle? hexact] at hplain
    cases hplain

/-- Nothing is respelled as nothing only. -/
theorem eq_null {json : Json} (h : json.Respelled excluded .null) : json = .null := by
  cases h
  rfl

/-! ### What stands in a respelled document -/

/-- The value of a key is respelled. -/
theorem lookup {κ : Type} [BEq κ] {entries entries' : List (κ × Json)}
    (hkeys : entries.map Prod.fst = entries'.map Prod.fst)
    (hvalues : List.Forall₂ (Respelled excluded) (entries.map Prod.snd) (entries'.map Prod.snd))
    {key : κ} {json : Json} (h : entries.lookup key = some json) :
    ∃ json', entries'.lookup key = some json' ∧ json.Respelled excluded json' := by
  induction entries generalizing entries' with
  | nil => cases h
  | cons entry entries ih =>
    obtain _ | ⟨entry', entries'⟩ := entries'
    · cases hkeys
    obtain ⟨first, value⟩ := entry
    obtain ⟨first', value'⟩ := entry'
    obtain ⟨hfirst, hrest⟩ := List.cons_eq_cons.mp hkeys
    obtain rfl : first = first' := hfirst
    obtain ⟨hvalue, hvalues⟩ := List.forall₂_cons.mp hvalues
    rw [List.lookup_cons] at h ⊢
    cases hmatch : key == first with
    | true =>
      rw [hmatch] at h
      cases h
      exact ⟨value', rfl, hvalue⟩
    | false =>
      rw [hmatch] at h
      exact ih hrest hvalues h

theorem step? {json json' inner : Json} (h : json.Respelled excluded json') {step : Step}
    (hstep : json.step? step = some inner) :
    ∃ inner', json'.step? step = some inner' ∧ inner.Respelled excluded inner' := by
  cases h with
  | object hkeys hvalues =>
    cases step with
    | key key => exact lookup hkeys hvalues hstep
    | item index => cases hstep
  | array hitems =>
    cases step with
    | key key => cases hstep
    | item index =>
      obtain ⟨hindex, rfl⟩ := List.getElem?_eq_some_iff.mp hstep
      have hindex' := hitems.length_eq ▸ hindex
      exact ⟨_, List.getElem?_eq_getElem hindex', hitems.get hindex hindex'⟩
  | _ => cases hstep

/-- At every place of a respelled document stands a respelled value. -/
theorem at? {json json' inner : Json} (h : json.Respelled excluded json') {place : Place}
    (hplace : json.at? place = some inner) :
    ∃ inner', json'.at? place = some inner' ∧ inner.Respelled excluded inner' := by
  induction place generalizing json json' with
  | nil =>
    cases hplace
    exact ⟨json', rfl, h⟩
  | cons step place ih =>
    obtain ⟨next, hstep, hrest⟩ := Option.bind_eq_some_iff.mp hplace
    obtain ⟨next', hstep', hnext⟩ := h.step? hstep
    obtain ⟨inner', hinner', hrespelled⟩ := ih hnext hrest
    exact ⟨inner', Option.bind_eq_some_iff.mpr ⟨next', hstep', hinner'⟩, hrespelled⟩

end Respelled

/-- The second document is the first, respelled without numerals that are misread. -/
abbrev Retold (json json' : Json) : Prop := json.Respelled Numeral.IsMisread json'

end Lindenmayer.Json
