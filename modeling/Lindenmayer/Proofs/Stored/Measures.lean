import Lindenmayer.Proofs.Json.Respelling
import Lindenmayer.Stored.Grammar
import Lindenmayer.Stored.Turtle

/-!
# The singles of a stored value

A value can hold singles: a distance, an angle, the coordinates of points, the entries of a matrix.
Its `measures` are all of them, each with the place at which it stands in the form of the value.
The measures of a record are those of its fields, those of a list are those of its items; counts,
truth values, texts and names have none. A value is `Whole` if all of its measures are finite.
-/

set_option autoImplicit false

namespace Lindenmayer.Stored

open Json (Step Place)

universe u

/-- Singles with the places at which they are stored. -/
abbrev Measures := List (Place × Float32)

/-- A type whose values may hold singles. -/
class Measured (α : Type u) where
  /-- The singles of a value with their places in its form. -/
  measures : α → Measures

export Measured (measures)

/-- Measures one step further inside. -/
def within (step : Step) (inner : Measures) : Measures :=
  inner.map fun measure ↦ (step :: measure.1, measure.2)

/-- The measures of a record, from those of its fields by name. -/
def ofFields (fields : List (String × Measures)) : Measures :=
  fields.flatMap fun field ↦ within (.key field.1) field.2

/-- The measures of a list, from those of its items. -/
def ofItems (items : List Measures) : Measures :=
  items.zipIdx.flatMap fun item ↦ within (.item item.2) item.1

/-! ### Values without singles -/

instance : Measured Bool := ⟨fun _ ↦ []⟩

instance : Measured String := ⟨fun _ ↦ []⟩

instance : Measured UInt8 := ⟨fun _ ↦ []⟩

instance : Measured UInt32 := ⟨fun _ ↦ []⟩

instance : Measured UInt64 := ⟨fun _ ↦ []⟩

instance : Measured Word := ⟨fun _ ↦ []⟩

instance : Measured Rules := ⟨fun _ ↦ []⟩

instance : Measured Classic := ⟨fun _ ↦ []⟩

instance : Measured CurveKind := ⟨fun _ ↦ []⟩

instance : Measured HandleStyle := ⟨fun _ ↦ []⟩

instance : Measured Dimensions := ⟨fun _ ↦ []⟩

instance : Measured Unbound := ⟨fun _ ↦ []⟩

/-! ### Values that may hold singles -/

instance : Measured Float32 := ⟨fun single ↦ [([], single)]⟩

section

variable {α : Type u} [Measured α]

/-- An optional value is stored without a sign of its presence, so its singles are where they were.
-/
instance : Measured (Option α) where
  measures
    | none => []
    | some value => measures value

instance : Measured (List α) := ⟨fun items ↦ ofItems (items.map measures)⟩

instance : Measured (Array α) := ⟨fun items ↦ measures items.toList⟩

instance {n : Nat} : Measured (Vector α n) := ⟨fun items ↦ measures items.toArray⟩

instance : Measured (Vector3 α) := ⟨fun vector ↦ measures [vector.x, vector.y, vector.z]⟩

end

instance : Measured Grammar where
  measures grammar :=
    ofFields [("axiom", measures grammar.start), ("rules", measures grammar.rules)]

instance : Measured Ceilings where
  measures ceilings :=
    ofFields [("max_iterations", measures ceilings.generations),
      ("max_length", measures ceilings.length)]

instance : Measured CurveOptions where
  measures options :=
    ofFields [("cyclic", measures options.cyclic), ("endpoint", measures options.endpoint),
      ("order", measures options.order), ("use_path", measures options.usePath),
      ("handle_type", measures options.handleStyle), ("dimensions", measures options.dimensions),
      ("transform", measures options.transform)]

instance : Measured Outline where
  measures outline :=
    ofFields [("name", measures outline.name), ("kind", measures outline.kind),
      ("vertices", measures outline.vertices), ("config", measures outline.options)]

instance : Measured AlphabetSettings where
  measures settings :=
    ofFields [("step", measures settings.step), ("angle", measures settings.angle),
      ("policy", measures settings.unbound)]

/-- Moves and turns are stored with their measure under the name of the command. -/
instance : Measured Command where
  measures
    | .forward measure => ofFields [("Forward", measures measure)]
    | .turn measure => ofFields [("Turn", measures measure)]
    | _ => []

instance : Measured Setup where
  measures setup :=
    ofFields [("origin", measures setup.origin), ("max_stack_depth", measures setup.maxDepth),
      ("spline", measures setup.options)]

instance : Measured Snapshot where
  measures snapshot :=
    ofFields [("position", measures snapshot.position), ("heading", measures snapshot.heading),
      ("pen_down", measures snapshot.penDown), ("path", measures snapshot.path),
      ("spline_kind", measures snapshot.kind)]

/-! ### Finite measures -/

/-- Whether all measures are finite. -/
def AllFinite (measures : Measures) : Prop := ∀ measure ∈ measures, measure.2.isFinite = true

instance (measures : Measures) : Decidable (AllFinite measures) :=
  inferInstanceAs (Decidable (∀ measure ∈ measures, measure.2.isFinite = true))

/-- Whether all singles of a value are finite. -/
def Whole {α : Type u} [Measured α] (value : α) : Prop := AllFinite (measures value)

instance {α : Type u} [Measured α] (value : α) : Decidable (Whole value) :=
  inferInstanceAs (Decidable (AllFinite (measures value)))

theorem allFinite_within {step : Step} {inner : Measures} :
    AllFinite (within step inner) ↔ AllFinite inner := by
  simp only [AllFinite, within, List.forall_mem_map]

theorem allFinite_flatMap {β : Type} {items : List β} {inner : β → Measures} :
    AllFinite (items.flatMap inner) ↔ ∀ item ∈ items, AllFinite (inner item) := by
  simp only [AllFinite, List.mem_flatMap]
  exact ⟨fun h item hitem measure hmeasure ↦ h measure ⟨item, hitem, hmeasure⟩,
    fun h measure ⟨item, hitem, hmeasure⟩ ↦ h item hitem measure hmeasure⟩

theorem allFinite_ofFields_nil : AllFinite (ofFields []) := fun _ h ↦ absurd h List.not_mem_nil

/-- The measures of a record are finite if those of each field are. -/
theorem allFinite_ofFields_cons {name : String} {inner : Measures}
    {fields : List (String × Measures)} :
    AllFinite (ofFields ((name, inner) :: fields)) ↔
      AllFinite inner ∧ AllFinite (ofFields fields) := by
  simp only [ofFields, allFinite_flatMap, allFinite_within, List.forall_mem_cons]

/-- The measures of a list are finite if those of each item are. -/
theorem allFinite_ofItems {items : List Measures} :
    AllFinite (ofItems items) ↔ ∀ item ∈ items, AllFinite item := by
  simp only [ofItems, allFinite_flatMap, allFinite_within]
  constructor
  · intro h item hitem
    obtain ⟨index, hindex⟩ := List.mem_iff_getElem?.mp hitem
    exact h (item, index) (List.mk_mem_zipIdx_iff_getElem?.mpr hindex)
  · intro h item hitem
    exact h item.1 (List.mem_of_getElem? (List.mem_zipIdx_iff_getElem?.mp hitem))

theorem whole_list_iff {α : Type u} [Measured α] {items : List α} :
    Whole items ↔ ∀ item ∈ items, Whole item := by
  rw [Whole, show measures items = ofItems (items.map measures) from rfl, allFinite_ofItems]
  simp only [List.forall_mem_map]
  rfl

theorem whole_single {single : Float32} : Whole single ↔ single.isFinite = true :=
  List.forall_mem_singleton

/-! ### Measures in a document -/

/-- Whether every measure stands at its place in a document, as singles are stored. -/
def Shows (json : Json) (measures : Measures) : Prop :=
  ∀ measure ∈ measures, json.at? measure.1 = some (encode measure.2)

/-- One step further inside the measures stand in the document there. -/
theorem shows_within {json inner : Json} {step : Step} {measures : Measures}
    (hstep : json.step? step = some inner) (h : Shows inner measures) :
    Shows json (within step measures) := by
  intro measure hmeasure
  obtain ⟨measure', hmem, rfl⟩ := List.mem_map.mp hmeasure
  rw [Json.at?, hstep, Option.bind_some]
  exact h measure' hmem

theorem shows_ofItems {items : List Json} {inner : List Measures}
    (h : ∀ {index : Nat} {measures : Measures}, inner[index]? = some measures →
      ∃ item, items[index]? = some item ∧ Shows item measures) :
    Shows (.array items) (ofItems inner) := by
  intro measure hmeasure
  obtain ⟨⟨measures, index⟩, hindex, hmem⟩ := List.mem_flatMap.mp hmeasure
  obtain ⟨item, hitem, hshows⟩ := h (List.mk_mem_zipIdx_iff_getElem?.mp hindex)
  have hstep : (Json.array items).step? (.item index) = some item := hitem
  exact shows_within hstep hshows measure hmem

theorem lookup_map_some (fields : Fields) (name : String) :
    (fields.map fun field ↦ ((some field.1 : Literal), field.2)).lookup (some name) =
      fields.lookup name := by
  induction fields with
  | nil => rfl
  | cons field fields ih =>
    rw [List.map_cons, List.lookup_cons, List.lookup_cons, ih]
    rfl

theorem shows_ofFields_nil (json : Json) : Shows json (ofFields []) :=
  fun _ h ↦ absurd h List.not_mem_nil

theorem shows_ofFields_cons {fields : Fields} {name : String} {json : Json} {inner : Measures}
    {rest : List (String × Measures)} (hlookup : fields.lookup name = some json)
    (hshows : Shows json inner) (hrest : Shows (record fields) (ofFields rest)) :
    Shows (record fields) (ofFields ((name, inner) :: rest)) := by
  have hstep : (record fields).step? (.key name) = some json :=
    (lookup_map_some fields name).trans hlookup
  intro measure hmeasure
  rw [ofFields, List.flatMap_cons] at hmeasure
  rcases List.mem_append.mp hmeasure with hmeasure | hmeasure
  · exact shows_within hstep hshows measure hmeasure
  · exact hrest measure hmeasure

end Lindenmayer.Stored
