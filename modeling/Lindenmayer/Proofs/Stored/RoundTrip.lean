import Lindenmayer.Proofs.Stored.Measures

/-!
# Stored and read again

`LawfulStored` is what the stored forms of a type have to do with its values. A form is read as the
value it is a form of if all singles of the value are finite, and refused if not, and it shows
every single at its place. The law holds of counts, texts, names and singles, and it is handed on:
from the items of a list to the list (`mapM_decode`), from a value to its presence or absence, if
nothing is not a form of the value itself (`Present`), and from the fields of a record to the
record.

For records this takes one step a field. Every document that has the keys of a record has its
fields (`fields?_of_retold`), a field is read under its name (`Fields.Found.required_bind`,
`Fields.Found.optional_bind`), and its singles stand under its name (`shows_ofFields_cons`). So the
list of the fields in the form, the order in which they are read and the list of their measures run
side by side.
-/

set_option autoImplicit false

namespace Lindenmayer.Stored

open Json (Respelled Retold)

universe u

/-- What is read under a condition is read on under it. -/
theorem bind_ite {β γ : Type*} (condition : Prop) [Decidable condition] (value : β)
    (next : β → Option γ) :
    (if condition then some value else none).bind next =
      if condition then next value else none := by
  split <;> rfl

/-- What storing does to the values of a type. -/
class LawfulStored (α : Type u) [Stored α] [Measured α] : Prop where
  /-- A form of a value, however its singles are spelled, is read as the value if all of them are
  finite, and refused if not, unless one of them is misread. -/
  decode_eq {value : α} {form : Json} : (encode value).Retold form →
    decode form = if Whole value then some value else none
  /-- Every single stands at its place in the form. -/
  shows_encode (value : α) : Shows (encode value) (measures value)

export LawfulStored (decode_eq shows_encode)

/-! ### Values without singles -/

/-- A type whose values hold no singles. -/
class Unmeasured (α : Type u) [Measured α] : Prop where
  measures_eq (value : α) : measures value = []

theorem whole_of_unmeasured {α : Type u} [Measured α] [Unmeasured α] (value : α) : Whole value := by
  rw [Whole, Unmeasured.measures_eq]
  exact fun _ hmeasure ↦ absurd hmeasure List.not_mem_nil

/-- Without singles there is one form, and it is enough that this is read. -/
theorem LawfulStored.of_unmeasured {α : Type u} [Stored α] [Measured α] [Unmeasured α]
    (hform : ∀ {value : α} {form : Json}, (encode value).Retold form → form = encode value)
    (hdecode : ∀ value : α, decode (encode value) = some value) : LawfulStored α where
  decode_eq h := by rw [hform h, hdecode, if_pos (whole_of_unmeasured _)]
  shows_encode value := by
    rw [Unmeasured.measures_eq]
    exact fun _ hmeasure ↦ absurd hmeasure List.not_mem_nil

/-- A value can be stored as a value of another type, and is then read by way of it. -/
theorem LawfulStored.of_inner {α β : Type u} [Stored α] [Measured α] [Stored β] [Measured β]
    [LawfulStored β] (inner : α → β) (hencode : ∀ value, encode value = encode (inner value))
    (hmeasures : ∀ value, measures value = measures (inner value))
    (hsome : ∀ {value : α} {form : Json}, decode form = some (inner value) →
      decode form = some value)
    (hnone : ∀ {form : Json}, (decode form : Option β) = none → (decode form : Option α) = none) :
    LawfulStored α where
  decode_eq {value form} h := by
    rw [hencode] at h
    have hwhole : Whole value ↔ Whole (inner value) := by rw [Whole, Whole, hmeasures]
    by_cases hinner : Whole (inner value)
    · rw [if_pos (hwhole.mpr hinner)]
      exact hsome ((decode_eq h).trans (if_pos hinner))
    · rw [if_neg (hwhole.not.mpr hinner)]
      exact hnone ((decode_eq h).trans (if_neg hinner))
  shows_encode value := by
    rw [hencode, hmeasures]
    exact shows_encode (inner value)

theorem retold_string {literal : Literal} {form : Json}
    (h : (Json.string literal).Retold form) : form = .string literal := by
  cases h
  rfl

instance : Unmeasured Bool := ⟨fun _ ↦ rfl⟩

instance : LawfulStored Bool := .of_unmeasured (by rintro value _ ⟨⟩; rfl) fun _ ↦ rfl

instance : Unmeasured String := ⟨fun _ ↦ rfl⟩

instance : LawfulStored String := .of_unmeasured retold_string fun _ ↦ rfl

/-- A count is read from its numeral if it is below the bound. -/
theorem decodeBelow_ofNat {bound number : Nat} (h : number < bound) :
    decodeBelow bound (.number (.ofNat number)) = some number := by
  simp [decodeBelow, Numeral.ofNat, Numeral.toNat?, h]

theorem retold_ofNat {number : Nat} {form : Json}
    (h : (Json.number (.ofNat number)).Retold form) : form = .number (.ofNat number) :=
  h.number_of_plain rfl

instance : Unmeasured UInt8 := ⟨fun _ ↦ rfl⟩

instance : LawfulStored UInt8 := .of_unmeasured retold_ofNat fun number ↦ by
  change (decodeBelow _ (.number (.ofNat number.toNat))).map UInt8.ofNat = _
  rw [decodeBelow_ofNat number.toNat_lt, Option.map_some, UInt8.ofNat_toNat]

instance : Unmeasured UInt32 := ⟨fun _ ↦ rfl⟩

instance : LawfulStored UInt32 := .of_unmeasured retold_ofNat fun number ↦ by
  change (decodeBelow _ (.number (.ofNat number.toNat))).map UInt32.ofNat = _
  rw [decodeBelow_ofNat number.toNat_lt, Option.map_some, UInt32.ofNat_toNat]

instance : Unmeasured UInt64 := ⟨fun _ ↦ rfl⟩

instance : LawfulStored UInt64 := .of_unmeasured retold_ofNat fun number ↦ by
  change (decodeBelow _ (.number (.ofNat number.toNat))).map UInt64.ofNat = _
  rw [decodeBelow_ofNat number.toNat_lt, Option.map_some, UInt64.ofNat_toNat]

instance : Unmeasured CurveKind := ⟨fun _ ↦ rfl⟩

instance : LawfulStored CurveKind :=
  .of_unmeasured retold_string fun kind ↦ by cases kind <;> rfl

instance : Unmeasured HandleStyle := ⟨fun _ ↦ rfl⟩

instance : LawfulStored HandleStyle :=
  .of_unmeasured retold_string fun style ↦ by cases style <;> rfl

instance : Unmeasured Dimensions := ⟨fun _ ↦ rfl⟩

instance : LawfulStored Dimensions :=
  .of_unmeasured retold_string fun dimensions ↦ by cases dimensions <;> rfl

instance : Unmeasured Unbound := ⟨fun _ ↦ rfl⟩

instance : LawfulStored Unbound :=
  .of_unmeasured retold_string fun unbound ↦ by cases unbound <;> rfl

instance : Unmeasured Classic := ⟨fun _ ↦ rfl⟩

instance : LawfulStored Classic :=
  .of_unmeasured retold_string fun classic ↦ by cases classic <;> rfl

instance : Unmeasured Word := ⟨fun _ ↦ rfl⟩

instance : LawfulStored Word := .of_unmeasured retold_string fun word ↦
  congrArg some (String.toList_ofList (l := word))

/-! ### Singles -/

/-- A finite single is stored as a numeral that names it and is not misread, and the others as
nothing. No two singles have the same exact numeral, so one that is put in its place names the same.
-/
theorem retold_single {single : Float32} {form : Json} (h : (encode single).Retold form) :
    (single.isFinite = true ∧
      ∃ numeral, form = .number numeral ∧ numeral.Names single ∧ ¬ numeral.IsMisread) ∨
      single.isFinite = false ∧ form = .null := by
  cases hexact : Numeral.ofSingle? single with
  | none =>
    simp only [encode, hexact] at h
    cases h
    exact .inr ⟨Numeral.ofSingle?_eq_none_iff.mp hexact, rfl⟩
  | some exact =>
    obtain ⟨hnames, hread⟩ := Numeral.names_of_ofSingle? hexact
    simp only [encode, hexact] at h
    refine .inl ⟨hnames.isFinite, ?_⟩
    cases h with
    | number => exact ⟨exact, rfl, hnames, hread⟩
    | single hother hwritten hallowed =>
      obtain rfl := hnames.unique (Numeral.names_of_ofSingle? hother).1
      exact ⟨_, rfl, hwritten, hallowed⟩

instance : LawfulStored Float32 where
  decode_eq {single form} h := by
    rcases retold_single h with ⟨hfinite, numeral, rfl, hnames, hread⟩ | ⟨hfinite, rfl⟩
    · rw [if_pos (whole_single.mpr hfinite)]
      exact (Numeral.single?_eq_some_iff hnames).mpr hread
    · rw [if_neg fun hwhole ↦ ?_]
      · rfl
      · rw [whole_single.mp hwhole] at hfinite
        cases hfinite
  shows_encode _ := List.forall_mem_singleton.mpr rfl

/-! ### Lists -/

section Lists

variable {α : Type u} [Stored α] [Measured α] [LawfulStored α]

/-- The items of a list are read one by one, until one is refused. -/
theorem mapM_decode {items : List α} {forms : List Json}
    (h : List.Forall₂ Retold (items.map encode) forms) :
    forms.mapM decode = if ∀ item ∈ items, Whole item then some items else none := by
  induction items generalizing forms with
  | nil =>
    cases h
    simp
  | cons item items ih =>
    obtain ⟨form, forms, hform, hforms, rfl⟩ := List.forall₂_cons_left_iff.mp h
    rw [List.mapM_cons, decode_eq hform, ih hforms, Option.bind_eq_bind, bind_ite,
      Option.bind_eq_bind, bind_ite, ← ite_and]
    exact if_congr List.forall_mem_cons.symm rfl rfl

instance : LawfulStored (List α) where
  decode_eq {items form} h := by
    obtain ⟨forms, hforms, rfl⟩ : ∃ forms, List.Forall₂ Retold (items.map encode) forms ∧
        form = .array forms := by
      cases h with
      | array hitems => exact ⟨_, hitems, rfl⟩
    exact (mapM_decode hforms).trans (if_congr whole_list_iff.symm rfl rfl)
  shows_encode items := by
    refine shows_ofItems fun {index measures} hindex ↦ ?_
    rw [List.getElem?_map] at hindex
    obtain ⟨item, hitem, rfl⟩ := Option.map_eq_some_iff.mp hindex
    exact ⟨encode item, by rw [List.getElem?_map, hitem, Option.map_some], shows_encode item⟩

instance : LawfulStored (Array α) :=
  .of_inner Array.toList (fun _ ↦ rfl) (fun _ ↦ rfl) (fun h ↦ congrArg (Option.map List.toArray) h)
    fun h ↦ congrArg (Option.map List.toArray) h

instance {n : Nat} : LawfulStored (Vector α n) :=
  .of_inner Vector.toArray (fun _ ↦ rfl) (fun _ ↦ rfl)
    (fun {items form} h ↦ by
      simp only [decode] at h ⊢
      rw [h]
      exact dif_pos items.size_toArray)
    fun h ↦ by
      simp only [decode] at h ⊢
      rw [h]

instance : LawfulStored (Vector3 α) :=
  .of_inner (fun vector ↦ [vector.x, vector.y, vector.z]) (fun _ ↦ rfl) (fun _ ↦ rfl)
    (fun h ↦ by
      simp only [decode] at h ⊢
      rw [h])
    fun h ↦ by
      simp only [decode] at h ⊢
      rw [h]

end Lists

/-! ### Options -/

/-- A type of which no value is stored as nothing. -/
class Present (α : Type u) [Stored α] : Prop where
  encode_ne_null (value : α) : encode value ≠ .null

instance : Present UInt32 := ⟨fun _ ↦ by rintro ⟨⟩⟩

instance : Present UInt64 := ⟨fun _ ↦ by rintro ⟨⟩⟩

instance {α : Type u} [Stored α] {n : Nat} : Present (Vector α n) := ⟨fun _ ↦ by rintro ⟨⟩⟩

/-- Where nothing stands for nothing only, it says that there is no value. -/
instance {α : Type u} [Stored α] [Measured α] [LawfulStored α] [Present α] :
    LawfulStored (Option α) where
  decode_eq {value form} h := by
    cases value with
    | none =>
      cases h
      exact (if_pos fun _ hmeasure ↦ absurd hmeasure List.not_mem_nil).symm
    | some value =>
      have hvalue : (encode value).Retold form := h
      have hdecode : (decode form : Option (Option α)) = (decode form : Option α).map some := by
        cases form with
        | null => exact absurd hvalue.eq_null (Present.encode_ne_null value)
        | _ => rfl
      rw [hdecode, decode_eq hvalue]
      by_cases hwhole : Whole value
      · rw [if_pos hwhole]
        exact (if_pos hwhole).symm
      · rw [if_neg hwhole]
        exact (if_neg hwhole).symm
  shows_encode
    | none => fun _ hmeasure ↦ absurd hmeasure List.not_mem_nil
    | some value => shows_encode value

/-! ### Records -/

/-- The keys of a record are found again in every document that has the same keys. -/
theorem exists_fields {fields : Fields} {entries : List (Literal × Json)}
    (h : fields.map (fun field ↦ some field.1) = entries.map Prod.fst) :
    ∃ found : Fields, entries = found.map (fun field ↦ (some field.1, field.2)) ∧
      found.map Prod.fst = fields.map Prod.fst := by
  induction fields generalizing entries with
  | nil =>
    obtain rfl := List.map_eq_nil_iff.mp h.symm
    exact ⟨[], rfl, rfl⟩
  | cons field fields ih =>
    obtain ⟨⟨key, value⟩, entries, rfl, hkey, hrest⟩ := List.map_eq_cons_iff.mp h.symm
    obtain rfl : key = some field.1 := hkey
    obtain ⟨found, rfl, hfound⟩ := ih hrest.symm
    exact ⟨(field.1, value) :: found, rfl, by rw [List.map_cons, List.map_cons, hfound]⟩

theorem mapM_key (fields : Fields) :
    (fields.map fun field ↦ ((some field.1 : Literal), field.2)).mapM
      (fun entry ↦ entry.1.map fun key ↦ (key, entry.2)) = some fields := by
  induction fields with
  | nil => rfl
  | cons field fields ih =>
    rw [List.map_cons, List.mapM_cons, ih]
    rfl

/-- A record has its own fields. -/
theorem fields?_record {fields : Fields} (h : (fields.map Prod.fst).Nodup) :
    fields? (fields.map Prod.fst) (record fields) = some fields := by
  have hknown : fields.filter (fun field ↦ (fields.map Prod.fst).contains field.1) = fields :=
    List.filter_eq_self.mpr fun field hfield ↦
      List.contains_iff_mem.mpr (List.mem_map_of_mem hfield)
  rw [record, fields?, mapM_key]
  change (if ((fields.filter _).map Prod.fst).Nodup then _ else _) = _
  rw [hknown, if_pos h]

/-- What fields hold is found under their names, however it is spelled. -/
def Fields.Found (fields found : Fields) : Prop :=
  ∀ {name : String} {json : Json}, fields.lookup name = some json →
    ∃ json', found.lookup name = some json' ∧ json.Retold json'

/-- A form of a record has the fields of the record. -/
theorem fields?_of_retold {fields : Fields} {form : Json}
    (h : (record fields).Retold form) (names : List String)
    (hnames : fields.map Prod.fst = names) (hnodup : names.Nodup) :
    ∃ found, fields? names form = some found ∧ fields.Found found := by
  subst hnames
  cases h with
  | object hkeys hvalues =>
    rw [List.map_map] at hkeys hvalues
    obtain ⟨found, rfl, hfound⟩ := exists_fields hkeys
    rw [List.map_map] at hvalues
    refine ⟨found, ?_, Respelled.lookup hfound.symm hvalues⟩
    rw [← hfound] at hnodup ⊢
    exact fields?_record hnodup

section Fields

variable {fields found : Fields} {name : String} {α : Type u} [Stored α] [Measured α]
  [LawfulStored α] {value : α}

theorem Fields.Found.required_eq (h : fields.Found found)
    (hlookup : fields.lookup name = some (encode value)) :
    found.required name = if Whole value then some value else none := by
  obtain ⟨form, hform, hretold⟩ := h hlookup
  rw [Fields.required, hform]
  exact decode_eq hretold

theorem Fields.Found.optional_eq [Present α] {value : Option α} (h : fields.Found found)
    (hlookup : fields.lookup name = some (encode value)) :
    found.optional name = if Whole value then some value else none := by
  obtain ⟨form, hform, hretold⟩ := h hlookup
  rw [Fields.optional, hform]
  exact decode_eq hretold

variable {β : Type u} {measured : List (String × Measures)} {result : β}

/-- A field that has to be there is read if its measures are finite, and then the others are. -/
theorem Fields.Found.required_bind {next : α → Option β} (h : fields.Found found)
    (hlookup : fields.lookup name = some (encode value))
    (hnext : next value = if AllFinite (ofFields measured) then some result else none) :
    (found.required name).bind next =
      if AllFinite (ofFields ((name, measures value) :: measured)) then some result else none := by
  rw [h.required_eq hlookup, bind_ite, hnext, ← ite_and]
  exact if_congr allFinite_ofFields_cons.symm rfl rfl

/-- So is a field that may be left out. -/
theorem Fields.Found.optional_bind [Present α] {value : Option α} {next : Option α → Option β}
    (h : fields.Found found) (hlookup : fields.lookup name = some (encode value))
    (hnext : next value = if AllFinite (ofFields measured) then some result else none) :
    (found.optional name).bind next =
      if AllFinite (ofFields ((name, measures value) :: measured)) then some result else none := by
  rw [h.optional_eq hlookup, bind_ite, hnext, ← ite_and]
  exact if_congr allFinite_ofFields_cons.symm rfl rfl

end Fields

/-! ### Rules -/

theorem eq_of_forall₂ {items forms : List Json} (h : List.Forall₂ Retold items forms)
    (hfixed : ∀ item ∈ items, ∀ form, item.Retold form → form = item) : forms = items := by
  induction h with
  | nil => rfl
  | cons hitem _ ih =>
    obtain ⟨hfirst, hrest⟩ := List.forall_mem_cons.mp hfixed
    rw [hfirst _ hitem, ih hrest]

/-- A key of one symbol is read as that symbol, and a replacement as its word. -/
theorem mapM_entry (entries : List (Char × Word)) :
    (entries.map fun entry ↦ ((some (String.ofList [entry.1]) : Literal), encode entry.2)).mapM
      (fun entry ↦ do pure (← symbol? entry.1, ← (decode entry.2 : Option Word))) =
        some entries := by
  induction entries with
  | nil => rfl
  | cons entry entries ih =>
    have hsymbol : symbol? (some (String.ofList [entry.1])) = some entry.1 := by
      rw [symbol?, Option.map_some, String.toList_ofList]
    have hword : (decode (encode entry.2) : Option Word) = some entry.2 :=
      (decode_eq (.refl _)).trans (if_pos (whole_of_unmeasured _))
    rw [List.map_cons, List.mapM_cons, ih, hsymbol, hword]
    rfl

instance : Unmeasured Rules := ⟨fun _ ↦ rfl⟩

instance : LawfulStored Rules := by
  refine .of_unmeasured (fun {rules form} h ↦ ?_) fun rules ↦ ?_
  · have hrules : encode rules = .object (rules.entries.map fun entry ↦
      ((some (String.ofList [entry.1]) : Literal), encode entry.2)) := rfl
    rw [hrules] at h ⊢
    cases h with
    | object hkeys hvalues =>
      have hsame := eq_of_forall₂ hvalues (by
        simp only [List.forall_mem_map]
        exact fun _ _ _ ↦ retold_string)
      exact congrArg Json.object
        ((List.zip_of_prod hkeys.symm hsame).trans (List.zip_of_prod rfl rfl).symm)
  · refine (congrArg (Option.bind · _) (mapM_entry rules.entries)).trans ?_
    exact congrArg some (SymbolTable.ofList_entries rules)

/-! ### The records of the library -/

instance : LawfulStored Grammar where
  decode_eq {grammar form} h := by
    obtain ⟨found, hform, hfound⟩ := fields?_of_retold h ["axiom", "rules"] rfl (by decide)
    simp only [decode, hform, Option.bind_eq_bind, Option.bind_some]
    exact hfound.required_bind rfl <| hfound.required_bind rfl <|
      (if_pos allFinite_ofFields_nil).symm
  shows_encode grammar := shows_ofFields_cons rfl (shows_encode _) <|
    shows_ofFields_cons rfl (shows_encode _) <| shows_ofFields_nil _

instance : LawfulStored Ceilings where
  decode_eq {ceilings form} h := by
    obtain ⟨found, hform, hfound⟩ :=
      fields?_of_retold h ["max_iterations", "max_length"] rfl (by decide)
    simp only [decode, hform, Option.bind_eq_bind, Option.bind_some]
    exact hfound.optional_bind rfl <| hfound.optional_bind rfl <|
      (if_pos allFinite_ofFields_nil).symm
  shows_encode ceilings := shows_ofFields_cons rfl (shows_encode _) <|
    shows_ofFields_cons rfl (shows_encode _) <| shows_ofFields_nil _

instance : LawfulStored CurveOptions where
  decode_eq {options form} h := by
    obtain ⟨found, hform, hfound⟩ := fields?_of_retold h
      ["cyclic", "endpoint", "order", "use_path", "handle_type", "dimensions", "transform"] rfl
      (by decide)
    simp only [decode, hform, Option.bind_eq_bind, Option.bind_some]
    exact hfound.required_bind rfl <| hfound.required_bind rfl <| hfound.required_bind rfl <|
      hfound.required_bind rfl <| hfound.required_bind rfl <| hfound.required_bind rfl <|
        hfound.optional_bind rfl <| (if_pos allFinite_ofFields_nil).symm
  shows_encode options := shows_ofFields_cons rfl (shows_encode _) <|
    shows_ofFields_cons rfl (shows_encode _) <| shows_ofFields_cons rfl (shows_encode _) <|
      shows_ofFields_cons rfl (shows_encode _) <| shows_ofFields_cons rfl (shows_encode _) <|
        shows_ofFields_cons rfl (shows_encode _) <| shows_ofFields_cons rfl (shows_encode _) <|
          shows_ofFields_nil _

instance : LawfulStored Outline where
  decode_eq {outline form} h := by
    obtain ⟨found, hform, hfound⟩ :=
      fields?_of_retold h ["name", "kind", "vertices", "config"] rfl (by decide)
    simp only [decode, hform, Option.bind_eq_bind, Option.bind_some]
    exact hfound.required_bind rfl <| hfound.required_bind rfl <| hfound.required_bind rfl <|
      hfound.required_bind rfl <| (if_pos allFinite_ofFields_nil).symm
  shows_encode outline := shows_ofFields_cons rfl (shows_encode _) <|
    shows_ofFields_cons rfl (shows_encode _) <| shows_ofFields_cons rfl (shows_encode _) <|
      shows_ofFields_cons rfl (shows_encode _) <| shows_ofFields_nil _

instance : LawfulStored AlphabetSettings where
  decode_eq {settings form} h := by
    obtain ⟨found, hform, hfound⟩ :=
      fields?_of_retold h ["step", "angle", "policy"] rfl (by decide)
    simp only [decode, hform, Option.bind_eq_bind, Option.bind_some]
    exact hfound.required_bind rfl <| hfound.required_bind rfl <| hfound.required_bind rfl <|
      (if_pos allFinite_ofFields_nil).symm
  shows_encode settings := shows_ofFields_cons rfl (shows_encode _) <|
    shows_ofFields_cons rfl (shows_encode _) <| shows_ofFields_cons rfl (shows_encode _) <|
      shows_ofFields_nil _

instance : LawfulStored Setup where
  decode_eq {setup form} h := by
    obtain ⟨found, hform, hfound⟩ :=
      fields?_of_retold h ["origin", "max_stack_depth", "spline"] rfl (by decide)
    simp only [decode, hform, Option.bind_eq_bind, Option.bind_some]
    exact hfound.required_bind rfl <| hfound.required_bind rfl <| hfound.required_bind rfl <|
      (if_pos allFinite_ofFields_nil).symm
  shows_encode setup := shows_ofFields_cons rfl (shows_encode _) <|
    shows_ofFields_cons rfl (shows_encode _) <| shows_ofFields_cons rfl (shows_encode _) <|
      shows_ofFields_nil _

instance : LawfulStored Snapshot where
  decode_eq {snapshot form} h := by
    obtain ⟨found, hform, hfound⟩ := fields?_of_retold h
      ["position", "heading", "pen_down", "path", "spline_kind"] rfl (by decide)
    simp only [decode, hform, Option.bind_eq_bind, Option.bind_some]
    exact hfound.required_bind rfl <| hfound.required_bind rfl <| hfound.required_bind rfl <|
      hfound.required_bind rfl <| hfound.required_bind rfl <| (if_pos allFinite_ofFields_nil).symm
  shows_encode snapshot := shows_ofFields_cons rfl (shows_encode _) <|
    shows_ofFields_cons rfl (shows_encode _) <| shows_ofFields_cons rfl (shows_encode _) <|
      shows_ofFields_cons rfl (shows_encode _) <| shows_ofFields_cons rfl (shows_encode _) <|
        shows_ofFields_nil _

/-! ### Commands -/

/-- A form of an object with one key has that key alone. -/
theorem retold_singleton {name : String} {json form : Json}
    (h : (record [(name, json)]).Retold form) :
    ∃ inner, form = .object [(some name, inner)] ∧ json.Retold inner := by
  cases h with
  | object hkeys hvalues =>
    obtain ⟨⟨key, inner⟩, rest, rfl, hkey, hrest⟩ := List.map_eq_cons_iff.mp hkeys.symm
    obtain rfl := List.map_eq_nil_iff.mp hrest
    obtain rfl : key = some name := hkey
    exact ⟨inner, rfl, (List.forall₂_cons.mp hvalues).1⟩

/-- The measure of a command is read under the name of the command. -/
theorem map_decode {name : String} {measure : Float32} {form : Json}
    (h : (encode measure).Retold form) (command : Float32 → Command) :
    (decode form).map command =
      if AllFinite (ofFields [(name, measures measure)]) then some (command measure) else none := by
  rw [decode_eq h, Option.map_eq_bind, bind_ite]
  refine if_congr ?_ rfl rfl
  rw [allFinite_ofFields_cons, and_iff_left allFinite_ofFields_nil]
  rfl

instance : LawfulStored Command where
  decode_eq {command form} h := by
    cases command with
    | forward measure =>
      obtain ⟨inner, rfl, hinner⟩ := retold_singleton h
      exact map_decode hinner .forward
    | turn measure =>
      obtain ⟨inner, rfl, hinner⟩ := retold_singleton h
      exact map_decode hinner .turn
    | _ =>
      obtain rfl := retold_string h
      rfl
  shows_encode command := by
    cases command with
    | forward measure => exact shows_ofFields_cons rfl (shows_encode measure) (shows_ofFields_nil _)
    | turn measure => exact shows_ofFields_cons rfl (shows_encode measure) (shows_ofFields_nil _)
    | _ => exact fun _ hmeasure ↦ absurd hmeasure List.not_mem_nil

end Lindenmayer.Stored
