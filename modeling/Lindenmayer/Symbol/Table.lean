/-!
# Finite maps on symbols

A symbol is one character. Rules and drawing alphabets both attach data to finitely many symbols, so
both are a `SymbolTable`: a list of entries in which no symbol stands twice. The invariant is part
of the type, and every operation keeps it.

A table is read through `SymbolTable.get?`. The lookup laws say what each operation does to that
view: `get?_insert`, `get?_erase`, `get?_map` and `get?_empty`. The order of the entries does not
show in it (`get?_eq_of_perm`), and two tables count as equal (`==`) when they have the same symbols
with equal data.
-/

set_option autoImplicit false

namespace Lindenmayer

universe u v

/-- The symbols of a list of entries. -/
abbrev symbolsOf {β : Type u} (entries : List (Char × β)) : List Char := entries.map Prod.fst

/-- A finite map from symbols to data: entries with pairwise different symbols. -/
structure SymbolTable (β : Type u) where
  /-- The entries, each symbol with its data. -/
  entries : List (Char × β)
  /-- No symbol has two entries. -/
  nodup : (symbolsOf entries).Nodup

namespace SymbolTable

variable {β : Type u} {γ : Type v}

/-- The table without entries. -/
def empty : SymbolTable β := ⟨[], List.nodup_nil⟩

instance : Inhabited (SymbolTable β) := ⟨empty⟩

instance : EmptyCollection (SymbolTable β) := ⟨empty⟩

/-- The data of a symbol, if it has an entry. -/
def get? (table : SymbolTable β) (symbol : Char) : Option β := table.entries.lookup symbol

/-! ### Entering and dropping a symbol -/

/-- Gives `symbol` the data `value`: in the place of its entry, or at the end if it has none. -/
def insertEntry (symbol : Char) (value : β) : List (Char × β) → List (Char × β)
  | [] => [(symbol, value)]
  | entry :: rest =>
    if entry.1 = symbol then (symbol, value) :: rest else entry :: insertEntry symbol value rest

theorem mem_symbolsOf_insertEntry {symbol other : Char} {value : β} {entries : List (Char × β)} :
    other ∈ symbolsOf (insertEntry symbol value entries) ↔
      other = symbol ∨ other ∈ symbolsOf entries := by
  induction entries with
  | nil => simp [insertEntry]
  | cons entry rest ih =>
    by_cases hentry : entry.1 = symbol
    · subst hentry
      simp [insertEntry]
    · simp only [insertEntry, if_neg hentry, symbolsOf, List.map_cons, List.mem_cons] at ih ⊢
      rw [ih]
      constructor
      · rintro (h | h | h) <;> simp [h]
      · rintro (h | h | h) <;> simp [h]

theorem nodup_insertEntry {symbol : Char} {value : β} {entries : List (Char × β)}
    (hnodup : (symbolsOf entries).Nodup) : (symbolsOf (insertEntry symbol value entries)).Nodup := by
  induction entries with
  | nil => simp [insertEntry]
  | cons entry rest ih =>
    simp only [symbolsOf, List.map_cons, List.nodup_cons] at hnodup
    by_cases hentry : entry.1 = symbol
    · subst hentry
      simpa [insertEntry, symbolsOf] using hnodup
    · simp only [insertEntry, if_neg hentry, symbolsOf, List.map_cons, List.nodup_cons]
      refine ⟨fun hmem ↦ ?_, ih hnodup.2⟩
      rcases mem_symbolsOf_insertEntry.mp hmem with h | h
      · exact hentry h
      · exact hnodup.1 h

/-- The table in which `symbol` has the data `value`, and every other symbol what it had. -/
def insert (table : SymbolTable β) (symbol : Char) (value : β) : SymbolTable β :=
  ⟨insertEntry symbol value table.entries, nodup_insertEntry table.nodup⟩

/-- The table in which `symbol` has no entry, and every other symbol what it had. -/
def erase (table : SymbolTable β) (symbol : Char) : SymbolTable β where
  entries := table.entries.filter fun entry ↦ entry.1 != symbol
  nodup := table.nodup.sublist (List.filter_sublist.map Prod.fst)

/-- The table in which every symbol of `table` has what `change` makes of its data. -/
def map (change : β → γ) (table : SymbolTable β) : SymbolTable γ where
  entries := table.entries.map fun entry ↦ (entry.1, change entry.2)
  nodup := by
    rw [symbolsOf, List.map_map]
    exact table.nodup

/-- The table of a list of pairs; of two pairs for one symbol the later counts. -/
def ofList (pairs : List (Char × β)) : SymbolTable β :=
  pairs.foldl (fun table pair ↦ table.insert pair.1 pair.2) empty

theorem insertEntry_of_not_mem {symbol : Char} {value : β} {entries : List (Char × β)}
    (h : symbol ∉ symbolsOf entries) :
    insertEntry symbol value entries = entries ++ [(symbol, value)] := by
  induction entries with
  | nil => rfl
  | cons entry rest ih =>
    obtain ⟨hentry, hrest⟩ := not_or.mp (mt List.mem_cons.mpr h)
    rw [insertEntry, if_neg (Ne.symm hentry), ih hrest, List.cons_append]

/-- A table is made of its entries again: while they are put in one by one, those that are in stand
in front of those that are still to come. -/
theorem ofList_entries (table : SymbolTable β) : ofList table.entries = table := by
  have hfold (pairs : List (Char × β)) (before : SymbolTable β)
      (hnodup : (symbolsOf (before.entries ++ pairs)).Nodup) :
      (pairs.foldl (fun table pair ↦ table.insert pair.1 pair.2) before).entries =
        before.entries ++ pairs := by
    induction pairs generalizing before with
    | nil => exact (List.append_nil _).symm
    | cons pair pairs ih =>
      have hpair : pair.1 ∉ symbolsOf before.entries := by
        rw [symbolsOf, List.map_append, List.map_cons] at hnodup
        exact fun hmem ↦ (List.nodup_append.mp hnodup).2.2 _ hmem _ List.mem_cons_self rfl
      have hentries : (before.insert pair.1 pair.2).entries = before.entries ++ [pair] :=
        insertEntry_of_not_mem hpair
      rw [List.foldl_cons, ih, hentries, List.append_assoc, List.singleton_append]
      rwa [hentries, List.append_assoc, List.singleton_append]
  obtain ⟨entries, hnodup⟩ := table
  have hentries := hfold entries empty hnodup
  rw [ofList]
  generalize entries.foldl _ empty = table at hentries
  obtain ⟨_, _⟩ := table
  obtain rfl : _ = entries := hentries
  rfl

/-! ### Lookup laws -/

@[simp] theorem get?_empty (symbol : Char) : (empty : SymbolTable β).get? symbol = none := rfl

theorem lookup_cons_eq_ite (other : Char) (entry : Char × β) (rest : List (Char × β)) :
    (entry :: rest).lookup other = if other = entry.1 then some entry.2 else rest.lookup other := by
  obtain ⟨symbol, value⟩ := entry
  rw [List.lookup_cons]
  by_cases h : other = symbol
  · rw [if_pos h, beq_iff_eq.mpr h]
  · rw [if_neg h, beq_false_of_ne h]

theorem lookup_insertEntry (symbol other : Char) (value : β) (entries : List (Char × β)) :
    (insertEntry symbol value entries).lookup other =
      if other = symbol then some value else entries.lookup other := by
  induction entries with
  | nil => simp [insertEntry, lookup_cons_eq_ite]
  | cons entry rest ih =>
    by_cases hentry : entry.1 = symbol
    · subst hentry
      simp only [insertEntry, if_true, lookup_cons_eq_ite]
      split <;> rfl
    · simp only [insertEntry, if_neg hentry, lookup_cons_eq_ite, ih]
      by_cases h : other = entry.1
      · subst h
        simp [hentry]
      · simp [h]

/-- After an insertion the symbol has the new data and every other symbol what it had. -/
theorem get?_insert (table : SymbolTable β) (symbol other : Char) (value : β) :
    (table.insert symbol value).get? other =
      if other = symbol then some value else table.get? other :=
  lookup_insertEntry symbol other value table.entries

theorem lookup_filter_ne (symbol other : Char) (entries : List (Char × β)) :
    (entries.filter fun entry ↦ entry.1 != symbol).lookup other =
      if other = symbol then none else entries.lookup other := by
  induction entries with
  | nil => simp
  | cons entry rest ih =>
    by_cases hentry : entry.1 = symbol
    · subst hentry
      rw [List.filter_cons_of_neg (by simp), ih, lookup_cons_eq_ite]
      by_cases h : other = entry.1 <;> simp [h]
    · rw [List.filter_cons_of_pos (by simpa using hentry), lookup_cons_eq_ite, lookup_cons_eq_ite, ih]
      by_cases h : other = entry.1
      · subst h
        simp [hentry]
      · simp [h]

/-- After a removal the symbol has nothing and every other symbol what it had. -/
theorem get?_erase (table : SymbolTable β) (symbol other : Char) :
    (table.erase symbol).get? other = if other = symbol then none else table.get? other :=
  lookup_filter_ne symbol other table.entries

theorem lookup_map (change : β → γ) (symbol : Char) (entries : List (Char × β)) :
    (entries.map fun entry ↦ (entry.1, change entry.2)).lookup symbol =
      (entries.lookup symbol).map change := by
  induction entries with
  | nil => rfl
  | cons entry rest ih =>
    rw [List.map_cons, lookup_cons_eq_ite, lookup_cons_eq_ite, ih]
    split <;> rfl

/-- After a change of all data the symbol has what the change makes of what it had. -/
theorem get?_map (change : β → γ) (table : SymbolTable β) (symbol : Char) :
    (table.map change).get? symbol = (table.get? symbol).map change :=
  lookup_map change symbol table.entries

theorem mem_entries_iff_lookup {symbol : Char} {value : β} {entries : List (Char × β)}
    (hnodup : (symbolsOf entries).Nodup) :
    (symbol, value) ∈ entries ↔ entries.lookup symbol = some value := by
  induction entries with
  | nil => simp
  | cons entry rest ih =>
    obtain ⟨hentry, hrest⟩ := List.nodup_cons.mp hnodup
    rw [lookup_cons_eq_ite, List.mem_cons, Prod.ext_iff]
    by_cases hsymbol : symbol = entry.1
    · subst hsymbol
      have hother : (entry.1, value) ∉ rest := fun hmem ↦
        hentry (List.mem_map.mpr ⟨_, hmem, rfl⟩)
      simp [hother, eq_comm]
    · simp [hsymbol, ih hrest]

/-- A symbol has the data of its entry. -/
theorem get?_eq_some_iff {table : SymbolTable β} {symbol : Char} {value : β} :
    table.get? symbol = some value ↔ (symbol, value) ∈ table.entries :=
  (mem_entries_iff_lookup table.nodup).symm

/-- The order of the entries of a table does not show. -/
theorem get?_eq_of_perm {table other : SymbolTable β} (h : table.entries.Perm other.entries)
    (symbol : Char) : table.get? symbol = other.get? symbol := by
  apply Option.ext
  intro value
  rw [get?_eq_some_iff, get?_eq_some_iff, h.mem_iff]

/-! ### Equality -/

/-- Two tables are equal when they have equally many entries and each entry of the first is found,
with equal data, in the second. -/
instance [BEq β] : BEq (SymbolTable β) where
  beq first second :=
    first.entries.length == second.entries.length &&
      first.entries.all fun entry ↦ second.get? entry.1 == some entry.2

end SymbolTable

end Lindenmayer
