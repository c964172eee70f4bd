import Lindenmayer.Json.Value
import Lindenmayer.Proofs.Json.LiteralText
import Lindenmayer.Proofs.Json.NumeralText
import Mathlib.Data.List.Chain

/-!
# The text of a document

`Json.render` writes the value of a document without blanks, and reading what it has written gives
the value back, whatever the value is (`Json.parse?_render`). There are two reasons.

The tokens of a value can be told apart in its text. Words and numerals reach as far as their
characters do (`Token.isOpenEnded`), but no two of them follow each other in the tokens of a value
(`Json.separated_tokens`), and every other token ends them (`Token.scan_flatMap_text`).

The reader, on its part, has the value complete after the last of its tokens, with the brackets
open that were open before (`Json.foldlM_step_tokens`); after the first token of an item or entry
the rest of the list or object is read in the same way.
-/

set_option autoImplicit false

namespace Lindenmayer

namespace Token

/-! ### Tokens in a text -/

/-- Whether the token reaches as far as there are characters for it. -/
def isOpenEnded : Token → Bool
  | null | bool _ | number _ => true
  | _ => false

/-- Whether open-ended tokens do not touch each other. -/
abbrev Separated : List Token → Prop :=
  List.IsChain fun token next ↦ token.isOpenEnded = true → next.isOpenEnded = false

/-- A text at whose beginning an open-ended token in front of it ends. -/
def Delimits (text : List Char) : Prop :=
  ∀ character ∈ text.head?, isNumeric character = false ∧ character.isAlpha = false

theorem delimits_nil : Delimits [] := by simp [Delimits]

/-- The tokens that are not open-ended put an end to those that are. -/
theorem delimits_text_append {token : Token} (h : token.isOpenEnded = false) (rest : List Char) :
    Delimits (token.text ++ rest) := by
  cases token with
  | null | bool _ | number _ => cases h
  | string literal =>
    obtain ⟨inside, hwrite, -⟩ := literal.scan_write
    rw [text, hwrite]
    rintro character ⟨⟩
    exact ⟨rfl, rfl⟩
  | _ =>
    rintro character ⟨⟩
    exact ⟨rfl, rfl⟩

theorem takeWhile_append_of_delimits {test : Char → Bool} {front rest : List Char}
    (hfront : ∀ character ∈ front, test character = true)
    (hrest : ∀ character ∈ rest.head?, test character = false) :
    (front ++ rest).takeWhile test = front ∧ (front ++ rest).dropWhile test = rest := by
  rw [List.takeWhile_append_of_pos hfront, List.dropWhile_append_of_pos hfront]
  cases rest with
  | nil => exact ⟨List.append_nil front, rfl⟩
  | cons character rest =>
    have hcharacter : ¬ test character = true := Bool.eq_false_iff.mp (hrest character rfl)
    rw [List.takeWhile_cons_of_neg hcharacter, List.dropWhile_cons_of_neg hcharacter]
    exact ⟨List.append_nil front, rfl⟩

/-- A character that begins a numeral begins nothing else. -/
theorem of_beginsNumeral {character : Char} (h : beginsNumeral character = true) :
    isBlank character = false ∧ character ≠ '"' := by
  constructor
  · rw [Bool.eq_false_iff]
    intro hblank
    simp only [isBlank, Bool.or_eq_true, decide_eq_true_eq] at hblank
    rcases hblank with ((rfl | rfl) | rfl) | rfl <;> exact absurd h (by decide)
  · rintro rfl
    exact absurd h (by decide)

theorem scanFrom_number (numeral : Numeral) {rest : List Char} (hrest : Delimits rest)
    (tokens : List Token) :
    scanFrom (numeral.text ++ rest) tokens = scanFrom rest (number numeral :: tokens) := by
  obtain ⟨first, tail, htext, hfirst, htail⟩ := numeral.exists_text_eq_cons
  obtain ⟨hblank, hquote⟩ := of_beginsNumeral hfirst
  obtain ⟨htake, hdrop⟩ := takeWhile_append_of_delimits htail fun _ hhead ↦ (hrest _ hhead).1
  have hread := numeral.ofText?_text
  rw [htext] at hread ⊢
  rw [List.cons_append, scanFrom]
  simp only [hblank, hquote, hfirst, htake, hdrop, hread, if_true, if_false, Bool.false_eq_true]

theorem scanFrom_word {first : Char} {tail : List Char} {token : Token}
    (hfirst : first.isAlpha = true ∧ isBlank first = false ∧ beginsNumeral first = false ∧
      first ≠ '"')
    (htail : tail.all Char.isAlpha = true)
    (hword : word? (first :: tail) = some token) {rest : List Char} (hrest : Delimits rest)
    (tokens : List Token) :
    scanFrom (first :: tail ++ rest) tokens = scanFrom rest (token :: tokens) := by
  obtain ⟨halpha, hblank, hnumeral, hquote⟩ := hfirst
  obtain ⟨htake, hdrop⟩ := takeWhile_append_of_delimits (List.all_eq_true.mp htail)
    fun _ hhead ↦ (hrest _ hhead).2
  rw [List.cons_append, scanFrom]
  simp only [hblank, hquote, hnumeral, halpha, htake, hdrop, hword, if_true, if_false,
    Bool.false_eq_true]

theorem scanFrom_string (literal : Literal) (rest : List Char) (tokens : List Token) :
    scanFrom (literal.write ++ rest) tokens = scanFrom rest (string literal :: tokens) := by
  obtain ⟨inside, hwrite, hscan⟩ := literal.scan_write
  obtain ⟨pieces, hpieces, hliteral⟩ := hscan rest
  rw [hwrite, List.cons_append, scanFrom, if_neg (by decide), if_pos rfl]
  split
  · rename_i pieces' after hscan'
    rw [hpieces] at hscan'
    cases hscan'
    rw [hliteral]
  · rename_i hscan'
    rw [hpieces] at hscan'
    cases hscan'

theorem scanFrom_punctuation {character : Char} {token : Token}
    (hcharacter : isBlank character = false ∧ character ≠ '"' ∧ beginsNumeral character = false ∧
      character.isAlpha = false)
    (htoken : punctuation? character = some token) (rest : List Char) (tokens : List Token) :
    scanFrom (character :: rest) tokens = scanFrom rest (token :: tokens) := by
  obtain ⟨hblank, hquote, hnumeral, halpha⟩ := hcharacter
  rw [scanFrom]
  simp only [hblank, hquote, hnumeral, halpha, htoken, if_false, Bool.false_eq_true]

/-- A token is read back from its text, if what follows does not run on into it. -/
theorem scanFrom_text_append (token : Token) {rest : List Char}
    (hrest : token.isOpenEnded = true → Delimits rest) (tokens : List Token) :
    scanFrom (token.text ++ rest) tokens = scanFrom rest (token :: tokens) := by
  cases token with
  | number numeral => exact scanFrom_number numeral (hrest rfl) tokens
  | string literal => exact scanFrom_string literal rest tokens
  | null => exact scanFrom_word (by decide) rfl rfl (hrest rfl) tokens
  | bool value =>
    cases value <;> exact scanFrom_word (by decide) rfl rfl (hrest rfl) tokens
  | _ => exact scanFrom_punctuation (by decide) rfl rest tokens

theorem scanFrom_flatMap_text {tokens : List Token} (h : Separated tokens) (before : List Token) :
    scanFrom (tokens.flatMap text) before = some (before.reverse ++ tokens) := by
  induction tokens generalizing before with
  | nil => simp [scanFrom]
  | cons token tokens ih =>
    have hrest : token.isOpenEnded = true → Delimits (tokens.flatMap text) := by
      intro hopen
      cases tokens with
      | nil => exact delimits_nil
      | cons next tokens =>
        exact delimits_text_append ((List.isChain_cons_cons.mp h).1 hopen) _
    rw [List.flatMap_cons, scanFrom_text_append token hrest, ih h.tail, List.reverse_cons,
      List.append_assoc, List.singleton_append]

/-- Separated tokens are found again in their text. -/
theorem scan_flatMap_text {tokens : List Token} (h : Separated tokens) :
    scan (tokens.flatMap text) = some tokens :=
  scanFrom_flatMap_text h []

end Token

namespace Json

open Token (Separated)

/-! ### The tokens of a value -/

/-- A token that is not open-ended can follow any other. -/
theorem separated_append_cons {first rest : List Token} {token : Token}
    (htoken : token.isOpenEnded = false) (hfirst : Separated first)
    (hrest : Separated (token :: rest)) : Separated (first ++ token :: rest) :=
  List.isChain_append.mpr ⟨hfirst, hrest, by simp [htoken]⟩

/-- A token that is not open-ended can stand in front of any other. -/
theorem separated_cons {rest : List Token} {token : Token} (htoken : token.isOpenEnded = false)
    (hrest : Separated rest) : Separated (token :: rest) :=
  List.isChain_cons.mpr ⟨by simp [htoken], hrest⟩

mutual

/-- Words and numerals do not touch each other in the tokens of a value. -/
theorem separated_tokens : (json : Json) → Separated json.tokens
  | null | bool _ | number _ | string _ => .singleton _
  | array items => separated_cons rfl (separated_itemTokens items)
  | object entries => separated_cons rfl (separated_entryTokens entries)

theorem separated_itemTokens : (items : List Json) → Separated (itemTokens items)
  | [] => .singleton _
  | item :: items => separated_append_moreItemTokens items (separated_tokens item)

theorem separated_append_moreItemTokens :
    (items : List Json) → {first : List Token} → Separated first →
      Separated (first ++ moreItemTokens items)
  | [], _, hfirst => separated_append_cons rfl hfirst (.singleton _)
  | item :: items, _, hfirst =>
    separated_append_cons rfl hfirst <|
      separated_cons rfl (separated_append_moreItemTokens items (separated_tokens item))

theorem separated_entryTokens : (entries : List (Literal × Json)) → Separated (entryTokens entries)
  | [] => .singleton _
  | (_, value) :: entries =>
    separated_cons rfl <|
      separated_cons rfl (separated_append_moreEntryTokens entries (separated_tokens value))

theorem separated_append_moreEntryTokens :
    (entries : List (Literal × Json)) → {first : List Token} → Separated first →
      Separated (first ++ moreEntryTokens entries)
  | [], _, hfirst => separated_append_cons rfl hfirst (.singleton _)
  | (_, value) :: entries, _, hfirst =>
    separated_append_cons rfl hfirst <|
      separated_cons rfl <|
        separated_cons rfl <|
          separated_cons rfl (separated_append_moreEntryTokens entries (separated_tokens value))

end

/-! ### Reading the tokens of a value -/

/-- The first token of a value opens an item of a list as well. -/
theorem foldlM_step_awaitItem (json : Json) (frames : List Frame) :
    json.tokens.foldlM Reader.step (.awaitItem frames) =
      json.tokens.foldlM Reader.step (.awaitValue (.array [] :: frames)) := by
  cases json <;> simp only [tokens, List.foldlM_cons] <;> rfl

mutual

/-- After its tokens a value is complete. -/
theorem foldlM_step_tokens : (json : Json) → (frames : List Frame) →
    json.tokens.foldlM Reader.step (.awaitValue frames) = some (.complete json frames)
  | null, _ | bool _, _ | number _, _ | string _, _ => rfl
  | array items, frames => by
    rw [tokens, List.foldlM_cons]
    exact foldlM_step_itemTokens items frames
  | object entries, frames => by
    rw [tokens, List.foldlM_cons]
    exact foldlM_step_entryTokens entries frames

theorem foldlM_step_itemTokens : (items : List Json) → (frames : List Frame) →
    (itemTokens items).foldlM Reader.step (.awaitItem frames) =
      some (.complete (.array items) frames)
  | [], _ => rfl
  | item :: items, frames => by
    rw [itemTokens, List.foldlM_append, foldlM_step_awaitItem, foldlM_step_tokens item]
    exact foldlM_step_moreItemTokens items item [] frames

/-- The items that have been read wait in reverse for the others. -/
theorem foldlM_step_moreItemTokens :
    (items : List Json) → (item : Json) → (before : List Json) → (frames : List Frame) →
      (moreItemTokens items).foldlM Reader.step (.complete item (.array before :: frames)) =
        some (.complete (.array (before.reverse ++ item :: items)) frames)
  | [], item, before, frames => by
    simp [moreItemTokens, Reader.step, Reader.endValue]
  | next :: items, item, before, frames => by
    rw [moreItemTokens, List.foldlM_cons]
    change (next.tokens ++ _).foldlM Reader.step
      (.awaitValue (.array (item :: before) :: frames)) = _
    rw [List.foldlM_append, foldlM_step_tokens next]
    have hrest := foldlM_step_moreItemTokens items next (item :: before) frames
    rwa [List.reverse_cons, List.append_assoc] at hrest

theorem foldlM_step_entryTokens :
    (entries : List (Literal × Json)) → (frames : List Frame) →
      (entryTokens entries).foldlM Reader.step (.awaitEntry frames) =
        some (.complete (.object entries) frames)
  | [], _ => rfl
  | (key, value) :: entries, frames => by
    rw [entryTokens, List.foldlM_cons]
    change (value.tokens ++ _).foldlM Reader.step (.awaitValue (.object [] key :: frames)) = _
    rw [List.foldlM_append, foldlM_step_tokens value]
    exact foldlM_step_moreEntryTokens entries key value [] frames

/-- The entries that have been read wait in reverse for the others. -/
theorem foldlM_step_moreEntryTokens :
    (entries : List (Literal × Json)) → (key : Literal) → (value : Json) →
      (before : List (Literal × Json)) → (frames : List Frame) →
        (moreEntryTokens entries).foldlM Reader.step
            (.complete value (.object before key :: frames)) =
          some (.complete (.object (before.reverse ++ (key, value) :: entries)) frames)
  | [], key, value, before, frames => by
    simp [moreEntryTokens, Reader.step, Reader.endValue]
  | (next, inner) :: entries, key, value, before, frames => by
    rw [moreEntryTokens, List.foldlM_cons]
    change (inner.tokens ++ _).foldlM Reader.step
      (.awaitValue (.object ((key, value) :: before) next :: frames)) = _
    rw [List.foldlM_append, foldlM_step_tokens inner]
    have hrest := foldlM_step_moreEntryTokens entries next inner ((key, value) :: before) frames
    rwa [List.reverse_cons, List.append_assoc] at hrest

end

/-- The tokens of a value spell it. -/
theorem ofTokens?_tokens (json : Json) : ofTokens? json.tokens = some json := by
  rw [ofTokens?, foldlM_step_tokens]

/-- The text of a value is read as that value. -/
theorem parse?_render (json : Json) : parse? json.render = some json := by
  rw [parse?, render, String.toList_ofList, Token.scan_flatMap_text json.separated_tokens,
    Option.bind_some, ofTokens?_tokens]

end Json

end Lindenmayer
