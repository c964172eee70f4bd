import Lindenmayer.Grammar.Classic
import Lindenmayer.Proofs.Grammar.Generation
import Mathlib.Data.List.Infix
import Mathlib.Data.List.MinMax
import Mathlib.Order.Nat

/-!
# Words with balanced brackets

A word is `Balanced` when no prefix of it closes more brackets than it opens and the whole closes
as many as it opens; all other symbols are ignored. `nestingDepth` is the largest number of brackets
that are open after a prefix.

Both are counts over prefixes. A reader of the word meets one symbol after the other, with some
number of brackets open. `Closes` is the account of such a reader, and `balanced_iff_closes` says
that it is the same; `deepestFrom` is the reader's account of the depth
(`nestingDepth_eq_deepestFrom`). Words that are built from balanced ones are balanced, and their
depth is known (`nestingDepth_append`, `nestingDepth_enclosed`).

Rules keep brackets when they leave the two brackets alone and replace other symbols by balanced
words. Under such rules every generation of a balanced word is balanced
(`Rules.KeepsBrackets.balanced_generation`).
-/

set_option autoImplicit false

namespace Lindenmayer

/-! ### Balance -/

theorem count_opening_cons_closing (word : Word) : (']' :: word).count '[' = word.count '[' :=
  List.count_cons_of_ne (by decide)

theorem count_closing_cons_opening (word : Word) : ('[' :: word).count ']' = word.count ']' :=
  List.count_cons_of_ne (by decide)

/-- A word in which every bracket that is closed was opened before, and every bracket that is opened
is closed after. -/
structure Balanced (word : Word) : Prop where
  /-- No prefix closes more brackets than it opens. -/
  closing_le_opening : ∀ part, part <+: word → part.count ']' ≤ part.count '['
  /-- The whole word closes as many brackets as it opens. -/
  closing_eq_opening : word.count ']' = word.count '['

/-- A word closes `height` brackets that were opened before it, together with all that it opens
itself. -/
inductive Closes : Nat → Word → Prop
  | nil : Closes 0 []
  | opening {height : Nat} {word : Word} : Closes (height + 1) word → Closes height ('[' :: word)
  | closing {height : Nat} {word : Word} : Closes height word → Closes (height + 1) (']' :: word)
  | other {height : Nat} {symbol : Char} {word : Word} : symbol ≠ '[' → symbol ≠ ']' →
      Closes height word → Closes height (symbol :: word)

namespace Closes

theorem closing_le {height : Nat} {word : Word} (h : Closes height word) {part : Word}
    (hpart : part <+: word) : part.count ']' ≤ height + part.count '[' := by
  induction h generalizing part with
  | nil => simp [List.prefix_nil.mp hpart]
  | opening _ ih =>
    rcases List.prefix_cons_iff.mp hpart with rfl | ⟨rest, rfl, hrest⟩
    · simp
    · have hcount := ih hrest
      simp only [List.count_cons_self, count_closing_cons_opening]
      omega
  | closing _ ih =>
    rcases List.prefix_cons_iff.mp hpart with rfl | ⟨rest, rfl, hrest⟩
    · simp
    · have hcount := ih hrest
      simp only [List.count_cons_self, count_opening_cons_closing]
      omega
  | other hopening hclosing _ ih =>
    rcases List.prefix_cons_iff.mp hpart with rfl | ⟨rest, rfl, hrest⟩
    · simp
    · rw [List.count_cons_of_ne hopening, List.count_cons_of_ne hclosing]
      exact ih hrest

theorem closing_eq {height : Nat} {word : Word} (h : Closes height word) :
    word.count ']' = height + word.count '[' := by
  induction h with
  | nil => rfl
  | opening _ ih | closing _ ih =>
    simp only [List.count_cons_self, count_opening_cons_closing, count_closing_cons_opening]
    omega
  | other hopening hclosing _ ih =>
    rwa [List.count_cons_of_ne hopening, List.count_cons_of_ne hclosing]

/-- Assumes: a word that never closes more brackets than are open, and in the end closes all. A
reader who begins with `height` open brackets comes to the same conclusion. -/
theorem of_count {height : Nat} {word : Word}
    (hle : ∀ part, part <+: word → part.count ']' ≤ height + part.count '[')
    (heq : word.count ']' = height + word.count '[') : Closes height word := by
  induction word generalizing height with
  | nil =>
    obtain rfl : height = 0 := by simpa using heq.symm
    exact nil
  | cons symbol word ih =>
    have hcons : ∀ part, part <+: word → symbol :: part <+: symbol :: word :=
      fun part hpart ↦ List.cons_prefix_cons.mpr ⟨rfl, hpart⟩
    by_cases hopening : symbol = '['
    · subst hopening
      refine opening (ih (fun part hpart ↦ ?_) ?_)
      · have hcount := hle _ (hcons part hpart)
        simp only [List.count_cons_self, count_closing_cons_opening] at hcount
        omega
      · simp only [List.count_cons_self, count_closing_cons_opening] at heq
        omega
    · by_cases hclosing : symbol = ']'
      · subst hclosing
        have hfirst := hle [']'] (hcons [] List.nil_prefix)
        obtain ⟨lower, rfl⟩ : ∃ lower, height = lower + 1 := ⟨height - 1, by
          simp only [List.count_cons_self, List.count_nil, count_opening_cons_closing] at hfirst
          omega⟩
        refine closing (ih (fun part hpart ↦ ?_) ?_)
        · have hcount := hle _ (hcons part hpart)
          simp only [List.count_cons_self, count_opening_cons_closing] at hcount
          omega
        · simp only [List.count_cons_self, count_opening_cons_closing] at heq
          omega
      · refine other hopening hclosing (ih (fun part hpart ↦ ?_) ?_)
        · have hcount := hle _ (hcons part hpart)
          rwa [List.count_cons_of_ne hopening, List.count_cons_of_ne hclosing] at hcount
        · rwa [List.count_cons_of_ne hopening, List.count_cons_of_ne hclosing] at heq

/-- A word that closes `lower` brackets closes more if a word before it does. -/
theorem append {height lower : Nat} {first second : Word} (hfirst : Closes height first)
    (hsecond : Closes lower second) : Closes (height + lower) (first ++ second) := by
  induction hfirst with
  | nil => rwa [Nat.zero_add]
  | opening _ ih => exact opening (by rwa [Nat.add_right_comm] at ih)
  | closing _ ih =>
    rw [Nat.add_right_comm]
    exact closing ih
  | other hopening hclosing _ ih => exact other hopening hclosing ih

end Closes

/-- A word is balanced exactly if a reader who begins with no open bracket ends with none. -/
theorem balanced_iff_closes {word : Word} : Balanced word ↔ Closes 0 word := by
  constructor
  · rintro ⟨hle, heq⟩
    exact Closes.of_count (by simpa using hle) (by simpa using heq)
  · intro h
    exact ⟨fun part hpart ↦ by simpa using h.closing_le hpart, by simpa using h.closing_eq⟩

/-- Balanced words put together are balanced. -/
theorem Balanced.append {first second : Word} (hfirst : Balanced first)
    (hsecond : Balanced second) : Balanced (first ++ second) := by
  rw [balanced_iff_closes] at hfirst hsecond ⊢
  exact hfirst.append hsecond

/-- A balanced word in brackets is balanced. -/
theorem Balanced.enclosed {inner : Word} (h : Balanced inner) :
    Balanced ('[' :: (inner ++ [']'])) := by
  rw [balanced_iff_closes] at h ⊢
  exact .opening (h.append (.closing .nil))

/-- Balance is decided prefix by prefix. -/
instance : DecidablePred Balanced := fun word ↦
  decidable_of_iff
    ((∀ part ∈ word.inits, part.count ']' ≤ part.count '[') ∧ word.count ']' = word.count '[')
    ⟨fun ⟨hle, heq⟩ ↦ ⟨fun part hpart ↦ hle part ((List.mem_inits part word).mpr hpart), heq⟩,
      fun ⟨hle, heq⟩ ↦ ⟨fun part hpart ↦ hle part ((List.mem_inits part word).mp hpart), heq⟩⟩

/-! ### Depth -/

/-- The largest number of brackets that are open after a prefix of a word. -/
def nestingDepth (word : Word) : Nat :=
  (word.inits.map fun part ↦ part.count '[' - part.count ']').foldr max 0

theorem nestingDepth_le_iff {word : Word} {depth : Nat} :
    nestingDepth word ≤ depth ↔
      ∀ part, part <+: word → part.count '[' ≤ depth + part.count ']' := by
  change List.foldr max ⊥ _ ≤ depth ↔ _
  constructor
  · intro hle part hpart
    have hmem := List.mem_map_of_mem (f := fun part : Word ↦ part.count '[' - part.count ']')
      ((List.mem_inits part word).mpr hpart)
    exact Nat.sub_le_iff_le_add.mp ((List.le_max_of_le hmem le_rfl).trans hle)
  · intro hle
    refine List.max_le_of_forall_le _ _ fun opened hopened ↦ ?_
    obtain ⟨part, hpart, rfl⟩ := List.mem_map.mp hopened
    exact Nat.sub_le_iff_le_add.mpr (hle part ((List.mem_inits part word).mp hpart))

/-- A word that opens no bracket has no depth. -/
theorem nestingDepth_of_not_mem {word : Word} (h : '[' ∉ word) : nestingDepth word = 0 := by
  refine Nat.le_zero.mp (nestingDepth_le_iff.mpr fun part hpart ↦ ?_)
  rw [List.count_eq_zero_of_not_mem fun hmem ↦ h (hpart.subset hmem)]
  exact Nat.zero_le _

/-- Behind a balanced word the count of open brackets begins again. -/
theorem nestingDepth_append {first : Word} (h : Balanced first) (second : Word) :
    nestingDepth (first ++ second) = max (nestingDepth first) (nestingDepth second) := by
  refine eq_of_forall_ge_iff fun depth ↦ ?_
  rw [max_le_iff, nestingDepth_le_iff, nestingDepth_le_iff, nestingDepth_le_iff]
  have hlater (part : Word) : (first ++ part).count '[' ≤ depth + (first ++ part).count ']' ↔
      part.count '[' ≤ depth + part.count ']' := by
    rw [List.count_append, List.count_append, h.closing_eq_opening]
    omega
  constructor
  · refine fun hle ↦ ⟨fun part hpart ↦ hle part (hpart.trans (List.prefix_append _ _)),
      fun part hpart ↦ (hlater part).mp (hle _ ?_)⟩
    exact (List.prefix_append_right_inj first).mpr hpart
  · rintro ⟨hfirst, hsecond⟩ part ⟨rest, hrest⟩
    rcases List.append_eq_append_iff.mp hrest with ⟨more, rfl, -⟩ | ⟨more, rfl, hmore⟩
    · exact hfirst part (List.prefix_append part more)
    · exact (hlater more).mpr (hsecond more ⟨rest, hmore.symm⟩)

/-- A pair of brackets around a balanced word makes it one deeper. -/
theorem nestingDepth_enclosed {inner : Word} (h : Balanced inner) :
    nestingDepth ('[' :: (inner ++ [']'])) = nestingDepth inner + 1 := by
  refine eq_of_forall_ge_iff fun depth ↦ ?_
  cases depth with
  | zero =>
    have hopening : ['['] <+: '[' :: (inner ++ [']']) :=
      List.cons_prefix_cons.mpr ⟨rfl, List.nil_prefix⟩
    refine iff_of_false (fun hle ↦ ?_) (Nat.not_succ_le_zero _)
    exact absurd (nestingDepth_le_iff.mp hle _ hopening) (by decide)
  | succ depth =>
    have hshift (part : Word) :
        ('[' :: part).count '[' ≤ depth + 1 + ('[' :: part).count ']' ↔
          part.count '[' ≤ depth + part.count ']' := by
      rw [List.count_cons_self, count_closing_cons_opening]
      omega
    rw [Nat.succ_le_succ_iff, nestingDepth_le_iff, nestingDepth_le_iff]
    constructor
    · refine fun hle part hpart ↦ (hshift part).mp (hle _ ?_)
      exact List.cons_prefix_cons.mpr ⟨rfl, hpart.trans (List.prefix_append _ _)⟩
    · intro hle part hpart
      rcases List.prefix_cons_iff.mp hpart with rfl | ⟨rest, rfl, hrest⟩
      · exact Nat.zero_le _
      · rw [hshift]
        rcases List.prefix_concat_iff.mp hrest with rfl | hinner
        · rw [List.count_append, List.count_append, h.closing_eq_opening]
          exact (Nat.le_add_right _ _).trans (Nat.le_add_left _ _)
        · exact hle rest hinner

/-- The largest number of brackets that are open just after one is opened, in a word that is read
with `height` brackets open; zero if the word opens none. -/
def deepestFrom (height : Nat) : Word → Nat
  | [] => 0
  | symbol :: word =>
    if symbol = '[' then max (height + 1) (deepestFrom (height + 1) word)
    else if symbol = ']' then deepestFrom (height - 1) word
    else deepestFrom height word

@[simp] theorem deepestFrom_opening (height : Nat) (word : Word) :
    deepestFrom height ('[' :: word) = max (height + 1) (deepestFrom (height + 1) word) := rfl

@[simp] theorem deepestFrom_closing (height : Nat) (word : Word) :
    deepestFrom (height + 1) (']' :: word) = deepestFrom height word := rfl

theorem deepestFrom_other (height : Nat) {symbol : Char} (hopening : symbol ≠ '[')
    (hclosing : symbol ≠ ']') (word : Word) :
    deepestFrom height (symbol :: word) = deepestFrom height word := by
  rw [deepestFrom, if_neg hopening, if_neg hclosing]

/-- The largest number of open brackets is reached either before the first symbol or just after some
bracket is opened. -/
theorem foldr_max_inits {height : Nat} {word : Word} (h : Closes height word) :
    (word.inits.map fun part ↦ height + part.count '[' - part.count ']').foldr max 0 =
      max height (deepestFrom height word) := by
  induction h with
  | nil => rfl
  | @opening height word _ ih =>
    have hmap : (fun part : Word ↦ height + part.count '[' - part.count ']') ∘ ('[' :: ·) =
        fun part ↦ height + 1 + part.count '[' - part.count ']' := by
      funext part
      simp only [Function.comp_apply, List.count_cons_self, count_closing_cons_opening]
      omega
    rw [List.inits_cons, List.map_cons, List.map_map, hmap, List.foldr_cons, ih,
      deepestFrom_opening]
    simp
  | @closing height word _ ih =>
    have hmap : (fun part : Word ↦ height + 1 + part.count '[' - part.count ']') ∘ (']' :: ·) =
        fun part ↦ height + part.count '[' - part.count ']' := by
      funext part
      simp only [Function.comp_apply, List.count_cons_self, count_opening_cons_closing]
      omega
    rw [List.inits_cons, List.map_cons, List.map_map, hmap, List.foldr_cons, ih,
      deepestFrom_closing]
    simp only [List.count_nil]
    omega
  | @other height symbol word hopening hclosing _ ih =>
    have hmap : (fun part : Word ↦ height + part.count '[' - part.count ']') ∘ (symbol :: ·) =
        fun part ↦ height + part.count '[' - part.count ']' := by
      funext part
      rw [Function.comp_apply, List.count_cons_of_ne hopening, List.count_cons_of_ne hclosing]
    rw [List.inits_cons, List.map_cons, List.map_map, hmap, List.foldr_cons, ih,
      deepestFrom_other height hopening hclosing]
    simp

/-- The nesting depth of a balanced word is the depth of the bracket that is opened deepest. -/
theorem nestingDepth_eq_deepestFrom {word : Word} (h : Balanced word) :
    nestingDepth word = deepestFrom 0 word := by
  have hdepth := foldr_max_inits (balanced_iff_closes.mp h)
  simpa [nestingDepth] using hdepth

/-! ### Rewriting -/

/-- Rules that leave brackets alone and replace other symbols by balanced words. -/
structure Rules.KeepsBrackets (rules : Rules) : Prop where
  opening : rules.get? '[' = none
  closing : rules.get? ']' = none
  balanced : ∀ symbol replacement, rules.get? symbol = some replacement → Balanced replacement

namespace Rules.KeepsBrackets

variable {rules : Rules}

/-- Rules without brackets on the left keep brackets if all their replacements are balanced. -/
theorem of_entries (hopening : rules.get? '[' = none) (hclosing : rules.get? ']' = none)
    (hbalanced : ∀ entry ∈ rules.entries, Balanced entry.2) : rules.KeepsBrackets where
  opening := hopening
  closing := hclosing
  balanced _ _ hrule := hbalanced _ (SymbolTable.get?_eq_some_iff.mp hrule)

theorem image_opening (h : rules.KeepsBrackets) : rules.image '[' = ['['] := by
  rw [image, h.opening, Option.getD_none]

theorem image_closing (h : rules.KeepsBrackets) : rules.image ']' = [']'] := by
  rw [image, h.closing, Option.getD_none]

/-- A symbol that is no bracket becomes a balanced word, also when it stays what it is. -/
theorem closes_image (h : rules.KeepsBrackets) {symbol : Char} (hopening : symbol ≠ '[')
    (hclosing : symbol ≠ ']') : Closes 0 (rules.image symbol) := by
  rw [image]
  cases hrule : rules.get? symbol with
  | none => exact .other hopening hclosing .nil
  | some replacement => exact balanced_iff_closes.mp (h.balanced symbol replacement hrule)

/-- One generation closes the same brackets as before it. -/
theorem closes_rewrite (h : rules.KeepsBrackets) {height : Nat} {word : Word}
    (hword : Closes height word) : Closes height (rules.rewrite word) := by
  induction hword with
  | nil => exact .nil
  | opening _ ih =>
    rw [rewrite_cons, h.image_opening]
    exact .opening ih
  | closing _ ih =>
    rw [rewrite_cons, h.image_closing]
    exact .closing ih
  | @other height symbol word hopening hclosing _ ih =>
    rw [rewrite_cons, ← Nat.zero_add height]
    exact (h.closes_image hopening hclosing).append ih

/-- Every generation of a balanced word is balanced. -/
theorem balanced_generation (h : rules.KeepsBrackets) {start : Word} (hstart : Balanced start)
    (count : Nat) : Balanced (rules.generation start count) := by
  induction count with
  | zero => exact hstart
  | succ count ih =>
    rw [generation_succ]
    exact balanced_iff_closes.mpr (h.closes_rewrite (balanced_iff_closes.mp ih))

end Rules.KeepsBrackets

/-- The tree grammar keeps brackets. -/
theorem Classic.keepsBrackets_pythagorasTree :
    Classic.pythagorasTree.grammar.rules.KeepsBrackets :=
  .of_entries rfl rfl (by decide)

end Lindenmayer
