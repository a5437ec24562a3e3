import Mathlib.Data.List.Basic
import GoPages.Proofs.Conventions.Standard
import GoPages.Proofs.Text.Pieces

/-!
# Name patterns

`isCapitalized` looks at a name itself. The same names can be given by a pattern, a regular
expression that is put together from the start of the names, escaped, and a fixed end
(`Pattern.Library.namePattern`). Then it is up to a library what the pattern finds.

The library is a parameter here. What is assumed of it (`Pattern.Library.IsDocumented`) is how it
escapes a text, and what is found by a pattern that is a sequence of anchors, characters, and
classes of characters, each class or character once or repeated. A pattern may also be refused, for
instance one that is too long.

* `Pattern.denotes_ofStart`: whatever characters the start has, the pattern stands for them, since a
  character with a meaning of its own is escaped.
* `Pattern.occurs_nameParts_iff`: the anchors make the pattern speak about the whole name.
* `Pattern.Library.IsDocumented.finds_iff_isCapitalized`: so the library finds what `isCapitalized`
  finds.
-/

namespace GoPages

/-! ### Letters and digits -/

/-- Capitals are those of ASCII. -/
theorem isUpper_iff {c : Char} : c.isUpper ↔ 'A' ≤ c ∧ c ≤ 'Z' :=
  decide_eq_true_iff (p := 'A' ≤ c ∧ c ≤ 'Z')

private theorem isAlphanum_iff {c : Char} :
    c.isAlphanum ↔ ('A' ≤ c ∧ c ≤ 'Z') ∨ ('a' ≤ c ∧ c ≤ 'z') ∨ ('0' ≤ c ∧ c ≤ '9') := by
  have hrange : ∀ a b : Char, (decide (a ≤ c) && decide (c ≤ b)) = true ↔ a ≤ c ∧ c ≤ b := by
    intro a b
    rw [Bool.and_eq_true, decide_eq_true_iff, decide_eq_true_iff]
  have hkinds : c.isAlphanum = (c.isUpper || (decide ('a' ≤ c) && decide (c ≤ 'z')) ||
      (decide ('0' ≤ c) && decide (c ≤ '9'))) := rfl
  rw [hkinds, Bool.or_eq_true, Bool.or_eq_true, isUpper_iff, hrange, hrange, or_assoc]

namespace Pattern

/-! ### Patterns and what they stand for -/

/-- The characters that have a meaning of their own in patterns. -/
def metaChars : List Char := "\\.+*?()|[]\x7b\x7d^$#&-~".toList

/-- What stands for one character. -/
inductive Item where
  | char (c : Char)
  /-- A class of characters, given by its ranges. -/
  | oneOf (ranges : List (Char × Char))

/-- A part of a pattern. -/
inductive Part where
  /-- The start of the text. -/
  | start
  /-- The end of the text. -/
  | finish
  | one (item : Item)
  /-- An item any number of times. -/
  | many (item : Item)

/-- The ranges of a class up to its closing bracket, and what follows it. -/
def ranges? : List Char → Option (List (Char × Char) × List Char)
  | ']' :: rest => some ([], rest)
  | a :: '-' :: b :: rest =>
    if a.isAlphanum && b.isAlphanum then
      (ranges? rest).map fun (ranges, rest) => ((a, b) :: ranges, rest)
    else none
  | _ => none

/-- The first item of a pattern, and what follows it. -/
def item? : List Char → Option (Item × List Char)
  | '[' :: rest =>
    match ranges? rest with
    | some (range :: ranges, rest) => some (.oneOf (range :: ranges), rest)
    | _ => none
  | '\\' :: c :: rest => if c ∈ metaChars then some (.char c, rest) else none
  | c :: rest => if c ∈ metaChars then none else some (.char c, rest)
  | [] => none

/-- The first part of a pattern, and what follows it. -/
def part? (cs : List Char) : Option (Part × List Char) :=
  match cs with
  | '^' :: rest => some (.start, rest)
  | '$' :: rest => some (.finish, rest)
  | cs =>
    (item? cs).map fun (item, rest) =>
      match rest with
      | '*' :: rest => (.many item, rest)
      | rest => (.one item, rest)

/-- The text is a pattern of the parts. Patterns with other parts stand for nothing here. -/
inductive Denotes : List Char → List Part → Prop where
  | nil : Denotes [] []
  | cons {cs rest : List Char} {part : Part} {parts : List Part}
      (hpart : part? cs = some (part, rest)) (hrest : Denotes rest parts) :
      Denotes cs (part :: parts)

/-- A pattern stands for one sequence of parts. -/
theorem Denotes.unique {cs : List Char} {parts others : List Part} (h : Denotes cs parts)
    (hothers : Denotes cs others) : parts = others := by
  induction h generalizing others with
  | nil =>
    cases hothers with
    | nil => rfl
    | cons hpart _ => cases hpart
  | cons hpart _ ih =>
    cases hothers with
    | nil => cases hpart
    | cons hpart' hrest' =>
      rw [hpart] at hpart'
      cases hpart'
      rw [ih hrest']

/-! ### What patterns find -/

/-- The item stands for the character. -/
def Item.Accepts : Item → Char → Prop
  | char c, d => d = c
  | oneOf ranges, d => ∃ range ∈ ranges, range.1 ≤ d ∧ d ≤ range.2

/-- The parts match a beginning of `rest`, where `before` precedes it in the text. -/
inductive MatchesAt : List Part → (before rest : List Char) → Prop where
  | nil {before rest : List Char} : MatchesAt [] before rest
  | start {parts : List Part} {rest : List Char} (h : MatchesAt parts [] rest) :
      MatchesAt (.start :: parts) [] rest
  | finish {parts : List Part} {before : List Char} (h : MatchesAt parts before []) :
      MatchesAt (.finish :: parts) before []
  | one {item : Item} {parts : List Part} {c : Char} {before rest : List Char}
      (hc : item.Accepts c) (h : MatchesAt parts (before ++ [c]) rest) :
      MatchesAt (.one item :: parts) before (c :: rest)
  | none {item : Item} {parts : List Part} {before rest : List Char}
      (h : MatchesAt parts before rest) : MatchesAt (.many item :: parts) before rest
  | more {item : Item} {parts : List Part} {c : Char} {before rest : List Char}
      (hc : item.Accepts c) (h : MatchesAt (.many item :: parts) (before ++ [c]) rest) :
      MatchesAt (.many item :: parts) before (c :: rest)

/-- The parts match somewhere in the text. -/
def Occurs (parts : List Part) (text : List Char) : Prop :=
  ∃ before rest, text = before ++ rest ∧ MatchesAt parts before rest

/-- A library of patterns: how it escapes a text, and whether a pattern is found in a text, unless
it refuses the pattern. -/
structure Library where
  escape : List Char → List Char
  compile? : List Char → Option (List Char → Bool)

/-- The library escapes texts as described, and a pattern that it does not refuse is found where its
parts match. -/
structure Library.IsDocumented (library : Library) : Prop where
  escape_eq : ∀ text, library.escape text = Text.escaped metaChars text
  finds_iff : ∀ {pattern parts finds}, Denotes pattern parts →
    library.compile? pattern = some finds → ∀ text, finds text ↔ Occurs parts text

/-! ### The pattern of names -/

/-- The end of the pattern of names. -/
def nameEnd : List Char := "[A-Z][A-Za-z0-9]*$".toList

/-- The pattern of the names that start with the given text. -/
def Library.namePattern (library : Library) (start : List Char) : List Char :=
  '^' :: (library.escape start ++ nameEnd)

/-- The parts of the end of the pattern of names. -/
def endParts : List Part :=
  [.one (.oneOf [('A', 'Z')]), .many (.oneOf [('A', 'Z'), ('a', 'z'), ('0', '9')]), .finish]

private theorem denotes_nameEnd : Denotes nameEnd endParts :=
  .cons rfl (.cons rfl (.cons rfl .nil))

/-- A character or a class is a part for itself, unless a star follows. -/
private theorem part?_of_item? {c : Char} {cs rest : List Char} {item : Item}
    (hitem : item? (c :: cs) = some (item, rest)) (hstart : c ≠ '^') (hfinish : c ≠ '$')
    (hrest : rest.head? ≠ some '*') : part? (c :: cs) = some (.one item, rest) := by
  rw [part?.eq_def]
  split
  · next heq => exact absurd (List.cons.inj heq).1 hstart
  · next heq => exact absurd (List.cons.inj heq).1 hfinish
  · rw [hitem, Option.map_some]
    dsimp only
    split
    · exact absurd rfl hrest
    · rfl

/-- No mark of repetition follows an escaped text, unless one stands behind it. -/
theorem head?_escaped_append (text : List Char) {rest : List Char} (h : rest.head? ≠ some '*') :
    (Text.escaped metaChars text ++ rest).head? ≠ some '*' := by
  cases text with
  | nil => exact h
  | cons c text =>
    by_cases hc : c ∈ metaChars
    · rw [Text.escaped_cons_of_mem hc]
      exact fun hhead => absurd (Option.some.inj hhead) (by decide)
    · rw [Text.escaped_cons_of_notMem hc]
      intro hhead
      obtain rfl : c = '*' := Option.some.inj hhead
      exact hc (by decide)

/-- A character with a meaning of its own is an item if it is escaped. -/
theorem part?_of_mem {c : Char} (hc : c ∈ metaChars) {rest : List Char}
    (hrest : rest.head? ≠ some '*') : part? ('\\' :: c :: rest) = some (.one (.char c), rest) :=
  part?_of_item? (if_pos hc) (by decide) (by decide) hrest

/-- Any other character is an item. -/
theorem part?_of_notMem {c : Char} (hc : c ∉ metaChars) {rest : List Char}
    (hrest : rest.head? ≠ some '*') : part? (c :: rest) = some (.one (.char c), rest) := by
  have hne : ∀ d ∈ metaChars, c ≠ d := fun d hd heq => hc (heq ▸ hd)
  have hitem : item? (c :: rest) = some (.char c, rest) := by
    rw [item?.eq_def]
    split
    · next heq => exact absurd (List.cons.inj heq).1 (hne '[' (by decide))
    · next heq => exact absurd (List.cons.inj heq).1 (hne '\\' (by decide))
    · next heq =>
      obtain ⟨rfl, rfl⟩ := List.cons.inj heq
      exact if_neg hc
    · next heq => cases heq
  exact part?_of_item? hitem (hne '^' (by decide)) (hne '$' (by decide)) hrest

/-- **An escaped text stands for its characters**, whatever they are. -/
theorem denotes_escaped_append {rest : List Char} {parts : List Part} (h : Denotes rest parts)
    (hrest : rest.head? ≠ some '*') (text : List Char) :
    Denotes (Text.escaped metaChars text ++ rest)
      (text.map (fun c => .one (.char c)) ++ parts) := by
  induction text with
  | nil => exact h
  | cons c text ih =>
    have hhead := head?_escaped_append text hrest
    by_cases hc : c ∈ metaChars
    · rw [Text.escaped_cons_of_mem hc]
      exact .cons (part?_of_mem hc hhead) ih
    · rw [Text.escaped_cons_of_notMem hc]
      exact .cons (part?_of_notMem hc hhead) ih

/-- The parts of the pattern of names. -/
def nameParts (start : List Char) : List Part :=
  .start :: (start.map (fun c => .one (.char c)) ++ endParts)

/-- The pattern of names has these parts, whatever characters the names start with. -/
theorem denotes_ofStart (start : List Char) :
    Denotes ('^' :: (Text.escaped metaChars start ++ nameEnd)) (nameParts start) :=
  .cons rfl (denotes_escaped_append denotes_nameEnd (by decide) start)

/-! ### What the pattern of names finds -/

/-- The anchor for the start holds where nothing stands before. -/
private theorem matchesAt_start_iff {parts : List Part} {before rest : List Char} :
    MatchesAt (.start :: parts) before rest ↔ before = [] ∧ MatchesAt parts [] rest := by
  constructor
  · rintro ⟨⟩
    exact ⟨rfl, ‹_›⟩
  · rintro ⟨rfl, h⟩
    exact .start h

/-- A part that stands once takes one character that it accepts. -/
private theorem matchesAt_one_iff {item : Item} {parts : List Part} {before rest : List Char} :
    MatchesAt (.one item :: parts) before rest ↔
      ∃ c tail, rest = c :: tail ∧ item.Accepts c ∧ MatchesAt parts (before ++ [c]) tail := by
  constructor
  · rintro (_ | _ | _ | ⟨hc, h⟩)
    exact ⟨_, _, rfl, hc, h⟩
  · rintro ⟨c, tail, rfl, hc, h⟩
    exact .one hc h

/-- A text matches itself. -/
theorem matchesAt_text_iff {text : List Char} {parts : List Part} {before rest : List Char} :
    MatchesAt (text.map (fun c => .one (.char c)) ++ parts) before rest ↔
      ∃ tail, rest = text ++ tail ∧ MatchesAt parts (before ++ text) tail := by
  induction text generalizing before rest with
  | nil => simp
  | cons c text ih =>
    rw [List.map_cons, List.cons_append, matchesAt_one_iff]
    constructor
    · rintro ⟨d, tail, rfl, hd, h⟩
      obtain rfl : d = c := hd
      obtain ⟨tail, rfl, htail⟩ := ih.mp h
      exact ⟨tail, rfl, by rwa [List.append_assoc] at htail⟩
    · rintro ⟨tail, rfl, h⟩
      refine ⟨c, text ++ tail, rfl, rfl, ih.mpr ⟨tail, rfl, ?_⟩⟩
      rwa [List.append_assoc]

/-- A repeated item at the end of a pattern matches the rest of the text. -/
theorem matchesAt_many_finish_iff {item : Item} {before rest : List Char} :
    MatchesAt [.many item, .finish] before rest ↔ ∀ c ∈ rest, item.Accepts c := by
  induction rest generalizing before with
  | nil => exact iff_of_true (.none (.finish .nil)) (List.forall_mem_nil _)
  | cons c rest ih =>
    rw [List.forall_mem_cons]
    constructor
    · intro h
      cases h with
      | none h => cases h
      | more hc h => exact ⟨hc, ih.mp h⟩
    · rintro ⟨hc, hrest⟩
      exact .more hc (ih.mpr hrest)

/-- The name is the start, followed by a capital and then by letters and digits, all in ASCII. -/
def IsNameAfter (start name : List Char) : Prop :=
  ∃ c rest, name = start ++ c :: rest ∧ ('A' ≤ c ∧ c ≤ 'Z') ∧
    ∀ d ∈ rest, ('A' ≤ d ∧ d ≤ 'Z') ∨ ('a' ≤ d ∧ d ≤ 'z') ∨ ('0' ≤ d ∧ d ≤ '9')

/-- **The pattern of names finds whole names.** -/
theorem occurs_nameParts_iff {start name : List Char} :
    Occurs (nameParts start) name ↔ IsNameAfter start name := by
  have hend : ∀ before rest, MatchesAt endParts before rest ↔ ∃ c tail, rest = c :: tail ∧
      ('A' ≤ c ∧ c ≤ 'Z') ∧
      ∀ d ∈ tail, ('A' ≤ d ∧ d ≤ 'Z') ∨ ('a' ≤ d ∧ d ≤ 'z') ∨ ('0' ≤ d ∧ d ≤ '9') := by
    intro before rest
    rw [endParts, matchesAt_one_iff]
    simp only [matchesAt_many_finish_iff, Item.Accepts, List.exists_mem_cons_iff,
      List.not_mem_nil, false_and, exists_false, or_false]
  constructor
  · rintro ⟨before, rest, rfl, h⟩
    obtain ⟨rfl, htext⟩ := matchesAt_start_iff.mp h
    obtain ⟨tail, rfl, htail⟩ := matchesAt_text_iff.mp htext
    obtain ⟨c, tail, rfl, hc, htail⟩ := (hend _ _).mp htail
    exact ⟨c, tail, rfl, hc, htail⟩
  · rintro ⟨c, tail, rfl, hc, htail⟩
    refine ⟨[], start ++ c :: tail, rfl, matchesAt_start_iff.mpr ⟨rfl, ?_⟩⟩
    exact matchesAt_text_iff.mpr ⟨c :: tail, rfl, (hend _ _).mpr ⟨c, tail, rfl, hc, htail⟩⟩

/-! ### Names -/

/-- A capital and then letters and digits follow the start. -/
theorem isCapitalized_iff {start name : String} :
    isCapitalized start name ↔ IsNameAfter start.toList name.toList := by
  rw [isCapitalized_iff_append, IsNameAfter]
  refine exists₂_congr fun c rest => and_congr_right fun _ => ?_
  exact and_congr isUpper_iff (forall₂_congr fun d _ => isAlphanum_iff)

/-- **A library finds the names** that `isCapitalized` finds, by every pattern of names that it does
not refuse. -/
theorem Library.IsDocumented.finds_iff_isCapitalized {library : Library}
    (h : library.IsDocumented) {start : String} {finds : List Char → Bool}
    (hfinds : library.compile? (library.namePattern start.toList) = some finds) (name : String) :
    finds name.toList ↔ isCapitalized start name := by
  rw [Library.namePattern, h.escape_eq] at hfinds
  rw [h.finds_iff (denotes_ofStart start.toList) hfinds, occurs_nameParts_iff, isCapitalized_iff]

/-- A library that knows the pattern of one start only. -/
def Library.ofStart (start : String) : Library where
  escape := Text.escaped metaChars
  compile? pattern :=
    if pattern = '^' :: (Text.escaped metaChars start.toList ++ nameEnd) then
      some fun text => isCapitalized start (String.ofList text)
    else none

/-- A library that knows one pattern behaves as documented. -/
theorem Library.isDocumented_ofStart (start : String) : (ofStart start).IsDocumented where
  escape_eq _ := rfl
  finds_iff := by
    intro pattern parts finds hdenotes hcompile text
    obtain ⟨rfl, hfinds⟩ := Option.ite_none_right_eq_some.mp hcompile
    obtain rfl := Option.some.inj hfinds
    rw [hdenotes.unique (denotes_ofStart _), occurs_nameParts_iff, isCapitalized_iff,
      String.toList_ofList]

/-- The pattern that this library knows finds the names with this start. -/
theorem Library.compile?_ofStart (start : String) :
    (ofStart start).compile? ((ofStart start).namePattern start.toList) =
      some fun text => isCapitalized start (String.ofList text) :=
  if_pos rfl

end Pattern

end GoPages
