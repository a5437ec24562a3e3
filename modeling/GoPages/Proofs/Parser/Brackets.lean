import GoPages.Proofs.Parser.Scans
import GoPages.Proofs.Token.Spelling

/-!
# Matching brackets

Where every bracket is closed by one of its kind (`Balanced`), the parsers that cut tokens at
brackets pass over all of it: `closing?_append_of_balanced` says so of a search for a closing
bracket, and `lengthSpan_append_of_balanced` of an array length.
-/

namespace GoPages

/-- The pairs of brackets. -/
def bracketPairs : List (String × String) := [("(", ")"), ("[", "]"), ("\x7b", "\x7d")]

/-- Is it a bracket? -/
def Spelling.isBracket (x : Spelling) : Bool :=
  bracketPairs.any fun pair => x == (.op, pair.1) || x == (.op, pair.2)

section Pairs

variable {pair pair' : String × String} (hpair : pair ∈ bracketPairs)
include hpair

/-- Both sides of a pair are brackets. -/
theorem isBracket_of_mem : Spelling.isBracket (.op, pair.1) = true ∧
    Spelling.isBracket (.op, pair.2) = true := by
  revert pair
  decide

variable (hpair' : pair' ∈ bracketPairs)
include hpair'

/-- No bracket opens and closes. -/
theorem opening_ne_closing : pair.1 ≠ pair'.2 := by
  have h : ∀ p ∈ bracketPairs, ∀ p' ∈ bracketPairs, p.1 ≠ p'.2 := by decide
  exact h pair hpair pair' hpair'

/-- A pair is known by its opening bracket. -/
theorem eq_of_opening_eq (heq : pair.1 = pair'.1) : pair = pair' := by
  have h : ∀ p ∈ bracketPairs, ∀ p' ∈ bracketPairs, p.1 = p'.1 → p = p' := by decide
  exact h pair hpair pair' hpair' heq

end Pairs

/-- Every bracket is closed by one of its kind. -/
inductive Balanced : List Spelling → Prop
  | nil : Balanced []
  | plain {x : Spelling} {ss : List Spelling} (hx : Spelling.isBracket x = false)
    (h : Balanced ss) : Balanced (x :: ss)
  | group {pair : String × String} {inner ss : List Spelling} (hpair : pair ∈ bracketPairs)
    (hinner : Balanced inner) (h : Balanced ss) :
    Balanced ((.op, pair.1) :: (inner ++ (.op, pair.2) :: ss))

/-- Balanced tokens one after the other are balanced. -/
theorem Balanced.append {ss ss' : List Spelling} (h : Balanced ss) (h' : Balanced ss') :
    Balanced (ss ++ ss') := by
  induction h with
  | nil => exact h'
  | plain hx _ ih => exact .plain hx ih
  | group hpair hinner _ _ ih =>
    rw [List.cons_append, List.append_assoc, List.cons_append]
    exact .group hpair hinner ih

/-- Are the brackets of the tokens matched, where the brackets in `closers` are still to come? -/
def matchBrackets : (closers : List String) → List Spelling → Bool
  | closers, [] => closers.isEmpty
  | closers, x :: ss =>
    match bracketPairs.find? fun pair => x == (.op, pair.1) with
    | some pair => matchBrackets (pair.2 :: closers) ss
    | none =>
      if Spelling.isBracket x then
        closers.head?.any (fun closer => x == (.op, closer)) && matchBrackets closers.tail ss
      else matchBrackets closers ss

/-- The tokens are balanced but for the brackets in `closers`. -/
def ClosesAll : (closers : List String) → List Spelling → Prop
  | [], ss => Balanced ss
  | closer :: closers, ss =>
    ∃ inner rest, ss = inner ++ (.op, closer) :: rest ∧ Balanced inner ∧ ClosesAll closers rest

/-- Balanced tokens in front close nothing that is open. -/
private theorem Balanced.closesAll {inner ss : List Spelling} {closers : List String}
    (h : Balanced inner) (hss : ClosesAll closers ss) : ClosesAll closers (inner ++ ss) := by
  cases closers with
  | nil => exact h.append hss
  | cons closer closers =>
    obtain ⟨inner', rest, rfl, hinner', hrest⟩ := hss
    exact ⟨inner ++ inner', rest, by rw [List.append_assoc], h.append hinner', hrest⟩

/-- The test says that the brackets match. -/
private theorem closesAll_of_matchBrackets {closers : List String} {ss : List Spelling}
    (h : matchBrackets closers ss = true) : ClosesAll closers ss := by
  induction ss generalizing closers with
  | nil =>
    rw [matchBrackets, List.isEmpty_iff] at h
    subst h
    exact .nil
  | cons x ss ih =>
    rw [matchBrackets] at h
    split at h
    · next pair hpair =>
      have hx := List.find?_some hpair
      rw [beq_iff_eq] at hx
      -- the bracket that was opened last is the first to be closed, after balanced tokens
      obtain ⟨inner, rest, rfl, hinner, hrest⟩ := ih h
      have hgroup := (Balanced.group (List.mem_of_find?_eq_some hpair) hinner .nil).closesAll hrest
      rw [hx]
      simpa using hgroup
    split at h
    · cases closers with
      | nil => cases h
      | cons closer closers =>
        rw [List.head?_cons, Option.any_some, List.tail_cons, Bool.and_eq_true, beq_iff_eq] at h
        obtain ⟨rfl, h⟩ := h
        exact ⟨[], ss, rfl, .nil, ih h⟩
    · next hplain =>
      have hx : Balanced [x] := .plain (Bool.eq_false_iff.mpr hplain) .nil
      exact hx.closesAll (ih h)

/-- Matched brackets are closed by their kind. -/
theorem balanced_of_matchBrackets {ss : List Spelling} (h : matchBrackets [] ss = true) :
    Balanced ss :=
  closesAll_of_matchBrackets h

/-- Balanced tokens do not start with a closing bracket. -/
theorem Balanced.head_ne {x : Spelling} {ss : List Spelling} (h : Balanced (x :: ss))
    {pair : String × String} (hpair : pair ∈ bracketPairs) : x ≠ (.op, pair.2) := by
  cases h with
  | plain hx _ =>
    rintro rfl
    rw [(isBracket_of_mem hpair).2] at hx
    cases hx
  | group hpair' _ _ => exact fun heq => opening_ne_closing hpair' hpair (Prod.mk.inj heq).2

/-! ### Single tokens -/

namespace Token

variable {t : Token} {x : Spelling}

theorem isOp_of_spelling (h : t.spelling = x) (op : String) : t.isOp op = (x == (.op, op)) := by
  subst h
  rfl

theorem isKeyword_of_spelling (h : t.spelling = x) (word : String) :
    t.isKeyword word = (x == (.keyword, word)) := by
  subst h
  rfl

theorem kind_of_spelling (h : t.spelling = x) : t.kind = x.1 := by rw [← h, spelling]

theorem text_of_spelling (h : t.spelling = x) : t.text = x.2 := by rw [← h, spelling]

/-- A token is an operator exactly if its spelling is. -/
theorem isOp_iff_of_spelling (h : t.spelling = x) (op : String) :
    t.isOp op = true ↔ x = (.op, op) := by
  rw [isOp_of_spelling h, beq_iff_eq]

theorem isOp_self {op : String} (h : t.spelling = (.op, op)) : t.isOp op = true :=
  (isOp_iff_of_spelling h op).mpr rfl

/-- What a token does that is no bracket. -/
theorem isOp_of_isBracket (h : t.spelling = x) (hx : Spelling.isBracket x = false) :
    (t.opens = false ∧ t.closes = false) ∧
      ((t.isOp "[" || t.isOp "(") = false ∧ (t.isOp "]" || t.isOp ")") = false) := by
  simp only [Spelling.isBracket, bracketPairs, List.any_cons, List.any_nil, Bool.or_false,
    Bool.or_eq_false_iff] at hx
  simp only [opens, closes, isOp_of_spelling h, Bool.or_eq_false_iff]
  obtain ⟨⟨hparen, hparen'⟩, ⟨hsquare, hsquare'⟩, hbrace, hbrace'⟩ := hx
  exact ⟨⟨⟨⟨hparen, hsquare⟩, hbrace⟩, ⟨hparen', hsquare'⟩, hbrace'⟩, ⟨hsquare, hparen⟩,
    hsquare', hparen'⟩

private theorem opens_of_mem_bracketPairs {pair : String × String} (hpair : pair ∈ bracketPairs)
    (h : t.spelling = (.op, pair.1)) : t.opens = true := by
  simp only [bracketPairs, List.mem_cons, List.not_mem_nil, or_false] at hpair
  rcases hpair with rfl | rfl | rfl <;> simp [opens, isOp_of_spelling h]

private theorem closes_of_mem_bracketPairs {pair : String × String} (hpair : pair ∈ bracketPairs)
    (h : t.spelling = (.op, pair.2)) : t.opens = false ∧ t.closes = true := by
  simp only [bracketPairs, List.mem_cons, List.not_mem_nil, or_false] at hpair
  rcases hpair with rfl | rfl | rfl <;> simp [opens, closes, isOp_of_spelling h]

end Token

/-! ### Closing brackets -/

/-- The search for a closing bracket passes over balanced tokens. -/
theorem closing?_append_of_balanced {inner : List Spelling} (h : Balanced inner) (depth : Nat)
    {read : List Token} (hread : read.map Token.spelling = inner) (rest : List Token) :
    closing? depth (read ++ rest) =
      (closing? depth rest).map fun cut => (read ++ cut.1, cut.2) := by
  induction h generalizing depth read rest with
  | nil =>
    rw [List.map_eq_nil_iff.mp hread]
    exact Option.map_id'.symm
  | @plain x ss hx _ ih =>
    obtain ⟨t, read, rfl, ht, hread⟩ := List.map_eq_cons_iff.mp hread
    obtain ⟨⟨hopens, hcloses⟩, -⟩ := Token.isOp_of_isBracket ht hx
    rw [List.cons_append, closing?, hopens, hcloses, if_neg Bool.false_ne_true,
      if_neg Bool.false_ne_true, ih depth hread, Option.map_map]
    rfl
  | @group pair inner ss hpair _ _ ihinner ih =>
    obtain ⟨t, read', rfl, ht, hread'⟩ := List.map_eq_cons_iff.mp hread
    obtain ⟨read, more, rfl, hinner, hmore⟩ := List.map_eq_append_iff.mp hread'
    obtain ⟨u, more, rfl, hu, hmore⟩ := List.map_eq_cons_iff.mp hmore
    obtain ⟨hshut, hcloses⟩ := Token.closes_of_mem_bracketPairs hpair hu
    -- the inner tokens are passed one level down, and the closing bracket leads back up
    rw [List.cons_append, List.append_assoc, List.cons_append, closing?,
      if_pos (Token.opens_of_mem_bracketPairs hpair ht), ihinner (depth + 1) hinner, closing?,
      hshut, if_neg Bool.false_ne_true, if_pos hcloses, if_neg (Nat.succ_ne_zero depth),
      Nat.add_sub_cancel, ih depth hmore, Option.map_map, Option.map_map, Option.map_map]
    simp [Function.comp_def]

/-- The search for a closing bracket passes over balanced tokens. -/
theorem closing?_of_balanced {read : List Token} (h : Balanced (read.map Token.spelling))
    {close : Token} {pair : String × String} (hpair : pair ∈ bracketPairs)
    (hclose : close.spelling = (.op, pair.2)) (rest : List Token) :
    closing? 0 (read ++ close :: rest) = some (read, close, rest) := by
  obtain ⟨hopens, hcloses⟩ := Token.closes_of_mem_bracketPairs hpair hclose
  rw [closing?_append_of_balanced h 0 rfl, closing?, hopens, if_neg Bool.false_ne_true,
    if_pos hcloses, if_pos rfl, Option.map_some, List.append_nil]

/-! ### Array lengths -/

/-- The brackets of a pair open and close the same level, or none, and neither ends the length. -/
theorem nestedAfter_of_mem_bracketPairs {t u : Token} {pair : String × String}
    (hpair : pair ∈ bracketPairs) (ht : t.spelling = (.op, pair.1))
    (hu : u.spelling = (.op, pair.2)) (nested : Nat) :
    (t.isOp "]" = false ∧ (u.isOp "]" = true → Parser.nestedAfter nested t ≠ 0)) ∧
      Parser.nestedAfter (Parser.nestedAfter nested t) u = nested := by
  simp only [bracketPairs, List.mem_cons, List.not_mem_nil, or_false] at hpair
  rcases hpair with rfl | rfl | rfl <;>
    simp [Parser.nestedAfter, Token.isOp_of_spelling ht, Token.isOp_of_spelling hu]

/-- An array length goes on after balanced tokens. -/
theorem lengthSpan_append_of_balanced {len : List Spelling} (h : Balanced len)
    (hkind : ∀ x ∈ len, x.1 ≠ .semicolon) (nested : Nat) {read : List Token}
    (hread : read.map Token.spelling = len) (rest : List Token) :
    lengthSpan nested (read ++ rest) =
      (read ++ (lengthSpan nested rest).1, (lengthSpan nested rest).2) := by
  -- inside of brackets one more of them is open, so the number of open ones is general
  induction h generalizing nested read rest with
  | nil =>
    rw [List.map_eq_nil_iff.mp hread]
    rfl
  | @plain x ss hx _ ih =>
    obtain ⟨t, read, rfl, ht, hread⟩ := List.map_eq_cons_iff.mp hread
    obtain ⟨hxkind, hkind⟩ := List.forall_mem_cons.mp hkind
    obtain ⟨-, hopens, hcloses⟩ := Token.isOp_of_isBracket ht hx
    have hnested : Parser.nestedAfter nested t = nested := by
      rw [Parser.nestedAfter, hopens, hcloses]
      rfl
    have hgoesOn : ¬ (t.isOp "]" ∧ nested = 0) := by simp [(Bool.or_eq_false_iff.mp hcloses).1]
    rw [List.cons_append,
      Parser.lengthSpan_cons ((Token.kind_of_spelling ht).trans_ne hxkind) hgoesOn, hnested,
      ih hkind nested hread]
    rfl
  | @group pair inner ss hpair _ _ ihinner ih =>
    obtain ⟨t, read', rfl, ht, hread'⟩ := List.map_eq_cons_iff.mp hread
    obtain ⟨read, more, rfl, hinner, hmore⟩ := List.map_eq_append_iff.mp hread'
    obtain ⟨u, more, rfl, hu, hmore⟩ := List.map_eq_cons_iff.mp hmore
    obtain ⟨hopenKind, hkind⟩ := List.forall_mem_cons.mp hkind
    obtain ⟨hinnerKind, hkind⟩ := List.forall_mem_append.mp hkind
    obtain ⟨hcloseKind, hkind⟩ := List.forall_mem_cons.mp hkind
    obtain ⟨⟨hopen, hclose⟩, hnested⟩ := nestedAfter_of_mem_bracketPairs hpair ht hu nested
    have hgoesOn : ¬ (t.isOp "]" ∧ nested = 0) := by simp [hopen]
    have hgoesOn' : ¬ (u.isOp "]" ∧ Parser.nestedAfter nested t = 0) := fun h => hclose h.1 h.2
    rw [List.cons_append, List.append_assoc, List.cons_append,
      Parser.lengthSpan_cons ((Token.kind_of_spelling ht).trans_ne hopenKind) hgoesOn,
      ihinner hinnerKind _ hinner,
      Parser.lengthSpan_cons ((Token.kind_of_spelling hu).trans_ne hcloseKind) hgoesOn', hnested,
      ih hkind nested hmore]
    simp

end GoPages
