import GoPages.Literal

/-!
# Struct tags

A struct tag is a sequence of pairs `key:"value"`, where a value is an interpreted string literal
and blanks may stand between the pairs.

* `StructTag.pair?` reads the first pair of a tag: its key, the literal of its value, and what
  follows. It cuts them off the tag (`pair?_append`), so what follows is shorter than the tag
  (`length_lt_of_pair?`).
* `StructTag.lookup` is the value of the first pair with a key. A pair that cannot be read ends the
  search, and so does a literal without a value.
* `StructTag.name` is the part of a value before its first comma.
-/

namespace GoPages.StructTag

/-- May the character stand in a key? -/
def isKeyChar (c : Char) : Bool := !(c ≤ ' ' || c == ':' || c == '"' || c == '\x7f')

/-- The characters of a literal up to its closing quote, and what follows it. A backslash takes the
character after it along. -/
def closeQuote? : List Char → Option (List Char × List Char)
  | [] => none
  | '"' :: rest => some (['"'], rest)
  | ['\\'] => none
  | '\\' :: c :: rest => (closeQuote? rest).map fun (body, rest) => ('\\' :: c :: body, rest)
  | c :: rest => (closeQuote? rest).map fun (body, rest) => (c :: body, rest)

/-- A pair of a tag. -/
structure Pair where
  key : List Char
  /-- The value with its quotes. -/
  literal : List Char

/-- The pair of a key, given the text after the key, and what follows the pair. -/
def pairOf? (key afterKey : List Char) : Option (Pair × List Char) := do
  let rest ← Text.strip? [':', '"'] afterKey
  let (body, rest) ← closeQuote? rest
  return (⟨key, '"' :: body⟩, rest)

/-- The first pair of a tag, and what follows it. -/
def pair? (tag : List Char) : Option (Pair × List Char) :=
  let tag := tag.dropWhile (· == ' ')
  let key := tag.takeWhile isKeyChar
  if key.isEmpty then none else pairOf? key (tag.dropWhile isKeyChar)

/-- Looking for the closing quote loses nothing. -/
theorem closeQuote?_append {cs body rest : List Char} (h : closeQuote? cs = some (body, rest)) :
    cs = body ++ rest := by
  fun_induction closeQuote? cs generalizing body rest with
  | case1 => cases h
  | case2 =>
    cases h
    rfl
  | case3 => cases h
  | case4 c cs ih =>
    obtain ⟨⟨body, rest⟩, hfound, heq⟩ := Option.map_eq_some_iff.1 h
    cases heq
    rw [ih hfound]
    rfl
  | case5 c cs _ _ _ ih =>
    obtain ⟨⟨body, rest⟩, hfound, heq⟩ := Option.map_eq_some_iff.1 h
    cases heq
    rw [ih hfound]
    rfl

/-- The key, the colon, the literal and what follows make up what was read. -/
private theorem pairOf?_append {key afterKey rest : List Char} {p : Pair}
    (h : pairOf? key afterKey = some (p, rest)) :
    key ++ afterKey = p.key ++ ':' :: p.literal ++ rest := by
  simp only [pairOf?, Option.bind_eq_bind, Option.bind_eq_some_iff, Option.pure_def,
    Option.some.injEq, Prod.mk.injEq, Prod.exists] at h
  obtain ⟨r, hs, body, r', hc, rfl, rfl⟩ := h
  rw [Text.strip?_eq_some_iff.1 hs, closeQuote?_append hc]
  simp

/-- A pair is cut off the tag, with the blanks before it. -/
theorem pair?_append {tag rest : List Char} {p : Pair} (h : pair? tag = some (p, rest)) :
    ∃ blanks, tag = blanks ++ (p.key ++ ':' :: p.literal ++ rest) := by
  simp only [pair?, Option.ite_none_left_eq_some] at h
  refine ⟨tag.takeWhile (· == ' '), ?_⟩
  rw [← pairOf?_append h.2, List.takeWhile_append_dropWhile, List.takeWhile_append_dropWhile]

/-- What follows a pair is shorter than the tag. -/
theorem length_lt_of_pair? {tag rest : List Char} {p : Pair} (h : pair? tag = some (p, rest)) :
    rest.length < tag.length := by
  obtain ⟨blanks, htag⟩ := pair?_append h
  rw [htag]
  simp only [List.length_append, List.length_cons]
  omega

/-- The value of the first pair with the given key. -/
def value? (key : List Char) (tag : List Char) : Option (List Char) :=
  match h : pair? tag with
  | none => none
  | some (p, rest) =>
    have := length_lt_of_pair? h
    if p.key = key then Literal.value? p.literal else value? key rest
termination_by tag.length

/-- The value under a key. -/
def lookup (tag key : String) : Option String :=
  (value? key.toList tag.toList).map String.ofList

/-- The name under a key: the value up to its first comma. -/
def name (tag key : String) : Option String :=
  (value? key.toList tag.toList).map fun value => String.ofList (Text.before ',' value)

end GoPages.StructTag
