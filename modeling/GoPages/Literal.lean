import GoPages.Json.Parser
import GoPages.Text.Pieces

/-!
# The values of string literals

`unquote` gives the text that a Go string literal denotes.

* A literal between back quotes denotes what stands between them, without carriage returns.
* A literal between double quotes denotes its characters, where a backslash starts an escape: a
  letter, `x`, `u` or `U` with two, four or eight hexadecimal digits, or three octal digits. An
  escape by number denotes the character with that code point and must have one.

A text that is neither, or that has another escape, has no value.
-/

namespace GoPages

namespace Literal

/-- The character of a code point, if it is one. -/
def charOf? (n : Nat) : Option Char :=
  if h : n.isValidChar then some (Char.ofNatAux n h) else none

/-- The character that a letter after a backslash stands for. -/
def letterEscape? : Char → Option Char
  | 'a' => some '\x07'
  | 'b' => some '\x08'
  | 'f' => some '\x0c'
  | 'n' => some '\n'
  | 'r' => some '\r'
  | 't' => some '\t'
  | 'v' => some '\x0b'
  | '\\' => some '\\'
  | '"' => some '"'
  | '\'' => some '\''
  | _ => none

/-- The number of hexadecimal digits after a letter that starts an escape by number. -/
def hexLength? : Char → Option Nat
  | 'x' => some 2
  | 'u' => some 4
  | 'U' => some 8
  | _ => none

/-- The value of an octal digit. -/
def octalDigit? (c : Char) : Option Nat :=
  if '0' ≤ c ∧ c ≤ '7' then some (c.toNat - '0'.toNat) else none

/-- The number that exactly `count` digits denote in `base`, and what follows them. -/
def digits? (base : Nat) (digit? : Char → Option Nat) :
    (count value : Nat) → List Char → Option (Nat × List Char)
  | 0, value, cs => some (value, cs)
  | _ + 1, _, [] => none
  | count + 1, value, c :: cs =>
    match digit? c with
    | some d => digits? base digit? count (value * base + d) cs
    | none => none

/-- The character of the escape after a backslash, and what follows it. -/
def escape? : List Char → Option (Char × List Char)
  | [] => none
  | c :: cs =>
    match letterEscape? c with
    | some a => some (a, cs)
    | none =>
      match hexLength? c with
      | some count => do
        let (n, rest) ← digits? 16 Json.hexDigit? count 0 cs
        let a ← charOf? n
        return (a, rest)
      | none => do
        let (n, rest) ← digits? 8 octalDigit? 3 0 (c :: cs)
        let a ← charOf? n
        return (a, rest)

/-- The digits of an escape are read off the front. -/
private theorem length_le_of_digits? {base count value n : Nat} {digit? : Char → Option Nat}
    {cs rest : List Char} (h : digits? base digit? count value cs = some (n, rest)) :
    rest.length + count = cs.length := by
  induction count generalizing value cs with
  | zero =>
    simp only [digits?, Option.some.injEq, Prod.mk.injEq] at h
    simp [h.2]
  | succ count ih =>
    cases cs with
    | nil => simp [digits?] at h
    | cons c cs =>
      rw [digits?] at h
      split at h
      · have := ih h
        simp only [List.length_cons]
        omega
      · simp at h

/-- An escape takes at least one character. -/
theorem length_lt_of_escape? {cs rest : List Char} {a : Char} (h : escape? cs = some (a, rest)) :
    rest.length < cs.length := by
  cases cs with
  | nil => simp [escape?] at h
  | cons c cs =>
    rw [escape?] at h
    split at h
    · cases h
      simp
    · split at h
      · simp only [Option.bind_eq_bind, Option.bind_eq_some_iff, Option.pure_def,
          Option.some.injEq, Prod.mk.injEq, Prod.exists] at h
        obtain ⟨n, r, hd, _, _, _, rfl⟩ := h
        have := length_le_of_digits? hd
        simp only [List.length_cons]
        omega
      · simp only [Option.bind_eq_bind, Option.bind_eq_some_iff, Option.pure_def,
          Option.some.injEq, Prod.mk.injEq, Prod.exists] at h
        obtain ⟨n, r, hd, _, _, _, rfl⟩ := h
        have := length_le_of_digits? hd
        simp only [List.length_cons] at this ⊢
        omega

/-- The text that the characters between double quotes denote. -/
def interpreted? : List Char → Option (List Char)
  | [] => some []
  | c :: cs =>
    if c = '\\' then
      match h : escape? cs with
      | none => none
      | some (a, rest) =>
        have := length_lt_of_escape? h
        (interpreted? rest).map (a :: ·)
    else (interpreted? cs).map (c :: ·)
termination_by cs => cs.length
decreasing_by all_goals (simp_all; try omega)

/-- What stands between two quotes of the kind `mark` around a text. -/
def between? (mark : Char) (cs : List Char) : Option (List Char) :=
  (Text.strip? [mark] cs).bind (Text.stripEnd? [mark])

/-- The characters that a string literal denotes. -/
def value? (cs : List Char) : Option (List Char) :=
  match between? '\x60' cs with
  | some raw => some (raw.filter (· != '\r'))
  | none => (between? '"' cs).bind interpreted?

end Literal

/-- The text that a string literal denotes. -/
def unquote (literal : String) : Option String :=
  (Literal.value? literal.toList).map String.ofList

end GoPages
