import GoPages.Parser.Cursor

/-!
# Bracketed tokens

`closing?` cuts tokens after the bracket that closes the ones open before them. Any closing bracket
closes any opening one. `Parser.balanced` reads a bracket and all up to the one that closes it.
-/

namespace GoPages

/-- Is the token an opening bracket? -/
def Token.opens (t : Token) : Bool := t.isOp "(" || t.isOp "[" || t.isOp "\x7b"

/-- Is the token a closing bracket? -/
def Token.closes (t : Token) : Bool := t.isOp ")" || t.isOp "]" || t.isOp "\x7d"

/-- The tokens up to the bracket that closes the outermost of `depth + 1` open ones, that bracket,
and what follows it. -/
def closing? (depth : Nat) : List Token → Option (List Token × Token × List Token)
  | [] => none
  | t :: rest =>
    if t.opens then (closing? (depth + 1) rest).map fun (inner, cut) => (t :: inner, cut)
    else if t.closes then
      if depth = 0 then some ([], t, rest)
      else (closing? (depth - 1) rest).map fun (inner, cut) => (t :: inner, cut)
    else (closing? depth rest).map fun (inner, cut) => (t :: inner, cut)

/-- Cutting at a closing bracket loses nothing. -/
theorem closing?_append {depth : Nat} {ts inner rest : List Token} {close : Token}
    (h : closing? depth ts = some (inner, close, rest)) : inner ++ close :: rest = ts := by
  induction ts generalizing depth inner with
  | nil => simp [closing?] at h
  | cons t ts ih =>
    have step {d : Nat} (hm : (closing? d ts).map (fun p => (t :: p.1, p.2)) =
        some (inner, close, rest)) : inner ++ close :: rest = t :: ts := by
      obtain ⟨⟨i, cut⟩, hc, heq⟩ := Option.map_eq_some_iff.1 hm
      cases heq
      simp [ih hc]
    rw [closing?] at h
    split at h
    · exact step h
    split at h
    · split at h
      · cases h
        rfl
      · exact step h
    · exact step h

/-- The token after the bracket that closes the one `n` places after the next token. -/
def Cursor.afterBracket? (c : Cursor) (n : Nat) : Option Token :=
  (closing? 0 (c.left.drop (n + 1))).map fun (_, _, rest) => c.firstOf rest

namespace Parser

/-- Reads an opening bracket and all up to the bracket that closes it; gives what stands between
them. -/
def balanced : Parser (List Token) := fun c =>
  match closing? 0 (c.left.drop 1) with
  | some (inner, close, rest) => .ok (inner, c.after [close] rest)
  | none => fail .unbalancedBrackets c

end Parser

end GoPages
