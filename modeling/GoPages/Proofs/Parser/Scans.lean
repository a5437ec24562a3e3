import GoPages.Proofs.Parser.Runs

/-!
# Parsers that cut the tokens

Some parsers cut what they read out of the tokens that are left: semicolons, a bracket with all up
to the one that closes it, an array length, a list of type parameters. Each of them is the loop that
reads one token in each round (`skipSemicolons_eq_loop`, `balanced_eq_loop`, `arrayLen_eq_loop`), or
a look ahead and such a loop (`typeParams_eq_balanced`). Hence all of them are stepwise.
-/

namespace GoPages

/-! ### Cutting one token after the other -/

namespace Cursor

variable {c : Cursor} {t : Token} {more : List Token}

private theorem tok_of_left_eq_cons (h : c.left = t :: more) : c.tok = t := by rw [tok, h, firstOf]

private theorem advance_of_left_eq_cons (h : c.left = t :: more) :
    c.advance = ⟨t.location.line, more, c.finish⟩ := by
  rw [advance, h]

/-- After the first token of several, the cursor is before the second. -/
theorem after_cons (h : c.left = t :: more) (read rest : List Token) :
    c.after (t :: read) rest = c.advance.after read rest := by
  rw [advance_of_left_eq_cons h]
  cases read with
  | nil => rfl
  | cons u read =>
    have hlast : (t :: u :: read).getLast? = (u :: read).getLast? := List.getLast?_cons_cons
    rw [after, after, hlast, List.getLast?_cons]

end Cursor

namespace Parser

/-! ### Single tokens -/

private theorem tok_bind {α : Type} (k : Token → Parser α) (c : Cursor) :
    (tok >>= k) c = k c.tok c := rfl

/-- Reading an operator is looking at a token and reading it. -/
theorem op_eq (text : String) : op text = tok >>= fun t =>
    if t.isOp text then advance else failExpected ("'" ++ text ++ "'") := by
  funext c
  rw [op, tok_bind]
  split <;> rfl

/-- So is reading a name. -/
theorem ident_eq : ident = tok >>= fun t =>
    if t.kind = .ident then advance >>= fun _ => pure ⟨t.text, t.location⟩
    else failExpected "identifier" := by
  funext c
  rw [ident, tok_bind]
  split <;> rfl

/-- The end of an item is a semicolon that is read, or a closing bracket or the end that is not. -/
theorem endOfItem_eq : endOfItem = tok >>= fun t =>
    if t.kind = .semicolon then advance
    else if t.kind = .eof ∨ t.isOp ")" ∨ t.isOp "\x7d" then pure ()
    else failExpected "';' or newline" := by
  funext c
  rw [endOfItem, tok_bind]
  split
  · rfl
  split <;> rfl

theorem steps_op (text : String) : (op text).Steps := by
  rw [op_eq]
  exact steps_bind steps_tok fun t => steps_ite steps_advance (steps_failExpected _)

private theorem steps_ident : ident.Steps := by
  rw [ident_eq]
  refine steps_bind steps_tok fun t => steps_ite ?_ (steps_failExpected _)
  exact steps_bind steps_advance fun _ => steps_pure _

theorem steps_endOfItem : endOfItem.Steps := by
  rw [endOfItem_eq]
  refine steps_bind steps_tok fun t => steps_ite steps_advance (steps_ite (steps_pure _) ?_)
  exact steps_failExpected _

theorem advances_ident : ident.Advances := by
  refine ⟨steps_ident, fun c _ a c' hp _ => ?_⟩
  obtain ⟨hident, -, rfl⟩ := ident_eq_ok_iff.mp hp
  exact size_advance_lt (by simp [hident])

/-! ### Semicolons -/

/-- One round of passing over semicolons. -/
def nextSemicolon (_ : Unit) : Parser (Unit ⊕ Unit) := do
  let t ← tok
  if t.kind == .semicolon then
    advance
    return .inl ()
  else return .inr ()

/-- A round reads a semicolon, or ends the loop. -/
private theorem nextSemicolon_eq (c : Cursor) : nextSemicolon () c =
    .ok (if c.tok.kind == .semicolon then (.inl (), c.advance) else (.inr (), c)) := by
  rw [nextSemicolon, tok_bind]
  split <;> rfl

/-- Passing over semicolons is a loop that reads one in each round. -/
theorem skipSemicolons_eq_loop : skipSemicolons = loop nextSemicolon () := by
  funext c
  obtain ⟨prevLine, left, finish⟩ := c
  induction left generalizing prevLine with
  | nil => rw [loop, nextSemicolon_eq]; rfl
  | cons t rest ih =>
    rw [loop, nextSemicolon_eq]
    by_cases ht : t.kind == .semicolon
    · have hround := ih t.location.line
      simp only [skipSemicolons, Cursor.tok, Cursor.firstOf, Cursor.advance, Cursor.size, ht,
        if_true, List.takeWhile_cons, List.dropWhile_cons, List.length_cons,
        Nat.lt_succ_self] at hround ⊢
      rw [← hround, Cursor.after_cons rfl]
      rfl
    · simp only [skipSemicolons, Cursor.tok, Cursor.firstOf, ht, if_false, Bool.false_eq_true,
        List.takeWhile_cons, List.dropWhile_cons]
      rfl

theorem progress_nextSemicolon :
    Progress (fun r => r.isLeft = true) (fun _ => True) (nextSemicolon ()) := by
  refine progress_tok fun t => progress_ite (fun ht => ?_) fun _ => progress_pure (by simp)
  rw [beq_iff_eq] at ht
  exact progress_bind_left (progress_advance_seen (by simp [ht])) fun _ => steps_pure _

theorem steps_skipSemicolons : skipSemicolons.Steps := by
  rw [skipSemicolons_eq_loop]
  exact steps_loop (fun _ => progress_nextSemicolon) ()

/-! ### Brackets -/

/-- One round of reading up to the bracket that closes the outermost of `depth + 1` open ones. The
tokens that have been read are in reverse order. -/
def nextInner (start : Location) (s : Nat × List Token) :
    Parser ((Nat × List Token) ⊕ List Token) := do
  let atEnd ← look fun c => c.left.isEmpty
  if atEnd then failAt start .unbalancedBrackets
  else
    let t ← tok
    advance
    if t.opens then return .inl (s.1 + 1, t :: s.2)
    else if t.closes then
      if s.1 = 0 then return .inr s.2.reverse
      else return .inl (s.1 - 1, t :: s.2)
    else return .inl (s.1, t :: s.2)

private theorem nextInner_of_left_eq_nil {c : Cursor} (h : c.left = []) (start : Location)
    (s : Nat × List Token) : nextInner start s c = .error ⟨.unbalancedBrackets, start⟩ := by
  change (if c.left.isEmpty then failAt start .unbalancedBrackets else _ : Parser _) c = _
  rw [h]
  rfl

/-- A round counts the brackets that are open. -/
private theorem nextInner_of_left_eq_cons {c : Cursor} {t : Token} {more : List Token}
    (h : c.left = t :: more) (start : Location) (s : Nat × List Token) :
    nextInner start s c = .ok (if t.opens then .inl (s.1 + 1, t :: s.2)
      else if t.closes then
        if s.1 = 0 then .inr s.2.reverse else .inl (s.1 - 1, t :: s.2)
      else .inl (s.1, t :: s.2), c.advance) := by
  rw [← Cursor.tok_of_left_eq_cons h]
  change (if c.left.isEmpty then _ else _ : Parser _) c = _
  rw [h]
  change (if c.tok.opens then _ else _ : Parser _) c.advance = _
  split
  · rfl
  split
  · split <;> rfl
  · rfl

/-- The result of cutting the tokens at a closing bracket, where the tokens `read`, in reverse
order, have been read before. -/
def cutInner (start : Location) (read : List Token) (c : Cursor) :
    Option (List Token × Token × List Token) → Except SyntaxError (List Token × Cursor)
  | some (inner, close, rest) => .ok (read.reverse ++ inner, c.after [close] rest)
  | none => .error ⟨.unbalancedBrackets, start⟩

/-- The loop finds the bracket that closes the first one. -/
private theorem loop_nextInner (start : Location) (depth : Nat) (read : List Token) (c : Cursor) :
    loop (nextInner start) (depth, read) c = cutInner start read c (closing? depth c.left) := by
  obtain ⟨prevLine, left, finish⟩ := c
  induction left generalizing prevLine depth read with
  | nil =>
    rw [loop, nextInner_of_left_eq_nil rfl]
    rfl
  | cons t rest ih =>
    -- a token that is not the closing bracket goes to the tokens inside
    have hround (depth' : Nat) : loop (nextInner start) (depth', t :: read)
        ⟨t.location.line, rest, finish⟩ = cutInner start read ⟨prevLine, t :: rest, finish⟩
          ((closing? depth' rest).map fun cut => (t :: cut.1, cut.2)) := by
      rw [ih]
      cases closing? depth' rest with
      | none => rfl
      | some cut => simp [cutInner, Cursor.after]
    have hsize : (⟨t.location.line, rest, finish⟩ : Cursor).size <
        (⟨prevLine, t :: rest, finish⟩ : Cursor).size := Nat.lt_succ_self _
    rw [loop, nextInner_of_left_eq_cons rfl, closing?, Cursor.advance_of_left_eq_cons rfl]
    by_cases hopens : t.opens
    · simp only [hopens, if_true, hsize, hround]
    by_cases hcloses : t.closes
    · by_cases hdepth : depth = 0
      · simp [hopens, hcloses, hdepth, cutInner, Cursor.after]
      · simp only [hopens, hcloses, hdepth, if_true, if_false, hsize, hround, Bool.false_eq_true]
    · simp only [hopens, hcloses, if_true, if_false, hsize, hround, Bool.false_eq_true]

/-- Reading what stands between brackets is a loop that reads one token in each round. -/
theorem balanced_eq_loop :
    balanced =
      tok >>= fun start => advance >>= fun _ => loop (nextInner start.location) (0, []) := by
  funext c
  have hadvance : (advance >>= fun _ => loop (nextInner c.tok.location) (0, [])) c =
      loop (nextInner c.tok.location) (0, []) c.advance := rfl
  have hfinish : c.advance.finish = c.finish := by
    rw [Cursor.advance]
    split <;> rfl
  rw [tok_bind, hadvance, loop_nextInner, left_advance, balanced, List.drop_one]
  cases closing? 0 c.left.tail with
  | none => rfl
  | some cut => simp [cutInner, Cursor.after, hfinish]

theorem advances_nextInner (start : Location) (s : Nat × List Token) :
    (nextInner start s).Advances := by
  constructor
  · refine steps_bind (steps_look _) fun atEnd => steps_ite (steps_failAt _ nofun) ?_
    refine steps_bind steps_tok fun t => steps_bind steps_advance fun _ => ?_
    refine steps_ite (steps_pure _) (steps_ite (steps_ite ?_ ?_) (steps_pure _))
    · exact steps_pure _
    · exact steps_pure _
  · intro c _ r c' hp _
    cases hleft : c.left with
    | nil =>
      rw [nextInner_of_left_eq_nil hleft] at hp
      cases hp
    | cons t more =>
      rw [nextInner_of_left_eq_cons hleft] at hp
      cases hp
      simp [Cursor.size, left_advance, hleft]

/-- At least the bracket is read. -/
theorem advances_balanced : balanced.Advances := by
  constructor
  · rw [balanced_eq_loop]
    refine steps_bind steps_tok fun start => steps_bind steps_advance fun _ => ?_
    exact steps_loop (fun s => (advances_nextInner _ s).progress) _
  · intro c _ inner c' hp _
    rw [balanced] at hp
    split at hp
    · next hclosing =>
      cases hp
      have hlength := congrArg List.length (closing?_append hclosing)
      simp only [List.length_append, List.length_cons, List.length_drop] at hlength
      simp only [Cursor.size, Cursor.after]
      omega
    · cases hp

/-- A list of type parameters is looked through, and then passed over as any brackets are. -/
theorem typeParams_eq_balanced : typeParams =
    (look fun c => (closing? 0 (c.left.drop 1)).map fun cut => typeParamNames 0 true cut.1) >>=
      fun names? =>
        match names? with
        | none => failExpected "']'"
        | some names => balanced >>= fun _ => pure names := by
  funext c
  change _ = (match (closing? 0 (c.left.drop 1)).map fun cut => typeParamNames 0 true cut.1 with
    | none => failExpected "']'"
    | some names => balanced >>= fun _ => pure names : Parser (List String)) c
  rw [typeParams]
  cases hclosing : closing? 0 (c.left.drop 1) with
  | none => rfl
  | some cut =>
    obtain ⟨inner, close, rest⟩ := cut
    have hbalanced : balanced c = .ok (inner, c.after [close] rest) := by rw [balanced, hclosing]
    have hnames : (balanced >>= fun _ => pure (typeParamNames 0 true inner)) c =
        .ok (typeParamNames 0 true inner, c.after [close] rest) := bind_of_ok hbalanced
    exact hnames.symm

theorem steps_typeParams : typeParams.Steps := by
  rw [typeParams_eq_balanced]
  refine steps_bind (steps_look _) ?_
  rintro (_ | names)
  · exact steps_failExpected _
  · exact steps_bind advances_balanced.steps fun _ => steps_pure _

/-! ### Array lengths -/

/-- The depth of nesting after a token of an array length. -/
def nestedAfter (nested : Nat) (t : Token) : Nat :=
  if t.isOp "[" || t.isOp "(" then nested + 1
  else if t.isOp "]" || t.isOp ")" then nested - 1
  else nested

/-- A token that does not end an array length goes on with it. -/
theorem lengthSpan_cons {nested : Nat} {t : Token} (hkind : t.kind ≠ .semicolon)
    (hcloses : ¬ (t.isOp "]" ∧ nested = 0)) (rest : List Token) :
    lengthSpan nested (t :: rest) = (t :: (lengthSpan (nestedAfter nested t) rest).1,
      (lengthSpan (nestedAfter nested t) rest).2) := by
  rw [lengthSpan, if_neg (not_or.mpr ⟨hkind, hcloses⟩)]
  rfl

/-- One round of reading an array length. The tokens that have been read are in reverse order. -/
def nextLength (s : Nat × List Token) : Parser ((Nat × List Token) ⊕ String) := do
  let atEnd ← look fun c => c.left.isEmpty
  let t ← tok
  if atEnd || t.kind == .semicolon then failExpected "']'"
  else
    advance
    if t.isOp "]" && s.1 == 0 then return .inr (String.join (s.2.reverse.map Token.text))
    else return .inl (nestedAfter s.1 t, t :: s.2)

private theorem nextLength_of_ends {c : Cursor} (s : Nat × List Token)
    (h : (c.left.isEmpty || c.tok.kind == .semicolon) = true) :
    nextLength s c = failExpected "']'" c := by
  change (if c.left.isEmpty || c.tok.kind == .semicolon then _ else _ : Parser _) c = _
  rw [if_pos h]

/-- A round reads a token of the length, or the bracket after it. -/
private theorem nextLength_of_goesOn {c : Cursor} (s : Nat × List Token)
    (h : ¬ (c.left.isEmpty || c.tok.kind == .semicolon) = true) :
    nextLength s c = .ok (if c.tok.isOp "]" && s.1 == 0
      then .inr (String.join (s.2.reverse.map Token.text))
      else .inl (nestedAfter s.1 c.tok, c.tok :: s.2), c.advance) := by
  change (if c.left.isEmpty || c.tok.kind == .semicolon then _ else _ : Parser _) c = _
  rw [if_neg h]
  change (if c.tok.isOp "]" && s.1 == 0 then _ else _ : Parser _) c.advance = _
  split <;> rfl

/-- The result of cutting an array length, where the tokens `read`, in reverse order, have been read
before. -/
def cutLength (nested : Nat) (read : List Token) (c : Cursor) :
    Except SyntaxError (String × Cursor) :=
  let (span, rest) := lengthSpan nested c.left
  let c' := c.after span rest
  if c'.tok.isOp "]" then .ok (String.join ((read.reverse ++ span).map Token.text), c'.advance)
  else failExpected "']'" c'

/-- The loop cuts off the length as far as it goes. -/
private theorem loop_nextLength (nested : Nat) (read : List Token) (c : Cursor) :
    loop nextLength (nested, read) c = cutLength nested read c := by
  obtain ⟨prevLine, left, finish⟩ := c
  -- each round takes one token, so the induction is on the tokens that are left
  induction left generalizing prevLine nested read with
  | nil =>
    rw [loop, nextLength_of_ends _ rfl]
    rfl
  | cons t rest ih =>
    have htok : (⟨prevLine, t :: rest, finish⟩ : Cursor).tok = t := rfl
    rw [loop]
    by_cases hsemicolon : t.kind = .semicolon
    · have hop : t.isOp "]" = false := by simp [Token.isOp, hsemicolon]
      rw [nextLength_of_ends _ (by simp [htok, hsemicolon])]
      simp [cutLength, lengthSpan, hsemicolon, Cursor.after, Cursor.tok, Cursor.firstOf, hop,
        failExpected]
    rw [nextLength_of_goesOn _ (by simp [htok, hsemicolon])]
    by_cases hcloses : t.isOp "]" ∧ nested = 0
    · simp [cutLength, lengthSpan, hcloses, htok, Cursor.after]
    · have hgoesOn : ¬ (t.isOp "]" && nested == 0) = true := by simpa using hcloses
      have hsize : (⟨t.location.line, rest, finish⟩ : Cursor).size <
          (⟨prevLine, t :: rest, finish⟩ : Cursor).size := Nat.lt_succ_self _
      have hadvance : (⟨prevLine, t :: rest, finish⟩ : Cursor).advance =
          ⟨t.location.line, rest, finish⟩ := rfl
      have hafter (read rest' : List Token) :
          (⟨prevLine, t :: rest, finish⟩ : Cursor).after (t :: read) rest' =
            (⟨t.location.line, rest, finish⟩ : Cursor).after read rest' := Cursor.after_cons rfl _ _
      simp only [htok, hgoesOn, hadvance, hsize, if_true, if_false, Bool.false_eq_true, ih]
      simp only [cutLength, lengthSpan_cons hsemicolon hcloses, hafter, List.reverse_cons,
        List.append_assoc, List.singleton_append]

/-- Reading the length of an array is a loop that reads one token in each round. -/
theorem arrayLen_eq_loop : arrayLen = loop nextLength (0, []) := by
  funext c
  exact (loop_nextLength 0 [] c).symm

theorem advances_nextLength (s : Nat × List Token) : (nextLength s).Advances := by
  constructor
  · refine steps_bind (steps_look _) fun atEnd => steps_bind steps_tok fun t => ?_
    refine steps_ite (steps_failExpected _) (steps_bind steps_advance fun _ => ?_)
    exact steps_ite (steps_pure _) (steps_pure _)
  · intro c _ r c' hp _
    by_cases hends : (c.left.isEmpty || c.tok.kind == .semicolon) = true
    · rw [nextLength_of_ends s hends] at hp
      cases hp
    · rw [nextLength_of_goesOn s hends] at hp
      cases hp
      cases hleft : c.left with
      | nil => simp [hleft] at hends
      | cons t more => simp [Cursor.size, left_advance, hleft]

theorem steps_arrayLen : arrayLen.Steps := by
  rw [arrayLen_eq_loop]
  exact steps_loop (fun s => (advances_nextLength s).progress) _

end Parser

end GoPages
