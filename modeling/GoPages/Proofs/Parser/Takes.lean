import GoPages.Proofs.Parser.Brackets

/-!
# What parsers take

`Parser.Takes ss rest P p` says that before tokens of the spellings `ss` the parser `p` succeeds: it
gives a value with the property `P` and leaves tokens of the spellings `rest`. Where the tokens
stand does not matter.

The rules follow the way parsers are put together: `takes_pure`, `takes_bind`, `takes_tok`, and for
repetitions `takes_many`, which reads items that have a separator before each of them, and
`takes_many_intercalate`, which reads items with separators between them.
-/

namespace GoPages

/-- The spelling of the first token, or of the end of the file. -/
def firstSpelling (ss : List Spelling) : Spelling := ss.headD (.eof, "")

namespace Cursor

/-- The spellings of the tokens that are left. -/
def spellings (c : Cursor) : List Spelling := c.left.map Token.spelling

variable (c : Cursor)

/-- There are as many tokens left as spellings. -/
theorem size_eq : c.size = c.spellings.length := (List.length_map _).symm

private theorem spelling_firstOf (ts : List Token) :
    (c.firstOf ts).spelling = firstSpelling (ts.map Token.spelling) := by
  cases ts <;> rfl

/-- The token at the cursor has the first spelling that is left. -/
theorem spelling_tok : c.tok.spelling = firstSpelling c.spellings := c.spelling_firstOf c.left

/-- A token further on has the spelling there. -/
theorem spelling_peek (n : Nat) : (c.peek n).spelling = firstSpelling (c.spellings.drop n) := by
  rw [peek, spelling_firstOf, List.map_drop, spellings]

/-- Reading a token takes one spelling. -/
theorem spellings_advance : c.advance.spellings = c.spellings.tail := by
  rw [spellings, Parser.left_advance, List.map_tail, spellings]

end Cursor

namespace Parser

variable {α β : Type}

/-- Before tokens of the spellings `ss` the parser gives a value with the property `P`, and leaves
tokens of the spellings `rest`. -/
def Takes (ss rest : List Spelling) (P : α → Prop) (p : Parser α) : Prop :=
  ∀ c, c.spellings = ss → ∃ a c', p c = .ok (a, c') ∧ c'.spellings = rest ∧ P a

variable {ss mid rest : List Spelling} {P : α → Prop} {Q : β → Prop}

/-! ### Rules -/

/-- What holds of the value may be weakened. -/
theorem Takes.mono {P' : α → Prop} {p : Parser α} (hp : Takes ss rest P' p)
    (hP : ∀ a, P' a → P a) : Takes ss rest P p := by
  intro c hc
  obtain ⟨a, c', hok, hc', ha⟩ := hp c hc
  exact ⟨a, c', hok, hc', hP a ha⟩

theorem takes_pure {a : α} (ha : P a) : Takes ss ss P (pure a) := fun c hc => ⟨a, c, rfl, hc, ha⟩

/-- Parsers in sequence take what each of them takes. -/
theorem takes_bind {p : Parser α} {k : α → Parser β} (hp : Takes ss mid P p)
    (hk : ∀ a, P a → Takes mid rest Q (k a)) : Takes ss rest Q (p >>= k) := by
  intro c hc
  obtain ⟨a, c', hok, hc', ha⟩ := hp c hc
  rw [bind_of_ok hok]
  exact hk a ha c' hc'

private theorem takes_look {f : Cursor → α} {k : α → Parser β}
    (hf : ∀ c, c.spellings = ss → P (f c))
    (hk : ∀ a, P a → Takes ss rest Q (k a)) : Takes ss rest Q (look f >>= k) :=
  fun c hc => hk (f c) (hf c hc) c hc

/-- What is seen at the cursor does not matter. -/
theorem takes_look_any {f : Cursor → α} {k : α → Parser β} (hk : ∀ a, Takes ss rest Q (k a)) :
    Takes ss rest Q (look f >>= k) :=
  takes_look (P := fun _ => True) (fun _ _ => trivial) fun a _ => hk a

/-- What is seen at the cursor is known. -/
theorem takes_look_eq {f : Cursor → α} {a : α} {k : α → Parser β}
    (hf : ∀ c, c.spellings = ss → f c = a) (hk : Takes ss rest Q (k a)) :
    Takes ss rest Q (look f >>= k) :=
  takes_look (P := (· = a)) hf fun _ ha => ha ▸ hk

/-- A look at the next token takes nothing, and knows its spelling. -/
theorem takes_tok {k : Token → Parser β}
    (hk : ∀ t, t.spelling = firstSpelling ss → Takes ss rest Q (k t)) :
    Takes ss rest Q (tok >>= k) :=
  takes_look (fun c hc => by rw [c.spelling_tok, hc]) hk

theorem takes_peek {n : Nat} {k : Token → Parser β}
    (hk : ∀ t, t.spelling = firstSpelling (ss.drop n) → Takes ss rest Q (k t)) :
    Takes ss rest Q (look (Cursor.peek · n) >>= k) :=
  takes_look (fun c hc => by rw [c.spelling_peek, hc]) hk

/-- Of a choice that is settled one side is taken. -/
theorem takes_ite_pos {b : Prop} [Decidable b] {p q : Parser α} (hb : b) (hp : Takes ss rest P p) :
    Takes ss rest P (if b then p else q) := by
  rwa [if_pos hb]

theorem takes_ite_neg {b : Prop} [Decidable b] {p q : Parser α} (hb : ¬ b)
    (hq : Takes ss rest P q) : Takes ss rest P (if b then p else q) := by
  rwa [if_neg hb]

private theorem takes_advance (x : Spelling) (ss : List Spelling) :
    Takes (x :: ss) ss (fun _ => True) advance := by
  intro c hc
  exact ⟨(), c.advance, rfl, by rw [c.spellings_advance, hc, List.tail_cons], trivial⟩

/-- A token is read, whatever it was seen to be. -/
theorem takes_advance_bind {x : Spelling} {k : Unit → Parser β} (hk : Takes ss rest Q (k ())) :
    Takes (x :: ss) rest Q (advance >>= k) :=
  takes_bind (takes_advance x ss) fun _ _ => hk

/-- An operator is read. -/
theorem takes_op (text : String) (ss : List Spelling) :
    Takes ((.op, text) :: ss) ss (fun _ => True) (op text) := by
  intro c hc
  have htok : c.tok.isOp text = true := by
    rw [Token.isOp_of_spelling c.spelling_tok, hc]
    exact beq_self_eq_true _
  rw [op, if_pos htok]
  exact takes_advance _ ss c hc

/-- A name is read. -/
theorem takes_ident (name : String) (ss : List Spelling) :
    Takes ((.ident, name) :: ss) ss (fun id => id.name = name) ident := by
  intro c hc
  have htok := c.spelling_tok
  rw [hc] at htok
  have hkind : c.tok.kind = .ident := Token.kind_of_spelling htok
  rw [ident, if_pos hkind]
  exact ⟨_, c.advance, rfl, by rw [c.spellings_advance, hc, List.tail_cons],
    Token.text_of_spelling htok⟩

/-- There is nothing to pass over before other tokens. -/
theorem takes_skipSemicolons (h : (firstSpelling ss).1 ≠ .semicolon) :
    Takes ss ss (fun _ => True) skipSemicolons := by
  intro c hc
  refine ⟨(), c, ?_, hc, trivial⟩
  obtain ⟨prevLine, left, finish⟩ := c
  cases left with
  | nil => rfl
  | cons t more =>
    subst hc
    have hkind : (t.kind == .semicolon) = false := beq_false_of_ne h
    simp [skipSemicolons, hkind, Cursor.after]

/-- A semicolon ends an item. -/
theorem takes_endOfItem (text : String) (ss : List Spelling) :
    Takes ((.semicolon, text) :: ss) ss (fun _ => True) endOfItem := by
  intro c hc
  have htok := c.spelling_tok
  rw [hc] at htok
  have hkind : c.tok.kind = .semicolon := Token.kind_of_spelling htok
  rw [endOfItem, if_pos hkind]
  exact takes_advance _ ss c hc

/-- Nothing ends a declaration before a closing brace. -/
theorem takes_endOfItem_brace (h : firstSpelling ss = (.op, "\x7d")) :
    Takes ss ss (fun _ => True) endOfItem := by
  intro c hc
  have htok := c.spelling_tok
  rw [hc, h] at htok
  have hkind : c.tok.kind = .op := Token.kind_of_spelling htok
  have hbrace : c.tok.isOp "\x7d" = true := Token.isOp_of_spelling htok "\x7d"
  rw [endOfItem, if_neg (by simp [hkind]), if_pos (.inr (.inr hbrace))]
  exact ⟨(), c, rfl, hc, trivial⟩

/-! ### Brackets -/

/-- Balanced tokens are read up to the closing bracket. -/
theorem takes_balanced {pair : String × String} (hpair : pair ∈ bracketPairs)
    {inner : List Spelling} (h : Balanced inner) (x : Spelling) (rest : List Spelling) :
    Takes (x :: (inner ++ (.op, pair.2) :: rest)) rest
      (fun ts => ts.map Token.spelling = inner) balanced := by
  intro c hc
  obtain ⟨t, ts, hleft, -, hts⟩ := List.map_eq_cons_iff.mp hc
  obtain ⟨read, more, rfl, hread, hmore⟩ := List.map_eq_append_iff.mp hts
  obtain ⟨close, more, rfl, hclose, hmore⟩ := List.map_eq_cons_iff.mp hmore
  subst hread
  refine ⟨read, c.after [close] more, ?_, hmore, rfl⟩
  rw [balanced, hleft, List.drop_one, List.tail_cons, closing?_of_balanced h hpair hclose]

/-- The token after the brackets that follow the next token. -/
theorem exists_afterBracket? {c : Cursor} {x y : Spelling} {inner : List Spelling}
    (h : Balanced inner) (hc : c.spellings = x :: y :: (inner ++ (.op, "]") :: rest)) :
    ∃ t, c.afterBracket? 1 = some t ∧ t.spelling = firstSpelling rest := by
  obtain ⟨t, ts, hleft, -, hts⟩ := List.map_eq_cons_iff.mp hc
  obtain ⟨u, ts, rfl, -, hts⟩ := List.map_eq_cons_iff.mp hts
  obtain ⟨read, more, rfl, hread, hmore⟩ := List.map_eq_append_iff.mp hts
  obtain ⟨close, more, rfl, hclose, hmore⟩ := List.map_eq_cons_iff.mp hmore
  subst hread
  have hpair : ("[", "]") ∈ bracketPairs := by decide
  refine ⟨c.firstOf more, ?_, by rw [c.spelling_firstOf, hmore]⟩
  rw [Cursor.afterBracket?, hleft, List.drop_succ_cons, List.drop_succ_cons, List.drop_zero,
    closing?_of_balanced h hpair hclose]
  rfl

/-- A length of balanced tokens is read, and its text is theirs. -/
theorem takes_arrayLen {len : List Spelling} (h : Balanced len)
    (hkind : ∀ x ∈ len, x.1 ≠ .semicolon) (rest : List Spelling) :
    Takes (len ++ (.op, "]") :: rest) rest (· = String.join (len.map Prod.snd)) arrayLen := by
  intro c hc
  obtain ⟨read, more, hleft, hread, hmore⟩ := List.map_eq_append_iff.mp hc
  obtain ⟨close, more, rfl, hclose, hmore⟩ := List.map_eq_cons_iff.mp hmore
  have hkind' : close.kind ≠ .semicolon := by simp [Token.kind_of_spelling hclose]
  have hop : close.isOp "]" = true := Token.isOp_of_spelling hclose "]"
  -- balanced tokens leave no bracket open, so the next closing one ends the length
  have hspan : lengthSpan 0 c.left = (read, close :: more) := by
    rw [hleft, lengthSpan_append_of_balanced h hkind 0 hread, lengthSpan, if_pos (.inr ⟨hop, rfl⟩),
      List.append_nil]
  have htexts : read.map Token.text = len.map Prod.snd := by
    rw [← hread, List.map_map]
    rfl
  refine ⟨_, ((c.after read (close :: more)).advance), ?_, ?_, rfl⟩
  · rw [arrayLen, hspan, ← htexts]
    exact if_pos hop
  · rw [Cursor.spellings_advance]
    exact hmore

/-! ### Repetitions -/

section Many

variable {step : Parser (Option α)}

/-- A repeated step that answers at once gives nothing. -/
theorem takes_many_nil (h : Takes ss rest (· = none) step) :
    Takes ss rest (· = []) (many step) := by
  intro c hc
  obtain ⟨_, c', hok, hc', rfl⟩ := h c hc
  refine ⟨[], c', ?_, hc', rfl⟩
  change manyFrom step c = _
  rw [manyFrom, hok]

/-- A repeated step goes on after a value for which something was read. -/
theorem takes_many_cons {P' : List α → Prop}
    (h : Takes ss mid (fun r => ∃ a, r = some a ∧ P a) step) (hread : mid.length < ss.length)
    (hrest : Takes mid rest P' (many step)) :
    Takes ss rest (fun as => ∃ a more, as = a :: more ∧ P a ∧ P' more) (many step) := by
  intro c hc
  obtain ⟨_, c', hok, hc', a, rfl, ha⟩ := h c hc
  obtain ⟨more, c'', hok', hc'', hmore⟩ := hrest c' hc'
  -- a round that reads nothing would stop the repetition
  have hsize : c'.size < c.size := by rwa [c'.size_eq, c.size_eq, hc, hc']
  refine ⟨a :: more, c'', ?_, hc'', a, more, rfl, ha, hmore⟩
  change manyFrom step c' = _ at hok'
  change manyFrom step c = _
  rw [manyFrom, hok]
  simp only [hsize, if_true, hok']

variable {ι γ : Type} {items : List ι} {spelling : ι → List Spelling} {sep : Spelling}
  {f : α → γ} {g : ι → γ} {last : List Spelling}

/-- Reads items with a separator before each of them. -/
theorem takes_many
    (hitem : ∀ x ∈ items, ∀ ss, firstSpelling ss = sep ∨ ss = last →
      Takes (sep :: (spelling x ++ ss)) ss (fun r => ∃ a, r = some a ∧ f a = g x) step)
    (hlast : Takes last rest (· = none) step) :
    Takes (items.flatMap (fun x => sep :: spelling x) ++ last) rest
      (fun as => as.map f = items.map g) (many step) := by
  induction items with
  | nil => exact (takes_many_nil hlast).mono fun as has => by rw [has]; rfl
  | cons x items ih =>
    obtain ⟨hx, hitems⟩ := List.forall_mem_cons.mp hitem
    -- before the next separator, or before what follows the list
    have hnext : firstSpelling (items.flatMap (fun x => sep :: spelling x) ++ last) = sep ∨
        items.flatMap (fun x => sep :: spelling x) ++ last = last := by
      cases items with
      | nil => exact .inr rfl
      | cons y items => exact .inl rfl
    rw [List.flatMap_cons, List.append_assoc, List.cons_append]
    refine (takes_many_cons (hx _ hnext) ?_ (ih hitems)).mono ?_
    · simp only [List.length_cons, List.length_append]
      omega
    · rintro _ ⟨a, more, rfl, ha, hmore⟩
      rw [List.map_cons, List.map_cons, ha, hmore]

/-- Reads items with separators between them. -/
theorem takes_many_intercalate
    (hne : ∀ x ∈ items, spelling x ≠ [])
    (hitem : ∀ x ∈ items, ∀ ss,
      Takes (spelling x ++ sep :: ss) ss (fun r => ∃ a, r = some a ∧ f a = g x) step)
    (hitem' : ∀ x ∈ items,
      Takes (spelling x ++ last) last (fun r => ∃ a, r = some a ∧ f a = g x) step)
    (hlast : Takes last rest (· = none) step) :
    Takes ([sep].intercalate (items.map spelling) ++ last) rest
      (fun as => as.map f = items.map g) (many step) := by
  induction items with
  | nil => exact (takes_many_nil hlast).mono fun as has => by rw [has]; rfl
  | cons x items ih =>
    obtain ⟨hxne, hne⟩ := List.forall_mem_cons.mp hne
    obtain ⟨hx, hitem⟩ := List.forall_mem_cons.mp hitem
    obtain ⟨hx', hitem'⟩ := List.forall_mem_cons.mp hitem'
    have hpos := List.length_pos_iff.mpr hxne
    have hcons {as : List α} (has : ∃ a more, as = a :: more ∧ f a = g x ∧
        more.map f = items.map g) : as.map f = (x :: items).map g := by
      obtain ⟨a, more, rfl, ha, hmore⟩ := has
      rw [List.map_cons, List.map_cons, ha, hmore]
    have hrest := ih hne hitem hitem'
    -- the last item has no separator behind it
    cases items with
    | nil =>
      rw [List.map_singleton, List.intercalate_singleton]
      refine (takes_many_cons hx' ?_ hrest).mono fun as => hcons
      simpa using hpos
    | cons y items =>
      rw [List.map_cons] at hrest
      rw [List.map_cons, List.map_cons, List.intercalate_cons_cons, List.append_assoc,
        List.append_assoc]
      refine (takes_many_cons (hx _) ?_ hrest).mono fun as => hcons
      simp only [List.length_append, List.length_cons]
      omega

end Many

end Parser

end GoPages
