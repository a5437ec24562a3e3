import GoPages.Proofs.Parser.Runs
import GoPages.Proofs.Token.Spelling

/-!
# What parsers give

`Parser.Yields h P p` says that from a cursor with the property `h`, before tokens of a text, the
parser `p` gives only values with the property `P`. Of the tokens of a text it is used that the
names among them are words, that is, read from their own texts (`Cursor.HasWords`).

The rules follow the way parsers are put together: `yields_pure`, `yields_bind`, `yields_tok` and
`yields_many`.
-/

namespace GoPages

/-- Is the name read from its own text? -/
def Ident.IsWord (id : Ident) : Prop := Lexeme.IsWhole ⟨.token .ident, id.name.toList⟩

/-- The names before the cursor are words. -/
def Cursor.HasWords (c : Cursor) : Prop :=
  ∀ t ∈ c.left, t.kind = .ident → Lexeme.IsWhole ⟨.token .ident, t.text.toList⟩

/-- The names of a text are words. -/
theorem Cursor.hasWords_start {file source : String} {lexed : Lexed}
    (h : tokenize file source = .ok lexed) : (Cursor.start lexed).HasWords := by
  have hterminated : Token.AreTerminated false lexed.tokens := .of_tokenize h
  intro t ht hkind
  have hwhole := hterminated.isWhole_of_kind_ne t ht (by simp [hkind])
  rwa [Token.IsWhole, hkind] at hwhole

namespace Parser

variable {α β : Type}

/-- From a cursor with the property `h`, before tokens of a text, the parser gives only values with
the property `P`. -/
def Yields (h : Cursor → Prop) (P : α → Prop) (p : Parser α) : Prop :=
  ∀ c, c.HasWords → h c → ∀ a c', p c = .ok (a, c') → P a ∧ c'.HasWords

variable {h : Cursor → Prop} {P : α → Prop} {Q : β → Prop}

/-- Nothing is said about the values of a parser. -/
theorem Steps.yields {p : Parser α} (hp : p.Steps) : Yields h (fun _ => True) p := by
  intro c hc _ a c' hok
  obtain ⟨read, hread⟩ := hp.reads c a c' hok
  refine ⟨trivial, fun t ht => hc t ?_⟩
  rw [hread]
  exact List.mem_append_right read ht

/-- What is asked of the cursor may be strengthened, and what is said of the value weakened. -/
theorem Yields.mono {h' : Cursor → Prop} {P' : α → Prop} {p : Parser α} (hp : Yields h' P' p)
    (hh : ∀ c, h c → h' c) (hP : ∀ a, P' a → P a) : Yields h P p := by
  intro c hc hhc a c' hok
  obtain ⟨ha, hc'⟩ := hp c hc (hh c hhc) a c' hok
  exact ⟨hP a ha, hc'⟩

/-- A parser that needs nothing of its cursor can stand anywhere. -/
theorem Yields.anywhere {p : Parser α} (hp : Yields (fun _ => True) P p) : Yields h P p :=
  hp.mono (fun _ _ => trivial) fun _ ha => ha

theorem yields_pure {a : α} (ha : P a) : Yields h P (pure a) := by
  intro c hc _ a' c' hok
  cases hok
  exact ⟨ha, hc⟩

theorem yields_fail (fault : SyntaxFault) : Yields h P (fail fault) :=
  fun _ _ _ _ _ hok => nomatch hok

theorem yields_failAt (l : Location) (fault : SyntaxFault) : Yields h P (failAt l fault) :=
  fun _ _ _ _ _ hok => nomatch hok

theorem yields_failExpected (what : String) : Yields h P (failExpected what) :=
  fun _ _ _ _ _ hok => nomatch hok

/-- Parsers in sequence give what the second one gives after the values of the first. -/
theorem yields_bind {p : Parser α} {k : α → Parser β} (hp : Yields h P p)
    (hk : ∀ a, P a → Yields (fun _ => True) Q (k a)) : Yields h Q (p >>= k) := by
  intro c hc hhc b c'' hok
  obtain ⟨a, c', hrun, hok⟩ := exists_of_bind hok
  obtain ⟨ha, hc'⟩ := hp c hc hhc a c' hrun
  exact hk a ha c' hc' trivial b c'' hok

/-- What is read first does not matter. -/
theorem yields_then {p : Parser α} {k : α → Parser β} (hp : p.Steps)
    (hk : ∀ a, Yields (fun _ => True) Q (k a)) : Yields h Q (p >>= k) :=
  yields_bind hp.yields fun a _ => hk a

/-- What follows may look at the same cursor again. -/
theorem yields_look {f : Cursor → α} {k : α → Parser β}
    (hk : ∀ a, Yields (fun c => h c ∧ f c = a) Q (k a)) : Yields h Q (look f >>= k) :=
  fun c hc hhc => hk (f c) c hc ⟨hhc, rfl⟩

/-- The token at the cursor may be known from there on. -/
theorem yields_tok {k : Token → Parser β}
    (hk : ∀ t, Yields (fun c => h c ∧ c.tok = t) Q (k t)) : Yields h Q (tok >>= k) :=
  yields_look hk

/-- A choice gives what both sides give, each under its condition. -/
theorem yields_ite {b : Prop} [Decidable b] {p q : Parser α} (hp : b → Yields h P p)
    (hq : ¬ b → Yields h P q) : Yields h P (if b then p else q) := by
  split
  · next hb => exact hp hb
  · next hb => exact hq hb

/-- A branch that may be left out. -/
theorem yields_optional {b : Prop} [Decidable b] {p : Parser α} {q : Parser β} (hp : p.Steps)
    (hq : Yields (fun _ => True) Q q) : Yields h Q (if b then p >>= fun _ => q else q) :=
  yields_ite (fun _ => yields_then hp fun _ => hq) fun _ => hq.anywhere

/-- Two branches that go on in the same way. -/
theorem yields_join {b : Prop} [Decidable b] {p q : Parser β} {k : α → Parser β}
    (hp : (∀ a, P a → Yields (fun _ => True) Q (k a)) → Yields h Q p)
    (hq : (∀ a, P a → Yields (fun _ => True) Q (k a)) → Yields h Q q)
    (hk : ∀ a, P a → Yields (fun _ => True) Q (k a)) : Yields h Q (if b then p else q) :=
  yields_ite (fun _ => hp hk) fun _ => hq hk

/-- A name that is read is a word. -/
theorem yields_ident : Yields h Ident.IsWord ident := by
  intro c hc _ a c' hok
  obtain ⟨hkind, rfl, rfl⟩ := ident_eq_ok_iff.mp hok
  cases hleft : c.left with
  | nil => simp [Cursor.tok, Cursor.firstOf, Token.endOfFile, hleft] at hkind
  | cons t rest =>
    have htok : c.tok = t := by rw [Cursor.tok, hleft, Cursor.firstOf]
    rw [htok] at hkind ⊢
    refine ⟨hc t (by rw [hleft]; exact List.mem_cons_self) hkind, fun u hu => hc u ?_⟩
    rw [left_advance, hleft] at hu
    rw [hleft]
    exact List.mem_cons_of_mem t hu

/-- All values of a repeated step have the property. -/
theorem yields_many {step : Parser (Option α)}
    (hstep : Yields (fun _ => True) (fun r => ∀ a, r = some a → P a) step) :
    Yields h (fun as => ∀ a ∈ as, P a) (many step) := by
  intro c hc hhc as c' hok
  clear hhc
  change manyFrom step c = .ok (as, c') at hok
  fun_induction manyFrom step c generalizing as c' with
  | case1 => cases hok
  | case2 c c₁ hrun =>
    cases hok
    exact ⟨List.forall_mem_nil _, (hstep c hc trivial _ _ hrun).2⟩
  | case3 => cases hok
  | case4 c a c₁ hrun hsize as' c₂ hrest ih =>
    cases hok
    obtain ⟨ha, hc₁⟩ := hstep c hc trivial _ _ hrun
    obtain ⟨has, hc₂⟩ := ih hc₁ _ _ hrest
    exact ⟨List.forall_mem_cons.mpr ⟨ha a rfl, has⟩, hc₂⟩
  | case5 => cases hok

end Parser

end GoPages
