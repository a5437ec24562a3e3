import GoPages.Proofs.Parser.Groups
import GoPages.Proofs.Parser.Lockstep
import GoPages.Proofs.Reread.Types

/-!
# Types in different contexts

The parsers of type expressions keep pace with themselves, one production of the grammar after the
other, and with the parsers that read deeper types (`Parser.agrees_typeExpr`). So a type expression
that is read somewhere before the end of a statement is read wherever its tokens stand before the
end of a statement, if their brackets match (`Parser.Accepts.takes`).
-/

namespace GoPages

/-! ### Parameters -/

/-- The entry of a parameter list without its places. -/
def ParamEntry.unplaced : ParamEntry → ParamEntry
  | lone id => lone id.unplaced
  | named id type => named id.unplaced type.unplaced
  | unnamed type => unnamed type.unplaced

namespace ParamEntry

private theorem ident?_unplaced (entry : ParamEntry) :
    entry.unplaced.ident? = entry.ident?.map Ident.unplaced := by
  cases entry <;> rfl

private theorem type?_unplaced (entry : ParamEntry) :
    entry.unplaced.type? = entry.type?.map TypeExpr.unplaced := by
  cases entry <;> rfl

/-- Whether an entry is named does not depend on places. -/
private theorem isNamed_unplaced (entry : ParamEntry) : entry.unplaced.isNamed = entry.isNamed := by
  cases entry <;> rfl

private theorem asType_unplaced (entry : ParamEntry) :
    entry.unplaced.asType = entry.asType.unplaced := by
  cases entry <;> simp [unplaced, asType, ParamOf.unplaced, TypeExpr.unplaced]

end ParamEntry

private theorem nextType?_unplaced (entries : List ParamEntry) :
    nextType? (entries.map ParamEntry.unplaced) = (nextType? entries).map TypeExpr.unplaced := by
  induction entries with
  | nil => rfl
  | cons entry rest ih =>
    rw [nextType?, nextType?] at ih
    rw [nextType?, nextType?, List.map_cons, List.findSome?_cons, List.findSome?_cons,
      entry.type?_unplaced, ih]
    cases entry.type? <;> rfl

/-- Nor does which name goes with which type. -/
private theorem namedParams?_unplaced (entries : List ParamEntry) :
    namedParams? (entries.map ParamEntry.unplaced) =
      (namedParams? entries).map (List.map ParamOf.unplaced) := by
  induction entries with
  | nil => rfl
  | cons entry rest ih =>
    have hnext := nextType?_unplaced (entry :: rest)
    rw [List.map_cons] at hnext ⊢
    rw [namedParams?, namedParams?, ih, hnext, entry.ident?_unplaced]
    cases entry.ident? <;> cases nextType? (entry :: rest) <;> cases namedParams? rest <;> rfl

/-- Where the entries of a parameter list stand does not matter to what they mean. -/
theorem exists_groupParams_eq_ok {start : Location} {entries entries' : List ParamEntry}
    {params : List Param} (h : groupParams start entries = .ok params)
    (hentries : entries'.map ParamEntry.unplaced = entries.map ParamEntry.unplaced)
    (start' : Location) :
    ∃ params', groupParams start' entries' = .ok params' ∧
      params'.map ParamOf.unplaced = params.map ParamOf.unplaced := by
  have hany (entries : List ParamEntry) : (entries.map ParamEntry.unplaced).any ParamEntry.isNamed =
      entries.any ParamEntry.isNamed := by
    rw [List.any_map]
    exact congrArg entries.any (funext ParamEntry.isNamed_unplaced)
  have hasTypes (entries : List ParamEntry) : (entries.map ParamEntry.asType).map ParamOf.unplaced =
      (entries.map ParamEntry.unplaced).map ParamEntry.asType := by
    simp [ParamEntry.asType_unplaced]
  have hnamed : entries'.any ParamEntry.isNamed = entries.any ParamEntry.isNamed := by
    rw [← hany, hentries, hany]
  -- whether there are names at all decides how entries are grouped, on both sides alike
  rw [groupParams, hnamed]
  rw [groupParams] at h
  split at h
  · next hentry =>
    have hparams := namedParams?_unplaced entries
    have hsome : namedParams? entries = some params := nameParams_eq_ok_iff.mp h
    rw [hsome, ← hentries, namedParams?_unplaced, Option.map_some,
      Option.map_eq_some_iff] at hparams
    obtain ⟨params', hparams', heq⟩ := hparams
    exact ⟨params', by rw [if_pos hentry]; exact nameParams_eq_ok_iff.mpr hparams', heq⟩
  · next hentry =>
    cases h
    exact ⟨_, if_neg hentry, by rw [hasTypes, hasTypes, hentries]⟩

namespace Parser

/-! ### Names and literals -/

private theorem agrees_nextName : Agrees (Option.map Ident.unplaced) nextName nextName := by
  refine agrees_tok fun kind text l l' => agrees_ite ?_ (agrees_pure rfl)
  refine agrees_advance_bind (agrees_bind agrees_ident fun id id' hid => ?_)
  exact agrees_pure (congrArg some hid)

private theorem agrees_fieldTag : Agrees id fieldTag fieldTag := by
  refine agrees_tok fun kind text l l' => agrees_ite ?_ (agrees_pure rfl)
  cases unquote text with
  | none => exact agrees_fail _ _
  | some tag => exact agrees_advance_bind (agrees_pure rfl)

private theorem agrees_interfaceBody : Agrees id interfaceBody interfaceBody := by
  refine agrees_tok fun kind text l l' => agrees_ite ?_ (agrees_failExpected _ _)
  refine agrees_bind agrees_balanced fun inner inner' hinner => agrees_pure ?_
  have hall (ts : List Token) : (ts.all fun t => t.kind == .semicolon) =
      (ts.map Token.spelling).all fun x => x.1 == .semicolon := by
    rw [List.all_map]
    rfl
  rw [hall, hall, hinner]

/-! ### Type expressions -/

section Types

variable {elem elem' inner inner' : Parser TypeExpr} (h : Agrees TypeExpr.unplaced elem elem')

section Elem

include h

private theorem agrees_nextTypeArg :
    Agrees (Option.map TypeExpr.unplaced) (nextTypeArg elem) (nextTypeArg elem') := by
  refine agrees_tok fun kind text l l' => agrees_ite ?_ (agrees_pure rfl)
  refine agrees_advance_bind (agrees_tok fun kind text l l' => agrees_ite (agrees_pure rfl) ?_)
  exact agrees_bind h fun arg arg' harg => agrees_pure (congrArg some harg)

private theorem agrees_typeArgs {base base' : TypeExpr} (hbase : base'.unplaced = base.unplaced) :
    Agrees TypeExpr.unplaced (typeArgs elem base) (typeArgs elem' base') := by
  refine agrees_bind (f := id) (agrees_look fun {more more' c d} hcd => ?_) ?_
  · -- at the end of the statement there is no bracket
    rw [Token.isOp_congr hcd.tok]
    by_cases hbracket : c.tok.isOp "[" = true
    · have hkind : c.tok.kind ≠ .semicolon := by
        simp only [Token.isOp, Bool.and_eq_true, beq_iff_eq] at hbracket
        simp [hbracket.1]
      rw [Token.isOp_congr (hcd.peek_one hkind)]
    · simp [hbracket]
  rintro generic _ rfl
  refine agrees_ite (agrees_advance_bind ?_) (agrees_pure hbase)
  refine agrees_bind h fun first first' hfirst => ?_
  refine agrees_bind (agrees_many (agrees_nextTypeArg h)) fun others others' hothers => ?_
  refine agrees_bind (agrees_op _) fun _ _ _ => agrees_pure ?_
  rw [TypeExpr.unplaced_generic, TypeExpr.unplaced_generic, hbase, List.map_cons, hfirst, hothers,
    List.map_cons]

private theorem agrees_typeName : Agrees TypeExpr.unplaced (typeName elem) (typeName elem') := by
  refine agrees_bind agrees_ident fun first first' hfirst => ?_
  refine agrees_tok fun kind text l l' => agrees_ite (agrees_advance_bind ?_) ?_
  · refine agrees_bind agrees_ident fun name name' hname => ?_
    refine agrees_bind (f := TypeExpr.unplaced) (agrees_pure ?_) fun _ _ => agrees_typeArgs h
    rw [TypeExpr.unplaced, TypeExpr.unplaced, hfirst, hname]
  · refine agrees_bind (f := TypeExpr.unplaced) (agrees_pure ?_) fun _ _ => agrees_typeArgs h
    rw [TypeExpr.unplaced, TypeExpr.unplaced, hfirst]

private theorem agrees_chanType (l l' : Location) :
    Agrees TypeExpr.unplaced (chanType elem l) (chanType elem' l') := by
  have hend (dir : ChanDir) : Agrees TypeExpr.unplaced
      (elem >>= fun type => pure (.chan l dir type))
      (elem' >>= fun type => pure (.chan l' dir type)) :=
    agrees_bind h fun e e' he => agrees_pure (by rw [TypeExpr.unplaced, he, TypeExpr.unplaced])
  exact agrees_tok fun kind text l l' => agrees_ite (agrees_advance_bind (hend .send)) (hend .both)

private theorem agrees_operatorType (kind : TokenKind) (text : String) (l l' : Location) :
    Agrees TypeExpr.unplaced (operatorType elem ⟨kind, text, l⟩)
      (operatorType elem' ⟨kind, text, l'⟩) := by
  have hend {k k' : TypeExpr → TypeExpr}
      (hk : ∀ e e', e'.unplaced = e.unplaced → (k' e').unplaced = (k e).unplaced) :
      Agrees TypeExpr.unplaced (elem >>= fun type => pure (k type))
        (elem' >>= fun type => pure (k' type)) :=
    agrees_bind h fun e e' he => agrees_pure (hk e e' he)
  unfold operatorType
  dsimp only
  -- each operator starts a form of type of its own; behind a bracket the next token decides between
  -- a slice and an array
  split
  · refine agrees_advance_bind (hend fun e e' he => ?_)
    rw [TypeExpr.unplaced, he, TypeExpr.unplaced]
  · refine agrees_advance_bind (agrees_tok fun kind text l l' => agrees_ite ?_ ?_)
    · refine agrees_advance_bind (hend fun e e' he => ?_)
      rw [TypeExpr.unplaced, he, TypeExpr.unplaced]
    · refine agrees_bind agrees_arrayLen fun len len' hlen => ?_
      obtain rfl : len' = len := hlen
      refine hend fun e e' he => ?_
      rw [TypeExpr.unplaced, he, TypeExpr.unplaced]
  · refine agrees_advance_bind (agrees_tok fun kind text l l' => agrees_ite ?_ ?_)
    · refine agrees_advance_bind (hend fun e e' he => ?_)
      rw [TypeExpr.unplaced, he, TypeExpr.unplaced]
    · exact agrees_failExpected _ _
  · refine agrees_advance_bind (agrees_bind h fun e e' he => ?_)
    exact agrees_bind (agrees_op _) fun _ _ _ => agrees_pure he
  · refine agrees_advance_bind (hend fun e e' he => ?_)
    rw [TypeExpr.unplaced, he, TypeExpr.unplaced]
  · exact agrees_failExpected _ _

/-- An entry is told apart from the look at the tokens after its first one, which finds the same. -/
private theorem agrees_paramEntry (hsteps : elem.Advances) :
    Agrees ParamEntry.unplaced (paramEntry elem) (paramEntry elem') := by
  have hunnamed : Agrees ParamEntry.unplaced (elem >>= fun type => pure (.unnamed type))
      (elem' >>= fun type => pure (.unnamed type)) :=
    agrees_bind h fun e e' he => agrees_pure (congrArg ParamEntry.unnamed he)
  have hlone : Agrees ParamEntry.unplaced (ident >>= fun id => pure (.lone id))
      (ident >>= fun id => pure (.lone id)) :=
    agrees_bind agrees_ident fun id id' hid => agrees_pure (congrArg ParamEntry.lone hid)
  have hnamed : Agrees ParamEntry.unplaced
      (ident >>= fun id => elem >>= fun type => pure (.named id type))
      (ident >>= fun id => elem' >>= fun type => pure (.named id type)) :=
    agrees_bind agrees_ident fun id id' hid => agrees_bind h fun e e' he =>
      agrees_pure (by rw [ParamEntry.unplaced, hid, he, ParamEntry.unplaced])
  refine ⟨fun c a c' => (advances_paramEntry hsteps).steps.reads.size_le, ?_⟩
  intro more more' c d hcd
  refine agreesAt_look (agreesAt_look (agreesAt_look ?_))
  rw [Token.kind_of_spelling hcd.tok]
  -- the look ahead is taken after a name only, and it stays in front of the next semicolon
  by_cases hkind : c.tok.kind = .ident
  · have hne : c.tok.kind ≠ .semicolon := by simp [hkind]
    have hgeneric : ((c.peek 1).isOp "[" && startsGeneric d) =
        ((c.peek 1).isOp "[" && startsGeneric c) := by
      by_cases hbracket : (c.peek 1).isOp "[" = true
      · rw [hcd.startsGeneric hne hbracket]
      · simp [hbracket]
    simp only [Token.isOp_congr (hcd.peek_one hne), hgeneric]
    exact (agrees_ite hunnamed (agrees_ite hlone (agrees_ite hunnamed hnamed))).agreesAt hcd
  · have hunnamed' := hunnamed.agreesAt hcd
    simpa [Token.spelling, hkind] using hunnamed'

private theorem agrees_nextParam (hsteps : elem.Advances) :
    Agrees (Option.map ParamEntry.unplaced) (nextParam elem) (nextParam elem') := by
  refine agrees_bind agrees_skipSemicolons fun _ _ _ => agrees_tok fun kind text l l' => ?_
  refine agrees_ite (agrees_advance_bind (agrees_pure rfl)) ?_
  refine agrees_bind (agrees_paramEntry h hsteps) fun entry entry' hentry => ?_
  have hend : Agrees (Option.map ParamEntry.unplaced) (pure (some entry)) (pure (some entry')) :=
    agrees_pure (congrArg some hentry)
  refine agrees_bind agrees_skipSemicolons fun _ _ _ => agrees_tok fun kind text l l' => ?_
  exact agrees_ite (agrees_advance_bind hend) (agrees_ite hend (agrees_failExpected _ _))

private theorem agrees_params (hsteps : elem.Advances) :
    Agrees (List.map ParamOf.unplaced) (params elem) (params elem') := by
  refine agrees_tok fun kind text l l' => agrees_bind (agrees_op _) fun _ _ _ => ?_
  refine agrees_bind (agrees_many (agrees_nextParam h hsteps)) fun entries entries' hentries => ?_
  refine ⟨fun c ps c' hp => ?_, fun {more more' c d} hcd ps c' hp _ => ?_⟩
  · split at hp
    · cases hp
    · cases hp
      exact le_rfl
  · split at hp
    · cases hp
    · next ps' hps =>
      cases hp
      obtain ⟨ps', hps', heq⟩ := exists_groupParams_eq_ok hps hentries l'
      exact ⟨ps', d, by rw [hps'], heq, hcd⟩

private theorem agrees_signature (hsteps : elem.Advances) (l l' : Location) :
    Agrees SignatureOf.unplaced (signature elem l) (signature elem' l') := by
  refine agrees_bind (agrees_params h hsteps) fun ps ps' hps => ?_
  have hend {results results' : List Param}
      (hresults : results'.map ParamOf.unplaced = results.map ParamOf.unplaced) :
      SignatureOf.unplaced ⟨ps', results', l'⟩ = SignatureOf.unplaced ⟨ps, results, l⟩ := by
    rw [SignatureOf.unplaced, hps, hresults, SignatureOf.unplaced]
  refine agrees_tok fun kind text _ _ => agrees_ite ?_ (agrees_ite ?_ (agrees_pure (hend rfl)))
  · exact agrees_bind (agrees_params h hsteps) fun _ _ hresults => agrees_pure (hend hresults)
  · refine agrees_bind h fun e e' he => agrees_pure (hend ?_)
    rw [List.map_singleton, List.map_singleton, ParamOf.unplaced, he, ParamOf.unplaced]

private theorem agrees_fieldNames (hsteps : elem.Advances) :
    Agrees (Prod.map (List.map Ident.unplaced) TypeExpr.unplaced) (fieldNames elem)
      (fieldNames elem') := by
  have hembedded : Agrees (Prod.map (List.map Ident.unplaced) TypeExpr.unplaced)
      (elem >>= fun type => pure ([], type)) (elem' >>= fun type => pure ([], type)) :=
    agrees_bind h fun e e' he => agrees_pure (congrArg (([], ·)) he)
  have hnamed : Agrees (Prod.map (List.map Ident.unplaced) TypeExpr.unplaced)
      (ident >>= fun first => many nextName >>= fun others => elem >>= fun type =>
        pure (first :: others, type))
      (ident >>= fun first => many nextName >>= fun others => elem' >>= fun type =>
        pure (first :: others, type)) := by
    refine agrees_bind agrees_ident fun first first' hfirst => ?_
    refine agrees_bind (agrees_many agrees_nextName) fun others others' hothers => ?_
    refine agrees_bind h fun e e' he => agrees_pure ?_
    rw [Prod.map, Prod.map, List.map_cons, List.map_cons, hfirst, hothers, he]
  refine ⟨fun c a c' => (advances_fieldNames hsteps).steps.reads.size_le, ?_⟩
  intro more more' c d hcd
  refine agreesAt_look (agreesAt_look ?_)
  -- the parser looks ahead after a name only
  have hlook : (c.tok.kind == .ident && startsEmbedded d) =
      (c.tok.kind == .ident && startsEmbedded c) := by
    by_cases hkind : c.tok.kind = .ident
    · have hne : c.tok.kind ≠ .semicolon := by simp [hkind]
      rw [hcd.startsEmbedded hne]
    · rw [beq_false_of_ne hkind, Bool.false_and, Bool.false_and]
  have hkind : d.tok.kind = c.tok.kind := Token.kind_of_spelling hcd.tok
  simp only [Token.isOp_congr hcd.tok, hkind, hlook]
  refine (agrees_ite hembedded (agrees_ite hnamed ?_)).agreesAt hcd
  exact agrees_failExpected _ _

/-- So is a field. -/
private theorem agrees_nextField (hsteps : elem.Advances) :
    Agrees (Option.map FieldOf.unplaced) (nextField elem) (nextField elem') := by
  refine agrees_bind agrees_skipSemicolons fun _ _ _ => agrees_tok fun kind text l l' => ?_
  refine agrees_ite (agrees_advance_bind (agrees_pure rfl)) ?_
  refine agrees_ite (agrees_failExpected _ _) ?_
  refine agrees_bind (agrees_fieldNames h hsteps) fun r r' hr => ?_
  refine agrees_bind agrees_fieldTag fun tag tag' htag => ?_
  refine agrees_bind agrees_endOfItem fun _ _ _ => agrees_pure (congrArg some ?_)
  obtain ⟨hnames, htype⟩ := Prod.mk.inj hr
  obtain rfl : tag' = tag := htag
  rw [FieldOf.unplaced, hnames, htype, FieldOf.unplaced]

private theorem agrees_structBody (hsteps : elem.Advances) :
    Agrees (List.map FieldOf.unplaced) (structBody elem) (structBody elem') :=
  agrees_bind (agrees_op _) fun _ _ _ => agrees_many (agrees_nextField h hsteps)

end Elem

variable (hinner : Agrees TypeExpr.unplaced inner inner') (hsteps : inner.Advances)
include h hinner hsteps

/-- A type that starts with a keyword is read alike if its parts are. -/
private theorem agrees_keywordType (kind : TokenKind) (text : String) (l l' : Location) :
    Agrees TypeExpr.unplaced (keywordType elem inner ⟨kind, text, l⟩)
      (keywordType elem' inner' ⟨kind, text, l'⟩) := by
  unfold keywordType
  dsimp only
  split
  · refine agrees_advance_bind (agrees_bind (agrees_op _) fun _ _ _ => ?_)
    refine agrees_bind h fun key key' hkey => agrees_bind (agrees_op _) fun _ _ _ => ?_
    refine agrees_bind h fun value value' hvalue => agrees_pure ?_
    rw [TypeExpr.unplaced, hkey, hvalue, TypeExpr.unplaced]
  · exact agrees_advance_bind (agrees_chanType h _ _)
  · refine agrees_advance_bind (agrees_bind (agrees_signature hinner hsteps _ _) ?_)
    intro type type' htype
    exact agrees_pure (by rw [TypeExpr.unplaced_func, htype, TypeExpr.unplaced_func])
  · refine agrees_advance_bind (agrees_bind (agrees_structBody hinner hsteps) ?_)
    intro fields fields' hfields
    exact agrees_pure (by rw [TypeExpr.unplaced_struct, hfields, TypeExpr.unplaced_struct])
  · refine agrees_advance_bind (agrees_bind agrees_interfaceBody fun empty empty' hempty => ?_)
    obtain rfl : empty' = empty := hempty
    exact agrees_pure (by rw [TypeExpr.unplaced, TypeExpr.unplaced])
  · exact agrees_failExpected _ _

/-- All types are read alike if their parts are. -/
private theorem agrees_typeExprWith :
    Agrees TypeExpr.unplaced (typeExprWith elem inner) (typeExprWith elem' inner') := by
  refine agrees_tok fun kind text l l' => ?_
  dsimp only
  split
  · exact agrees_typeName h
  · exact agrees_keywordType h hinner hsteps _ _ _ _
  · exact agrees_operatorType h _ _ _ _
  · exact agrees_failExpected _ _

end Types

/-- A type is read alike in every context, and by the parsers that read deeper types. -/
theorem agrees_typeExpr {n m : Nat} (hnm : n ≤ m) :
    Agrees TypeExpr.unplaced (typeExpr n) (typeExpr m) := by
  induction n using Nat.strong_induction_on generalizing m with
  | _ n ih =>
    cases n with
    | zero => exact agrees_fail _ _
    | succ n =>
      obtain ⟨m, rfl⟩ := Nat.exists_eq_add_of_le' (Nat.succ_pos n |>.trans_le hnm)
      rw [typeExpr_succ, typeExpr_succ]
      refine agrees_typeExprWith (ih n n.lt_succ_self (by omega)) ?_ (advances_typeExpr _)
      exact ih (n - 1) (by omega) (by omega)

/-! ### Accepted types -/

/-- Somewhere before the end of a statement the tokens are read as the type expression, by the
parser of types with at most `n` levels. -/
def Accepts (n : Nat) (ss : List Spelling) (e : TypeExpr) : Prop :=
  ∃ more c c', c.spellings = ss ++ lineEnd :: more ∧ typeExpr n c = .ok (e, c') ∧
    c'.spellings = lineEnd :: more

/-- **What is read as a type somewhere before the end of a statement is read as this type
everywhere** before the end of a statement, if its brackets match. -/
theorem Accepts.takes {n m : Nat} {ss : List Spelling} {e : TypeExpr} (h : Accepts n ss e)
    (hss : Balanced ss) (hnm : n ≤ m) (more : List Spelling) :
    Takes (ss ++ lineEnd :: more) (lineEnd :: more) (fun e' => e'.unplaced = e.unplaced)
      (typeExpr m) := by
  obtain ⟨more₀, c, c', hc, hok, hc'⟩ := h
  intro d hd
  have hcd : c.Alike more₀ more d := ⟨ss, hss.endsBalanced, hc, hd⟩
  have hsize : more₀.length < c'.size := by
    rw [c'.size_eq, hc']
    exact Nat.lt_succ_self _
  obtain ⟨e', d', hok', he, ss', -, hcs', hds'⟩ := (agrees_typeExpr hnm).agreesAt hcd e c' hok hsize
  refine ⟨e', d', hok', ?_, he⟩
  -- nothing is left before the end of the statement
  have hnil : ss' = [] := List.append_left_eq_self.mp (hcs'.symm.trans hc')
  rw [hds', hnil, List.nil_append]

end Parser

end GoPages
