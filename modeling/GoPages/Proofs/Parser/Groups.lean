import GoPages.Proofs.Parser.Documented
import GoPages.Proofs.TypeExpr.Written

/-!
# Groups of parameters

In a parameter list with names, several names can share the type that stands after the last of them.
Which of the entries of a list are such names shows only when all of them have been read.

* `nameParams_eq_ok_iff`: the parameters of a list with names are those of `namedParams?`, which
  does not hold any names back: every entry has to have a name, and its parameter has the type of
  the next entry that has one.
* `Parser.groupsParams`: so a list of entries, one of them with a name and a type, is read if and
  only if all of them have names and the last one has a type, and then every entry gives a parameter
  of its name. Without such an entry all of them are types.
* `SourceFile.alikeNamed_of_parse`: in all function types of a file, at any depth, the parameters
  either all have a name or all have none, and so do the results.
-/

namespace GoPages

namespace ParamEntry

/-- The name of an entry, if it can be one. -/
def ident? : ParamEntry → Option Ident
  | lone id => some id
  | named id _ => some id
  | unnamed _ => none

/-- The type of an entry that has both a name and a type. -/
def type? : ParamEntry → Option TypeExpr
  | named _ type => some type
  | _ => none

/-- An entry is named if it has a type of its own. -/
private theorem isNamed_iff {entry : ParamEntry} :
    entry.isNamed ↔ ∃ type, entry.type? = some type := by
  cases entry <;> simp [isNamed, type?]

end ParamEntry

/-- The type of the next entry that has both a name and a type. -/
def nextType? (entries : List ParamEntry) : Option TypeExpr := entries.findSome? ParamEntry.type?

/-- The parameters of entries with names, each with the next type. -/
def namedParams? : List ParamEntry → Option (List Param)
  | [] => some []
  | entry :: rest => do
    let id ← entry.ident?
    let type ← nextType? (entry :: rest)
    let params ← namedParams? rest
    return ⟨some id, type⟩ :: params

private theorem namedParams?_cons_named (id : Ident) (type : TypeExpr) (rest : List ParamEntry) :
    namedParams? (.named id type :: rest) = (namedParams? rest).map (⟨some id, type⟩ :: ·) := by
  rw [namedParams?]
  cases namedParams? rest <;> rfl

/-! ### Names that are held back -/

/-- Names without a type look for it behind them. -/
private theorem nextType?_map_lone (ids : List Ident) (entries : List ParamEntry) :
    nextType? (ids.map .lone ++ entries) = nextType? entries := by
  induction ids with
  | nil => rfl
  | cons id ids ih => exact ih

/-- Names alone have the type of what comes after them. -/
theorem namedParams?_map_lone {entries : List ParamEntry} {type : TypeExpr}
    (htype : nextType? entries = some type) (ids : List Ident) :
    namedParams? (ids.map .lone ++ entries) =
      (namedParams? entries).map (ids.map (fun id => ⟨some id, type⟩) ++ ·) := by
  induction ids with
  | nil => simp
  | cons id ids ih =>
    have hnext : nextType? (.lone id :: (ids.map .lone ++ entries)) = some type :=
      (nextType?_map_lone (id :: ids) entries).trans htype
    rw [List.map_cons, List.cons_append, namedParams?, hnext, ih]
    cases namedParams? entries <;> rfl

/-- Names alone have no type at the end of a list. -/
theorem namedParams?_eq_none {entries : List ParamEntry} (hne : entries ≠ [])
    (h : nextType? entries = none) : namedParams? entries = none := by
  cases entries with
  | nil => exact absurd rfl hne
  | cons entry rest =>
    rw [namedParams?, h]
    cases entry.ident? <;> rfl

/-- **Holding names back** is a way of looking for the next type. -/
theorem nameParams_eq_ok_iff {start : Location} {pending : List Ident} {entries : List ParamEntry}
    {params : List Param} : nameParams start pending entries = .ok params ↔
      namedParams? (pending.map .lone ++ entries) = some params := by
  fun_induction nameParams start pending entries generalizing params with
  | case1 => simp [namedParams?, eq_comm]
  | case2 id ids =>
    have hnone : nextType? ((id :: ids).map .lone ++ []) = none := nextType?_map_lone _ _
    rw [namedParams?_eq_none (by simp) hnone]
    simp
  | case3 pending id rest ih => simpa using ih
  | case4 pending id type rest e hrest ih =>
    -- the names before the entry have its type, and those after it cannot be read
    have hnone : namedParams? rest = none := by
      refine Option.eq_none_iff_forall_ne_some.mpr fun params hparams => ?_
      simpa [hrest] using ih.mpr hparams
    have hnext : nextType? (.named id type :: rest) = some type := rfl
    rw [namedParams?_map_lone hnext, namedParams?_cons_named, hnone]
    simp
  | case5 pending id type rest params' hrest ih =>
    have hsome : namedParams? rest = some params' := ih.mp hrest
    have hnext : nextType? (.named id type :: rest) = some type := rfl
    rw [namedParams?_map_lone hnext, namedParams?_cons_named, hsome]
    simp
  | case6 pending type rest =>
    have hnone : namedParams? (.unnamed type :: rest) = none := rfl
    cases hnext : nextType? (.unnamed type :: rest) with
    | none =>
      have hnext' := (nextType?_map_lone pending (.unnamed type :: rest)).trans hnext
      simp [namedParams?_eq_none (by simp) hnext']
    | some next => simp [namedParams?_map_lone hnext, hnone]

/-! ### Lists with names -/

/-- There is a type to come if an entry has one. -/
private theorem isSome_nextType?_iff {entries : List ParamEntry} :
    (nextType? entries).isSome ↔ ∃ entry ∈ entries, entry.isNamed := by
  rw [nextType?, List.findSome?_isSome_iff]
  simp only [ParamEntry.isNamed_iff, Option.isSome_iff_exists]

/-- A list with names is read if every entry has a name and the last one has a type. -/
theorem isSome_namedParams?_iff {entries : List ParamEntry} (hne : entries ≠ []) :
    (namedParams? entries).isSome ↔ (∀ entry ∈ entries, entry.ident?.isSome) ∧
      ∃ last, entries.getLast? = some last ∧ last.isNamed := by
  induction entries with
  | nil => exact absurd rfl hne
  | cons entry rest ih =>
    have hsome : (namedParams? (entry :: rest)).isSome ↔ entry.ident?.isSome ∧
        (nextType? (entry :: rest)).isSome ∧ (namedParams? rest).isSome := by
      rw [namedParams?]
      cases entry.ident? <;> cases nextType? (entry :: rest) <;> cases namedParams? rest <;> simp
    rw [hsome, isSome_nextType?_iff, List.forall_mem_cons, and_assoc]
    refine and_congr_right fun hid => ?_
    rcases rest.eq_nil_or_concat' with rfl | ⟨init, last, rfl⟩
    · simp [namedParams?]
    · rw [ih (by simp), ← List.cons_append, List.getLast?_concat, List.getLast?_concat]
      refine and_iff_right_of_imp fun h => ?_
      obtain ⟨last', hlast, hnamed⟩ := h.2
      exact ⟨last', by simp [Option.some.inj hlast], hnamed⟩

/-- Every entry of a list with names gives a parameter with the next type. -/
theorem getElem?_namedParams? {entries : List ParamEntry} {params : List Param}
    (h : namedParams? entries = some params) :
    params.length = entries.length ∧ ∀ i entry, entries[i]? = some entry →
      ∃ id type, entry.ident? = some id ∧ nextType? (entries.drop i) = some type ∧
        params[i]? = some ⟨some id, type⟩ := by
  induction entries generalizing params with
  | nil =>
    cases h
    exact ⟨rfl, nofun⟩
  | cons entry rest ih =>
    rw [namedParams?] at h
    simp only [Option.bind_eq_bind, Option.bind_eq_some_iff, Option.pure_def,
      Option.some.injEq] at h
    obtain ⟨id, hid, type, htype, params, hparams, rfl⟩ := h
    obtain ⟨hlength, hall⟩ := ih hparams
    refine ⟨by simp [hlength], fun i entry' hentry => ?_⟩
    cases i with
    | zero =>
      obtain rfl : entry = entry' := by simpa using hentry
      exact ⟨id, type, hid, htype, rfl⟩
    | succ i => simpa using hall i entry' (by simpa using hentry)

/-! ### Reading lists -/

/-- The entry stands at the cursor: a name alone, a name before a type, or a type. -/
def ParamEntry.StandsAt (elem : Parser TypeExpr) (c : Cursor) : ParamEntry → Prop
  | lone id => c.tok.IsName id ∧ ((c.peek 1).isOp "," ∨ (c.peek 1).isOp ")")
  | named id type => c.tok.IsName id ∧ ∃ c', elem c.advance = .ok (type, c')
  | unnamed type => ∃ c', elem c = .ok (type, c')

namespace Parser

variable {elem : Parser TypeExpr} {c c' : Cursor} {entries : List ParamEntry}

private theorem isName_of_ident {id : Ident} (h : ident c = .ok (id, c')) :
    c.tok.IsName id ∧ c' = c.advance := by
  obtain ⟨hkind, rfl, rfl⟩ := ident_eq_ok_iff.mp h
  exact ⟨⟨hkind, rfl⟩, rfl⟩

/-- What is read as an entry stands at the cursor in this form. -/
private theorem standsAt_of_paramEntry {entry : ParamEntry}
    (h : paramEntry elem c = .ok (entry, c')) : entry.StandsAt elem c := by
  obtain ⟨_, _, ⟨⟩, h⟩ := exists_of_bind h
  obtain ⟨_, _, ⟨⟩, h⟩ := exists_of_bind h
  obtain ⟨_, _, ⟨⟩, h⟩ := exists_of_bind h
  -- the four forms are tried in turn: no name at all, a name alone, a qualified or generic type, a
  -- name with a type
  split at h
  · obtain ⟨type, d, htype, h⟩ := exists_of_bind h
    cases h
    exact ⟨_, htype⟩
  split at h
  · next hnext =>
    obtain ⟨id, d, hid, h⟩ := exists_of_bind h
    cases h
    exact ⟨(isName_of_ident hid).1, Bool.or_eq_true_iff.mp hnext⟩
  split at h
  · obtain ⟨type, d, htype, h⟩ := exists_of_bind h
    cases h
    exact ⟨_, htype⟩
  · obtain ⟨id, d, hid, h⟩ := exists_of_bind h
    obtain ⟨type, e, htype, h⟩ := exists_of_bind h
    cases h
    obtain ⟨hname, rfl⟩ := isName_of_ident hid
    exact ⟨hname, _, htype⟩

/-- A list with these entries stands at the cursor, before `c'`. -/
def ReadsEntries (elem : Parser TypeExpr) (c : Cursor) (entries : List ParamEntry) (c' : Cursor) :
    Prop :=
  c.tok.isOp "(" = true ∧ many (nextParam elem) c.advance = .ok (entries, c')

private theorem params_eq_of_readsEntries (h : ReadsEntries elem c entries c') :
    params elem c = (groupParams c.tok.location entries).map fun ps => (ps, c') := by
  have hop : op "(" c = .ok ((), c.advance) := by
    rw [op, if_pos h.1]
    rfl
  rw [params, bind_of_ok (rfl : tok c = .ok (c.tok, c)), bind_of_ok hop, bind_of_ok h.2]
  cases groupParams c.tok.location entries <;> rfl

/-- A list that is read is read entry by entry. -/
private theorem exists_readsEntries {ps : List Param} (h : params elem c = .ok (ps, c')) :
    ∃ entries, ReadsEntries elem c entries c' := by
  obtain ⟨_, _, ⟨⟩, h⟩ := exists_of_bind h
  obtain ⟨_, d, hop, h⟩ := exists_of_bind h
  obtain ⟨entries, e, hentries, h⟩ := exists_of_bind h
  have hparen : c.tok.isOp "(" = true ∧ d = c.advance := by
    rw [op] at hop
    split at hop
    · next hparen =>
      cases hop
      exact ⟨hparen, rfl⟩
    · cases hop
  split at h
  · cases h
  · cases h
    exact ⟨entries, hparen.1, hparen.2 ▸ hentries⟩

private theorem exists_paramEntry {entry : ParamEntry}
    (h : nextParam elem c = .ok (some entry, c')) :
    ∃ d d', paramEntry elem d = .ok (entry, d') := by
  obtain ⟨_, d, -, h⟩ := exists_of_bind h
  obtain ⟨_, _, ⟨⟩, h⟩ := exists_of_bind h
  split at h
  · obtain ⟨_, _, -, h⟩ := exists_of_bind h
    cases h
  obtain ⟨entry', e, hentry, h⟩ := exists_of_bind h
  obtain ⟨_, _, -, h⟩ := exists_of_bind h
  obtain ⟨_, _, ⟨⟩, h⟩ := exists_of_bind h
  split at h
  · obtain ⟨_, _, -, h⟩ := exists_of_bind h
    cases h
    exact ⟨d, e, hentry⟩
  split at h
  · cases h
    exact ⟨d, e, hentry⟩
  · cases h

/-- The entries of a list stand in it. -/
theorem standsAt_of_readsEntries (h : ReadsEntries elem c entries c') :
    ∀ entry ∈ entries, ∃ d, entry.StandsAt elem d := by
  intro entry hentry
  obtain ⟨b, b', -, hround⟩ := exists_of_mem_many (I := fun _ => True)
    (fun _ _ _ _ _ => trivial) trivial h.2 entry hentry
  obtain ⟨d, d', hread⟩ := exists_paramEntry hround
  exact ⟨d, standsAt_of_paramEntry hread⟩

/-- What a list with these entries means. -/
structure GroupsParams (elem : Parser TypeExpr) (c : Cursor) (entries : List ParamEntry)
    (c' : Cursor) : Prop where
  standsAt : ∀ entry ∈ entries, ∃ d, entry.StandsAt elem d
  isRead_iff : (∃ entry ∈ entries, entry.isNamed) →
    ((∃ r, params elem c = .ok r) ↔ (∀ entry ∈ entries, entry.ident?.isSome) ∧
      ∃ last, entries.getLast? = some last ∧ last.isNamed)
  /-- Every entry gives a parameter with its name and with the next type. -/
  named : (∃ entry ∈ entries, entry.isNamed) → ∀ ps d, params elem c = .ok (ps, d) →
    d = c' ∧ ps.length = entries.length ∧ ∀ i entry, entries[i]? = some entry →
      ∃ id type, entry.ident? = some id ∧ nextType? (entries.drop i) = some type ∧
        ps[i]? = some ⟨some id, type⟩
  /-- Without names, every entry gives a type. -/
  unnamed : (¬ ∃ entry ∈ entries, entry.isNamed) →
    params elem c = .ok (entries.map ParamEntry.asType, c')

/-- **Lists of parameters.** -/
theorem groupsParams (h : ReadsEntries elem c entries c') : GroupsParams elem c entries c' := by
  have hparams := params_eq_of_readsEntries h
  -- with a name among the entries, grouping them can fail, and it fails as `namedParams?` does
  have hnamed (hany : ∃ entry ∈ entries, entry.isNamed) (ps : List Param) (d : Cursor) :
      params elem c = .ok (ps, d) ↔ namedParams? entries = some ps ∧ d = c' := by
    have hread : nameParams c.tok.location [] entries = .ok ps ↔ namedParams? entries = some ps :=
      nameParams_eq_ok_iff
    rw [hparams, groupParams, if_pos (by simpa using hany), ← hread]
    cases nameParams c.tok.location [] entries <;> simp [Except.map, eq_comm]
  refine ⟨standsAt_of_readsEntries h, fun hany => ?_, fun hany ps d hok => ?_, fun hnone => ?_⟩
  · have hne : entries ≠ [] := by
      rintro rfl
      simp at hany
    rw [← isSome_namedParams?_iff hne, Option.isSome_iff_exists]
    constructor
    · rintro ⟨⟨ps, d⟩, hok⟩
      exact ⟨ps, ((hnamed hany ps d).mp hok).1⟩
    · rintro ⟨ps, hps⟩
      exact ⟨(ps, c'), (hnamed hany ps c').mpr ⟨hps, rfl⟩⟩
  · obtain ⟨hps, rfl⟩ := (hnamed hany ps d).mp hok
    exact ⟨rfl, getElem?_namedParams? hps⟩
  · rw [hparams, groupParams, if_neg (by simpa using hnone)]
    rfl

end Parser

/-! ### Function types of files -/

/-- The function type that a type expression is. -/
def TypeExpr.funcType? : TypeExpr → Option FuncType
  | func type => some type
  | _ => none

/-- The function types of a file: those of its functions, and those in its type expressions at any
depth. -/
def SourceFile.funcTypes (file : SourceFile) : List FuncType :=
  file.funcs.map FuncDecl.type ++ file.typeExprs.filterMap TypeExpr.funcType?

/-- In a function type of a file, the parameters all have a name or none has, and so do the
results. -/
theorem SourceFile.alikeNamed_of_parse {name source : String} {file : SourceFile}
    (h : SourceFile.parse name source = .ok file) {type : FuncType}
    (htype : type ∈ file.funcTypes) :
    AlikeNamed type.params ∧ AlikeNamed type.results := by
  rcases List.mem_append.mp htype with htype | htype
  · -- the signature of a function has been read from tokens of the file
    obtain ⟨func, hfunc, rfl⟩ := List.mem_map.mp htype
    obtain ⟨lexed, finish, htokens, hparsed⟩ := exists_tokenize_of_parse h
    obtain ⟨d, d', hd, -, hread⟩ := Parser.exists_of_mem_funcs (.start lexed) hparsed hfunc
    obtain ⟨c, c', hwords, hsignature⟩ :=
      (Parser.yields_funcDecl_eq d (hd.hasWords htokens) rfl func d' hread).1.2
    have hwritten := (Parser.yields_signature (Parser.givesTypes_typeExpr _) func.name.location
      (h := fun _ => True) c hwords trivial func.type c' hsignature).1
    exact ⟨hwritten.1.1, hwritten.2.1⟩
  · obtain ⟨e, he, hfunc⟩ := List.mem_filterMap.mp htype
    cases e with
    | func type' =>
      obtain rfl := Option.some.inj hfunc
      cases SourceFile.isWritten_of_mem_typeExprs h _ he with
      | func hparams hresults => exact ⟨hparams, hresults⟩
    | _ => cases hfunc

/-- **Groups of parameters.** The parameters of a function type of a file all have a name or none
has, and so do the results. What stands in the tokens of a list says what its parameters are, and
every list that is read has such entries. -/
theorem SourceFile.groups_parameters :
    (∀ name source file, SourceFile.parse name source = .ok file → ∀ type ∈ file.funcTypes,
      AlikeNamed type.params ∧ AlikeNamed type.results) ∧
    ∀ n c,
      (∀ ps c', Parser.params (Parser.typeExpr n) c = .ok (ps, c') →
        ∃ entries, Parser.ReadsEntries (Parser.typeExpr n) c entries c') ∧
      ∀ entries c', Parser.ReadsEntries (Parser.typeExpr n) c entries c' →
        Parser.GroupsParams (Parser.typeExpr n) c entries c' :=
  ⟨fun _ _ _ h _ htype => alikeNamed_of_parse h htype,
    fun _ _ => ⟨fun _ _ => Parser.exists_readsEntries, fun _ _ => Parser.groupsParams⟩⟩

/-- A file with parameters that have names and with parameters that have none. -/
def sharedTypesSource : String :=
  "package p\nfunc F(int, *T) (n int, err error) \x7b\x7d\n" ++
    "type T struct \x7b\n\tG func(a, b int, c map[string]int)\n\x7d\n"

/-- The tokens of a list in which two names share a type, and a third one has its own. -/
def sharedTypesList : Cursor :=
  let l (column : Nat) : Location := ⟨"p.go", 4, column⟩
  ⟨4, [⟨.op, "(", l 8⟩, ⟨.ident, "a", l 9⟩, ⟨.op, ",", l 10⟩, ⟨.ident, "b", l 12⟩,
    ⟨.ident, "int", l 14⟩, ⟨.op, ",", l 17⟩, ⟨.ident, "c", l 19⟩, ⟨.ident, "string", l 21⟩,
    ⟨.op, ")", l 27⟩], l 28⟩

set_option maxRecDepth 100000 in
/-- The function types of the file have all their names or none, and the three entries of the list
give parameters with their names. -/
theorem SourceFile.groups_parameters_sharedTypes :
    (∃ file, SourceFile.parse "p.go" sharedTypesSource = .ok file ∧
      (file.funcTypes.map fun type => type.params.map ParamOf.nameText) =
        [["", ""], ["a", "b", "c"]] ∧
      ∀ type ∈ file.funcTypes, AlikeNamed type.params ∧ AlikeNamed type.results) ∧
    ∃ entries c', Parser.ReadsEntries (Parser.typeExpr 2) sharedTypesList entries c' ∧
      entries.map ParamEntry.isNamed = [false, true, true] ∧
      Parser.GroupsParams (Parser.typeExpr 2) sharedTypesList entries c' := by
  constructor
  · have hall : (SourceFile.parse "p.go" sharedTypesSource).toOption.any (fun file =>
        (file.funcTypes.map fun type => type.params.map ParamOf.nameText) ==
          [["", ""], ["a", "b", "c"]]) = true := by
      decide +kernel
    cases h : SourceFile.parse "p.go" sharedTypesSource with
    | error e =>
      rw [h] at hall
      cases hall
    | ok file =>
      rw [h, Except.toOption, Option.any_some, beq_iff_eq] at hall
      exact ⟨file, rfl, hall, groups_parameters.1 _ _ _ h⟩
  · have hall : (Parser.many (Parser.nextParam (Parser.typeExpr 2))
        sharedTypesList.advance).toOption.any (fun r =>
          r.1.map ParamEntry.isNamed == [false, true, true]) = true := by
      decide +kernel
    cases h : Parser.many (Parser.nextParam (Parser.typeExpr 2)) sharedTypesList.advance with
    | error e =>
      rw [h] at hall
      cases hall
    | ok r =>
      obtain ⟨entries, c'⟩ := r
      rw [h, Except.toOption, Option.any_some, beq_iff_eq] at hall
      have hreads : Parser.ReadsEntries (Parser.typeExpr 2) sharedTypesList entries c' :=
        ⟨by decide, h⟩
      exact ⟨entries, c', hreads, hall, (groups_parameters.2 2 _).2 entries c' hreads⟩

end GoPages
