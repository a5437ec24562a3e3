import GoPages.Proofs.Analysis.Owners
import GoPages.Proofs.HostType.Written
import GoPages.Proofs.Package.Loading
import GoPages.Proofs.Parser.Documented
import GoPages.Proofs.Route.Comments
import GoPages.Proofs.Token.Positions
import GoPages.Proofs.TypeExpr.Written

/-!
# Route comments in sources

A comment on one line that gives a route is read from a source as it stands there
(`Route.isReadOnLine_lineComment`, `Route.isReadOnLine_blockComment`). If it stands alone above a
page type or above the method of an action, then this is the route of the page or the action
(`Setting.isRouted_of_page`, `Setting.isRouted_of_action`).

`Analysis.readsRouteComments` is the main result.
-/

namespace GoPages

/-! ### Comments that are read from a line -/

/-- Wherever a source goes on with the text and a new line, the text is read as a comment. -/
def IsReadOnLine (text : String) : Prop :=
  ∃ x : Lexeme,
    (∀ l rest, lexemes l (text.toList ++ '\n' :: rest) =
      (lexemes (x.after l) ('\n' :: rest)).map fun read => (⟨l, x⟩ :: read.1, read.2)) ∧
    ∀ l, (Placed.mk l x).comment = ⟨text, l, l.line⟩

/-- A source is read lexeme by lexeme. -/
theorem lexemes_of_scan {c : Char} {cs rest : List Char} {x : Lexeme}
    (h : Lexeme.scan c cs = .ok (x, rest)) (l : Location) :
    lexemes l (c :: cs) =
      (lexemes (x.after l) rest).map fun read => (⟨l, x⟩ :: read.1, read.2) := by
  rw [lexemes]
  split
  · next hscan =>
    rw [h] at hscan
    cases hscan
  · next hscan =>
    rw [h] at hscan
    cases hscan
    cases lexemes (x.after l) rest <;> rfl

/-- Two characters that are not the one between two texts stand next to each other in one of
them. -/
theorem not_infix_append_cons {a b c : Char} (ha : a ≠ c) (hb : b ≠ c) {xs ys : List Char}
    (hxs : ¬ [a, b] <:+: xs) (hys : ¬ [a, b] <:+: ys) : ¬ [a, b] <:+: xs ++ c :: ys := by
  induction xs with
  | nil =>
    rw [List.nil_append, List.infix_cons_iff, not_or, List.cons_prefix_cons]
    exact ⟨fun h => ha h.1, hys⟩
  | cons x xs ih =>
    rw [List.infix_cons_iff, not_or] at hxs
    rw [List.cons_append, List.infix_cons_iff, not_or]
    refine ⟨fun h => ?_, ih hxs.2⟩
    cases xs with
    | nil => exact hb (List.cons_prefix_cons.mp (List.cons_prefix_cons.mp h).2).1
    | cons y xs =>
      obtain ⟨rfl, htail⟩ := List.cons_prefix_cons.mp h
      obtain ⟨rfl, -⟩ := List.cons_prefix_cons.mp htail
      exact hxs.1 (by simp)

namespace Route

variable {name route : String}

/-- A line comment that gives a route is read as one lexeme with this text. -/
theorem isReadOnLine_lineComment (hname : name.toList.any Text.isBlank = false)
    (hroute : wellFormed route.toList) : IsReadOnLine (lineComment name route) := by
  have hline : '\n' ∉ ' ' :: (name.toList ++ (" is ".toList ++ route.toList)) := by
    simpa using newline_notMem_declaration hname hroute
  have htext : (lineComment name route).toList =
      '/' :: '/' :: ' ' :: (name.toList ++ (" is ".toList ++ route.toList)) := by
    simp [lineComment]
  -- the comment ends with the route, and so with no carriage return
  have hreturn : Text.stripEnd? ['\r'] (lineComment name route).toList = none := by
    rw [Option.eq_none_iff_forall_ne_some]
    intro body hbody
    have hlast := congrArg List.getLast? (Text.stripEnd?_eq_some_iff.mp hbody)
    rw [lineComment, String.toList_append, List.getLast?_concat,
      List.getLast?_append_of_ne_nil _ (ne_nil_of_wellFormed hroute)] at hlast
    exact absurd ((isTrimmed_of_wellFormed hroute).last _ hlast) (by decide)
  refine ⟨⟨.lineComment, (lineComment name route).toList⟩, fun l rest => ?_, fun l => ?_⟩
  · rw [htext, List.cons_append, List.cons_append]
    exact lexemes_of_scan (Lexeme.scan_lineComment hline rest) l
  · rw [Placed.comment, hreturn, Option.getD_none, String.ofList_toList]

/-- So is a block comment that gives a route, if nothing in it ends the comment early. -/
theorem isReadOnLine_blockComment (hname : name.toList.any Text.isBlank = false)
    (hroute : wellFormed route.toList) (hnone : ¬ "*/".toList <:+: name.toList)
    (hnone' : ¬ "*/".toList <:+: route.toList) : IsReadOnLine (blockComment name route) := by
  let body := ' ' :: (name.toList ++ ' ' :: 'i' :: 's' :: ' ' :: route.toList)
  have hmarks : ¬ ['*', '/'] <:+: body := by
    have hspace (xs ys : List Char) :=
      @not_infix_append_cons '*' '/' ' ' (by decide) (by decide) xs ys
    exact hspace [] _ (by decide) (hspace _ _ hnone (hspace ['i', 's'] _ (by decide) hnone'))
  have hline : '\n' ∉ (blockComment name route).toList := by
    have := newline_notMem_declaration hname hroute
    simpa [blockComment] using this
  have htext : (blockComment name route).toList = '/' :: '*' :: (body ++ [' ', '*', '/']) := by
    simp [blockComment, body]
  refine ⟨⟨.blockComment, (blockComment name route).toList⟩, fun l rest => ?_, fun l => ?_⟩
  · rw [htext, List.cons_append, List.cons_append, List.append_assoc]
    exact lexemes_of_scan (Lexeme.scan_blockComment hmarks ('\n' :: rest)) l
  · have hafter : (l.advance (blockComment name route).toList).line = l.line := by
      rw [l.line_advance, List.count_eq_zero.mpr hline, Nat.add_zero]
    rw [Placed.comment, String.ofList_toList]
    exact congrArg (Comment.mk _ l) hafter

end Route

/-! ### Names -/

/-- The code points of a table. -/
def Text.points (rs : Ranges) : List Nat := rs.flatMap fun r => List.range' r.1 (r.2 + 1 - r.1)

/-- The code points of a table are listed. -/
private theorem Text.mem_points_of_inRanges {rs : Ranges} {n : Nat} (h : inRanges rs n) :
    n ∈ points rs := by
  induction rs with
  | nil => cases h
  | cons r rs ih =>
    rw [points, List.flatMap_cons, List.mem_append, List.mem_range'_1]
    rw [inRanges] at h
    split at h
    · cases h
    · rcases (Bool.or_eq_true _ _).mp h with hle | hrest
      · exact .inl (by have := of_decide_eq_true hle; omega)
      · exact .inr (ih hrest)

/-- No white space is part of a name. -/
theorem Lexeme.continuesIdent_eq_false_of_isBlank {c : Char} (h : Text.isBlank c) :
    continuesIdent c = false := by
  have hall : ∀ n ∈ Text.points Text.blankRanges, continuesIdent (Char.ofNat n) = false := by
    decide +kernel
  have hpoint := hall c.toNat (Text.mem_points_of_inRanges h)
  rwa [Char.ofNat_toNat] at hpoint

/-- A name has no blanks in it, so that a comment can be cut after it. -/
private theorem Ident.IsWord.any_isBlank {id : Ident} (h : id.IsWord) :
    id.name.toList.any Text.isBlank = false := by
  rw [List.any_eq_false]
  intro c hc hblank
  have hword := (isWord_iff.mp h.isWord).2.1 c hc
  rw [Lexeme.continuesIdent_eq_false_of_isBlank hblank] at hword
  cases hword

/-- A name is not empty. -/
theorem Ident.IsWord.ne_empty {id : Ident} (h : id.IsWord) : id.name ≠ "" := by
  simpa using (isWord_iff.mp h.isWord).1

/-! ### Declarations -/

namespace Parser

variable {h : Cursor → Prop} {comments : List Comment}

/-- A function has a name that is a word. -/
theorem yields_name_funcDecl : Yields h (fun decl => decl.name.IsWord) (funcDecl comments) := by
  refine yields_look fun doc => ?_
  refine yields_then steps_advance fun _ => yields_then steps_receiver fun recv => ?_
  refine yields_bind yields_ident fun name hname => yields_then steps_tok fun t => ?_
  refine yields_join (yields_bind steps_typeParams.yields)
    (yields_bind (steps_pure _).yields) fun generics _ => ?_
  refine yields_then (steps_signature (advances_typeExpr _) _) fun type => ?_
  refine yields_then steps_tok fun u => yields_optional advances_balanced.steps ?_
  exact yields_then steps_endOfItem fun _ => yields_pure hname

end Parser

/-- The comment that stands alone above what starts at the token says that the route of the name is
this one. -/
def Lexed.GivesRoute (lexed : Lexed) (i : Nat) (t : Token) (name route : String) : Prop :=
  Route.wellFormed route.toList ∧ ∃ c, lexed.IsAloneAbove i t c ∧ Route.IsGivenBy name route c.text

/-- A file with a comment that gives the route of a page. -/
def itemSource : String :=
  "package app\n\n/* PageItem is /item */\ntype PageItem struct\x7b\x7d\n"

/-- The comment above the page gives its route. -/
private theorem exists_givesRoute_itemSource :
    ∃ lexed t, tokenize "app.go" itemSource = .ok lexed ∧ lexed.allTokens[3]? = some t ∧
      t.isKeyword "type" = true ∧ lexed.GivesRoute 3 t "PageItem" "/item" := by
  let c : Comment := ⟨"/* PageItem is /item */", ⟨"app.go", 3, 1⟩, 3⟩
  let t : Token := ⟨.keyword, "type", ⟨"app.go", 4, 1⟩⟩
  have hall : (tokenize "app.go" itemSource).toOption.any (fun lexed =>
      lexed.comments == [c] && (lexed.allTokens[3]? == some t && lexed.lineBefore 3 == 1)) =
        true := by
    decide +kernel
  obtain ⟨lexed, h, htest⟩ := exists_tokenize_of_any hall
  simp only [Bool.and_eq_true, beq_iff_eq] at htest
  obtain ⟨hcomments, htok, hbefore⟩ := htest
  have hbefore : lexed.lineBefore 3 < c.location.line := by
    rw [hbefore]
    decide
  exact ⟨lexed, t, h, htok, rfl, rfl, c,
    ⟨rfl, hbefore, [], [], hcomments, by simp, by simp⟩, .inr rfl⟩

/-- The type of the page is declared in one of the sources, and a comment that stands alone above it
gives its route. -/
def Page.IsRouted (sources : List Source) (p : Page) : Prop :=
  ∃ source ∈ sources, ∃ lexed, tokenize source.name source.text = .ok lexed ∧
    ∃ i t spec, lexed.allTokens[i]? = some t ∧ lexed.StartsType i t spec ∧
      spec.name.name = p.typeName ∧ spec.name.location = p.location ∧
      ∀ route, lexed.GivesRoute i t p.typeName route → p.route = route

/-- The method of the handler is declared in one of the sources, and a comment that stands alone
above it gives the route of the handler. -/
def Handler.IsRouted (sources : List Source) (h : Handler) : Prop :=
  ∃ source ∈ sources, ∃ lexed, tokenize source.name source.text = .ok lexed ∧
    ∃ i t func, lexed.allTokens[i]? = some t ∧ lexed.StartsFunc i t func ∧
      func.name = ⟨h.methodName, h.location⟩ ∧
      ∀ route, lexed.GivesRoute i t h.methodName route → h.route = route

/-- An inherited handler has its route from the same comment. -/
theorem Handler.IsRouted.inheritedBy {sources : List Source} {h : Handler}
    (hrouted : h.IsRouted sources) (owner : String) : (h.inheritedBy owner).IsRouted sources :=
  hrouted

/-- A comment that stands alone gives the route of a declaration. -/
theorem Lexed.GivesRoute.ofComment {lexed : Lexed} {i : Nat} {t : Token} {id : Ident}
    {doc : Option CommentGroup} {route : String} (h : lexed.GivesRoute i t id.name route)
    (hword : id.IsWord)
    (hdoc : ∀ c, lexed.IsAloneAbove i t c → doc = some ⟨[c.text], c.location⟩) :
    (Route.ofComment id.name doc).route = route := by
  obtain ⟨hroute, c, hc, hgiven⟩ := h
  rw [hdoc c hc, Route.ofComment_of_isGivenBy hword.ne_empty hword.any_isBlank hroute hgiven]
  rfl

namespace Package

variable {sources : List Source} {p : Package} (hload : load sources = .ok p)
include hload

/-- Every file of a package is read from the tokens of a source. -/
theorem exists_tokenize_of_mem_files {file : SourceFile} (hfile : file ∈ p.files) :
    ∃ source ∈ sources, ∃ lexed c, tokenize source.name source.text = .ok lexed ∧
      Parser.sourceFile source.name lexed.comments (.start lexed) = .ok (file, c) := by
  obtain ⟨i, hi, rfl⟩ := List.getElem_of_mem hfile
  obtain ⟨hlen, hget⟩ := List.forall₂_iff_get.mp (parseAll_eq_ok_iff.mp (parseAll_of_load hload))
  have hmem := List.getElem_mem (hlen ▸ hi : i < (inNameOrder sources).length)
  exact ⟨_, (sortBy_perm _ sources).mem_iff.mp hmem,
    SourceFile.exists_tokenize_of_parse (hget i (hlen ▸ hi) hi)⟩

/-- A comment that stands alone above a type gives the route that is read for it. -/
theorem exists_startsType {d : TypeDecl} (hd : d ∈ p.typeDecls) :
    ∃ source ∈ sources, ∃ lexed, tokenize source.name source.text = .ok lexed ∧
      ∃ i t, lexed.allTokens[i]? = some t ∧ lexed.StartsType i t d.spec ∧
        ∀ route, lexed.GivesRoute i t d.name route →
          (Route.ofComment d.name d.spec.doc).route = route := by
  obtain ⟨file, hfile, hd⟩ := List.mem_flatMap.mp hd
  obtain ⟨spec, hspec, rfl⟩ := List.mem_map.mp hd
  obtain ⟨source, hsource, lexed, c, htokens, hparsed⟩ := exists_tokenize_of_mem_files hload hfile
  obtain ⟨i, t, htok, hstarts, hdoc⟩ := (documentsType htokens hparsed hspec).exists_starts htokens
  have hword : spec.name.IsWord := by
    have hyields := @Parser.yields_typeSpec (fun _ => True) spec.doc
    obtain ⟨k, keyword, next, specs, -, -, -, -, -, hcases⟩ := hstarts
    rcases hcases with ⟨-, -, d, d', hd, -, hread⟩ | ⟨-, -, -, d, d', hd, -, hread⟩ <;>
      exact (hyields d (hd.hasWords htokens) trivial _ d' hread).1.name
  exact ⟨source, hsource, lexed, htokens, i, t, htok, hstarts,
    fun route hroute => hroute.ofComment hword hdoc⟩

/-- A comment that stands alone above a method gives the route that is read for it. -/
theorem exists_startsFunc {m : MethodDecl} (hm : m ∈ p.methodDecls) :
    ∃ source ∈ sources, ∃ lexed, tokenize source.name source.text = .ok lexed ∧
      ∃ i t, lexed.allTokens[i]? = some t ∧ lexed.StartsFunc i t m.decl ∧
        ∀ route, lexed.GivesRoute i t m.decl.name.name route →
          (Route.ofComment m.decl.name.name m.decl.doc).route = route := by
  obtain ⟨file, hfile, hm⟩ := List.mem_flatMap.mp hm
  obtain ⟨func, hfunc, rfl⟩ := List.mem_map.mp hm
  obtain ⟨source, hsource, lexed, c, htokens, hparsed⟩ := exists_tokenize_of_mem_files hload hfile
  obtain ⟨i, t, htok, hstarts, hdoc⟩ := (documentsFunc htokens hparsed hfunc).exists_starts htokens
  obtain ⟨d, d', hd, -, hread⟩ := hstarts.read
  have hyields := @Parser.yields_name_funcDecl (fun _ => True) lexed.comments
  have hword := (hyields d (hd.hasWords htokens) trivial _ d' hread).1
  exact ⟨source, hsource, lexed, htokens, i, t, htok, hstarts,
    fun route hroute => hroute.ofComment hword hdoc⟩

end Package

namespace Setting

variable {s : Setting} {plugins : List Plugin}

/-- A page of the application is a declared page with handlers. -/
theorem exists_withHandlers {p : Page} (hp : p ∈ (s.inheritedPages plugins).map Prod.fst) :
    ∃ q ∈ s.pages, ∃ hs, p = q.withHandlers hs := by
  obtain ⟨q, hq, rfl⟩ := exists_inherit hp
  exact ⟨q, hq, ⟨_, _, _⟩, Page.inherit_eq_withOffers ..⟩

variable {sources : List Source} (hload : Package.load sources = .ok s.package)
include hload

/-- The route of a page is the one that the comment above its type gives. -/
theorem isRouted_of_page {p : Page} (hp : p ∈ (s.inheritedPages plugins).map Prod.fst) :
    p.IsRouted sources := by
  obtain ⟨q, hq, hs, rfl⟩ := exists_withHandlers hp
  obtain ⟨d, fields, hd, -, rfl⟩ := exists_typeRole_of_mem_pages hq
  obtain ⟨source, hsource, lexed, htokens, i, t, htok, hstarts, hroute⟩ :=
    Package.exists_startsType hload (List.mem_of_find?_eq_some hd)
  exact ⟨source, hsource, lexed, htokens, i, t, d.spec, htok, hstarts, rfl, rfl, hroute⟩

/-- An action that is read from a method has the route that a comment gives to the method. -/
theorem isRouted_of_isReadFrom {o : Owner} {m : Method} (hm : m ∈ s.methodsOf o.typeName)
    {h : Handler} (hread : h.IsReadFrom s o m) (hne : h.method ≠ .get) : h.IsRouted sources := by
  obtain ⟨decl, hdecl, rfl⟩ := List.mem_map.mp hm
  obtain ⟨method, name, ins, outs, -, rfl⟩ := hread
  obtain ⟨source, hsource, lexed, htokens, i, t, htok, hstarts, hroute⟩ :=
    Package.exists_startsFunc hload (List.mem_of_mem_filter hdecl)
  refine ⟨source, hsource, lexed, htokens, i, t, decl.decl, htok, hstarts, rfl,
    fun route hgives => ?_⟩
  exact (if_neg hne).trans (hroute route hgives)

private theorem isRouted_of_abstractAction {a : AbstractPage}
    (ha : a ∈ s.attachedAbstractPages plugins)
    {h : Handler} (hh : h ∈ a.actions) : h.IsRouted sources := by
  obtain ⟨q, hq, rfl⟩ := exists_abstractPage ha
  obtain ⟨hne, m, hm, hread⟩ := ((Owner.abstractPage q).areReadFrom_handlers s plugins).actions h hh
  exact isRouted_of_isReadFrom hload hm hread hne

/-- The route of an action is the one that the comment above its method gives, also if it is
inherited. -/
theorem isRouted_of_action {p : Page} (hp : p ∈ (s.inheritedPages plugins).map Prod.fst)
    {h : Handler} (hh : h ∈ p.actions) : h.IsRouted sources := by
  obtain ⟨q, hq, m, rfl, hext⟩ := exists_extends hp
  rcases hext.actions h hh with hown | ⟨a, ha, b, hb, rfl⟩
  · obtain ⟨hne, m, hm, hread⟩ := ((Owner.page q).areReadFrom_handlers s plugins).actions h hown
    exact isRouted_of_isReadFrom hload hm hread hne
  · exact (isRouted_of_abstractAction hload ha hb).inheritedBy _

end Setting

/-- The pages and actions of an application have the routes that comments in the sources give. -/
structure App.IsRouted (sources : List Source) (app : App) : Prop where
  pages : ∀ p ∈ app.pages, p.IsRouted sources
  actions : ∀ p ∈ app.pages, ∀ h ∈ p.actions, h.IsRouted sources
  abstractActions : ∀ a ∈ app.abstractPages, ∀ h ∈ a.actions, h.IsRouted sources

namespace Analysis

/-- All routes of an application are read from comments in its sources. -/
private theorem isRouted_of_app {c : Conventions} {plugins : List Plugin} {sources : List Source}
    {app : App} (happ : (ofSources c plugins sources).app = some app) : app.IsRouted sources := by
  obtain ⟨p, hload, -, happ⟩ := exists_package happ
  have hpages := Setting.pages_of_app? happ
  have habstract := Setting.abstractPages_of_app? happ
  constructor
  · exact fun q hq => Setting.isRouted_of_page (s := ⟨p, c⟩) hload (hpages ▸ hq)
  · exact fun q hq h hh => Setting.isRouted_of_action (s := ⟨p, c⟩) hload (hpages ▸ hq) hh
  · exact fun a ha h hh =>
      Setting.isRouted_of_abstractAction (s := ⟨p, c⟩) hload (habstract ▸ ha) hh

/-- **Route comments.** What any comment says about the route of any name is the answer. In
particular a comment on one line gives its route with either kind of markers. It is read from a
source as it stands there, if a block comment has no other mark of its end. Where it stands alone
above a page or an action of an application, that has the route. -/
theorem readsRouteComments :
    (∀ name doc, Route.Answers name doc (Route.ofComment name doc)) ∧
    (∀ name route, name ≠ "" → name.toList.any Text.isBlank = false →
      Route.wellFormed route.toList →
        (∀ comment l, Route.IsGivenBy name route comment →
          Route.ofComment name (some ⟨[comment], l⟩) = .wellFormed route) ∧
        IsReadOnLine (Route.lineComment name route) ∧
        (¬ "*/".toList <:+: name.toList → ¬ "*/".toList <:+: route.toList →
          IsReadOnLine (Route.blockComment name route))) ∧
    ∀ c plugins sources app, (ofSources c plugins sources).app = some app →
      app.IsRouted sources := by
  refine ⟨Route.answers_ofComment, fun name route hne hname hroute => ⟨fun comment l h => ?_, ?_⟩,
    fun _ _ _ _ => isRouted_of_app⟩
  · exact Route.ofComment_of_isGivenBy hne hname hroute h l
  · exact ⟨Route.isReadOnLine_lineComment hname hroute,
      Route.isReadOnLine_blockComment hname hroute⟩

/-- Both comments about a page give its route, and so the page of the application has it. -/
theorem readsRouteComments_sharedSave :
    Route.ofComment "PageItem" (some ⟨["// PageItem is /item"], .unknown⟩) = .wellFormed "/item" ∧
      Route.ofComment "PageItem" (some ⟨["/* PageItem is /item */"], .unknown⟩) =
        .wellFormed "/item" ∧
      IsReadOnLine "// PageItem is /item" ∧ IsReadOnLine "/* PageItem is /item */" ∧
      ∃ app, (ofSources .standard [] (sourcesOf sharedSave)).app = some app ∧
        app.IsRouted (sourcesOf sharedSave) ∧
      ∃ lexed t, tokenize "app.go" itemSource = .ok lexed ∧ lexed.allTokens[3]? = some t ∧
        t.isKeyword "type" = true ∧ lexed.GivesRoute 3 t "PageItem" "/item" := by
  obtain ⟨-, hcomments, hrouted⟩ := readsRouteComments
  obtain ⟨hgiven, hline, hblock⟩ :=
    hcomments "PageItem" "/item" (by decide) (by decide) (by decide)
  obtain ⟨app, hsome, -⟩ := exists_app_sharedSave
  exact ⟨hgiven _ _ (.inl rfl), hgiven _ _ (.inr rfl), hline, hblock (by decide) (by decide), app,
    hsome, hrouted _ _ _ app hsome, exists_givesRoute_itemSource⟩

end Analysis

end GoPages
