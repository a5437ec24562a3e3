import GoPages.Proofs.Parser.Declarations
import GoPages.Proofs.Parser.Yields
import GoPages.Proofs.TypeExpr.Parts

/-!
# Type expressions as they are written

The parser does not give every value of `TypeExpr`. `TypeExpr.IsWritten` says what it gives: names
that are words, type arguments after a name and at least one of them, parameters that all have a
name or all have none, and embedded fields of the types that can be embedded.

Every type expression of a file is so, at any depth (`SourceFile.isWritten_of_mem_typeExprs`).
-/

namespace GoPages

/-- The parameters all have no name, or they all have one. -/
def AlikeNamed (ps : List Param) : Prop :=
  (∀ p ∈ ps, p.name = none) ∨ ∀ p ∈ ps, ∃ id, p.name = some id ∧ id.IsWord

namespace TypeExpr

/-- Is the type a name, with or without its package? -/
def isTypeName : TypeExpr → Bool
  | ident _ | qualified _ _ => true
  | _ => false

/-- Can an embedded field have the type? -/
def canEmbed : TypeExpr → Bool
  | ident _ | qualified _ _ | generic _ _ | pointer _ _ => true
  | _ => false

/-- A type expression as the parser gives it. -/
inductive IsWritten : TypeExpr → Prop
  | ident {id : Ident} (h : id.IsWord) : IsWritten (ident id)
  | qualified {package id : Ident} (hpackage : package.IsWord) (h : id.IsWord) :
    IsWritten (qualified package id)
  | generic {base : TypeExpr} {args : List TypeExpr} (hname : base.isTypeName = true)
    (hbase : IsWritten base) (hne : args ≠ []) (hargs : ∀ arg ∈ args, IsWritten arg) :
    IsWritten (generic base args)
  | pointer (l : Location) {elem : TypeExpr} (h : IsWritten elem) : IsWritten (pointer l elem)
  | slice (l : Location) {elem : TypeExpr} (h : IsWritten elem) : IsWritten (slice l elem)
  | array (l : Location) (len : String) {elem : TypeExpr} (h : IsWritten elem) :
    IsWritten (array l len elem)
  | map (l : Location) {key value : TypeExpr} (hkey : IsWritten key) (hvalue : IsWritten value) :
    IsWritten (map l key value)
  | chan (l : Location) (dir : ChanDir) {elem : TypeExpr} (h : IsWritten elem) :
    IsWritten (chan l dir elem)
  | func {type : FuncType} (hparams : AlikeNamed type.params) (hresults : AlikeNamed type.results)
    (hparam : ∀ p ∈ type.params, IsWritten p.type)
    (hresult : ∀ p ∈ type.results, IsWritten p.type) : IsWritten (func type)
  | struct (l : Location) {fields : List FieldDecl}
    (hnames : ∀ f ∈ fields, ∀ id ∈ f.names, id.IsWord)
    (hembedded : ∀ f ∈ fields, f.names = [] → f.type.canEmbed = true)
    (hfield : ∀ f ∈ fields, IsWritten f.type) : IsWritten (struct l fields)
  | interface (l : Location) (empty : Bool) : IsWritten (interface l empty)
  | ellipsis (l : Location) {elem : TypeExpr} (h : IsWritten elem) : IsWritten (ellipsis l elem)

/-- The parts of a type expression are written as it is. -/
theorem IsWritten.of_mem_parts {e : TypeExpr} (h : e.IsWritten) : ∀ p ∈ e.parts, p.IsWritten := by
  induction h with
  | ident h =>
    rw [parts]
    exact List.forall_mem_singleton.mpr (.ident h)
  | qualified hpackage h =>
    rw [parts]
    exact List.forall_mem_singleton.mpr (.qualified hpackage h)
  | generic hname hbase hne hargs ihbase ihargs =>
    rw [parts_generic]
    refine List.forall_mem_cons.mpr ⟨.generic hname hbase hne hargs, ?_⟩
    exact List.forall_mem_append.mpr ⟨ihbase, List.forall_mem_flatMap.mpr ihargs⟩
  | pointer l h ih =>
    rw [parts]
    exact List.forall_mem_cons.mpr ⟨.pointer l h, ih⟩
  | slice l h ih =>
    rw [parts]
    exact List.forall_mem_cons.mpr ⟨.slice l h, ih⟩
  | array l len h ih =>
    rw [parts]
    exact List.forall_mem_cons.mpr ⟨.array l len h, ih⟩
  | map l hkey hvalue ihkey ihvalue =>
    rw [parts]
    exact List.forall_mem_cons.mpr ⟨.map l hkey hvalue, List.forall_mem_append.mpr ⟨ihkey, ihvalue⟩⟩
  | chan l dir h ih =>
    rw [parts]
    exact List.forall_mem_cons.mpr ⟨.chan l dir h, ih⟩
  | func hparams hresults hparam hresult ihparam ihresult =>
    rw [parts_func]
    refine List.forall_mem_cons.mpr ⟨.func hparams hresults hparam hresult, ?_⟩
    exact List.forall_mem_append.mpr
      ⟨List.forall_mem_flatMap.mpr ihparam, List.forall_mem_flatMap.mpr ihresult⟩
  | struct l hnames hembedded hfield ih =>
    rw [parts_struct]
    exact List.forall_mem_cons.mpr
      ⟨.struct l hnames hembedded hfield, List.forall_mem_flatMap.mpr ih⟩
  | interface l empty =>
    rw [parts]
    exact List.forall_mem_singleton.mpr (.interface l empty)
  | ellipsis l h ih =>
    rw [parts]
    exact List.forall_mem_cons.mpr ⟨.ellipsis l h, ih⟩

/-- A type name can be embedded. -/
theorem canEmbed_of_isTypeName {e : TypeExpr} (h : e.isTypeName = true) : e.canEmbed = true := by
  cases e <;> first | rfl | cases h

end TypeExpr

/-! ### Parameters and fields -/

/-- An entry of a parameter list as the parser gives it. -/
def ParamEntry.IsWritten : ParamEntry → Prop
  | .lone id => id.IsWord
  | .named id type => id.IsWord ∧ type.IsWritten
  | .unnamed type => type.IsWritten

/-- Parameters as the parser gives them. -/
def AreWritten (ps : List Param) : Prop := AlikeNamed ps ∧ ∀ p ∈ ps, p.type.IsWritten

/-- Field declarations as the parser gives them. -/
structure FieldOf.IsWritten (f : FieldDecl) : Prop where
  names : ∀ id ∈ f.names, id.IsWord
  canEmbed : f.names = [] → f.type.canEmbed = true
  type : f.type.IsWritten

/-- The declaration of a type as the parser gives it. -/
structure TypeSpec.IsWritten (spec : TypeSpec) : Prop where
  name : spec.name.IsWord
  type : spec.type.IsWritten

private theorem ParamEntry.isWritten_asType {entry : ParamEntry} (h : entry.IsWritten) :
    entry.asType.name = none ∧ entry.asType.type.IsWritten := by
  cases entry with
  | lone id => exact ⟨rfl, .ident h⟩
  | named id type => exact ⟨rfl, h.2⟩
  | unnamed type => exact ⟨rfl, h⟩

/-- Entries that are written are grouped into parameters that are. -/
private theorem areWritten_groupParams {start : Location} {entries : List ParamEntry}
    {ps : List Param}
    (hentries : ∀ entry ∈ entries, entry.IsWritten) (h : groupParams start entries = .ok ps) :
    AreWritten ps := by
  rw [groupParams] at h
  split at h
  · refine ⟨.inr fun p hp => ?_, fun p hp => ?_⟩
    · obtain ⟨name, id, type, rfl, -, hname⟩ := exists_of_mem_nameParams h hp
      rcases hname with hpending | hlone | ⟨type', hnamed⟩
      · cases hpending
      · exact ⟨name, rfl, hentries _ hlone⟩
      · exact ⟨name, rfl, (hentries _ hnamed).1⟩
    · obtain ⟨name, id, type, rfl, htype, -⟩ := exists_of_mem_nameParams h hp
      exact (hentries _ htype).2
  · cases h
    refine ⟨.inl (List.forall_mem_map.mpr ?_), List.forall_mem_map.mpr ?_⟩
    · exact fun entry hentry => (ParamEntry.isWritten_asType (hentries entry hentry)).1
    · exact fun entry hentry => (ParamEntry.isWritten_asType (hentries entry hentry)).2

namespace Parser

/-- Does a type that can be embedded start at the cursor? -/
def startsName (c : Cursor) : Prop := c.tok.isOp "*" = true ∨ c.tok.kind = .ident

/-- The parser gives type expressions as they are written. -/
structure GivesTypes (p : Parser TypeExpr) : Prop where
  advances : p.Advances
  isWritten : Yields (fun _ => True) TypeExpr.IsWritten p
  canEmbed : Yields startsName (fun e => e.canEmbed = true) p

section Types

variable {elem inner : Parser TypeExpr} {h : Cursor → Prop}

/-! ### Type names -/

private theorem yields_nextTypeArg (helem : elem.GivesTypes) :
    Yields h (fun r => ∀ e, r = some e → e.IsWritten) (nextTypeArg elem) := by
  refine yields_tok fun t => yields_ite (fun _ => ?_) fun _ => yields_pure nofun
  refine yields_then steps_advance fun _ => yields_tok fun u => ?_
  refine yields_ite (fun _ => yields_pure nofun) fun _ => ?_
  refine yields_bind helem.isWritten.anywhere fun e he => yields_pure ?_
  rintro _ ⟨⟩
  exact he

private theorem yields_typeName (helem : elem.GivesTypes) :
    Yields h (fun e => e.IsWritten ∧ e.canEmbed = true) (typeName elem) := by
  refine yields_bind yields_ident fun first hfirst => yields_tok fun t => ?_
  refine yields_join (P := fun base => base.IsWritten ∧ base.isTypeName = true) (fun hk => ?_)
    (fun hk => yields_bind (yields_pure ⟨.ident hfirst, rfl⟩) hk) fun base hbase => ?_
  · refine yields_then steps_advance fun _ => yields_bind yields_ident fun name hname => ?_
    exact yields_bind (yields_pure ⟨.qualified hfirst hname, rfl⟩) hk
  refine yields_then (steps_look _) fun generic => yields_ite (fun _ => ?_) fun _ => ?_
  · refine yields_then steps_advance fun _ => yields_bind helem.isWritten fun e he => ?_
    refine yields_bind (yields_many (yields_nextTypeArg helem)) fun es hes => ?_
    refine yields_then (steps_op _) fun _ => yields_pure ⟨?_, rfl⟩
    exact .generic hbase.2 hbase.1 (List.cons_ne_nil _ _) (List.forall_mem_cons.mpr ⟨he, hes⟩)
  · exact yields_pure ⟨hbase.1, TypeExpr.canEmbed_of_isTypeName hbase.2⟩

/-! ### Functions -/

private theorem yields_paramEntry (helem : elem.GivesTypes) :
    Yields h ParamEntry.IsWritten (paramEntry elem) := by
  refine yields_tok fun t => yields_then (steps_look _) fun next => ?_
  refine yields_then (steps_look _) fun generic => yields_ite (fun _ => ?_) fun _ => ?_
  · exact yields_bind helem.isWritten fun type htype => yields_pure htype
  refine yields_ite (fun _ => ?_) fun _ => yields_ite (fun _ => ?_) fun _ => ?_
  · exact yields_bind yields_ident fun id hid => yields_pure hid
  · exact yields_bind helem.isWritten fun type htype => yields_pure htype
  · refine yields_bind yields_ident fun id hid => ?_
    exact yields_bind helem.isWritten fun type htype => yields_pure ⟨hid, htype⟩

private theorem yields_nextParam (helem : elem.GivesTypes) :
    Yields h (fun r => ∀ entry, r = some entry → entry.IsWritten) (nextParam elem) := by
  refine yields_then steps_skipSemicolons fun _ => yields_tok fun t => ?_
  refine yields_ite (fun _ => ?_) fun _ => ?_
  · exact yields_then steps_advance fun _ => yields_pure nofun
  refine yields_bind (yields_paramEntry helem) fun entry hentry => ?_
  have hsome : ∀ e, some entry = some e → e.IsWritten := by
    rintro _ ⟨⟩
    exact hentry
  refine yields_then steps_skipSemicolons fun _ => yields_tok fun u => ?_
  refine yields_ite (fun _ => ?_) fun _ => yields_ite (fun _ => yields_pure hsome) fun _ => ?_
  · exact yields_then steps_advance fun _ => yields_pure hsome
  · exact yields_failExpected _

private theorem yields_params (helem : elem.GivesTypes) : Yields h AreWritten (params elem) := by
  refine yields_then steps_tok fun start => yields_then (steps_op _) fun _ => ?_
  refine yields_bind (yields_many (yields_nextParam helem)) fun entries hentries => ?_
  intro c hc _ ps c' hok
  dsimp only at hok
  split at hok
  · cases hok
  · next hgroup =>
    cases hok
    exact ⟨areWritten_groupParams hentries hgroup, hc⟩

/-- The signature that is parsed has parameters and results as they are written. -/
theorem yields_signature (helem : elem.GivesTypes) (l : Location) :
    Yields h (fun s => AreWritten s.params ∧ AreWritten s.results) (signature elem l) := by
  refine yields_bind (yields_params helem) fun ps hps => yields_tok fun t => ?_
  have hnone : AreWritten [] := ⟨.inl (List.forall_mem_nil _), List.forall_mem_nil _⟩
  refine yields_ite (fun _ => ?_) fun _ => yields_ite (fun _ => ?_) fun _ => ?_
  · exact yields_bind (yields_params helem) fun rs hrs => yields_pure ⟨hps, hrs⟩
  · refine yields_bind helem.isWritten.anywhere fun type htype => yields_pure ⟨hps, ?_⟩
    exact ⟨.inl (List.forall_mem_singleton.mpr rfl), List.forall_mem_singleton.mpr htype⟩
  · exact yields_pure ⟨hps, hnone⟩

/-! ### Structs -/

private theorem yields_nextName : Yields h (fun r => ∀ id, r = some id → id.IsWord) nextName := by
  refine yields_tok fun t => yields_ite (fun _ => ?_) fun _ => yields_pure nofun
  refine yields_then steps_advance fun _ => yields_bind yields_ident fun id hid => yields_pure ?_
  rintro _ ⟨⟩
  exact hid

private theorem yields_fieldNames (helem : elem.GivesTypes) :
    Yields h (fun r => ∀ tag, FieldOf.IsWritten ⟨r.1, r.2, tag⟩) (fieldNames elem) := by
  refine yields_tok fun t => yields_look fun embedded => yields_ite (fun ht => ?_) fun _ => ?_
  · -- the type of an embedded field is read at its first token
    have hstarts (c : Cursor) (hc : (h c ∧ c.tok = t) ∧ startsEmbedded c = embedded) :
        startsName c := by
      rw [Bool.or_eq_true, Bool.and_eq_true, beq_iff_eq, ← hc.1.2] at ht
      exact ht.imp_right And.left
    have hboth : Yields (fun c => (h c ∧ c.tok = t) ∧ startsEmbedded c = embedded)
        (fun e => e.IsWritten ∧ e.canEmbed = true) elem := by
      intro c hc hcc e c' hok
      obtain ⟨hwritten, hc'⟩ := helem.isWritten c hc trivial e c' hok
      exact ⟨⟨hwritten, (helem.canEmbed c hc (hstarts c hcc) e c' hok).1⟩, hc'⟩
    refine yields_bind hboth fun type htype => yields_pure fun tag => ?_
    exact ⟨List.forall_mem_nil _, fun _ => htype.2, htype.1⟩
  refine yields_ite (fun _ => ?_) fun _ => yields_failExpected _
  refine yields_bind yields_ident fun first hfirst => ?_
  refine yields_bind (yields_many yields_nextName) fun others hothers => ?_
  refine yields_bind helem.isWritten fun type htype => yields_pure fun tag => ?_
  exact ⟨List.forall_mem_cons.mpr ⟨hfirst, hothers⟩, nofun, htype⟩

private theorem yields_nextField (helem : elem.GivesTypes) :
    Yields h (fun r => ∀ f, r = some f → f.IsWritten) (nextField elem) := by
  refine yields_then steps_skipSemicolons fun _ => yields_tok fun t => ?_
  refine yields_ite (fun _ => ?_) fun _ => yields_ite (fun _ => yields_failExpected _) fun _ => ?_
  · exact yields_then steps_advance fun _ => yields_pure nofun
  refine yields_bind (yields_fieldNames helem) fun r hr => ?_
  refine yields_then steps_fieldTag fun tag => yields_then steps_endOfItem fun _ => yields_pure ?_
  rintro _ ⟨⟩
  exact hr tag

private theorem yields_structBody (helem : elem.GivesTypes) :
    Yields h (fun fs => ∀ f ∈ fs, f.IsWritten) (structBody elem) :=
  yields_then (steps_op _) fun _ => yields_many (yields_nextField helem)

/-! ### All types -/

private theorem yields_chanType (helem : elem.GivesTypes) (l : Location) :
    Yields h TypeExpr.IsWritten (chanType elem l) := by
  refine yields_tok fun t => yields_ite (fun _ => ?_) fun _ => ?_
  · refine yields_then steps_advance fun _ => ?_
    exact yields_bind helem.isWritten fun type htype => yields_pure (.chan l .send htype)
  · exact yields_bind helem.isWritten.anywhere fun type htype => yields_pure (.chan l .both htype)

private theorem yields_operatorType (helem : elem.GivesTypes) (t : Token) :
    Yields h TypeExpr.IsWritten (operatorType elem t) := by
  unfold operatorType
  split
  · refine yields_then steps_advance fun _ => ?_
    exact yields_bind helem.isWritten fun type htype => yields_pure (.pointer _ htype)
  · refine yields_then steps_advance fun _ => yields_tok fun next => ?_
    refine yields_ite (fun _ => ?_) fun _ => ?_
    · refine yields_then steps_advance fun _ => ?_
      exact yields_bind helem.isWritten fun type htype => yields_pure (.slice _ htype)
    · refine yields_then steps_arrayLen fun len => ?_
      exact yields_bind helem.isWritten fun type htype => yields_pure (.array _ _ htype)
  · refine yields_then steps_advance fun _ => yields_tok fun next => ?_
    refine yields_ite (fun _ => ?_) fun _ => yields_failExpected _
    refine yields_then steps_advance fun _ => ?_
    exact yields_bind helem.isWritten fun type htype => yields_pure (.chan _ .recv htype)
  · refine yields_then steps_advance fun _ => yields_bind helem.isWritten fun type htype => ?_
    exact yields_then (steps_op _) fun _ => yields_pure htype
  · refine yields_then steps_advance fun _ => ?_
    exact yields_bind helem.isWritten fun type htype => yields_pure (.ellipsis _ htype)
  · exact yields_failExpected _

private theorem yields_keywordType (helem : elem.GivesTypes) (hinner : inner.GivesTypes)
    (t : Token) : Yields h TypeExpr.IsWritten (keywordType elem inner t) := by
  unfold keywordType
  split
  · refine yields_then steps_advance fun _ => yields_then (steps_op _) fun _ => ?_
    refine yields_bind helem.isWritten fun key hkey => yields_then (steps_op _) fun _ => ?_
    exact yields_bind helem.isWritten fun value hvalue => yields_pure (.map _ hkey hvalue)
  · exact yields_then steps_advance fun _ => yields_chanType helem _
  · refine yields_then steps_advance fun _ => yields_bind (yields_signature hinner _) ?_
    exact fun s hs => yields_pure (.func hs.1.1 hs.2.1 hs.1.2 hs.2.2)
  · refine yields_then steps_advance fun _ => yields_bind (yields_structBody hinner) ?_
    refine fun fs hfs => yields_pure ?_
    exact .struct _ (fun f hf => (hfs f hf).names) (fun f hf => (hfs f hf).canEmbed)
      fun f hf => (hfs f hf).type
  · refine yields_then steps_advance fun _ => yields_then steps_interfaceBody fun empty => ?_
    exact yields_pure (.interface _ _)
  · exact yields_failExpected _

/-- What starts with a star is a pointer type. -/
theorem yields_operatorType_pointer (helem : elem.GivesTypes) {t : Token} (ht : t.text = "*") :
    Yields h (fun e => e.canEmbed = true) (operatorType elem t) := by
  rw [operatorType, ht]
  refine yields_then steps_advance fun _ => ?_
  exact yields_bind helem.isWritten fun type htype => yields_pure rfl

/-- The parser of type expressions gives types as they are written if the parsers it calls do. -/
private theorem givesTypes_typeExprWith (helem : elem.GivesTypes) (hinner : inner.GivesTypes) :
    (typeExprWith elem inner).GivesTypes := by
  refine ⟨advances_typeExprWith helem.advances.steps hinner.advances, ?_, ?_⟩
  · refine yields_tok fun t => ?_
    split
    · exact (yields_typeName helem).mono (fun _ hc => hc) fun _ he => he.1
    · exact yields_keywordType helem hinner t
    · exact yields_operatorType helem t
    · exact yields_failExpected _
  · refine yields_tok fun t => ?_
    split
    · exact (yields_typeName helem).mono (fun _ hc => hc) fun _ he => he.2
    · next hkind =>
      rintro c hc ⟨hstar | hident, rfl⟩
      · simp [Token.isOp, hkind] at hstar
      · simp [hkind] at hident
    · next hkind =>
      rintro c hc ⟨hstar | hident, rfl⟩
      · have htext : c.tok.text = "*" := by simpa [Token.isOp, hkind] using hstar
        have hpointer : Yields startsName (fun e => e.canEmbed = true) (operatorType elem c.tok) :=
          yields_operatorType_pointer helem htext
        exact hpointer c hc (.inl hstar)
      · simp [hkind] at hident
    · exact yields_failExpected _

end Types

/-- Type expressions are as they are written, however deeply their parts nest. -/
theorem givesTypes_typeExpr (n : Nat) : (typeExpr n).GivesTypes := by
  have hfail : (fail .nestedTooDeeply : Parser TypeExpr).GivesTypes :=
    ⟨progress_fail nofun, yields_fail _, yields_fail _⟩
  fun_induction typeExpr n with
  | case1 => exact hfail
  | case2 => exact givesTypes_typeExprWith hfail hfail
  | case3 n ih₁ ih₂ => exact givesTypes_typeExprWith ih₁ ih₂

/-! ### Declarations -/

variable {h : Cursor → Prop}

/-- The type specification that is parsed is as it is written. -/
theorem yields_typeSpec (doc : Option CommentGroup) :
    Yields h TypeSpec.IsWritten (typeSpec doc) := by
  refine yields_bind yields_ident fun name hname => yields_then (steps_look _) fun generic => ?_
  refine yields_join (yields_bind steps_typeParams.yields)
    (yields_bind (steps_pure _).yields) fun params _ => ?_
  refine yields_then steps_tok fun t => yields_optional steps_advance ?_
  exact yields_bind (givesTypes_typeExpr _).isWritten fun type htype => yields_pure ⟨hname, htype⟩

private theorem yields_nextType (comments : List Comment) (groupDoc : Option CommentGroup) :
    Yields h (fun r => ∀ spec, r = some spec → spec.IsWritten)
      (nextType comments groupDoc) := by
  refine yields_then steps_skipSemicolons fun _ => yields_tok fun t => ?_
  refine yields_ite (fun _ => ?_) fun _ => yields_ite (fun _ => yields_failExpected _) fun _ => ?_
  · exact yields_then steps_advance fun _ => yields_pure nofun
  refine yields_then (steps_doc comments) fun _ => ?_
  refine yields_bind (yields_typeSpec _) fun spec hspec => ?_
  refine yields_then steps_endOfItem fun _ => yields_pure ?_
  rintro _ ⟨⟩
  exact hspec

private theorem yields_typeDecl (comments : List Comment) :
    Yields h (fun specs => ∀ spec ∈ specs, spec.IsWritten) (typeDecl comments) := by
  refine yields_then (steps_doc comments) fun declDoc => yields_then steps_advance fun _ => ?_
  refine yields_tok fun t => ?_
  refine yields_join
    (fun hk =>
      yields_then steps_advance fun _ => yields_bind (yields_many (yields_nextType _ _)) hk)
    (fun hk => yields_bind (yields_typeSpec _) fun spec hspec =>
      yields_bind (yields_pure fun _ hmem => List.mem_singleton.mp hmem ▸ hspec) hk)
    fun specs hspecs => ?_
  exact yields_then steps_endOfItem fun _ => yields_pure hspecs

private theorem yields_receiver :
    Yields h (fun r => ∀ recv, r = some recv → recv.type.IsWritten) receiver := by
  refine yields_tok fun t => yields_ite (fun _ => ?_) fun _ => yields_pure nofun
  refine yields_bind (yields_params (givesTypes_typeExpr _)) fun ps hps => ?_
  split
  · refine yields_pure ?_
    rintro _ ⟨⟩
    exact hps.2 _ List.mem_cons_self
  · exact yields_failAt _ _

private theorem yields_funcDecl (comments : List Comment) :
    Yields h (fun decl => ∀ type ∈ decl.types, type.IsWritten) (funcDecl comments) := by
  refine yields_then (steps_doc comments) fun declDoc => yields_then steps_advance fun _ => ?_
  refine yields_bind yields_receiver fun recv hrecv => ?_
  refine yields_then advances_ident.steps fun name => yields_then steps_tok fun t => ?_
  refine yields_join (yields_bind steps_typeParams.yields)
    (yields_bind (steps_pure _).yields) fun generics _ => ?_
  refine yields_bind (yields_signature (givesTypes_typeExpr _) _) fun type htype => ?_
  refine yields_then steps_tok fun u => yields_optional advances_balanced.steps ?_
  refine yields_then steps_endOfItem fun _ => yields_pure ?_
  refine List.forall_mem_append.mpr ⟨List.forall_mem_append.mpr ⟨?_, ?_⟩, ?_⟩
  · intro e he
    obtain ⟨r, hr, rfl⟩ := Option.map_eq_some_iff.mp (Option.mem_toList.mp he)
    exact hrecv r hr
  · exact List.forall_mem_map.mpr htype.1.2
  · exact List.forall_mem_map.mpr htype.2.2

/-- A declaration as the parser gives it. -/
structure Decl.IsWritten (decl : Decl) : Prop where
  specs : ∀ spec ∈ decl.typeSpecs, spec.IsWritten
  types : ∀ func, decl.funcDecl? = some func → ∀ type ∈ func.types, type.IsWritten

private theorem yields_nextDecl (comments : List Comment) :
    Yields h (fun r => ∀ decl, r = some decl → Decl.IsWritten decl) (nextDecl comments) := by
  refine yields_then steps_skipSemicolons fun _ => yields_tok fun t => ?_
  refine yields_ite (fun _ => yields_pure nofun) fun _ => yields_ite (fun _ => ?_) fun _ => ?_
  · refine yields_bind (yields_typeDecl comments) fun specs hspecs => yields_pure ?_
    rintro _ ⟨⟩
    exact ⟨hspecs, nofun⟩
  refine yields_ite (fun _ => ?_) fun _ => yields_ite (fun _ => ?_) fun _ => ?_
  · refine yields_bind (yields_funcDecl comments) fun func hfunc => yields_pure ?_
    rintro _ ⟨⟩
    refine ⟨List.forall_mem_nil _, ?_⟩
    rintro _ ⟨⟩
    exact hfunc
  · refine yields_then progress_valueDecl.steps fun _ => yields_pure ?_
    rintro _ ⟨⟩
    exact ⟨List.forall_mem_nil _, nofun⟩
  · exact yields_ite (fun _ => yields_fail _) fun _ => yields_fail _

/-- Every type expression of the file that is parsed is as it is written. -/
private theorem yields_sourceFile (name : String) (comments : List Comment) :
    Yields (fun _ => True)
      (fun file => (∀ spec ∈ file.types, spec.IsWritten) ∧ ∀ e ∈ file.typeExprs, e.IsWritten)
      (sourceFile name comments) := by
  refine yields_then steps_packageClause fun package => yields_then steps_skipSemicolons fun _ => ?_
  refine yields_then (steps_many isRound_nextImportDecl) fun imports => ?_
  refine yields_bind (yields_many (yields_nextDecl comments)) fun decls hdecls => yields_pure ?_
  have hspecs : ∀ spec ∈ decls.flatMap Decl.typeSpecs, spec.IsWritten :=
    List.forall_mem_flatMap.mpr fun decl hdecl => (hdecls decl hdecl).specs
  refine ⟨hspecs, List.forall_mem_flatMap.mpr fun type htype => .of_mem_parts ?_⟩
  rcases List.mem_append.mp htype with htype | htype
  · obtain ⟨spec, hspec, rfl⟩ := List.mem_map.mp htype
    exact (hspecs spec hspec).type
  · obtain ⟨func, hfunc, htype⟩ := List.mem_flatMap.mp htype
    obtain ⟨decl, hdecl, hsome⟩ := List.mem_filterMap.mp hfunc
    exact (hdecls decl hdecl).types func hsome type htype

end Parser

/-- The declarations of a file are as the parser gives them. -/
theorem SourceFile.isWritten_of_parse {name source : String} {file : SourceFile}
    (h : SourceFile.parse name source = .ok file) :
    (∀ spec ∈ file.types, spec.IsWritten) ∧ ∀ e ∈ file.typeExprs, e.IsWritten := by
  obtain ⟨lexed, c, htokens, hparsed⟩ := exists_tokenize_of_parse h
  exact (Parser.yields_sourceFile name lexed.comments _ (Cursor.hasWords_start htokens) trivial
    file c hparsed).1

/-- Every type expression of a file is as the parser gives it. -/
theorem SourceFile.isWritten_of_mem_typeExprs {name source : String} {file : SourceFile}
    (h : SourceFile.parse name source = .ok file) : ∀ e ∈ file.typeExprs, e.IsWritten :=
  (isWritten_of_parse h).2

end GoPages
