import GoPages.Proofs.Parser.Brackets
import GoPages.Proofs.Text.Quoted
import GoPages.Proofs.TypeExpr.Written

/-!
# Type expressions that can be read back

The text of a type expression leaves out parentheses, and it shows tags and array lengths in a way
of its own. So not every type expression is read back from its text. `TypeExpr.isClear` excludes
what goes wrong at a type expression, its parts apart:

* a channel of values received from a channel, since `chan (<-chan T)` loses its parentheses;
* a variadic type as the only result, since `func() (...T)` loses its parentheses;
* an array length whose text is not one of tokens with matching brackets (`isLength`). That is
  more than is needed, for a length such as that of `[1)]int` is accepted, and its text can be read
  back where nothing looks for a bracket across it;
* a tag with a character that is shown by an escape that Go does not have (`Text.isShown`).

`TypeExpr.Legible n` says of a written type expression that all its parts are clear and nest at most
`n` levels, in the form of one rule for each kind of type.
-/

namespace GoPages

/-! ### Array lengths -/

/-- The tokens of a text, if it is nothing but tokens. -/
def cutTokens : List Char → Option (List Spelling)
  | [] => some []
  | c :: cs =>
    match h : Lexeme.scan c cs with
    | .ok (⟨.token kind, text⟩, rest) =>
      have := Lexeme.length_lt_of_scan h
      (cutTokens rest).map ((kind, String.ofList text) :: ·)
    | _ => none
termination_by cs => cs.length

/-- The tokens of a text make up the text. -/
theorem flatMap_text_of_cutTokens {cs : List Char} {ss : List Spelling}
    (h : cutTokens cs = some ss) : ss.flatMap (fun x => x.2.toList) = cs := by
  fun_induction cutTokens cs generalizing ss with
  | case1 =>
    cases h
    rfl
  | case2 c cs kind text rest hscan _ ih =>
    obtain ⟨ss, hrest, rfl⟩ := Option.map_eq_some_iff.mp h
    rw [List.flatMap_cons, ih hrest, String.toList_ofList]
    exact (Lexeme.scan_append hscan).1
  | case3 => cases h

/-- The tokens of an array length. -/
def lengthSpelling (len : String) : List Spelling := (cutTokens len.toList).getD []

/-- Is the text one of tokens with matching brackets, and no semicolon among them? The parser asks
for less. It counts parentheses and square brackets together, and for it the length of `[1)]int` is
one as well; in the type of a field or a parameter such a length misleads the parser when it looks
for the bracket that closes a list. -/
def isLength (len : String) : Bool :=
  (cutTokens len.toList).isSome && !(lengthSpelling len).isEmpty &&
    matchBrackets [] (lengthSpelling len) && (lengthSpelling len).all (·.1 != .semicolon)

/-- What the tokens of an array length are. -/
structure IsLength (len : String) : Prop where
  tokens : cutTokens len.toList = some (lengthSpelling len)
  ne_nil : lengthSpelling len ≠ []
  balanced : Balanced (lengthSpelling len)
  kind_ne : ∀ x ∈ lengthSpelling len, x.1 ≠ .semicolon

/-- The check of a length accepts nothing but legible lengths. -/
private theorem IsLength.of_isLength {len : String} (h : isLength len = true) : IsLength len := by
  simp only [isLength, Bool.and_eq_true, Bool.not_eq_true', List.isEmpty_eq_false_iff,
    List.all_eq_true, bne_iff_ne] at h
  obtain ⟨⟨⟨hsome, hne⟩, hbrackets⟩, hkind⟩ := h
  obtain ⟨ss, hss⟩ := Option.isSome_iff_exists.mp hsome
  refine ⟨?_, hne, balanced_of_matchBrackets hbrackets, hkind⟩
  rw [lengthSpelling, hss, Option.getD_some]

/-- The texts of the tokens of a length make up the length. -/
theorem IsLength.join_texts {len : String} (h : IsLength len) :
    String.join ((lengthSpelling len).map Prod.snd) = len := by
  rw [← String.toList_inj, String.toList_join, List.flatMap_map]
  exact flatMap_text_of_cutTokens h.tokens

/-! ### Clear and legible type expressions -/

namespace TypeExpr

/-- Is the type a channel from which values can only be received? -/
def isRecv : TypeExpr → Bool
  | chan _ .recv _ => true
  | _ => false

/-- Is the type one of a variadic parameter? -/
def isVariadic : TypeExpr → Bool
  | ellipsis _ _ => true
  | _ => false

/-- Does the text of the type expression mean the type expression, if the texts of its parts do? Of
array lengths those are left out, too, whose brackets do not match (`isLength`). -/
def isClear : TypeExpr → Bool
  | chan _ dir elem => !(dir == .both && elem.isRecv)
  | func type => !(soleUnnamed type.results && type.results.any fun p => p.type.isVariadic)
  | array _ len _ => isLength len
  | struct _ fields => fields.all fun f => f.tag.all Text.allShown
  | _ => true

/-- The type expression is written, and all its parts are clear and nest at most `n` levels. -/
inductive Legible : Nat → TypeExpr → Prop
  | ident {n : Nat} {id : Ident} (h : id.IsWord) : Legible (n + 1) (ident id)
  | qualified {n : Nat} {package id : Ident} (hpackage : package.IsWord) (h : id.IsWord) :
    Legible (n + 1) (qualified package id)
  | generic {n : Nat} {base : TypeExpr} {args : List TypeExpr} (hname : base.isTypeName = true)
    (hbase : Legible 1 base) (hne : args ≠ []) (hargs : ∀ arg ∈ args, Legible n arg) :
    Legible (n + 1) (generic base args)
  | pointer {n : Nat} (l : Location) {elem : TypeExpr} (h : Legible n elem) :
    Legible (n + 1) (pointer l elem)
  | slice {n : Nat} (l : Location) {elem : TypeExpr} (h : Legible n elem) :
    Legible (n + 1) (slice l elem)
  | array {n : Nat} (l : Location) {len : String} {elem : TypeExpr} (hlen : IsLength len)
    (h : Legible n elem) : Legible (n + 1) (array l len elem)
  | map {n : Nat} (l : Location) {key value : TypeExpr} (hkey : Legible n key)
    (hvalue : Legible n value) : Legible (n + 1) (map l key value)
  | chan {n : Nat} (l : Location) {dir : ChanDir} {elem : TypeExpr}
    (hdir : dir = .both → elem.isRecv = false) (h : Legible n elem) :
    Legible (n + 1) (chan l dir elem)
  | func {n : Nat} {type : FuncType} (hparams : AreWritten type.params)
    (hresults : AreWritten type.results)
    (hsole : soleUnnamed type.results = true → ∀ p ∈ type.results, p.type.isVariadic = false)
    (hparam : ∀ p ∈ type.params, p.isLone = false → Legible (n - 1) p.type)
    (hresult : ∀ p ∈ type.results, soleUnnamed type.results = true ∨ p.isLone = false →
      Legible (n - 1) p.type) : Legible (n + 1) (func type)
  | struct {n : Nat} (l : Location) {fields : List FieldDecl}
    (hfields : ∀ f ∈ fields, f.IsWritten)
    (htags : ∀ f ∈ fields, ∀ tag, f.tag = some tag → Text.allShown tag = true)
    (hfield : ∀ f ∈ fields, Legible (n - 1) f.type) : Legible (n + 1) (struct l fields)
  | interface {n : Nat} (l : Location) (empty : Bool) : Legible (n + 1) (interface l empty)
  | ellipsis {n : Nat} (l : Location) {elem : TypeExpr} (h : Legible n elem) :
    Legible (n + 1) (ellipsis l elem)

/-- A type name as it is written is legible, however deep the rest may be. -/
private theorem legible_of_isTypeName {n : Nat} {e : TypeExpr} (hname : e.isTypeName = true)
    (h : e.IsWritten) : Legible (n + 1) e := by
  cases h with
  | ident h => exact .ident h
  | qualified hpackage h => exact .qualified hpackage h
  | _ => cases hname

private theorem exists_eq_succ {k n : Nat} (h : k + 1 ≤ n) : ∃ m, n = m + 1 ∧ k ≤ m :=
  ⟨n - 1, by omega, by omega⟩

/-- What is written and clear is legible. -/
theorem IsWritten.legible {e : TypeExpr} (h : e.IsWritten) {n : Nat} (hlevels : e.levels ≤ n)
    (hclear : ∀ p ∈ e.parts, p.isClear = true) : e.Legible n := by
  induction h generalizing n with
  | ident h =>
    rw [levels] at hlevels
    obtain ⟨n, rfl, -⟩ := exists_eq_succ hlevels
    exact .ident h
  | qualified hpackage h =>
    rw [levels] at hlevels
    obtain ⟨n, rfl, -⟩ := exists_eq_succ hlevels
    exact .qualified hpackage h
  | generic hname hbase hne hargs _ ihargs =>
    rw [levels] at hlevels
    rw [parts_generic] at hclear
    obtain ⟨n, rfl, hn⟩ := exists_eq_succ hlevels
    have hparts := (List.forall_mem_append.mp (List.forall_mem_cons.mp hclear).2).2
    refine .generic hname (legible_of_isTypeName hname hbase) hne fun arg harg => ?_
    exact ihargs arg harg (Nat.le_trans (levels_le_levelsList arg harg) hn)
      (List.forall_mem_flatMap.mp hparts arg harg)
  | pointer l _ ih =>
    rw [levels] at hlevels
    rw [parts] at hclear
    obtain ⟨n, rfl, hn⟩ := exists_eq_succ hlevels
    exact .pointer l (ih hn (List.forall_mem_cons.mp hclear).2)
  | slice l _ ih =>
    rw [levels] at hlevels
    rw [parts] at hclear
    obtain ⟨n, rfl, hn⟩ := exists_eq_succ hlevels
    exact .slice l (ih hn (List.forall_mem_cons.mp hclear).2)
  | array l len _ ih =>
    rw [levels] at hlevels
    rw [parts] at hclear
    obtain ⟨n, rfl, hn⟩ := exists_eq_succ hlevels
    obtain ⟨hlen, hparts⟩ := List.forall_mem_cons.mp hclear
    exact .array l (.of_isLength hlen) (ih hn hparts)
  | map l _ _ ihkey ihvalue =>
    rw [levels] at hlevels
    rw [parts] at hclear
    obtain ⟨n, rfl, hn⟩ := exists_eq_succ hlevels
    obtain ⟨hkey, hvalue⟩ := List.forall_mem_append.mp (List.forall_mem_cons.mp hclear).2
    exact .map l (ihkey (Nat.le_trans (Nat.le_max_left _ _) hn) hkey)
      (ihvalue (Nat.le_trans (Nat.le_max_right _ _) hn) hvalue)
  | chan l dir _ ih =>
    rw [levels] at hlevels
    rw [parts] at hclear
    obtain ⟨n, rfl, hn⟩ := exists_eq_succ hlevels
    obtain ⟨hdir, hparts⟩ := List.forall_mem_cons.mp hclear
    exact .chan l (fun hboth => by simpa [isClear, hboth] using hdir) (ih hn hparts)
  | @func type hparams hresults hparam hresult ihparam ihresult =>
    rw [levels] at hlevels
    rw [parts_func] at hclear
    obtain ⟨n, rfl, -⟩ := exists_eq_succ (Nat.le_trans (Nat.le_max_left 1 _) hlevels)
    obtain ⟨hsole, hparts⟩ := List.forall_mem_cons.mp hclear
    -- parameters and results stand two levels below, where names alone are not counted
    obtain ⟨hparamParts, hresultParts⟩ := List.forall_mem_append.mp hparts
    refine .func ⟨hparams, hparam⟩ ⟨hresults, hresult⟩
      (fun hbare => by simpa [isClear, hbare] using hsole) (fun p hp hlone => ?_)
      fun p hp hlone => ?_
    · have hp' : p.type.levels + 2 ≤ levelsParams false type.params :=
        levels_le_levelsParams p hp (.inr hlone)
      exact ihparam p hp (by omega) (List.forall_mem_flatMap.mp hparamParts p hp)
    · have hp' := levels_le_levelsParams p hp hlone
      exact ihresult p hp (by omega) (List.forall_mem_flatMap.mp hresultParts p hp)
  | @struct l fields hnames hembedded hfield ih =>
    rw [levels] at hlevels
    rw [parts_struct] at hclear
    obtain ⟨n, rfl, -⟩ := exists_eq_succ (Nat.le_trans (Nat.le_max_left 1 _) hlevels)
    obtain ⟨htags, hparts⟩ := List.forall_mem_cons.mp hclear
    have htags : ∀ f ∈ fields, ∀ tag, f.tag = some tag → Text.allShown tag = true := by
      intro f hf tag htag
      have := List.all_eq_true.mp htags f hf
      rwa [htag, Option.all_some] at this
    refine .struct l (fun f hf => ⟨hnames f hf, hembedded f hf, hfield f hf⟩) htags fun f hf => ?_
    have hf' := levels_le_levelsFields f hf
    exact ih f hf (by omega) (List.forall_mem_flatMap.mp hparts f hf)
  | interface l empty =>
    rw [levels] at hlevels
    obtain ⟨n, rfl, -⟩ := exists_eq_succ hlevels
    exact .interface l empty
  | ellipsis l _ ih =>
    rw [levels] at hlevels
    rw [parts] at hclear
    obtain ⟨n, rfl, hn⟩ := exists_eq_succ hlevels
    exact .ellipsis l (ih hn (List.forall_mem_cons.mp hclear).2)

end TypeExpr

end GoPages
