import GoPages.Proofs.Analysis.Findings

/-!
# The passes of an analysis

An analysis consists of passes, each of which looks at one thing: whether the types of the package
can be checked, whether there is an application, what declared types are for, what events carry,
what pages embed, what methods declare, what pages inherit, what handlers refer to, and what is
missing.

* `AnalysisError.pass` is the pass that a finding belongs to. No two passes have a kind of finding
  in common, which is what the lemmas `reports_…` say, one for each function that finds something.
* `Setting.findingsOf` are the findings of a pass, and `Setting.filter_findings` says that they are
  all findings of an analysis that belong to the pass.
* `Setting.exists_inherits_of_earlier?`: two findings are about the place of an earlier embedding,
  that two embedded abstract pages have a GET, and that two of them handle an event type. Every such
  finding is a conflict of some page.
-/

namespace GoPages

/-- The passes of an analysis, with the loading of its sources as the first one. -/
inductive Pass where
  | loading
  | types
  | application
  | roles
  | payloads
  | embeddings
  | methods
  | inheritance
  | references
  | completeness
deriving DecidableEq

/-- The pass that a finding belongs to. -/
def AnalysisError.pass : AnalysisError → Pass
  | load .. => .loading
  | typeCheck .. => .types
  | missingApp .. => .application
  | pageNameInvalid .. | pageMissingRouteComment .. | pageInvalidRouteComment ..
  | eventCommentMissing .. | eventCommentInvalid .. | eventSubjectInvalid ..
  | pageMissingAppField .. | pageHasExtraFields .. | sessionNotStruct ..
  | sessionMissingUserId .. => .roles
  | eventFieldUnexported .. | eventFieldMissingTag .. => .payloads
  | embedNotAbstract .. => .embeddings
  | conflictingGetEmbed .. | conflictingEventHandlerEmbed .. => .inheritance
  | pathFieldNotInRoute .. | pathMissingRouteVar .. | dispatchParamNotEvent ..
  | reflectSignalNotInSignals .. => .references
  | missingPageIndex .. | pageMissingGet .. => .completeness
  | _ => .methods

/-- All findings belong to the pass. -/
def Reports (pass : Pass) (found : List Finding) : Prop := ∀ f ∈ found, f.2.pass = pass

namespace Reports

variable {pass : Pass} {found found' : List Finding}

/-- Nothing is found. -/
theorem nil : Reports pass [] := List.forall_mem_nil _

/-- One finding is of a pass if its diagnostic is. -/
theorem singleton {l : Location} {e : AnalysisError} (he : e.pass = pass) :
    Reports pass [(l, e)] := List.forall_mem_singleton.mpr he

/-- The findings of two parts that report for one pass are of that pass. -/
theorem append (h : Reports pass found) (h' : Reports pass found') :
    Reports pass (found ++ found') := List.forall_mem_append.mpr ⟨h, h'⟩

/-- Whichever part is asked, its findings are of the pass. -/
theorem ite {p : Prop} [Decidable p] (h : Reports pass found) (h' : Reports pass found') :
    Reports pass (if p then found else found') := by
  split
  · exact h
  · exact h'

/-- What is found item by item is of the pass if each finding is. -/
theorem map {α : Type} {as : List α} {g : α → Finding} (h : ∀ a ∈ as, (g a).2.pass = pass) :
    Reports pass (as.map g) := List.forall_mem_map.mpr h

/-- What is found item by item is of the pass if the findings about each item are. -/
theorem flatMap {α : Type} {as : List α} {g : α → List Finding} (h : ∀ a, Reports pass (g a)) :
    Reports pass (as.flatMap g) := List.forall_mem_flatMap.mpr fun a _ => h a

/-- The findings of a pass are those of them that belong to the pass. -/
theorem filter_eq (h : Reports pass found) (other : Pass) :
    (found.filter fun f => f.2.pass = other) = if pass = other then found else [] := by
  split
  · next heq => exact List.filter_eq_self.mpr fun f hf => by simp [h f hf, heq]
  · next hne => exact List.filter_eq_nil_iff.mpr fun f hf => by simp [h f hf, hne]

end Reports

/-! ### Types -/

namespace Payload

private theorem pass_of_mem_fieldErrors {event : String} {f : StructField} {e : AnalysisError}
    (he : e ∈ fieldErrors event f) : e.pass = .payloads := by
  have hcases :
      e = .eventFieldUnexported event f.name ∨ e = .eventFieldMissingTag event f.name := by
    rw [fieldErrors, List.mem_append] at he
    exact he.imp (by split <;> simp) (by split <;> simp)
  rcases hcases with rfl | rfl <;> rfl

/-- The walk through a payload finds nothing but what is wrong with payloads. -/
private theorem pass_of_mem_walk {p : Package} {event : String} {fresh : List String}
    {items : List Item} {e : AnalysisError} (he : e ∈ walk p event fresh items) :
    e.pass = .payloads := by
  fun_induction walk p event fresh items with
  | case1 => exact absurd he List.not_mem_nil
  | case2 fresh f rest ih =>
    exact (List.mem_append.mp he).elim pass_of_mem_fieldErrors ih
  | case3 fresh t rest hfresh ih => exact ih he
  | case4 fresh t rest hfresh ih => exact ih he

end Payload

namespace Setting

variable (s : Setting)

private theorem reports_sessionFindings (d : TypeDecl) : Reports .roles (s.sessionFindings d) := by
  rw [sessionFindings]
  split
  · exact .singleton rfl
  · exact .ite .nil (.singleton rfl)

private theorem reports_subjectFindings (d : TypeDecl) : Reports .roles (subjectFindings d) := by
  rw [subjectFindings]
  cases Subject.ofComment d.name d.spec.doc with
  | valid subject => exact .nil
  | _ => exact .singleton rfl

private theorem reports_pageFindings (d : TypeDecl) (fields : List FieldDecl) :
    Reports .roles (s.pageFindings d fields) := by
  have hroute : Reports .roles (pageRouteFindings d) := by
    rw [pageRouteFindings]
    split
    · exact .nil
    · exact .singleton rfl
    · exact .singleton rfl
  rw [pageFindings]
  exact .append (.append (.append (.ite .nil (.singleton rfl)) (.ite .nil (.singleton rfl)))
    (.map fun _ _ => rfl)) hroute

private theorem reports_roleOfTypeFindings (d : TypeDecl) :
    Reports .roles (s.roleOfTypeFindings d) := by
  rw [roleOfTypeFindings]
  split
  · exact s.reports_sessionFindings d
  · exact reports_subjectFindings d
  · exact s.reports_pageFindings d _
  · exact .nil

private theorem reports_embedFindings (owner : String) (fields : List FieldDecl) :
    Reports .embeddings (s.embedFindings owner fields) := .map fun _ _ => rfl

end Setting

/-! ### Signatures -/

private theorem StructInput.pass_of_error? {k : StructInput} {p : Package} {m : Method}
    {param : Parameter} {e : AnalysisError} (he : k.error? p m param = some e) :
    e.pass = .methods := by
  rcases error?_cases he with rfl | ⟨f, hf⟩
  · rfl
  · rcases fieldError?_cases hf with rfl | rfl | rfl <;> rfl

private theorem Dispatch.pass_of_error? {m : Method} {type : HostType} {e : AnalysisError}
    (he : error? m type = some e) : e.pass = .methods := by
  rcases error?_cases he with rfl | rfl | rfl | rfl <;> rfl

private theorem HandlerOutputs.pass_of_judge {s : Setting} {m : Method} {method : HttpMethod}
    {before : List Parameter} {r : Parameter} {e : AnalysisError}
    (he : judge s m method before r = .error e) : e.pass = .methods := by
  have hname {e : AnalysisError} (he : judgeName s m r = .error e) : e.pass = .methods := by
    grind [judgeName, AnalysisError.pass]
  have hcomponent {e : AnalysisError} (he : componentError? s m before r = some e) :
      e.pass = .methods := by
    grind [componentError?, AnalysisError.pass]
  grind [judge]

namespace Setting

variable (s : Setting) (m : Method)

private theorem reports_toList_map {p : Parameter} {e : Option AnalysisError}
    (he : ∀ e', e = some e' → e'.pass = .methods) : Reports .methods (e.toList.map p.finding) :=
  .map fun e' he' => he e' (Option.mem_toList.mp he')

private theorem reports_roleFindings (role : InputRole) (p : Parameter) :
    Reports .methods (s.roleFindings m role p) := by
  cases role with
  | request => exact .nil
  | sse => exact .nil
  | sessionToken => exact .ite .nil (.singleton rfl)
  | session => exact .ite .nil (.singleton rfl)
  | struct k => exact reports_toList_map fun _ => StructInput.pass_of_error?
  | dispatch => exact reports_toList_map fun _ => Dispatch.pass_of_error?

private theorem reports_assignment (a : Assignment) : Reports .methods (a.findings s m) :=
  .append (.flatMap fun _ => s.reports_roleFindings m _ _) (.map fun _ _ => rfl)

private theorem reports_inputFindings : Reports .methods (HandlerInputs.findings s m) := by
  rw [HandlerInputs.findings]
  split
  · exact s.reports_assignment m _
  · exact .singleton rfl

private theorem reports_resultFindings (method : HttpMethod) (before : List Parameter)
    (r : Parameter) : Reports .methods (HandlerOutputs.resultFindings s m method before r) := by
  rw [HandlerOutputs.resultFindings]
  split
  · next e he => exact .singleton (HandlerOutputs.pass_of_judge he)
  · exact .ite (.singleton rfl) .nil
  · exact .nil

private theorem reports_jointFindings (method : HttpMethod) (sse : Option Slot) :
    Reports .methods (HandlerOutputs.jointFindings s m method sse) := by
  have hnote {e : String → AnalysisError} (he : ∀ name, (e name).pass = .methods)
      (role : OutputRole) (slot : Option Slot) :
      Reports .methods (HandlerOutputs.noteOutput m e role slot) := .ite (.singleton (he _)) .nil
  rw [HandlerOutputs.jointFindings]
  refine .append (.append (.append ?_ ?_) ?_) ?_
  · exact .ite (.singleton rfl) .nil
  · exact .ite (.singleton rfl) .nil
  · exact .ite (.append (hnote (fun _ => rfl) _ _) (hnote (fun _ => rfl) _ _)) .nil
  · exact .ite .nil (.append (hnote (fun _ => rfl) _ _) (hnote (fun _ => rfl) _ _))

/-- Findings about results that see the results before them. -/
private theorem reports_flatten_withEarlier {f : List Parameter → Parameter → List Finding}
    (hf : ∀ before r, Reports .methods (f before r)) (rs : List Parameter) :
    ∀ before, Reports .methods (HandlerOutputs.withEarlier f before rs).flatten := by
  induction rs with
  | nil => intro before; exact .nil
  | cons r rs ih => intro before; exact (hf before r).append (ih _)

private theorem reports_handlerFindings (method : HttpMethod) :
    Reports .methods (Handler.findings s m method) :=
  (s.reports_inputFindings m).append <|
    (reports_flatten_withEarlier (s.reports_resultFindings m method) _ []).append
      (s.reports_jointFindings m method _)

private theorem reports_eventHandlerFindings : Reports .methods (EventHandler.findings s m) := by
  have hinputs : Reports .methods (EventHandler.inputFindings s m) := by
    rw [EventHandler.inputFindings]
    split
    · next found hfound =>
      -- The first parameter is no event: by its name, or by its type.
      have hnone : found.2.pass = .methods := by
        grind [EventHandler.event?, AnalysisError.pass, Method.finding, Parameter.finding]
      exact .singleton hnone
    · exact (Reports.ite .nil (.singleton rfl)).append (s.reports_assignment m _)
  exact hinputs.append (.ite .nil (.singleton rfl))

private theorem reports_nameFindings : Reports .methods (s.nameFindings m) := by
  rw [nameFindings]
  split
  · exact .ite .nil (.singleton rfl)
  · exact .ite .nil (.singleton rfl)
  · exact .nil

end Setting

/-! ### Methods -/

namespace Owner

variable (s : Setting) (o : Owner) (m : Method)

private theorem reports_routeFindings (method : HttpMethod) :
    Reports .methods (o.routeFindings m method) := by
  have hnesting (route : String) : Reports .methods (o.nestingFindings m route) := by
    rw [nestingFindings]
    split
    · exact .nil
    · exact .ite .nil (.singleton rfl)
  rw [routeFindings]
  refine .ite .nil ?_
  split
  · exact .singleton rfl
  · exact .singleton rfl
  · exact hnesting _

private theorem reports_duplicateFindings (hs : OwnHandlers) :
    Reports .methods (duplicateFindings s hs m) := by
  rw [duplicateFindings]
  split
  · exact .nil
  · split
    · exact .nil
    · exact .singleton rfl

/-- All that is found about a method at its turn is of one pass. -/
private theorem reports_methodFindings (hs : OwnHandlers) :
    Reports .methods (o.methodFindings s hs m) := by
  refine (s.reports_nameFindings m).append ?_
  split
  · exact (s.reports_handlerFindings m _).append (o.reports_routeFindings m _)
  · exact .ite ((s.reports_eventHandlerFindings m).append
      (reports_duplicateFindings s m hs)) .nil

private theorem reports_findings (plugins : List Plugin) :
    Reports .methods (o.findings s plugins) := by
  intro f hf
  obtain ⟨before, m, after, -, hf⟩ := mem_findingsAfter_iff.mp hf
  exact o.reports_methodFindings s m _ f hf

end Owner

/-! ### Checks across declarations -/

private theorem Check.reports_findings (s : Setting) (invalidPaths : List Location)
    (seen : List (Location × String)) (checks : List Check) :
    Reports .references (findings s invalidPaths seen checks) := by
  have hroute (receiver : String) (h : Handler) :
      Reports .references (h.routeVarFindings receiver) :=
    .append (.map fun _ _ => rfl) (.map fun _ _ => rfl)
  have hreferences (receiver : String) (h : Handler) :
      Reports .references (h.referenceFindings s receiver) := by
    rw [Handler.referenceFindings, Handler.dispatchFindings, Handler.reflectFindings]
    refine .append ?_ ?_
    · split
      · exact .nil
      · exact .map fun _ _ => rfl
    · split
      · exact .nil
      · exact .map fun _ _ => rfl
  fun_induction findings s invalidPaths seen checks with
  | case1 => exact .nil
  | case2 seen receiver h rest ih => exact (hreferences receiver h).append ih
  | case3 seen receiver h rest hcond ih => exact (hroute receiver h).append ih
  | case4 seen receiver h rest hcond ih => exact ih

/-! ### Inheritance -/

namespace Merge

variable {m : Merge}

private theorem reports_report (h : Reports .inheritance m.found) {l : Location} {e : AnalysisError}
    (he : e.pass = .inheritance) : Reports .inheritance (m.report l e).found :=
  h.append (.singleton he)

private theorem reports_addGet? (h : Reports .inheritance m.found) (c : Contribution) :
    Reports .inheritance (m.addGet? c).found := by
  rw [addGet?]
  split
  · rw [addGet]
    split
    · exact h
    · exact h
    · exact reports_report h rfl
  · exact h

private theorem reports_addAction (h : Reports .inheritance m.found) (c : Contribution)
    (a : Handler) : Reports .inheritance (addAction c m a).found := by
  rw [addAction]
  split <;> exact h

private theorem reports_addEventHandler (h : Reports .inheritance m.found) (c : Contribution)
    (a : EventHandler) : Reports .inheritance (addEventHandler c m a).found := by
  rw [addEventHandler]
  split
  · exact h
  · exact reports_report h rfl
  · split <;> exact h

/-- Merging a contribution reports conflicts only. -/
private theorem reports_add (h : Reports .inheritance m.found) (c : Contribution) :
    Reports .inheritance (m.add c).found := by
  have hactions : Reports .inheritance (c.page.actions.foldl (addAction c) (m.addGet? c)).found :=
    List.foldlRecOn (motive := fun m : Merge => Reports .inheritance m.found) _ _
      (reports_addGet? h c) fun m h a _ => reports_addAction h c a
  exact List.foldlRecOn (motive := fun m : Merge => Reports .inheritance m.found) _ _ hactions
    fun m h a _ => reports_addEventHandler h c a

end Merge

private theorem Page.reports_inherit (abstracts : List AbstractPage) (page : Page) :
    Reports .inheritance (page.inherit abstracts).2 :=
  List.foldlRecOn (motive := fun m : Merge => Reports .inheritance m.found) _ _ .nil
    fun _ h c _ => Merge.reports_add h c

/-! ### All passes -/

/-- The passes in their order. -/
def Pass.all : List Pass :=
  [.loading, .types, .application, .roles, .payloads, .embeddings, .methods, .inheritance,
    .references, .completeness]

namespace Setting

variable (s : Setting) (plugins : List Plugin)

/-- The findings of a pass. -/
def findingsOf : Pass → List Finding
  | .loading => []
  | .types => s.typeProblems
  | .application => s.appFindings
  | .roles => s.package.types.flatMap s.roleOfTypeFindings
  | .payloads => s.payloadFindings
  | .embeddings => s.pageEmbedFindings ++ s.abstractEmbedFindings
  | .methods => s.methodFindings plugins
  | .inheritance => (s.inheritedPages plugins).flatMap Prod.snd
  | .references =>
    s.crossFindings ((s.inheritedPages plugins).map Prod.fst) (s.attachedAbstractPages plugins)
  | .completeness => s.missingFindings ((s.inheritedPages plugins).map Prod.fst)

/-- Each pass reports for itself. -/
private theorem reports_findingsOf (pass : Pass) : Reports pass (s.findingsOf plugins pass) := by
  have hembed (d : TypeDecl) {fields : List FieldDecl} :
      Reports .embeddings (s.embedFindings d.name fields) := s.reports_embedFindings d.name fields
  cases pass with
  | loading => exact .nil
  | types => exact .map fun _ _ => rfl
  | application => exact .ite .nil (.singleton rfl)
  | roles => exact .flatMap s.reports_roleOfTypeFindings
  | payloads => exact .flatMap fun _ => .map fun _ he => Payload.pass_of_mem_walk he
  | embeddings =>
    refine .append (.flatMap fun d => ?_) (.flatMap fun d => ?_)
    · split
      · exact hembed d
      · exact .nil
    · split
      · exact hembed d
      · exact .nil
  | methods => exact .flatMap fun o => o.reports_findings s plugins
  | inheritance =>
    intro f hf
    obtain ⟨r, hr, hfound⟩ := List.mem_flatMap.mp hf
    obtain ⟨p, -, rfl⟩ := List.mem_map.mp hr
    exact p.reports_inherit _ f hfound
  | references => exact Check.reports_findings s _ _ _
  | completeness => exact .append (.map fun _ _ => rfl) (.ite .nil (.singleton rfl))

/-- An analysis does its passes one after the other. -/
theorem findings_eq_flatMap : s.findings plugins = Pass.all.flatMap (s.findingsOf plugins) := by
  simp only [findings, outlineFindings, Pass.all, findingsOf, List.flatMap_cons, List.flatMap_nil,
    List.nil_append, List.append_nil, List.append_assoc]

/-- **The findings of an analysis that belong to a pass** are the findings of the pass. -/
theorem filter_findings (pass : Pass) :
    ((s.findings plugins).filter fun f => f.2.pass = pass) = s.findingsOf plugins pass := by
  rw [findings_eq_flatMap, List.filter_flatMap]
  simp only [(s.reports_findingsOf plugins _).filter_eq]
  cases pass <;> simp [Pass.all]

/-- The findings of a pass are those of an analysis that belong to it. -/
private theorem mem_findingsOf_iff {s : Setting} {plugins : List Plugin} {f : Finding}
    {pass : Pass} : f ∈ s.findingsOf plugins pass ↔ f ∈ s.findings plugins ∧ f.2.pass = pass := by
  rw [← filter_findings, List.mem_filter, decide_eq_true_eq]

end Setting

/-! ### Codes -/

namespace AnalysisError

private theorem number_lt (e : AnalysisError) : e.number < 1000 := by
  cases e <;> simp [number]

/-- Numbers of up to three digits are told apart by them. -/
private theorem threeDigits_inj {m n : ℕ} (hm : m < 1000) (hn : n < 1000) :
    threeDigits m = threeDigits n ↔ m = n := by
  refine ⟨fun h => ?_, congrArg threeDigits⟩
  have hdigit {i j : ℕ} (hi : i < 10) (hj : j < 10) (h : i.digitChar = j.digitChar) : i = j := by
    have hnat := congrArg Char.toNat h
    rw [Nat.toNat_digitChar_of_lt_ten hi, Nat.toNat_digitChar_of_lt_ten hj] at hnat
    exact Nat.add_left_cancel hnat
  have hlist := String.ofList_injective h
  simp only [List.cons.injEq, and_true] at hlist
  obtain ⟨hhundreds, htens, hones⟩ := hlist
  have hhundreds := hdigit (by omega) (by omega) hhundreds
  have htens := hdigit (by omega) (by omega) htens
  have hones := hdigit (by omega) (by omega) hones
  omega

/-- Diagnostics have the same code exactly if they have the same number. -/
theorem code_eq_code_iff {e e' : AnalysisError} : e.code = e'.code ↔ e.number = e'.number := by
  rw [code, code, String.append_right_inj, threeDigits_inj e.number_lt e'.number_lt]

end AnalysisError

/-- The code of all findings of a pass that has only one kind of them. -/
def Pass.code? : Pass → Option String
  | loading => some "PA-E001"
  | types => some "PA-E002"
  | application => some "PA-E601"
  | _ => none

/-- A code that is all a pass reports is reported by no other pass. -/
theorem AnalysisError.code_eq_iff (pass : Pass) {code : String} (h : pass.code? = some code)
    (e : AnalysisError) : e.code = code ↔ e.pass = pass := by
  have hload : (load "").code = "PA-E001" := by rw [AnalysisError.code, number]; decide
  have htype : (typeCheck "").code = "PA-E002" := by rw [AnalysisError.code, number]; decide
  have hmissing : (missingApp "").code = "PA-E601" := by rw [AnalysisError.code, number]; decide
  cases pass with
  | loading =>
    rw [← Option.some.inj h, ← hload, code_eq_code_iff]
    cases e <;> simp [number, AnalysisError.pass]
  | types =>
    rw [← Option.some.inj h, ← htype, code_eq_code_iff]
    cases e <;> simp [number, AnalysisError.pass]
  | application =>
    rw [← Option.some.inj h, ← hmissing, code_eq_code_iff]
    cases e <;> simp [number, AnalysisError.pass]
  | _ => contradiction

/-! ### Diagnostics -/

/-- The diagnostics with a code. -/
def Diagnostics.withCode (ds : Diagnostics) (code : String) : List Diagnostic :=
  ds.entries.filter fun d => d.error.code = code

/-- The diagnostics with the only code of a pass are the findings of the pass. -/
theorem Analysis.perm_map_withCode (pass : Pass) {code : String} (h : pass.code? = some code)
    (c : Conventions) (plugins : List Plugin) (p : Package) :
    (((ofPackage c plugins p).diagnostics.withCode code).map fun d => (d.location, d.error)).Perm
      (((⟨p, c⟩ : Setting).findingsOf plugins pass).map fun f => (f.1.normalized, f.2)) := by
  have hperm := (perm_map_entries c plugins p).filter fun f => f.2.pass = pass
  rw [List.filter_map, List.filter_map] at hperm
  rw [← Setting.filter_findings, Diagnostics.withCode]
  simp only [AnalysisError.code_eq_iff pass h]
  exact hperm

/-! ### Conflicts -/

/-- The place of the earlier embedding that a finding is about. -/
def AnalysisError.earlier? : AnalysisError → Option Location
  | conflictingGetEmbed _ _ _ previous => some previous
  | conflictingEventHandlerEmbed _ _ _ _ previous => some previous
  | _ => none

/-- Only conflicts between embedded pages have an earlier place. -/
private theorem AnalysisError.pass_of_earlier? {e : AnalysisError} (h : e.earlier? ≠ none) :
    e.pass = .inheritance := by
  cases e with
  | conflictingGetEmbed page owner previousOwner previous => rfl
  | conflictingEventHandlerEmbed page event owner previousOwner previous => rfl
  | _ => exact absurd rfl h

/-- Only inheritance finds conflicts: a finding about an earlier embedding is one of some page. -/
theorem Setting.exists_inherits_of_earlier? {s : Setting} {plugins : List Plugin} {f : Finding}
    (hf : f ∈ s.findings plugins) (hearlier : f.2.earlier? ≠ none) :
    ∃ r ∈ s.inheritedPages plugins, f ∈ r.2 := by
  have hpass : f ∈ s.findingsOf plugins .inheritance :=
    mem_findingsOf_iff.mpr ⟨hf, AnalysisError.pass_of_earlier? hearlier⟩
  exact List.mem_flatMap.mp hpass

end GoPages
