import GoPages.Proofs.Diagnostic.Order
import GoPages.Proofs.Sorting
import Mathlib.Data.List.Induction

/-!
# What diagnostics hold

Findings can be added to diagnostics and diagnostics can be sorted, in any order and any number of
times. `Diagnostics.run` does a list of such steps, beginning without findings, and
`Diagnostics.added` are the findings that are added along the way.

* `Diagnostics.Holds` is the invariant of a run: the entries are the findings that have been added,
  each once and with the number of those before it, in some order (`holds_run`).
* `Diagnostics.run_finish`: after they are sorted, the entries stand in the order of their keys, and
  sorting them before has made no difference.
* `Diagnostics.shown` are the findings of diagnostics with their places, in their order, without
  their numbers. In the end findings at one place stand in the order in which they came, and this
  order is all that matters: findings that come in another order are shown in the same way, if for
  every place those at the place come in the same order (`Diagnostics.shown_finish_eq`).
-/

namespace GoPages

namespace Diagnostics

/-! ### Steps -/

/-- A step that adds a finding, with its place or without one, or that sorts the entries. -/
inductive Step where
  | push (l : Location) (e : AnalysisError)
  | pushUnknown (e : AnalysisError)
  | finish

/-- Does a step. -/
def step (ds : Diagnostics) : Step → Diagnostics
  | .push l e => ds.push l e
  | .pushUnknown e => ds.pushUnknown e
  | .finish => ds.finish

/-- Does steps, beginning without findings. -/
def run (steps : List Step) : Diagnostics := steps.foldl step empty

/-- The finding that a step adds. -/
def Step.added? : Step → Option (Location × AnalysisError)
  | push l e => some (l, e)
  | pushUnknown e => some (.unknown, e)
  | finish => none

/-- The findings that steps add. -/
def added (steps : List Step) : List (Location × AnalysisError) := steps.filterMap Step.added?

/-- The diagnostics for findings in their order. -/
def numbered (found : List (Location × AnalysisError)) : List Diagnostic :=
  found.mapIdx fun i f => ⟨f.1.normalized, i, f.2⟩

/-- A finding that is added last has the number of those before it. -/
private theorem numbered_append_singleton (found : List (Location × AnalysisError)) (l : Location)
    (e : AnalysisError) :
    numbered (found ++ [(l, e)]) = numbered found ++ [⟨l.normalized, found.length, e⟩] :=
  List.mapIdx_concat

private theorem map_seq_numbered (found : List (Location × AnalysisError)) :
    (numbered found).map Diagnostic.seq = List.range found.length := by
  refine List.ext_getElem (by simp [numbered]) fun i hi hi' => ?_
  simp [numbered]

private theorem map_numbered (found : List (Location × AnalysisError)) :
    (numbered found).map (fun d => (d.location, d.error)) =
      found.map fun f => (f.1.normalized, f.2) := by
  refine List.ext_getElem (by simp [numbered]) fun i hi hi' => ?_
  simp [numbered]

/-! ### The invariant of a run -/

/-- The entries are the findings, each once, and the next finding follows them. -/
structure Holds (ds : Diagnostics) (found : List (Location × AnalysisError)) : Prop where
  entries : ds.entries.Perm (numbered found)
  nextSeq : ds.nextSeq = found.length

/-- At first nothing is held. -/
theorem holds_empty : empty.Holds [] := ⟨.refl [], rfl⟩

namespace Holds

variable {ds : Diagnostics} {found : List (Location × AnalysisError)}

/-- A finding is held with those that were held before. -/
theorem push (h : ds.Holds found) (l : Location) (e : AnalysisError) :
    (ds.push l e).Holds (found ++ [(l, e)]) where
  entries := by
    rw [numbered_append_singleton, ← h.nextSeq]
    exact h.entries.append_right _
  nextSeq := by
    rw [List.length_append, ← h.nextSeq]
    rfl

/-- So is a list of findings. -/
theorem pushAll (h : ds.Holds found) (more : List (Location × AnalysisError)) :
    (ds.pushAll more).Holds (found ++ more) := by
  induction more generalizing ds found with
  | nil =>
    rw [List.append_nil]
    exact h
  | cons f more ih =>
    rw [List.append_cons]
    exact ih (h.push f.1 f.2)

/-- Sorting holds on to what is held. -/
theorem finish (h : ds.Holds found) : ds.finish.Holds found where
  entries := (sortBy_perm Diagnostic.le ds.entries).trans h.entries
  nextSeq := h.nextSeq

/-- A step adds to the entries what it adds to the findings. -/
theorem step (h : ds.Holds found) (st : Step) : (ds.step st).Holds (found ++ st.added?.toList) := by
  cases st with
  | push l e => exact h.push l e
  | pushUnknown e => exact h.push .unknown e
  | finish =>
    rw [Step.added?, Option.toList_none, List.append_nil]
    exact h.finish

/-- The entries are the findings at the places where they are shown. -/
theorem perm_map (h : ds.Holds found) :
    (ds.entries.map fun d => (d.location, d.error)).Perm
      (found.map fun f => (f.1.normalized, f.2)) := by
  rw [← map_numbered]
  exact h.entries.map _

/-- The numbers of the entries are different, and so are their keys. -/
theorem nodup_key (h : ds.Holds found) : (ds.entries.map Diagnostic.key).Nodup := by
  have hseq : (ds.entries.map Diagnostic.seq).Nodup := by
    rw [(h.entries.map Diagnostic.seq).nodup_iff, map_seq_numbered]
    exact List.nodup_range
  refine List.Nodup.of_map (fun key => (ofLex key).2) ?_
  rwa [List.map_map]

/-- What sorting gives depends on the findings alone. -/
theorem entries_finish (h : ds.Holds found) :
    ds.finish.entries = sortBy Diagnostic.le (numbered found) :=
  sortBy_eq_of_perm Diagnostic.le_iff h.nodup_key h.entries

end Holds

/-- The step after other steps. -/
theorem run_append_singleton (steps : List Step) (st : Step) :
    run (steps ++ [st]) = (run steps).step st := by
  rw [run, List.foldl_append]
  rfl

private theorem added_append_singleton (steps : List Step) (st : Step) :
    added (steps ++ [st]) = added steps ++ st.added?.toList := by
  rw [added, List.filterMap_append]
  cases st <;> rfl

/-- After a run the findings that were added along the way are held. -/
theorem holds_run (steps : List Step) : (run steps).Holds (added steps) := by
  -- the last step is done after the steps before it
  induction steps using List.reverseRecOn with
  | nil => exact holds_empty
  | append_singleton steps st ih =>
    rw [run_append_singleton, added_append_singleton]
    exact ih.step st

/-- Steps that add findings one after the other. -/
theorem added_map_push (found : List (Location × AnalysisError)) :
    added (found.map fun f => .push f.1 f.2) = found := by
  rw [added, List.filterMap_map]
  exact List.filterMap_some

/-- **Diagnostics as a log.** After any steps the entries are the findings that have been added,
each once, with the base name of its file and with the number of findings before it. Once they are
sorted they stand in the order of their keys, and they are the same as if all of them had been added
first and sorted once. The order that this rests on compares places and then numbers, is a total
preorder on places, and ties only what is one known place or has no place. -/
theorem run_finish (steps : List Step) :
    (run steps).entries.Perm (numbered (added steps)) ∧
      ((run (steps ++ [.finish])).entries.Pairwise fun d e => d.key < e.key) ∧
      (run (steps ++ [.finish])).entries =
        (run ((added steps).map (fun f => .push f.1 f.2) ++ [.finish])).entries ∧
      (∀ d e : Diagnostic,
        d.le e = ((d.location.compare e.location).then (Ord.compare d.seq e.seq)).isLE) ∧
      Std.TransCmp Location.compare ∧
      ∀ l m : Location, l.compare m = .eq ↔ (l.isKnown ∧ l = m) ∨ (¬ l.isKnown ∧ ¬ m.isKnown) := by
  have hholds : (run steps).Holds (added steps) := holds_run steps
  have honce : (run ((added steps).map fun f => .push f.1 f.2)).Holds (added steps) := by
    have h := holds_run ((added steps).map fun f => .push f.1 f.2)
    rwa [added_map_push] at h
  refine ⟨hholds.entries, ?_, ?_, Diagnostic.le_eq_isLE_compare, inferInstance,
    fun l m => Location.compare_eq_eq_iff⟩
  · rw [run_append_singleton]
    exact pairwise_lt_sortBy Diagnostic.le_iff hholds.nodup_key
  · rw [run_append_singleton, run_append_singleton]
    exact hholds.entries_finish.trans honce.entries_finish.symm

/-! ### What is shown -/

/-- The findings with their places, without their numbers. -/
def shown (ds : Diagnostics) : List (Location × AnalysisError) :=
  ds.entries.map fun d => (d.location, d.error)

/-- The findings with what their places are sorted by. -/
abbrev atKey (found : List (Location × AnalysisError)) (k : WithTop (String ×ₗ ℕ ×ₗ ℕ)) :
    List (Location × AnalysisError) :=
  found.filter fun f => f.1.normalized.key = k

/-- Findings are numbered in their order. -/
private theorem pairwise_seq_numbered (found : List (Location × AnalysisError)) :
    (numbered found).Pairwise fun d e => d.seq < e.seq := by
  have hrange : ((numbered found).map Diagnostic.seq).Pairwise (· < ·) := by
    rw [map_seq_numbered]
    exact List.pairwise_lt_range
  exact List.pairwise_map.mp hrange

/-- In the end the findings at a place stand in the order in which they came. -/
theorem Holds.filter_finish {ds : Diagnostics} {found : List (Location × AnalysisError)}
    (h : ds.Holds found) (k : WithTop (String ×ₗ ℕ ×ₗ ℕ)) :
    ds.finish.entries.filter (fun d => d.location.key = k) =
      (numbered found).filter fun d => d.location.key = k := by
  have hsorted : ds.finish.entries.Pairwise fun d e => d.key ≤ e.key :=
    pairwise_sortBy Diagnostic.le_iff ds.entries
  have hsame : ((numbered found).filter fun d => d.location.key = k).Pairwise
      fun d e => d.key ≤ e.key := by
    refine ((pairwise_seq_numbered found).filter _).imp_of_mem fun {d e} hd he hlt => ?_
    have hd : d.location.key = k := by simpa using (List.mem_filter.mp hd).2
    have he : e.location.key = k := by simpa using (List.mem_filter.mp he).2
    exact Prod.Lex.toLex_le_toLex.mpr (.inr ⟨hd.trans he.symm, hlt.le⟩)
  refine (h.finish.entries.filter _).eq_of_pairwise (fun d e hd he hde hed => ?_)
    (hsorted.filter _) hsame
  have hd := (List.mem_filter.mp hd).1
  have he := h.finish.entries.mem_iff.mpr (List.mem_filter.mp he).1
  exact List.inj_on_of_nodup_map h.finish.nodup_key hd he (le_antisymm hde hed)

/-- What is shown at a place is what came there. -/
theorem filter_shown_finish (found : List (Location × AnalysisError))
    (k : WithTop (String ×ₗ ℕ ×ₗ ℕ)) :
    (empty.pushAll found).finish.shown.filter (fun f => f.1.key = k) =
      (atKey found k).map fun f => (f.1.normalized, f.2) := by
  have hholds : (empty.pushAll found).Holds found := holds_empty.pushAll found
  let view (d : Diagnostic) : Location × AnalysisError := (d.location, d.error)
  calc (empty.pushAll found).finish.shown.filter (fun f => f.1.key = k)
      = ((empty.pushAll found).finish.entries.filter fun d => d.location.key = k).map view :=
        List.filter_map
    _ = ((numbered found).filter fun d => d.location.key = k).map view := by
        rw [hholds.filter_finish]
    _ = ((numbered found).map view).filter (fun f => f.1.key = k) := by
        rw [List.filter_map]
        rfl
    _ = (found.map fun f => (f.1.normalized, f.2)).filter (fun f => f.1.key = k) := by
        rw [map_numbered]
    _ = (atKey found k).map fun f => (f.1.normalized, f.2) := List.filter_map

/-- Findings are shown in the same way if at every place they come in the same order. -/
theorem shown_finish_eq {found found' : List (Location × AnalysisError)}
    (h : ∀ k, atKey found k = atKey found' k) :
    (empty.pushAll found).finish.shown = (empty.pushAll found').finish.shown := by
  have hsorted (found : List (Location × AnalysisError)) :
      (empty.pushAll found).finish.shown.Pairwise fun f g => f.1.key ≤ g.1.key := by
    have hentries : (empty.pushAll found).finish.entries.Pairwise fun d e => d.key ≤ e.key :=
      pairwise_sortBy Diagnostic.le_iff (empty.pushAll found).entries
    refine List.pairwise_map.mpr (hentries.imp fun {d e} hde => ?_)
    rcases Prod.Lex.toLex_le_toLex.mp hde with hlt | ⟨heq, -⟩
    · exact hlt.le
    · exact heq.le
  refine eq_of_filter_key_eq (hsorted found) (hsorted found') fun k => ?_
  rw [filter_shown_finish, filter_shown_finish, h]

end Diagnostics

end GoPages
