import GoPages.Diagnostic.Error
import GoPages.Sorting

/-!
# Diagnostics

A `Diagnostic` is a finding with its place and the number of findings before it. `Diagnostics`
collects them: `push` adds one, whose place keeps the base name of its file alone, and `finish` puts
them in their final order, by their places and then in the order in which they came.
-/

namespace GoPages

/-- A finding with its place. -/
structure Diagnostic where
  location : Location
  /-- The number of findings that were added before. -/
  seq : Nat
  error : AnalysisError
deriving DecidableEq, Inhabited

/-- The diagnostic as it is shown. -/
def Diagnostic.text (d : Diagnostic) : String := "at " ++ d.location.text ++ ": " ++ d.error.message

/-- Does `d` stand no later than `e` in the final order? -/
def Diagnostic.le (d e : Diagnostic) : Bool :=
  d.location.before e.location || (!e.location.before d.location && d.seq ≤ e.seq)

/-- The findings so far. -/
structure Diagnostics where
  entries : List Diagnostic
  /-- The number of the next finding. -/
  nextSeq : Nat
deriving DecidableEq, Inhabited

namespace Diagnostics

/-- No findings. -/
def empty : Diagnostics := ⟨[], 0⟩

/-- Adds a finding at a place. -/
def push (ds : Diagnostics) (l : Location) (e : AnalysisError) : Diagnostics :=
  ⟨ds.entries ++ [⟨l.normalized, ds.nextSeq, e⟩], ds.nextSeq + 1⟩

/-- Adds a finding that has no place. -/
def pushUnknown (ds : Diagnostics) (e : AnalysisError) : Diagnostics := ds.push .unknown e

/-- Adds findings at their places, in order. -/
def pushAll (ds : Diagnostics) (found : List (Location × AnalysisError)) : Diagnostics :=
  found.foldl (fun ds f => ds.push f.1 f.2) ds

/-- Puts the findings in their final order. -/
def finish (ds : Diagnostics) : Diagnostics :=
  { ds with entries := sortBy Diagnostic.le ds.entries }

/-- Is there a finding with this code? -/
def hasCode (ds : Diagnostics) (code : String) : Bool :=
  ds.entries.any fun d => d.error.code == code

/-- The findings, each on a line. -/
def text (ds : Diagnostics) : String :=
  String.intercalate "\n" (ds.entries.map Diagnostic.text)

end Diagnostics

end GoPages
