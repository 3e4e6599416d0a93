import LintRepair.Path

/-!
Change histories.

A history remembers, for every path, the digests of all contents written there. A write is a change
if its digest is new for the path, so the first write of a path always is one, and going back to a
content that was written before is none. Paths count as the same if their components are.

* `History.record`: adds a digest and says whether it was new.
* `History.digestCount`, `History.trackedFiles`: how much is remembered.
-/

namespace LintRepair

/-- The digests written to each path. -/
structure History where
  seen : List (Path × List UInt64)

namespace History

/-- The history before the first write. -/
def empty : History := ⟨[]⟩

/-- The digests remembered for a path. -/
def digests (history : History) (path : Path) : List UInt64 :=
  ((history.seen.find? (·.1.same path)).map Prod.snd).getD []

/-- Whether something was written to a path. -/
def tracks (history : History) (path : Path) : Bool :=
  history.seen.any (·.1.same path)

/-- Adds a digest to a path, and says whether it was new there. -/
def record (history : History) (path : Path) (digest : UInt64) : Bool × History :=
  if digest ∈ history.digests path then (false, history)
  else if history.tracks path then
    (true, ⟨history.seen.map fun entry =>
      if entry.1.same path then (entry.1, entry.2 ++ [digest]) else entry⟩)
  else (true, ⟨history.seen ++ [(path, [digest])]⟩)

/-- How many digests are remembered for a path. -/
def digestCount (history : History) (path : Path) : Nat :=
  (history.digests path).length

/-- How many paths were written to. -/
def trackedFiles (history : History) : Nat :=
  history.seen.length

end History

end LintRepair
