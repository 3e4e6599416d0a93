/-!
Paths.

A path is kept as it was given, and compared by its components: repeated slashes, a dot that is
not the first component and a slash at the end do not matter, and two dots are not resolved.

* `Path.segments`: the parts of a path between its slashes.
* `Path.components`: what a path is compared by.
* `Path.order`: the lexicographic order of the components.
* `Path.join`: a path below a folder.
-/

namespace LintRepair

/-- A path as it was given. -/
structure Path where
  text : String
deriving DecidableEq

/-- One step of a path. -/
inductive Component where
  /-- The root folder, at the start of an absolute path. -/
  | root
  /-- The current folder, at the start of a path only. -/
  | current
  /-- The folder above. -/
  | parent
  | name (text : String)
deriving DecidableEq

/-- The order of two components: root, current, parent, names by their text. -/
def Component.order : Component → Component → Ordering
  | root, root => .eq
  | root, _ => .lt
  | _, root => .gt
  | current, current => .eq
  | current, _ => .lt
  | _, current => .gt
  | parent, parent => .eq
  | parent, _ => .lt
  | _, parent => .gt
  | name a, name b => compare a b

/-- Cuts a text at every slash. -/
def cutAtSlash : List Char → List (List Char)
  | [] => [[]]
  | c :: rest =>
      if c = '/' then [] :: cutAtSlash rest
      else
        match cutAtSlash rest with
        | [] => [[c]]
        | first :: others => (c :: first) :: others

namespace Path

/-- Whether the path begins at the root folder. -/
def isAbsolute (p : Path) : Bool :=
  p.text.toList.head? == some '/'

/-- The parts of a path between its slashes, empty ones included. -/
def segments (p : Path) : List String :=
  (cutAtSlash p.text.toList).map String.ofList

/-- The component that a segment after the first one stands for, if any. -/
def componentOf (segment : String) : Option Component :=
  if segment = "" ∨ segment = "." then none
  else if segment = ".." then some .parent
  else some (.name segment)

/-- The components of a path. -/
def components (p : Path) : List Component :=
  let start : List Component :=
    if p.isAbsolute then [.root]
    else if p.segments.head? = some "." then [.current]
    else []
  start ++ p.segments.filterMap componentOf

/-- Whether two paths have the same components. -/
def same (p q : Path) : Bool :=
  p.components == q.components

/-- The lexicographic order of two lists of components. -/
def orderComponents : List Component → List Component → Ordering
  | [], [] => .eq
  | [], _ :: _ => .lt
  | _ :: _, [] => .gt
  | a :: as, b :: bs => (a.order b).then (orderComponents as bs)

/-- The order of two paths by their components. -/
def order (p q : Path) : Ordering :=
  orderComponents p.components q.components

/-- A path below a folder. An absolute path stays as it is. -/
def join (folder p : Path) : Path :=
  if p.isAbsolute then p
  else if folder.text = "" ∨ folder.text.toList.getLast? = some '/' then ⟨folder.text ++ p.text⟩
  else ⟨folder.text ++ "/" ++ p.text⟩

end Path

end LintRepair
