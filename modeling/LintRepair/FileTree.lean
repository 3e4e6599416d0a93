import LintRepair.Path

/-!
File trees.

The files and folders below a working folder, and what the system answers when they are asked for.
A path is walked segment by segment; whatever lies above the working folder is known to be a folder
but not what it holds.

* `IoError`: the causes for which the system refuses a request, with their texts.
* `FileStore`: what a store of files can be asked.
* `FileTree.locate`: where a path leads.
* `FileTree.place`, `FileTree.makeFolder`, `FileTree.erase`: how a tree is set up.
-/

namespace LintRepair

/-- Why the system refuses a request. -/
inductive IoError where
  | notFound
  | notAFolder
  | isAFolder
  | nameTooLong
  /-- The bytes of a text are not valid UTF-8. -/
  | invalidText
  /-- The path holds a NUL. -/
  | nulInPath
  /-- Any other cause, by its text. -/
  | other (text : String)
deriving DecidableEq

/-- The text of a refused request. -/
def IoError.message : IoError → String
  | notFound => "No such file or directory (os error 2)"
  | notAFolder => "Not a directory (os error 20)"
  | isAFolder => "Is a directory (os error 21)"
  | nameTooLong => "File name too long (os error 36)"
  | invalidText => "stream did not contain valid UTF-8"
  | nulInPath => "file name contained an unexpected NUL byte"
  | other text => text

/-- What a path can name. -/
inductive FileKind where
  | file
  | folder
deriving DecidableEq

/-- What a store of files can be asked. -/
class FileStore (σ : Type) where
  /-- What a path names, if anything. -/
  kind : σ → Path → Option FileKind
  /-- The bytes of a file. -/
  read : σ → Path → Except IoError ByteArray
  /-- Gives a file new bytes. -/
  write : σ → Path → ByteArray → Except IoError σ

/-- The text that bytes encode. -/
def decodeText (bytes : ByteArray) : Except IoError String :=
  match String.fromUTF8? bytes with
  | some text => .ok text
  | none => .error .invalidText

/-- A file with its bytes, or a folder. -/
inductive Node where
  | file (bytes : ByteArray)
  | folder

/-- The nodes below a working folder, by the names that lead to them. -/
structure FileTree where
  nodes : List (List String × Node)

/-- Where a walk stands. -/
inductive Location where
  /-- Below the working folder, at the end of these names. -/
  | inside (names : List String)
  /-- In a folder that does not lie below the working folder. -/
  | outside
deriving DecidableEq

namespace FileTree

/-- The tree of an empty working folder. -/
def empty : FileTree := ⟨[]⟩

/-- The longest name that a node can have, in bytes. -/
def longestName : Nat := 255

/-- A path must be shorter than this, in bytes. -/
def pathBound : Nat := 4096

/-- The node that names lead to. No names lead to the working folder. -/
def node? (tree : FileTree) (names : List String) : Option Node :=
  if names.isEmpty then some .folder else tree.nodes.lookup names

/-- Goes on to a child of a folder. -/
def enter (tree : FileTree) (name : String) : Location → Except IoError Location
  | .outside => if longestName < name.utf8ByteSize then .error .nameTooLong else .error .notFound
  | .inside names =>
      match tree.node? names with
      | none => .error .notFound
      | some (.file _) => .error .notAFolder
      | some .folder =>
          if longestName < name.utf8ByteSize then .error .nameTooLong
          else if (tree.node? (names ++ [name])).isSome then .ok (.inside (names ++ [name]))
          else .error .notFound

/-- Makes sure that a walk stands in a folder. -/
def inFolder (tree : FileTree) (location : Location) : Except IoError Location :=
  match location with
  | .outside => .ok .outside
  | .inside names =>
      match tree.node? names with
      | some .folder => .ok location
      | some (.file _) => .error .notAFolder
      | none => .error .notFound

/-- The folder above a location. -/
def above : Location → Location
  | .outside => .outside
  | .inside [] => .outside
  | .inside names => .inside names.dropLast

/-- Walks along the segments of a path. -/
def walk (tree : FileTree) : List String → Location → Except IoError Location
  | [], location => .ok location
  | segment :: rest, location =>
      let step :=
        if segment = "" ∨ segment = "." then tree.inFolder location
        else if segment = ".." then (tree.inFolder location).map above
        else tree.enter segment location
      match step with
      | .error e => .error e
      | .ok location' => tree.walk rest location'

/-- The causes to refuse a path before any look at the tree. -/
def checkPath (path : Path) : Except IoError Unit :=
  if path.text.toList.contains '\x00' then .error .nulInPath
  else if path.text = "" then .error .notFound
  else if pathBound ≤ path.text.utf8ByteSize then .error .nameTooLong
  else .ok ()

/-- The location where the walk along a path begins. -/
def origin (path : Path) : Location :=
  if path.isAbsolute then .outside else .inside []

/-- Where a path leads. -/
def locate (tree : FileTree) (path : Path) : Except IoError Location :=
  match checkPath path with
  | .error e => .error e
  | .ok () => tree.walk path.segments (origin path)

/-- What a path names. -/
def kind (tree : FileTree) (path : Path) : Option FileKind :=
  match tree.locate path with
  | .error _ => none
  | .ok .outside => some .folder
  | .ok (.inside names) =>
      match tree.node? names with
      | some (.file _) => some .file
      | some .folder => some .folder
      | none => none

/-- The bytes of the file that a path names. -/
def read (tree : FileTree) (path : Path) : Except IoError ByteArray :=
  match tree.locate path with
  | .error e => .error e
  | .ok .outside => .error .isAFolder
  | .ok (.inside names) =>
      match tree.node? names with
      | some (.file bytes) => .ok bytes
      | some .folder => .error .isAFolder
      | none => .error .notFound

/-- The tree with a node at the end of these names. -/
def setNode (tree : FileTree) (names : List String) (node : Node) : FileTree :=
  if (tree.nodes.lookup names).isSome then
    ⟨tree.nodes.map fun entry => if entry.1 = names then (names, node) else entry⟩
  else ⟨tree.nodes ++ [(names, node)]⟩

/-- The names that lead to a new file at a path whose folder is there. -/
def newFile (tree : FileTree) (path : Path) : Except IoError (List String) :=
  match tree.walk path.segments.dropLast (origin path), path.segments.getLast? with
  | .error e, _ => .error e
  | .ok (.inside names), some name => .ok (names ++ [name])
  | _, _ => .error .notFound

/-- Gives the file at a path new bytes. The file is made if its folder is there. -/
def write (tree : FileTree) (path : Path) (bytes : ByteArray) : Except IoError FileTree :=
  match tree.locate path with
  | .ok .outside => .error .isAFolder
  | .ok (.inside names) =>
      match tree.node? names with
      | some (.file _) => .ok (tree.setNode names (.file bytes))
      | _ => .error .isAFolder
  | .error .notFound =>
      match checkPath path, tree.newFile path with
      | .error e, _ => .error e
      | .ok (), .error e => .error e
      | .ok (), .ok names =>
          if names.getLast? = some "" then .error .isAFolder
          else .ok (tree.setNode names (.file bytes))
  | .error e => .error e

instance : FileStore FileTree where
  kind := kind
  read := read
  write := write

/-! ### Setting up a tree -/

/-- Makes sure that there is a folder at the end of some names, if nothing else is there. -/
def addFolder (tree : FileTree) (names : List String) : FileTree :=
  if (tree.node? names).isSome then tree else tree.setNode names .folder

/-- Walks along segments and makes the folders that are missing on the way, those that two dots
leave again included. -/
def makeWay (tree : FileTree) : List String → List String → List String × FileTree
  | [], names => (names, tree)
  | segment :: rest, names =>
      if segment = "" ∨ segment = "." then tree.makeWay rest names
      else if segment = ".." then tree.makeWay rest names.dropLast
      else (tree.addFolder (names ++ [segment])).makeWay rest (names ++ [segment])

/-- Makes a folder with the folders that lead to it. -/
def makeFolder (tree : FileTree) (path : Path) : FileTree :=
  (tree.makeWay path.segments []).2

/-- Puts a file into the tree with the folders that lead to it. -/
def place (tree : FileTree) (path : Path) (bytes : ByteArray) : FileTree :=
  let (folder, tree') := tree.makeWay path.segments.dropLast []
  tree'.setNode (folder ++ path.segments.getLast?.toList) (.file bytes)

/-- Takes the file at a path out of the tree. -/
def erase (tree : FileTree) (path : Path) : FileTree :=
  match tree.kind path, tree.locate path with
  | some .file, .ok (.inside names) => ⟨tree.nodes.filter (·.1 ≠ names)⟩
  | _, _ => tree

/-- The files of a tree with their bytes, in the order of their path texts. -/
def files (tree : FileTree) : List (String × ByteArray) :=
  (tree.nodes.filterMap fun entry =>
    match entry.2 with
    | .file bytes => some ("/".intercalate entry.1, bytes)
    | .folder => none).mergeSort fun a b => decide (a.1 ≤ b.1)

end FileTree

end LintRepair
