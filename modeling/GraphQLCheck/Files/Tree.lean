/-
  GraphQLCheck.Files.Tree
  ───────────────────────
  Files and directories as values.

      FileNode.find?  — what a path leads to, from a directory
      FileNode.walk   — a node and everything under it, each with its path
      FileNode.text   — the text of a file

  Whatever reads files takes a function from paths to nodes, so that it is a function of what the
  files hold.
-/
import GraphQLCheck.Text.Quoted
import GraphQLCheck.Text.Utf8

namespace GraphQLCheck

/-! ## §1. Nodes. -/

/-- A file or a directory. -/
inductive FileNode where
  | file (bytes : List UInt8)
  /-- Names and what they stand for, in the order in which the directory is walked. -/
  | directory (entries : List (String × FileNode))
  /-- A file that exists and cannot be read. -/
  | unreadable (reason : String)
  deriving Inhabited

/-- What paths lead to. -/
abbrev FileLookup := String → Option FileNode

namespace FileNode

/-- Whether the node is a file. -/
def isFile : FileNode → Bool
  | .directory _ => false
  | _ => true

/-- The entries of a directory. -/
def entries? : FileNode → Option (List (String × FileNode))
  | .directory entries => some entries
  | _ => none

/-- The names between the slashes of a path. -/
def pathNames (path : String) : List String :=
  (path.splitToList (· == '/'))

/-- Follow names from a directory.  `.` and an empty name stay, `..` goes back; each needs a
directory to be in.  `above` holds the directories passed, the nearest first. -/
def follow (above : List FileNode) (node : FileNode) : List String → Option FileNode
  | [] => some node
  | name :: names => do
    let entries ← node.entries?
    if name == "" || name == "." then follow above node names
    else if name == ".." then
      match above with
      | parent :: above => follow above parent names
      | [] => none
    else
      let next ← entries.lookup name
      follow (node :: above) next names

/-- What a path leads to, from a directory.  A path that begins with a slash starts elsewhere. -/
def find? (root : FileNode) (path : String) : Option FileNode :=
  if path.isEmpty || path.startsWith "/" then none else follow [] root (pathNames path)

/-- Put a node under the names of a path, making the directories on the way. -/
def insert (node : FileNode) : List String → FileNode → FileNode
  | [], _ => node
  | name :: names, parent =>
    let entries := parent.entries?.getD []
    let below := (entries.lookup name).getD (.directory [])
    .directory (replace entries name (insert node names below))
where
  replace (entries : List (String × FileNode)) (name : String) (node : FileNode) :
      List (String × FileNode) :=
    match entries with
    | [] => [(name, node)]
    | entry :: rest => if entry.1 = name then (name, node) :: rest else entry :: replace rest name node

/-- The directory that holds the listed paths.  A path that ends in a slash is an empty
directory. -/
def ofListing (listing : List (String × FileNode)) : FileNode :=
  listing.foldl (fun root (path, node) => insert node (names path) root) (.directory [])
where
  names (path : String) : List String := (pathNames path).filter fun name => name != "" && name != "."

/-- The path of an entry of a directory. -/
def joinPath (directory name : String) : String :=
  if directory.endsWith "/" then directory ++ name else directory ++ "/" ++ name

mutual
/-- A node and everything under it, each with its path; a directory comes before its entries. -/
def walk (path : String) : FileNode → List (String × FileNode)
  | .directory entries => (path, .directory entries) :: walkEntries path entries
  | .file bytes => [(path, .file bytes)]
  | .unreadable reason => [(path, .unreadable reason)]
/-- The walk over the entries of a directory. -/
def walkEntries (path : String) : List (String × FileNode) → List (String × FileNode)
  | [] => []
  | (name, node) :: entries => walk (joinPath path name) node ++ walkEntries path entries
end

/-- The extension of a path: what follows the last point of its last name, if a character stands
before the point. -/
def extension? (path : String) : Option String :=
  match ((pathNames path).filter fun name => name != "" && name != ".").getLast? with
  | none => none
  | some name =>
    -- the extension comes first, reversed, and then the point
    let (reversed, rest) := name.toList.reverse.span (· != '.')
    match rest with
    | _ :: _ :: _ => if name = ".." then none else some (String.ofList reversed.reverse)
    | _ => none

end FileNode

/-! ## §2. Reading. -/

/-- Why a file does not yield a text. -/
inductive FileError where
  /-- The file is no UTF-8 text. -/
  | undecodable (path : String) (cause : Text.Utf8Error)
  /-- The file cannot be read. -/
  | unreadable (path reason : String)
  /-- There is no such file. -/
  | notAFile (path : String)
  deriving DecidableEq, Repr

namespace FileError

/-- The text of a file error. -/
def message : FileError → String
  | .undecodable path _ => "The contents of " ++ Text.quotePath path ++ " are not valid UTF-8"
  | .unreadable path _ => "Failed to read " ++ Text.quotePath path
  | .notAFile path => Text.quotePath path ++ " is not a file"

/-- The text of what led to a file error. -/
def cause? : FileError → Option String
  | .undecodable _ cause => some cause.message
  | .unreadable _ reason => some reason
  | .notAFile _ => none

end FileError

/-- The bytes of the file at a path. -/
def FileNode.bytes (path : String) : Option FileNode → Except FileError (List UInt8)
  | some (.file bytes) => .ok bytes
  | some (.unreadable reason) => .error (.unreadable path reason)
  | some (.directory _) | none => .error (.notAFile path)

/-- The text of the file at a path. -/
def FileNode.text (path : String) (node : Option FileNode) : Except FileError String := do
  match Text.Utf8.decode (← FileNode.bytes path node) with
  | .ok text => .ok text
  | .error cause => .error (.undecodable path cause)

end GraphQLCheck
