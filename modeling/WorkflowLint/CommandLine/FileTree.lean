/-
Files as the command line sees them.

`Entry` is what a path given as an argument leads to. A `FileTree` is a working directory as data: files by the names of
the directories down to them. It answers what is at a relative path the way a file system does: `.` stays, `..` goes up,
every name but the last must be a directory's, and so must the last before a slash.
-/

namespace WorkflowLint.CommandLine

/-- what is in a file -/
inductive Content where
  | text (chars : List Char)
  /-- bytes that are no UTF-8 -/
  | binary
deriving DecidableEq, Repr

def Content.ofBytes (bytes : ByteArray) : Content :=
  match String.fromUTF8? bytes with
  | some s => .text s.toList
  | none => .binary

/-- what a path leads to -/
inductive Entry where
  | missing
  | file (content : Content)
  /-- a directory, by the regular files directly inside -/
  | directory (files : List (String × Content))
deriving DecidableEq, Repr

/-- a working directory: files by their path, and directories, of which those above something need not be listed -/
structure FileTree where
  files : List (List String × Content)
  directories : List (List String)
deriving Repr

namespace FileTree

/-- the names in a path; empty ones and `.` lead nowhere -/
def names (path : String) : List String :=
  (path.splitOn "/").filter fun name => name != "" && name != "."

def insertFile (tree : FileTree) (path : String) (content : Content) : FileTree :=
  let key := names path
  { tree with files := (tree.files.filter fun file => file.1 != key) ++ [(key, content)] }

def insertDirectory (tree : FileTree) (path : String) : FileTree :=
  { tree with directories := tree.directories ++ [names path] }

def empty : FileTree := ⟨[], []⟩

def isDirectory (tree : FileTree) (place : List String) : Bool :=
  place.isEmpty || tree.directories.any (fun path => place.isPrefixOf path) ||
    tree.files.any fun file => place.isPrefixOf file.1 && place.length < file.1.length

/-- the regular files directly inside a directory -/
def filesIn (tree : FileTree) (place : List String) : List (String × Content) :=
  tree.files.filterMap fun (path, content) =>
    match path.getLast? with
    | some name => if path.dropLast = place then some (name, content) else none
    | none => none

/-- the directory that names lead to, from a directory on -/
def walk (tree : FileTree) : List String → List String → Option (List String)
  | place, [] => some place
  | place, name :: rest =>
    if name = "" ∨ name = "." then walk tree place rest
    else if name = ".." then
      if place.isEmpty then none else walk tree place.dropLast rest
    else
      let next := place ++ [name]
      if tree.isDirectory next then walk tree next rest else none

/-- what a relative path leads to -/
def look (tree : FileTree) (path : String) : Entry :=
  match (path.splitOn "/").reverse with
  | [] => .missing
  | last :: before =>
    let directory (place : Option (List String)) : Entry :=
      match place with
      | some place => .directory (tree.filesIn place)
      | none => .missing
    if path = "" ∨ path.startsWith "/" then .missing
    else
      match tree.walk [] before.reverse with
      | none => .missing
      | some place =>
        if last = "" ∨ last = "." ∨ last = ".." then directory (tree.walk place [last])
        else
          match tree.files.lookup (place ++ [last]) with
          | some content => .file content
          | none => directory (tree.walk place [last])

end FileTree

end WorkflowLint.CommandLine
