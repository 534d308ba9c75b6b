import Cast.Foundation.Machine
import Cast.Foundation.Paths

/-! Declaration sources and the directory they are loaded from, as
`declarative_config/src/source.rs` and `diagnostic.rs` have them. The directory is a finite map
from relative paths to texts that does not change while it is read; descriptors, links, retained
directories and interrupted reads are left out. A path is the list of its components. -/

namespace Cast.DeclarativeConfig

open Foundation

abbrev Text := List Char

def numeral (number : Nat) : Text := number.repr.toList

/-! ### Diagnostics -/

inductive DiagnosticCategory where
  | parse
  | type
  | imports
  | io
  | limit
  | runtime
  | internal

inductive LimitKind where
  | sourceSize
  | explicitInputSize
  | importedFileSize
  | importCount
  | importGraphSize
  | memory
  | stack
  | time

structure Diagnostic where
  category : DiagnosticCategory
  limit : Option LimitKind
  sourceName : Option Text
  message : Text

namespace Diagnostic

def ofLimit (kind : LimitKind) (sourceName : Option Text) (message : Text) : Diagnostic :=
  ⟨.limit, some kind, sourceName, message⟩

def ofIo (sourceName : Option Text) (error : Text) : Diagnostic := ⟨.io, none, sourceName, error⟩

def ofImport (sourceName : Option Text) (message : Text) : Diagnostic := ⟨.imports, none, sourceName, message⟩

end Diagnostic

/-! ### Sources -/

structure Source where
  logicalName : Text
  text : Text
deriving DecidableEq

/-- The regular files beneath a directory, by the names on the way to them. -/
structure SourceRoot where
  files : SortedMap (List Text) Text

inductive SourceNode where
  | file (text : Text)
  | directory

/-- Only the names of a relative path remain; `None` where it would leave the root. -/
def normalNames : List Component → Option (List Text)
  | [] => some []
  | .normal name :: rest => (normalNames rest).map (name :: ·)
  | .curDir :: rest => normalNames rest
  | .parentDir :: _ => none
  | .rootDir :: _ => none

/-- An error of a load, under the category of imports where it was one. -/
def sourceError (isImport : Bool) (sourceName : Text) (message : Text) : Diagnostic :=
  if isImport then .ofImport (some sourceName) message else .ofIo (some sourceName) message

def normalizeRelative (path : List Component) (isImport : Bool) : Except Diagnostic (List Text) := do
  let normalized ← okOr (normalNames path) (sourceError isImport (displayPath path)
    "source path must be relative and cannot contain parent traversal".toList)
  refuse (normalized = []) (sourceError isImport (displayPath path) "source path is empty".toList)
  pure normalized

def loadError (logicalName error : Text) (isImport : Bool) : Diagnostic :=
  if isImport then
    .ofImport (some logicalName) ("configuration import cannot be loaded: ".toList ++ error)
  else .ofIo (some logicalName) error

/-- The name of a source: its path, with a slash for every backslash in a file name. -/
def logicalNameOf (relative : List Text) : Text :=
  (['/'].intercalate relative).map fun char => if char = '\\' then '/' else char

namespace SourceRoot

def openFile (root : SourceRoot) (relative : List Text) : Except Text SourceNode :=
  if relative.any (·.contains '\x00') then .error "source path contains a NUL byte".toList
  else
    match root.files.find? relative with
    | some text => .ok (.file text)
    | none =>
      if root.files.entries.any fun entry => relative.isPrefixOf entry.1 then .ok .directory
      else if root.files.entries.any fun entry => entry.1.isPrefixOf relative then
        .error "Not a directory (os error 20)".toList
      else .error "No such file or directory (os error 2)".toList

def loadInner (root : SourceRoot) (relative : List Component) (maxBytes : Nat)
    (limitKind : LimitKind) (isImport : Bool) : Except Diagnostic Source := do
  let relative ← normalizeRelative relative isImport
  let logicalName := logicalNameOf relative
  let node ← (root.openFile relative).mapError (loadError logicalName · isImport)
  match node with
  | .directory => .error (sourceError isImport logicalName "source path is not a regular file".toList)
  | .file text => do
    refuse (maxBytes < byteLength text) (.ofLimit limitKind (some logicalName)
      ("source exceeds the ".toList ++ numeral maxBytes ++ "-byte limit".toList))
    pure ⟨logicalName, text⟩

def loadImport (root : SourceRoot) (relative : List Component) (maxBytes : Nat) : Except Diagnostic Source :=
  root.loadInner relative maxBytes .importedFileSize true

end SourceRoot

end Cast.DeclarativeConfig
