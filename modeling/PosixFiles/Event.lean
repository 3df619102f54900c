/-
Events: what an operation notes while it runs, beside its result.

An event is data. Level, wording and fields follow from it and are of no
consequence to the operation that emits it.
-/
import PosixFiles.Errno.Description
import PosixFiles.Path
import PosixFiles.Text.Quoted

namespace PosixFiles

/-- Something an operation noted. -/
inductive Event where
  /-- A failure to get a status was kept as data. -/
  | statCaptured (path : Path) (errno : Errno)
  /-- What was to be deleted is gone already. -/
  | alreadyGone (path : Path) (errno : Errno)
  /-- Times are set in the older, coarser way. -/
  | coarseTimes (path : Path)
  /-- What was to be created exists already. -/
  | targetExists (path : Path)
  /-- A missing ancestor was created. -/
  | parentCreated (path : Path)
  /-- A missing ancestor was created by somebody else in the meantime. -/
  | parentAppeared (path : Path)
  /-- The directory itself was created. -/
  | directoryCreated (path : Path)
  /-- Reading a directory failed for the moment and goes on. -/
  | transientListing (path : Path) (errno : Errno)
  /-- The type of an entry could not be found out. -/
  | typeUnresolved (name : Name) (errno : Errno)
  /-- A directory was listed. -/
  | listed (path : Path) (count : Nat)
  /-- A file has no such attribute. -/
  | attributeAbsent (path : Path) (name : Bytes)
  /-- The digest of a file was computed. -/
  | digested (path : Path) (bytes : Nat)
  deriving DecidableEq, Repr

namespace Event

/-- How loud an event is. -/
inductive Level where
  | trace
  | debug
  deriving DecidableEq, Repr

def Level.name : Level → String
  | .trace => "TRACE"
  | .debug => "DEBUG"

/-- The value of a field. -/
inductive Field where
  | number (n : Int)
  | text (s : String)
  deriving DecidableEq, Repr

def level : Event → Level
  | .alreadyGone .. | .coarseTimes .. | .parentAppeared ..
  | .transientListing .. => .debug
  | .statCaptured .. | .targetExists .. | .parentCreated ..
  | .directoryCreated .. | .typeUnresolved .. | .listed ..
  | .attributeAbsent .. | .digested .. => .trace

def message : Event → String
  | .statCaptured .. => "stat captured error"
  | .alreadyGone .. => "delete target already gone"
  | .coarseTimes .. => "utimensat unavailable, using utime"
  | .targetExists .. => "mkdir target exists"
  | .parentCreated .. => "created parent"
  | .parentAppeared .. => "parent created concurrently"
  | .directoryCreated .. => "created directory"
  | .transientListing .. => "transient readdir error, continuing"
  | .typeUnresolved .. => "entry type unresolved"
  | .listed .. => "read_dir"
  | .attributeAbsent .. => "xattr absent"
  | .digested .. => "md5 computed"

/-- A code as a number field. -/
private def codeField (e : Errno) : String × Field :=
  ("errno", .number e.code.toInt)

/-- A path in quotation marks. -/
private def pathField (p : Path) : String × Field :=
  ("path", .text (Quoted.ofPath p))

def fields : Event → List (String × Field)
  | .statCaptured p e => [pathField p, codeField e]
  | .alreadyGone p e => [pathField p, codeField e]
  | .coarseTimes p => [pathField p]
  | .targetExists p => [pathField p]
  | .parentCreated p => [pathField p]
  | .parentAppeared p => [pathField p]
  | .directoryCreated p => [pathField p]
  | .transientListing p e => [pathField p, codeField e]
  | .typeUnresolved n e =>
      [("name", .text (Quoted.ofName n)),
       ("err", .text (e.description ++ " (os error " ++ toString e.code.toInt ++ ")"))]
  | .listed p n => [pathField p, ("count", .number n)]
  | .attributeAbsent p n => [pathField p, ("name", .text (Quoted.ofString (lossy n)))]
  | .digested p n => [pathField p, ("bytes", .number n)]

end Event
end PosixFiles
