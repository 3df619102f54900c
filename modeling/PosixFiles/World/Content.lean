/-
Opening files, and the ways in which their contents come about.

A handle stands for what is still to be delivered: the bytes of a file,
or the entries of a directory. Both are settled when the file is opened,
since only the process itself changes anything. Opening never waits: there
is nobody else who might open the other end of a fifo.

System parameters are files too. Whoever supplies one needs no permission
at the top of their directory, and below it the ordinary ones.
-/
import PosixFiles.Call
import PosixFiles.World.Create

namespace PosixFiles

/-- What a handle still delivers. -/
inductive Stream where
  /-- The bytes of a file. -/
  | bytes (rest : Bytes)
  /-- The entries of a directory. -/
  | entries (dir : Ino) (rest : List StreamEntry)
  deriving DecidableEq

/-- How much a stream still delivers. -/
def Stream.length : Stream → Nat
  | .bytes rest => rest.length
  | .entries _ rest => rest.length

namespace World

variable (w : World)

/-- The hint that a directory gives at the type of a file. -/
def hintOf (i : Ino) : UInt8 :=
  match w.body? i with
  | some (.regular _) => 8
  | some (.directory _) => 4
  | some (.symlink _) => 10
  | some .fifo => 1
  | some .socket => 12
  | none => 0

/-- What a directory lists: itself, the directory above, and its entries.
A deleted directory lists nothing. -/
def listing (i : Ino) (d : Directory) : List StreamEntry :=
  if d.deleted then []
  else
    ⟨Name.self, w.hintOf i⟩ :: ⟨Name.parent, w.hintOf d.parent⟩
      :: d.entries.map fun e => ⟨e.1, w.hintOf e.2⟩

/-- What opening a file for reading delivers. A directory can be opened,
and delivers its entries, not bytes; a fifo is opened as if somebody had
written nothing to it, and a link has been followed by then. -/
def openFile (p : Path) : Except Refusal Stream := do
  let i ← w.file true p
  if !w.allows i .read then .error .denied
  else match w.body? i with
    | some (.regular content) => .ok (.bytes content)
    | some (.directory d) => .ok (.entries i (w.listing i d))
    | some .fifo => .ok (.bytes [])
    | some .socket => .error .noDevice
    | some (.symlink _) => .error .tooManyLinks
    | none => .error .noEntry

/-- What opening a directory delivers. -/
def opendir (p : Path) : Except Refusal Stream := do
  let i ← w.file true p
  match w.directory? i with
  | none => .error .notDirectory
  | some d => if w.allows i .read then .ok (.entries i (w.listing i d)) else .error .denied

-- =============================================== contents from elsewhere

/-- The permissions of a file after it was written to: writing takes away
the bits with which it would run as somebody else. -/
def withoutSetId (permissions : UInt32) : UInt32 :=
  let kept := permissions &&& ~~~0o4000
  if kept &&& 0o2010 = 0o2010 then kept &&& ~~~0o2000 else kept

/-- Creates a file with the given contents. -/
def createFile (dir : Ino) (n : Name) (content : Bytes) : World :=
  let (w', i) := w.addNode (.regular content) (0o666 &&& ~~~w.mask)
  w'.enter dir n i

/-- Replaces the contents of a file. A fifo swallows what is written. -/
def overwrite (i : Ino) (content : Bytes) : Except Refusal World :=
  if w.isDirectory i then .error .isDirectory
  else if !w.allows i .write then .error .denied
  else match w.body? i with
    | some .socket => .error .noDevice
    | some (.regular _) =>
        .ok (w.modify i fun f =>
          { f with body := .regular content
                   permissions := withoutSetId f.permissions
                   mtime := w.now, ctime := w.now })
    | _ => .ok w

/-- Replaces the contents of a file, creating it if need be, also where a
link leads to nothing yet. A slash at the end, of the path or of a link,
is refused whatever comes before it. -/
def write (p : Path) (content : Bytes) : Except Refusal World := do
  let s ← w.spotFrom w.cwd (fun slash => !slash) p
  match s.last with
  | none => .error .isDirectory
  | some n =>
      if s.slash || n.isDots then .error .isDirectory
      else match ← w.lookup s.dir n with
        | none => do
            w.mayEdit s.dir
            .ok (w.createFile s.dir n content)
        | some i => w.overwrite i content

/-- Creates a socket, as binding one does. -/
def bindSocket (p : Path) : Except Refusal World :=
  match w.create p false fun _ => (.socket, 0o777 &&& ~~~w.mask) with
  | .error .exists => .error .addressInUse
  | r => r

-- ================================================================= start

/-- Directories of the world at the start, apart from the root. -/
private def bareDirectory (parent : Ino) (entries : List (Name × Ino)) (permissions : UInt32)
    (owned : Bool) (now : Timespec) : Node :=
  ⟨.directory { parent := parent, entries := entries }, permissions, owned, [], now, now, now⟩

/-- The directory that holds the system parameters at the start. -/
def parameterDirectory : Ino := 4

/-- An empty working directory `w`, of which the process owns also the
directory above, but may not write to that one. The root and the
directory of system parameters belong to somebody else. -/
def start (now : Timespec) : World where
  nodes := #[
    bareDirectory root [(Bytes.ofString "home", 1), (Bytes.ofString "proc", 3)] 0o755 false now,
    bareDirectory root [(Bytes.ofString "w", 2)] 0o555 true now,
    bareDirectory 1 [] 0o755 true now,
    bareDirectory root [(Bytes.ofString "sys", parameterDirectory)] 0o555 false now,
    bareDirectory 3 [] 0o555 false now]
  cwd := 2
  mask := 0o022
  now := now

-- ===================================================== system parameters

/-- Whether a system parameter, or a directory for some, may be added to a
directory. At the top it always may. -/
def maySupply (dir : Ino) : Except Refusal Unit :=
  if dir = parameterDirectory then .ok () else w.mayEdit dir

/-- Writes a file below a directory, creating the directories on the way
with all the permissions that the mask leaves. Directories that were
created stay, even if the file is refused. A file in the place of the
last directory counts as there already, higher up as no directory. -/
def supplyBelow (content : Bytes) : World → Ino → List Name → Except Refusal Unit × World
  | w, _, [] => (.error .isDirectory, w)
  | w, dir, n :: rest =>
      if !w.allows dir .search then (.error .denied, w)
      else match w.lookup dir n with
        | .error e => (.error e, w)
        | .ok (some i) =>
            if rest = [] then
              match w.overwrite i content with
              | .ok w' => (.ok (), w')
              | .error e => (.error e, w)
            else if w.isDirectory i then supplyBelow content w i rest
            else (.error (if rest.length = 1 then .exists else .notDirectory), w)
        | .ok none =>
            match w.maySupply dir with
            | .error e => (.error e, w)
            | .ok () =>
                if rest = [] then (.ok (), w.createFile dir n content)
                else
                  let (w', i) :=
                    w.addNode (.directory { parent := dir }) (0o777 &&& ~~~w.mask)
                  supplyBelow content (w'.enter dir n i) i rest

/-- Writes the file of a system parameter. -/
def supply (p : Path) (content : Bytes) : Except Refusal Unit × World :=
  supplyBelow content w parameterDirectory p.components

end World
end PosixFiles
