import TableQuery.Text.Percent

namespace TableQuery.Connection

open Text (Bytes bytes)

/-- What may be done with the file of a database. -/
inductive Access
  | read
  | write
  /-- A missing file is made. -/
  | create
deriving DecidableEq, Repr

/-- What a database is to be opened with: its file and the file system that holds it. -/
structure Opening where
  path : Bytes
  access : Access
  inMemory : Bool
  fileSystem : Option Bytes := none
deriving DecidableEq, Repr

/-- A text as far as the first zero byte. -/
def untilZero (bs : Bytes) : Bytes :=
  bs.takeWhile (· ≠ 0)

namespace Opening

/-- The mode that a parameter asks for, which must not allow more than is allowed already. -/
def setMode (o : Opening) (value : Bytes) : Option Opening :=
  if value = bytes "ro" then some { o with access := .read, inMemory := false }
  else if value = bytes "rw" then
    if o.access = .read && !o.inMemory then none
    else some { o with access := .write, inMemory := false }
  else if value = bytes "rwc" then
    if o.access != .create && !o.inMemory then none
    else some { o with access := .create, inMemory := false }
  else if value = bytes "memory" then some { o with inMemory := true }
  else none

/-- The opening with one parameter of a file's URI. Unknown parameters do not count. -/
def set (o : Opening) (name value : Bytes) : Option Opening :=
  if name = bytes "mode" then o.setMode value
  else if name = bytes "cache" then
    if value = bytes "shared" || value = bytes "private" then some o else none
  else if name = bytes "vfs" then some { o with fileSystem := some value }
  else some o

/-- The part of a URI behind the host, which can only be this one. -/
def withoutHost (bs : Bytes) : Option Bytes :=
  match bs with
  | 47 :: 47 :: rest =>
    let host := rest.takeWhile (· ≠ 47)
    if host.isEmpty || host = bytes "localhost" then some (rest.drop host.length) else none
  | bs => some bs

/-- The opening when the name of the file is a URI. A fragment does not count. -/
def ofUri? (o : Opening) (bs : Bytes) : Option Opening := do
  let rest ← withoutHost bs
  let (path, query) := Text.splitFirst 63 (Text.splitFirst 35 rest).1
  let decoded (bs : Bytes) : Bytes := untilZero (Text.percentDecoded bs)
  let entries := (Text.parameters (query.getD [])).map fun entry =>
    (decoded entry.1, decoded entry.2)
  (entries.filter fun entry => !entry.1.isEmpty).foldlM (fun o entry => o.set entry.1 entry.2)
    { o with path := decoded path }

/-- The opening of a name as the store takes it. A name with a zero byte is none. -/
def resolved? (o : Opening) : Option Opening :=
  if o.path.contains 0 then none
  else if (bytes "file:").isPrefixOf o.path then o.ofUri? (o.path.drop 5)
  else some o

/-- The file systems a database can be opened through. -/
def fileSystems : List Bytes :=
  ["unix", "unix-none", "unix-dotfile", "unix-excl", "memdb"].map bytes

/-- The directories that are there, by their parts. -/
def directories : List (List Bytes) :=
  [[], [bytes "tmp"]]

/-- The parts of a path below its start, dots resolved. -/
def pathParts (parts : List Bytes) : List Bytes :=
  (parts.foldl (fun done part =>
    if part.isEmpty || part = bytes "." then done
    else if part = bytes ".." then done.drop 1
    else part :: done) []).reverse

/-- Whether a file can be made at a path: its directory is there, it is no directory itself, and
its name is not too long. -/
def creatable (path : Bytes) : Bool :=
  let parts := Text.splitAtEach 47 path
  let file := parts.getLast?.getD []
  let directory := pathParts parts.dropLast
  let there := if path.head? = some 47 then directories.contains directory else directory.isEmpty
  there && !file.isEmpty && file != bytes "." && file != bytes ".." && file.length ≤ 255 &&
    !(path.head? = some 47 && directories.contains (pathParts parts))

/-- Whether the database can be opened. One without a file always can; no file is there before. -/
def possible (o : Opening) : Bool :=
  (match o.fileSystem with
    | none => true
    | some name => fileSystems.contains name) &&
  (o.inMemory || o.path.isEmpty || o.path = bytes ":memory:" ||
    o.fileSystem = some (bytes "memdb") || (o.access = .create && creatable o.path))

end Opening

end TableQuery.Connection
