import TableQuery.Connection.File

namespace TableQuery

/-- Why a database cannot be opened. -/
inductive ConnectionFault
  | invalidUrl (url : String)
  | unreachable (url : String)
deriving DecidableEq, Repr

def ConnectionFault.message : ConnectionFault → String
  | invalidUrl url => "Invalid database URL " ++ url
  | unreachable url => "Failed to connect to " ++ url

namespace Connection

open Text (Bytes bytes)

/-- A text without the mark at its start, however often it stands there. -/
def dropEach (mark : Bytes) : Nat → Bytes → Bytes
  | 0, bs => bs
  | fuel + 1, bs =>
    if mark.isPrefixOf bs then dropEach mark fuel (bs.drop mark.length) else bs

/-- How a database is to be opened. -/
structure Settings where
  name : Bytes
  inMemory : Bool
  readOnly : Bool := false
  immutable : Bool := false
  fileSystem : Option Bytes := none

/-- The settings with one parameter more, if it is known and has a known value. -/
def Settings.set (s : Settings) (name value : Bytes) : Option Settings :=
  if name = bytes "mode" then
    if value = bytes "ro" then some { s with readOnly := true }
    else if value = bytes "rw" || value = bytes "rwc" then some s
    else if value = bytes "memory" then some { s with inMemory := true }
    else none
  else if name = bytes "cache" then
    if value = bytes "private" || value = bytes "shared" then some s else none
  else if name = bytes "immutable" then
    if value = bytes "true" || value = bytes "1" then some { s with immutable := true }
    else if value = bytes "false" || value = bytes "0" then some { s with immutable := false }
    else none
  else if name = bytes "vfs" then some { s with fileSystem := some value }
  else none

/-- A part of a query as forms write it, a plus sign standing for a blank. -/
def formDecoded (bs : Bytes) : Bytes :=
  Text.percentDecoded (bs.map fun b => if b = 43 then 32 else b)

def isText (bs : Bytes) : Bool :=
  (String.fromUTF8? bs.toByteArray).isSome

/-- The settings that a URL asks for, its scheme being off. A database in memory has no name. -/
def Settings.read (bs : Bytes) : Option Settings :=
  let (written, behind) := Text.splitFirst 63 bs
  let memory := written = bytes ":memory:"
  let name := if memory then [] else Text.percentDecoded written
  if isText name then
    (Text.parameters (behind.getD [])).foldlM
      (fun s entry => s.set (formDecoded entry.1) (formDecoded entry.2))
      { name := name, inMemory := memory }
  else none

/-- What the settings open. A file system, or a promise that the file does not change, is passed in
a URI with the name as it stands, which ends at a zero byte. -/
def Settings.opening? (s : Settings) : Option Opening :=
  let opening : Opening :=
    { path := s.name
      access := if s.readOnly then .read else .create
      inMemory := s.inMemory
      fileSystem := s.fileSystem.map untilZero }
  if s.immutable || s.fileSystem.isSome then some { opening with path := untilZero s.name }
  else opening.resolved?

/-- A text with the scheme is a URL, any other the name of a file, which is made if missing. -/
def check (url : String) : Except ConnectionFault Unit :=
  let bs := bytes url
  let settings :=
    if (bytes "sqlite:").isPrefixOf bs then
      Settings.read
        (dropEach (bytes "sqlite:") bs.length (dropEach (bytes "sqlite://") bs.length bs))
    else some { name := bs, inMemory := false }
  match settings with
  | none => .error (.invalidUrl url)
  | some settings =>
    if settings.opening?.any Opening.possible then .ok () else .error (.unreachable url)

end Connection

end TableQuery
