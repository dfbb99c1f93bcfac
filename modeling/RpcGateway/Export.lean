import RpcGateway.Disk
import RpcGateway.Idl.OfSchema
import RpcGateway.Schema.Closure
/-!
# Writing schema files

Puts the source text of the files of a closure below a directory, each under its own name. A name that
could lead out of the directory is refused, and writing stops at the first file that cannot be written.
-/
namespace RpcGateway

inductive ExportError where
  | outside (name : String)
  | disk (path : String) (reason : String)
  deriving DecidableEq, Repr

def ExportError.message : ExportError → String
  | .outside name => s!"Refusing to write schema file '{name}' outside of the output directory"
  | .disk path reason => s!"Failed to write '{path}': {reason}"

namespace Export

structure Written where
  name : String
  path : Path
  text : String
  namelessTypes : Nat
  deriving DecidableEq, Repr

/-- Whether a segment stays below the directory it is taken from. -/
def isSafeSegment (segment : String) : Bool :=
  segment != "" && segment != ".."

/-- The path of a file name below the output directory. -/
def pathBelow (name : String) : Except ExportError Path :=
  if (Path.ofText name).all isSafeSegment then .ok (Path.ofText name) else .error (.outside name)

def writeFile (out : Path) (d : Disk) (f : Schema.File) : Disk × Except ExportError Written :=
  match pathBelow f.nameText with
  | .error e => (d, .error e)
  | .ok relative =>
    let path := out ++ relative
    match d.makeDirectories path.parent with
    | (d, .error e) => (d, .error (.disk path.parent.text e.message))
    | (d, .ok ()) =>
      match d.writeFile path f.render with
      | (d, .error e) => (d, .error (.disk path.text e.message))
      | (d, .ok ()) => (d, .ok ⟨f.nameText, path, f.render, f.namelessTypes⟩)

def writeFiles (out : Path) (d : Disk) : List Schema.File → Disk × Except ExportError (List Written)
  | [] => (d, .ok [])
  | f :: rest =>
    match writeFile out d f with
    | (d, .error e) => (d, .error e)
    | (d, .ok written) =>
      match writeFiles out d rest with
      | (d, .error e) => (d, .error e)
      | (d, .ok more) => (d, .ok (written :: more))

/-- Writes the files of a closure, without those of the standard library. -/
def writeAll (out : Path) (d : Disk) (c : Schema.Closure) :
    Disk × Except ExportError (List Written) :=
  writeFiles out d c.ownFiles

end Export

end RpcGateway
