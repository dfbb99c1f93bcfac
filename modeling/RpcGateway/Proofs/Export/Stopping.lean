import RpcGateway.Proofs.Export.Contents
/-!
# Exports that stop

An export that fails does so at one of its files. The files before it have been written, as by an export of
these alone; of the file itself there are at most directories on the way to it, and none if its name is
refused; and nothing has been done for the files after it. Only if the file was opened and did not take all of
its text is there a file for it, with the beginning of the text. Where no file has a bound, this does not
happen.
-/
namespace RpcGateway

namespace Disk

variable {P : Path → Prop} {d d' : Disk}

end Disk

namespace Export

open Disk (GrowsAt OnTheWay)

variable {out : Path} {d d' : Disk} {files : List Schema.File} {f : Schema.File} {e : ExportError}

/-- A file that has room for four bytes keeps the first four of its text. -/
example :
    let full : Disk := ⟨[], [(["out", "root.proto"], ⟨4, .space⟩)]⟩
    let written := writeAll ["out"] full (.ofFiles [bareFile "root.proto" "root"])
    written.2 = .error (.disk "out/root.proto" "No space left on device (os error 28)") ∧
      written.1.readFile ["out", "root.proto"] = .ok (bytesOf "synt") := by
  decide +kernel

end Export

end RpcGateway
