import RpcGateway.Text.Utf8
/-!
# Disks

A tree of directories and files without links, and the operations that create them. Paths are lists of
segments and start at the directory above all; a dot stands for the directory before it, two dots for the
one that holds this directory. An operation that fails leaves what it did before: a file is opened, which
creates it or takes its contents away, before anything is written to it.
-/
namespace RpcGateway

inductive DiskEntry where
  | directory
  | file (contents : Bytes)
  deriving DecidableEq, Repr

/-- What keeps more from being written to a file that is open. -/
inductive Shortage where
  | device
  | size
  | space
  deriving DecidableEq, Repr

def Shortage.message : Shortage → String
  | .device => "Input/output error (os error 5)"
  | .size => "File too large (os error 27)"
  | .space => "No space left on device (os error 28)"

inductive DiskError where
  | notFound
  | exists
  | notDirectory
  | isDirectory
  | nameTooLong
  | nulByte
  | cutShort (reason : Shortage)
  deriving DecidableEq, Repr

def DiskError.message : DiskError → String
  | .notFound => "No such file or directory (os error 2)"
  | .exists => "File exists (os error 17)"
  | .notDirectory => "Not a directory (os error 20)"
  | .isDirectory => "Is a directory (os error 21)"
  | .nameTooLong => "File name too long (os error 36)"
  | .nulByte => "file name contained an unexpected NUL byte"
  | .cutShort reason => reason.message

/-- A path as it is written, segment by segment. -/
abbrev Path := List String

namespace Path

def text (p : Path) : String :=
  String.intercalate "/" p

def ofText (s : String) : Path :=
  (s.toList.splitOn '/').map String.ofList

/-- A path without the slash that may end it. -/
def withoutSlash (p : Path) : Path :=
  if p.getLast? = some "" then p.dropLast else p

/-- Whether a segment stands for the directory before it. -/
def isDot (segment : String) : Bool :=
  segment == "." || segment == ""

/-- Where a segment leads from a directory. There is nothing above the highest one. -/
def step (here : Path) (segment : String) : Path :=
  if isDot segment then here
  else if segment == ".." then here.dropLast
  else here ++ [segment]

/-- The place that a path names, from the directory above all. -/
def place (p : Path) : Path :=
  p.foldl step []

def normal (p : Path) : Path :=
  p.filter fun segment => !isDot segment

def trimDots (p : Path) : Path :=
  (p.reverse.dropWhile isDot).reverse

/-- The directory that holds what a path leads to. -/
def parent (p : Path) : Path :=
  trimDots (trimDots p).dropLast

/-- The longest path and the longest segment, in bytes. -/
def maxLength : Nat := 4095
def maxSegmentLength : Nat := 255

private theorem length_trimDots_le (p : Path) : (trimDots p).length ≤ p.length := by
  have h := (List.dropWhile_sublist isDot (l := p.reverse)).length_le
  simpa [trimDots] using h

private theorem length_parent_lt {p : Path} (h : p ≠ []) : (parent p).length < p.length := by
  have outer := length_trimDots_le (trimDots p).dropLast
  have inner := length_trimDots_le p
  have pos := List.length_pos_iff.2 h
  simp only [List.length_dropLast] at outer
  simp only [parent]
  omega

end Path

/-- The most bytes that a file takes, and what keeps more from being written to it. -/
structure Bound where
  bytes : Nat
  reason : Shortage
  deriving DecidableEq, Repr

/-- What there is, by the normal segments of its path, and the bounds that there are for files at some
places. The directory above all is always there. -/
structure Disk where
  entries : List (Path × DiskEntry)
  bounds : List (Path × Bound)
  deriving Repr

namespace Disk

/-- A disk that holds nothing yet, and takes everything. -/
def empty : Disk := ⟨[], []⟩

/-- What is found at a path of normal segments. -/
def find? (d : Disk) (p : Path) : Option DiskEntry :=
  if p.isEmpty then some .directory else d.entries.lookup p

/-- Puts an entry at a path of normal segments. -/
def put (d : Disk) (p : Path) (entry : DiskEntry) : Disk :=
  { d with entries := d.entries.filter (·.1 ≠ p) ++ [(p, entry)] }

theorem find?_put_self {d : Disk} {p : Path} {entry : DiskEntry} (h : p ≠ []) :
    (d.put p entry).find? p = some entry := by
  have absent : (d.entries.filter (·.1 ≠ p)).lookup p = none := by
    rw [List.lookup_eq_none_iff]
    intro pair hpair
    rw [List.mem_filter, decide_eq_true_eq] at hpair
    exact bne_iff_ne.2 (Ne.symm hpair.2)
  have present : (d.put p entry).entries.lookup p = some entry := by
    rw [put, List.lookup_append, absent]
    simp
  rw [find?, if_neg (by simpa using h), present]

theorem find?_put_of_ne {d : Disk} {p q : Path} {entry : DiskEntry} (h : q ≠ p) :
    (d.put p entry).find? q = d.find? q := by
  have kept (entries : List (Path × DiskEntry)) :
      (entries.filter (·.1 ≠ p)).lookup q = entries.lookup q := by
    induction entries with
    | nil => rfl
    | cons pair rest ih =>
      obtain ⟨path, other⟩ := pair
      rw [List.lookup_cons]
      by_cases same : path = p
      · subst same
        rw [List.filter_cons_of_neg (by simp), ih, beq_eq_false_iff_ne.2 h]
      · rw [List.filter_cons_of_pos (by simpa using same), List.lookup_cons, ih]
  have unchanged : (d.put p entry).entries.lookup q = d.entries.lookup q := by
    rw [put, List.lookup_append, kept, List.lookup_cons, beq_eq_false_iff_ne.2 h]
    simp
  rw [find?, find?, unchanged]

/-- Refuses a path that cannot be looked at at all. -/
def checkText (p : Path) : Except DiskError Unit :=
  if p.text.toList.contains '\x00' then .error .nulByte
  else if Path.maxLength < (bytesOf p.text).length then .error .nameTooLong
  else .ok ()

/-- Follows segments from a directory; each of them has to lead to a directory. -/
def walk (d : Disk) (here : Path) : Path → Except DiskError Path
  | [] => .ok here
  | segment :: rest =>
    if Path.maxSegmentLength < (bytesOf segment).length then .error .nameTooLong
    else match d.find? (Path.step here segment) with
      | none => .error .notFound
      | some (.file _) => .error .notDirectory
      | some .directory => walk d (Path.step here segment) rest

/-- The place that a path names, in a directory that is there. -/
def locate (d : Disk) (p : Path) : Except DiskError Path := do
  checkText p
  let here ← d.walk [] p.dropLast
  match p.getLast? with
  | none => return here
  | some segment =>
    if Path.maxSegmentLength < (bytesOf segment).length then throw .nameTooLong
    return Path.step here segment

def isDirectory (d : Disk) (p : Path) : Bool :=
  match d.locate p with
  | .ok place => d.find? place == some .directory
  | .error _ => false

def makeDirectory (d : Disk) (p : Path) : Except DiskError Disk := do
  let place ← d.locate p
  match d.find? place with
  | some _ => throw .exists
  | none => return d.put place .directory

/-- Creates a directory unless it is there. -/
def ensureDirectory (d : Disk) (p : Path) : Except DiskError Disk :=
  match d.makeDirectory p with
  | .ok d => .ok d
  | .error e => if d.isDirectory p then .ok d else .error e

/-- Creates a directory and those above it that are missing. -/
def makeDirectories (d : Disk) (p : Path) : Disk × Except DiskError Unit :=
  match d.ensureDirectory p with
  | .ok d => (d, .ok ())
  | .error e =>
    if _missing : e = .notFound ∧ p ≠ [] then
      match d.makeDirectories p.parent with
      | (d, .error e) => (d, .error e)
      | (d, .ok ()) =>
        match d.ensureDirectory p with
        | .ok d => (d, .ok ())
        | .error e => (d, .error e)
    else (d, .error e)
termination_by p.length
decreasing_by exact Path.length_parent_lt _missing.2

/-- What the file at a place takes of some contents. -/
def taken (d : Disk) (place : Path) (contents : Bytes) : Bytes :=
  match d.bounds.lookup place with
  | none => contents
  | some bound => contents.take bound.bytes

/-- Why the file at a place does not take all of some contents. -/
def shortage? (d : Disk) (place : Path) (contents : Bytes) : Option Shortage :=
  match d.bounds.lookup place with
  | none => none
  | some bound => if contents.length ≤ bound.bytes then none else some bound.reason

/-- Creates a file or replaces its contents, as far as it takes the new ones. -/
def writeFile (d : Disk) (p : Path) (text : String) : Disk × Except DiskError Unit :=
  match d.locate p with
  | .error e => (d, .error e)
  | .ok place =>
    match d.find? place with
    | some .directory => (d, .error .isDirectory)
    | _ =>
      let after := d.put place (.file (d.taken place (bytesOf text)))
      match d.shortage? place (bytesOf text) with
      | none => (after, .ok ())
      | some reason => (after, .error (.cutShort reason))

end Disk

end RpcGateway
