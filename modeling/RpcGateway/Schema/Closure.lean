import RpcGateway.Schema.File
/-!
# Schema closures

The schema files that describe a set of services, with everything they import. Files are kept in the order
in which they were found, and no name is kept twice. Imports that the server lacks are noted beside them.
What each operation does is said by the names of the files afterwards.
-/
namespace RpcGateway.Schema

/-- The name of a file, which is empty if the file has none. -/
def File.nameText (f : File) : String :=
  f.name.getD ""

/-- How the names of the files of the standard library begin. -/
def standardLead : String := "google/protobuf/"

/-- Whether a file name belongs to the standard library. -/
def isStandard (name : String) : Bool :=
  standardLead.toList.isPrefixOf name.toList

/-- Files as they are handed on together. -/
structure FileSet where
  files : List File

/-- A set of files, and the sorted names of imports that are missing. No two files have one name. -/
structure Closure where
  files : List File
  missing : List String
  distinct : (files.map File.nameText).Nodup
  deriving DecidableEq

namespace Closure

def empty : Closure := ⟨[], [], List.nodup_nil⟩

def names (c : Closure) : List String :=
  c.files.map File.nameText

def position? (c : Closure) (name : String) : Option Nat :=
  c.files.findIdx? (·.nameText == name)

def contains (c : Closure) (name : String) : Bool :=
  (c.position? name).isSome

theorem contains_iff {c : Closure} {name : String} : c.contains name = true ↔ name ∈ c.names := by
  rw [contains, position?, List.findIdx?_isSome, List.any_eq_true, names, List.mem_map]
  simp only [beq_iff_eq]

def get? (c : Closure) (name : String) : Option File :=
  (c.position? name).bind (c.files[·]?)

theorem nodup_names_append {c : Closure} {f : File} (h : ¬c.contains f.nameText = true) :
    ((c.files ++ [f]).map File.nameText).Nodup := by
  rw [List.map_append, List.nodup_append]
  refine ⟨c.distinct, by simp, ?_⟩
  intro name hname other hother eq
  rw [List.map_singleton, List.mem_singleton] at hother
  exact h (contains_iff.2 (hother ▸ eq ▸ hname))

/-- Adds a file unless one with its name is there, and tells whether it was added. -/
def insert (c : Closure) (f : File) : Closure × Bool :=
  if present : c.contains f.nameText = true then (c, false)
  else (⟨c.files ++ [f], c.missing, nodup_names_append present⟩, true)

theorem names_insert (c : Closure) (f : File) :
    (c.insert f).1.names = if c.contains f.nameText then c.names else c.names ++ [f.nameText] := by
  rw [insert]
  by_cases present : c.contains f.nameText = true
  · rw [dif_pos present, if_pos present]
  · rw [dif_neg present, if_neg present]
    simp [names]

def insertAll (c : Closure) (files : List File) : Closure :=
  files.foldl (fun c f => (c.insert f).1) c

def ofFiles (files : List File) : Closure :=
  empty.insertAll files

def ownFiles (c : Closure) : List File :=
  c.files.filter fun f => !isStandard f.nameText

def fileSet (c : Closure) : FileSet :=
  ⟨c.files⟩

def addSorted (name : String) : List String → List String
  | [] => [name]
  | other :: rest =>
    if name = other then other :: rest
    else if name < other then name :: other :: rest
    else other :: addSorted name rest

theorem mem_addSorted {name other : String} {names : List String} :
    other ∈ addSorted name names ↔ other = name ∨ other ∈ names := by
  induction names with
  | nil => simp [addSorted]
  | cons first rest ih =>
    rw [addSorted]
    by_cases same : name = first
    · subst same
      simp
    · rw [if_neg same]
      by_cases before : name < first
      · rw [if_pos before]
        simp
      · rw [if_neg before, List.mem_cons, ih, List.mem_cons]
        exact or_left_comm

def noteMissing (c : Closure) (name : String) : Closure :=
  { c with missing := addSorted name c.missing }

end Closure

end RpcGateway.Schema
