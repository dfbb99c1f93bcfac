import RpcGateway.Disk
import RpcGateway.Duration
/-!
# Sweeping

Removes what has not been changed for longer than a given age from a directory. An entry that cannot be
looked at or removed stays, and hinders none of the others.
-/
namespace RpcGateway.Sweep

/-- A point in time, in nanoseconds from a fixed one. -/
structure Instant where
  nanoseconds : Int
  deriving DecidableEq, Repr

/-- How long before `now` a point in time lies; what lies ahead is not old at all. -/
def Instant.age (modified now : Instant) : Duration :=
  ⟨(now.nanoseconds - modified.nanoseconds).toNat⟩

/-- An entry of a directory, with all that it holds. The time of its last change may be unknown. -/
structure Entry (α : Type) where
  content : α
  modified : Option Instant
  removable : Bool

/-- What a listing shows in one place: an entry, or only that there is one. -/
inductive Listed (α : Type) where
  | unreadable
  | entry (entry : Entry α)

variable {α : Type}

/-- Whether the last change of an entry is known to be too long ago. -/
def Entry.isStale (maxAge : Duration) (now : Instant) (e : Entry α) : Bool :=
  match e.modified with
  | none => false
  | some modified => maxAge.nanoseconds < (modified.age now).nanoseconds

def Listed.isSwept (maxAge : Duration) (now : Instant) : Listed α → Bool
  | .unreadable => false
  | .entry e => e.isStale maxAge now && e.removable

/-- Sweeps a listing, and counts what was removed. -/
def sweepListing (maxAge : Duration) (now : Instant) : List (Listed α) → List (Listed α) × Nat
  | [] => ([], 0)
  | item :: rest =>
    let (left, removed) := sweepListing maxAge now rest
    if item.isSwept maxAge now then (left, removed + 1) else (item :: left, removed)

theorem sweepListing_eq (maxAge : Duration) (now : Instant) (items : List (Listed α)) :
    sweepListing maxAge now items =
      (items.filter (!·.isSwept maxAge now), items.countP (·.isSwept maxAge now)) := by
  induction items with
  | nil => rfl
  | cons item rest ih =>
    rw [sweepListing, ih, List.filter_cons, List.countP_cons]
    cases item.isSwept maxAge now <;> rfl

/-- What is found where a directory is to be swept. -/
inductive Root (α : Type) where
  | missing
  | file
  | directory (items : List (Listed α))

/-- Sweeps a directory. One that is missing needs no sweep. -/
def sweep (maxAge : Duration) (now : Instant) : Root α → Except DiskError (Root α × Nat)
  | .missing => .ok (.missing, 0)
  | .file => .error .notDirectory
  | .directory items =>
    let (left, removed) := sweepListing maxAge now items
    .ok (.directory left, removed)

end RpcGateway.Sweep
