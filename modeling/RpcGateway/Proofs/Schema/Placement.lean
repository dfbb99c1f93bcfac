import RpcGateway.Proofs.Schema.References
/-!
# Messages in their scopes

The messages of a file, each with the scope that it stands in and after the messages nested in it. Those at
the top are written, and below a written message all that are no entry types; the text of the file declares
these and no others.
-/
namespace RpcGateway

namespace Idl

/-- A message and the scope that it stands in. -/
structure Placed where
  scope : String
  message : Message

/-- The full name of a message, with a dot before each part. -/
def Placed.name (p : Placed) : String :=
  p.scope ++ "." ++ p.message.name

mutual

def Message.placed (scope : String) : Message → List Placed
  | ⟨name, enums, messages, oneofs, fields⟩ =>
    placedIn (scope ++ "." ++ name) messages ++ [⟨scope, ⟨name, enums, messages, oneofs, fields⟩⟩]

def placedIn (scope : String) : List Message → List Placed
  | [] => []
  | m :: rest => m.placed scope ++ placedIn scope rest

end

def File.placed (f : File) : List Placed :=
  placedIn f.scope f.messages

/-- The fields of a message in the order of its lines. -/
def Message.allFields (m : Message) : List Field :=
  m.oneofs.flatMap (·.fields) ++ m.fields

/-- The fields of all messages of a file. -/
def File.fields (f : File) : List Field :=
  f.placed.flatMap (·.message.allFields)

/-- The types of all fields of a file, those of the key and the value for a map. -/
def File.types (f : File) : List TypeRef :=
  f.fields.flatMap (·.type.types)

private theorem placedIn_eq_flatMap (scope : String) (ms : List Message) :
    placedIn scope ms = ms.flatMap (Message.placed scope) := by
  induction ms with
  | nil => rfl
  | cons m rest ih => rw [placedIn, List.flatMap_cons, ih]

theorem Message.placed_eq (scope : String) (m : Message) :
    m.placed scope = m.messages.flatMap (Message.placed (scope ++ "." ++ m.name)) ++ [⟨scope, m⟩] := by
  obtain ⟨name, enums, messages, oneofs, fields⟩ := m
  rw [Message.placed, placedIn_eq_flatMap]

end Idl

namespace Schema

/-- A message, the scope that it stands in, and whether it is written. -/
structure Placed where
  scope : String
  message : Message
  isWritten : Bool

/-- The full name of a message, with a dot before each part. -/
def Placed.name (p : Placed) : String :=
  p.scope ++ "." ++ p.message.name.getD ""

/-- The declaration of a message where it stands. -/
def Placed.declare (dialect : Idl.Dialect) (p : Placed) : Idl.Placed :=
  ⟨p.scope, p.message.declare dialect p.scope⟩

mutual

def Message.placed (scope : String) (isWritten : Bool) : Message → List Placed
  | ⟨name, fields, nested, enums, oneofs, options⟩ =>
    placedIn (scope ++ "." ++ name.getD "") isWritten nested ++
      [⟨scope, ⟨name, fields, nested, enums, oneofs, options⟩, isWritten⟩]

/-- The messages nested in one that is written or not. -/
def placedIn (scope : String) (isWritten : Bool) : List Message → List Placed
  | [] => []
  | m :: rest => m.placed scope (isWritten && !m.isEntryType) ++ placedIn scope isWritten rest

end

/-- The messages of a file. Those at the top are written even if they are marked as entries. -/
def File.placed (f : File) : List Placed :=
  f.messages.flatMap (·.placed f.scope true)

def File.written (f : File) : List Placed :=
  f.placed.filter (·.isWritten)

private theorem placedIn_eq_flatMap (scope : String) (isWritten : Bool) (ms : List Message) :
    placedIn scope isWritten ms =
      ms.flatMap fun m => m.placed scope (isWritten && !m.isEntryType) := by
  induction ms with
  | nil => rfl
  | cons m rest ih => rw [placedIn, List.flatMap_cons, ih]

theorem Message.placed_eq (scope : String) (isWritten : Bool) (m : Message) :
    m.placed scope isWritten = (m.nested.flatMap fun n =>
      n.placed (scope ++ "." ++ m.name.getD "") (isWritten && !n.isEntryType)) ++
        [⟨scope, m, isWritten⟩] := by
  obtain ⟨name, fields, nested, enums, oneofs, options⟩ := m
  rw [Message.placed, placedIn_eq_flatMap]

private theorem Message.filter_placed_false (m : Message) (scope : String) :
    (m.placed scope false).filter (·.isWritten) = [] := by
  induction m using Message.induction generalizing scope with
  | step m ih =>
    rw [Message.placed_eq, List.filter_append, List.filter_flatMap, List.append_eq_nil_iff,
      List.flatMap_eq_nil_iff]
    exact ⟨fun n hn => ih n hn _, rfl⟩

private theorem flatMap_filter {α β : Type} {keep : α → Bool} {f g : α → List β} {xs : List α}
    (hkept : ∀ x ∈ xs, keep x = true → f x = g x) (hleft : ∀ x ∈ xs, keep x = false → g x = []) :
    (xs.filter keep).flatMap f = xs.flatMap g := by
  induction xs with
  | nil => rfl
  | cons x xs ih =>
    rw [List.forall_mem_cons] at hkept hleft
    rw [List.filter_cons, List.flatMap_cons, ← ih hkept.2 hleft.2]
    cases hx : keep x with
    | true => rw [if_pos rfl, List.flatMap_cons, hkept.1 hx]
    | false => rw [if_neg Bool.false_ne_true, hleft.1 hx, List.nil_append]

private theorem Message.declare_placed (dialect : Idl.Dialect) (m : Message) (scope : String) :
    (m.declare dialect scope).placed scope =
      ((m.placed scope true).filter (·.isWritten)).map (Placed.declare dialect) := by
  induction m using Message.induction generalizing scope with
  | step m ih =>
    let inner := scope ++ "." ++ m.name.getD ""
    have hmessages : (m.declare dialect scope).messages =
        (m.nested.filter (!·.isEntryType)).map (Message.declare dialect inner) := by
      rw [Message.declare_eq]
    have hname : (m.declare dialect scope).name = m.name.getD "" := by
      rw [Message.declare_eq]
    rw [Idl.Message.placed_eq, Message.placed_eq, hmessages, hname, List.filter_append, List.map_append,
      List.filter_flatMap, List.map_flatMap, List.flatMap_map]
    refine congrArg (· ++ _) (flatMap_filter ?kept ?left)
    case kept =>
      intro n hn hkept
      rw [hkept]
      exact ih n hn inner
    case left =>
      intro n _ hentry
      rw [hentry, Bool.and_false, Message.filter_placed_false, List.map_nil]

/-- The text of a file declares the written messages, each where it stands. -/
theorem File.declare_placed (f : File) :
    f.declare.placed = f.written.map (Placed.declare (dialectOf f.dialect)) := by
  rw [Idl.File.placed, Idl.placedIn_eq_flatMap, File.scope_declare, File.written, File.placed,
    List.filter_flatMap, List.map_flatMap, File.declare, List.flatMap_map]
  exact List.flatMap_congr fun m _ => m.declare_placed (dialectOf f.dialect) f.scope

theorem Placed.name_declare (dialect : Idl.Dialect) (p : Placed) : (p.declare dialect).name = p.name := by
  rw [Idl.Placed.name, Placed.declare, Message.declare_eq, Placed.name]

end Schema

end RpcGateway
