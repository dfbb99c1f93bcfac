import RpcGateway.Schema.File
/-!
# Membership of fields

Which fields of a message stand in which group of alternatives, and which of its fields are maps. A group
whose members are all marked as optional was not written by anybody and counts for nothing.
-/
namespace RpcGateway.Schema

/-- The fields that name a group by its position. -/
def oneofMembers (fields : List Field) (index : Nat) : List Field :=
  fields.filter fun f => f.oneofIndex == some (index : Int)

/-- Whether a group stands for the mark on its members only. -/
def isUnwritten (fields : List Field) (index : Nat) : Bool :=
  let members := oneofMembers fields index
  !members.isEmpty && members.all Field.isMarkedOptional

/-- The position of the written group that a field belongs to, of `count` groups in all. -/
def writtenOneof? (fields : List Field) (count : Nat) (f : Field) : Option Nat :=
  match f.oneofIndex with
  | some (.ofNat index) =>
    if index < count && !isUnwritten fields index then some index else none
  | _ => none

/-- The entry type of a field that is a map: one of the types nested in the message of the field, whose full
name is `scope`. -/
def entryTypeOf? (scope : String) (nested : List Message) (f : Field) : Option Message :=
  if f.isRepeated && f.type == some messageCode then
    nested.find? fun m =>
      m.isEntryType && f.typeName.getD "" == scope ++ "." ++ m.name.getD ""
  else none

def Message.fieldNamed? (m : Message) (name : String) : Option Field :=
  m.fields.find? fun f => f.name.getD "" == name

end RpcGateway.Schema
