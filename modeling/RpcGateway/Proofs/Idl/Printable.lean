import RpcGateway.Idl.Printer
/-!
# Printable declarations

Declarations whose names are names: identifiers, or identifiers with dots between them. No character that
the printer puts between names stands in a name, so a reader can find the ends of names again.
-/
namespace RpcGateway.Idl

def isFirstChar (c : Char) : Bool :=
  c.isAlpha || c == '_'

def isNameChar (c : Char) : Bool :=
  c.isAlphanum || c == '_'

def isIdentifier : List Char → Bool
  | [] => false
  | c :: rest => isFirstChar c && rest.all isNameChar

/-- Whether a text consists of identifiers with dots between them. -/
def isDotted (cs : List Char) : Bool :=
  (cs.splitOn '.').all isIdentifier

/-- Whether a type is a name other than the word for a missing one, or missing. -/
def TypeRef.isPrintable : TypeRef → Bool
  | .named text => isDotted text.toList && text != TypeRef.placeholder.text
  | .placeholder => true

/-- Whether the types in the type of a field are printable. -/
def FieldType.isPrintable : FieldType → Bool
  | .plain type => type.isPrintable
  | .map key value => key.isPrintable && value.isPrintable

/-- Whether a field is printable. A map has no label. -/
def Field.isPrintable (f : Field) : Bool :=
  isIdentifier f.name.toList && f.type.isPrintable &&
    match f.type with
    | .plain _ => true
    | .map _ _ => f.label == .absent

def Enumeration.isPrintable (e : Enumeration) : Bool :=
  isIdentifier e.name.toList && e.values.all fun value => isIdentifier value.1.toList

def Oneof.isPrintable (o : Oneof) : Bool :=
  isIdentifier o.name.toList && o.fields.all Field.isPrintable

mutual

/-- Whether a message is printable, with the messages nested in it. -/
def Message.isPrintable : Message → Bool
  | ⟨name, enums, messages, oneofs, fields⟩ =>
    isIdentifier name.toList && enums.all Enumeration.isPrintable && arePrintable messages &&
      oneofs.all Oneof.isPrintable && fields.all Field.isPrintable

def arePrintable : List Message → Bool
  | [] => true
  | m :: rest => m.isPrintable && arePrintable rest

end

def Method.isPrintable (m : Method) : Bool :=
  isIdentifier m.name.toList && isDotted m.input.type.toList && isDotted m.output.type.toList

def Service.isPrintable (s : Service) : Bool :=
  isIdentifier s.name.toList && s.methods.all Method.isPrintable

/-- Whether a file is printable. Anything may stand in its literals. -/
def File.isPrintable (f : File) : Bool :=
  f.package.all (fun package => isDotted package.toList) && f.enums.all Enumeration.isPrintable &&
    f.messages.all Message.isPrintable && f.services.all Service.isPrintable

theorem TypeRef.isPrintable_named_iff {text : String} : (TypeRef.named text).isPrintable = true ↔
    isDotted text.toList = true ∧ text ≠ TypeRef.placeholder.text := by
  simp [TypeRef.isPrintable]

theorem arePrintable_eq_all (ms : List Message) : arePrintable ms = ms.all Message.isPrintable := by
  induction ms with
  | nil => rfl
  | cons m rest ih => rw [arePrintable, List.all_cons, ih]

/-- What holds of a message if it holds of the messages nested in it holds of all messages. -/
theorem Message.induction {motive : Message → Prop}
    (step : ∀ m : Message, (∀ n ∈ m.messages, motive n) → motive m) (m : Message) : motive m := by
  apply step
  intro n hn
  exact Message.induction step n
termination_by m
decreasing_by
  cases m
  have hsize := List.sizeOf_lt_of_mem hn
  simp only [Message.mk.sizeOf_spec] at hsize ⊢
  omega

end RpcGateway.Idl
