import RpcGateway.Cli.Error
/-!
# Grammars of command lines

What a command understands: options, which may also be set by variables of the environment, arguments by
position, and further commands. Reading a value changes a draft of the command.
-/
namespace RpcGateway.Cli

/-- What takes one value, and how the value changes the draft. -/
structure Slot (α : Type) where
  name : String
  store : α → String → Except UsageError α

/-- An option. Unless it `repeats` it is given at most once. -/
structure Opt (α : Type) extends Slot α where
  letter : Option Char := none
  envName : Option String := none
  repeats : Bool := false

/-- What a command understands. `commands` are the commands that may follow. -/
structure Grammar (α : Type) where
  options : List (Opt α)
  arguments : List (Slot α)
  commands : List String := []
  hasVersion : Bool := false

inductive Flag (α : Type) where
  | help (inFull : Bool)
  | version
  | value (option : Opt α)

namespace Slot

/-- The same slot in a draft that is part of another one. -/
def inPart {α β : Type} (get : β → α) (set : β → α → β) (slot : Slot α) : Slot β where
  name := slot.name
  store := fun whole value => (slot.store (get whole) value).map (set whole)

end Slot

namespace Opt

/-- The same option in a draft that is part of another one. -/
def inPart {α β : Type} (get : β → α) (set : β → α → β) (option : Opt α) : Opt β :=
  ⟨option.toSlot.inPart get set, option.letter, option.envName, option.repeats⟩

end Opt

namespace Grammar

variable {α : Type}

def named? (g : Grammar α) (name : String) : Option (Flag α) :=
  match g.options.find? (·.name == name) with
  | some option => some (.value option)
  | none =>
    if name = "help" then some (.help true)
    else if name = "version" ∧ g.hasVersion then some .version
    else none

def lettered? (g : Grammar α) (letter : Char) : Option (Flag α) :=
  match g.options.find? (·.letter == some letter) with
  | some option => some (.value option)
  | none =>
    if letter = 'h' then some (.help false)
    else if letter = 'V' ∧ g.hasVersion then some .version
    else none

end Grammar

end RpcGateway.Cli
