import Scriptlet.Host.Native
import Scriptlet.Value.Scopes

/-! The registry: functions of the host that scripts call by name. A failing call is reported on the
console and yields null. -/

namespace Scriptlet

/-- A registered function. One without an arity takes any number of arguments. -/
structure RegistryEntry where
  name : String
  description : String
  arity : Option Nat
  run : NativeFunction

abbrev Registry := Table RegistryEntry

namespace Registry

/-- Registers a function under its name, in place of an earlier one. -/
def add (r : Registry) (entry : RegistryEntry) : Registry :=
  r.insert entry.name entry

/-- The registered functions, in the order of their names. -/
def entries (r : Registry) : List RegistryEntry :=
  r.toList.map Prod.snd

def call (r : Registry) (name : String) (args : List Argument) (console : Console) :
    Value × Console :=
  match r[name]? with
  | none => (.null, console.writeLine ("Function '" ++ name ++ "' not found in registry"))
  | some entry =>
    match entry.run args console with
    | (.ok value, console) => (value, console)
    | (.error e, console) =>
        (.null, console.writeLine ("Error executing function '" ++ name ++ "': " ++ e.message))

end Registry

namespace RegistryEntry

def variadic (name description : String) (run : NativeFunction) : RegistryEntry :=
  ⟨name, description, none, run⟩

def nullary {β : Type} [ToValue β] (name description : String) (result : β) : RegistryEntry :=
  ⟨name, description, some 0, .nullary result⟩

def unary {α β : Type} [FromArgument α] [ToValue β] (name description : String) (f : α → β) :
    RegistryEntry :=
  ⟨name, description, some 1, .unary name f⟩

def binary {α β γ : Type} [FromArgument α] [FromArgument β] [ToValue γ]
    (name description : String) (f : α → β → γ) : RegistryEntry :=
  ⟨name, description, some 2, .binary name f⟩

def ternary {α β γ δ : Type} [FromArgument α] [FromArgument β] [FromArgument γ] [ToValue δ]
    (name description : String) (f : α → β → γ → δ) : RegistryEntry :=
  ⟨name, description, some 3, .ternary name f⟩

end RegistryEntry

end Scriptlet
