import Scriptlet.Host.Registry
import Scriptlet.Text.Lowercase
import Scriptlet.Value.Blueprint

/-! Plugins, and the table of those that are loaded. A plugin brings functions that scripts call by
name; a function belongs to the plugin that exposed its name last. The values that a plugin holds
are built each time it is loaded. -/

namespace Scriptlet

/-- A declared parameter; one with a default is optional. -/
structure Parameter (α : Type) where
  name : String
  typeName : String
  default : Option α

/-- A function of a loaded plugin. -/
structure PluginFunction where
  name : String
  description : String
  parameters : List (Parameter Value)
  returnType : String
  run : NativeFunction

/-- The name and parameters under which the function is known to scripts. -/
def PluginFunction.signature (f : PluginFunction) : Signature :=
  ⟨f.name, f.parameters.map (·.name)⟩

/-- A function as a plugin declares it. The resource is a value that all calls share. -/
structure FunctionDesign where
  name : String
  description : String
  parameters : List (Parameter Blueprint)
  returnType : String
  resource : Blueprint := .known .null
  run : Value → NativeFunction

/-- Builds the default of a parameter. -/
def Parameter.build (p : Parameter Blueprint) (s : Store) : Parameter Value × Store :=
  match p.default with
  | none => (⟨p.name, p.typeName, none⟩, s)
  | some design =>
      let (value, s) := design.build s
      (⟨p.name, p.typeName, some value⟩, s)

def Parameter.buildAll : List (Parameter Blueprint) → Store → List (Parameter Value) × Store
  | [], s => ([], s)
  | p :: ps, s =>
      let (p, s) := p.build s
      let (ps, s) := buildAll ps s
      (p :: ps, s)

namespace FunctionDesign

def build (f : FunctionDesign) (s : Store) : PluginFunction × Store :=
  let (resource, s) := f.resource.build s
  let (parameters, s) := Parameter.buildAll f.parameters s
  (⟨f.name, f.description, parameters, f.returnType, f.run resource⟩, s)

/-- Builds functions in their order. -/
def buildAll : List FunctionDesign → Store → List PluginFunction × Store
  | [], s => ([], s)
  | f :: fs, s =>
      let (f, s) := f.build s
      let (fs, s) := buildAll fs s
      (f :: fs, s)

end FunctionDesign

/-- What a plugin does to its host while it is loaded. An entry is registered with the value that
its resource is built to. -/
inductive SetupStep where
  | register (resource : Blueprint) (entry : Value → RegistryEntry)
  | unregister (name : String)
  | define (name : String) (function : FunctionObject)
  | say (text : String)
  | fail (message : String)

/-- A plugin: the steps of its setup, in order, and the functions it exposes after them. What is
assumed of plugins is that all of this is settled before they are loaded: none of it depends on what
is found in the host, and an alias stands for the same plugin at each loading. If a function that is
defined has a scope, this is a frame that the host made earlier. -/
structure Plugin where
  name : String
  version : String
  description : String
  setup : List SetupStep
  functions : List FunctionDesign

inductive PluginError where
  | notFound (name : String)
  | setupFailed (message : String)
deriving DecidableEq, Repr

namespace PluginError

def message : PluginError → String
  | notFound name => "Plugin '" ++ name ++ "' not found"
  | setupFailed message => message

def text (e : PluginError) : String :=
  "Plugin error: " ++ e.message

end PluginError

structure OwnedFunction where
  owner : String
  function : PluginFunction

/-- The loaded plugins in the order of loading, their functions by name, the plugins that can be
loaded by an alias, and the names of those that were. Aliases are kept in lower case. -/
structure PluginTable where
  loaded : List Plugin := []
  functions : Table OwnedFunction := ∅
  available : Table Plugin := ∅
  aliases : Table String := ∅

namespace PluginTable

/-- Makes a plugin loadable by an alias. -/
def offer (t : PluginTable) (nickname : String) (p : Plugin) : PluginTable :=
  { t with available := t.available.insert (Text.lowercase nickname) p }

/-- The plugin that an alias stands for. -/
def find? (t : PluginTable) (nickname : String) : Option Plugin :=
  t.available[Text.lowercase nickname]?

/-- Notes that an alias has loaded the plugin of the given name. -/
def recordAlias (t : PluginTable) (nickname name : String) : PluginTable :=
  { t with aliases := t.aliases.insert (Text.lowercase nickname) name }

def names (t : PluginTable) : List String :=
  t.loaded.map (·.name)

def isLoaded (t : PluginTable) (name : String) : Bool :=
  t.loaded.any (·.name = name)

def owner? (t : PluginTable) (function : String) : Option String :=
  t.functions[function]?.map (·.owner)

/-- The functions that belong to a plugin, in the order of their names. -/
def ownedBy (t : PluginTable) (name : String) : List String :=
  (t.functions.toList.filter (·.2.owner = name)).map Prod.fst

/-- Drops a plugin with its aliases and the functions that belong to it. -/
def remove (t : PluginTable) (name : String) : PluginTable :=
  { t with
    loaded := t.loaded.filter (·.name ≠ name)
    functions := t.functions.filter fun _ f => f.owner ≠ name
    aliases := t.aliases.filter fun _ plugin => plugin ≠ name }

/-- Adds a plugin and its functions. A loaded plugin of the same name is dropped before; the names
of its functions are given. -/
def install (t : PluginTable) (p : Plugin) (functions : List PluginFunction) :
    List String × PluginTable :=
  let replaced := t.ownedBy p.name
  let t := t.remove p.name
  (replaced,
    { t with
      loaded := t.loaded ++ [p]
      functions := functions.foldl (fun fs f => fs.insert f.name ⟨p.name, f⟩) t.functions })

/-- The name of the loaded plugin that a name or an alias leads to. -/
def resolve? (t : PluginTable) (nameOrAlias : String) : Option String :=
  if t.isLoaded nameOrAlias then some nameOrAlias
  else t.aliases[Text.lowercase nameOrAlias]?.filter t.isLoaded

def call (t : PluginTable) (name : String) (args : List Argument) (console : Console) :
    Value × Console :=
  match t.functions[name]? with
  | none => (.null, console.writeLine ("Function " ++ name ++ " not found"))
  | some owned =>
    match owned.function.run args console with
    | (.ok value, console) => (value, console)
    | (.error e, console) =>
        (.null, console.writeLine ("Error executing function " ++ name ++ ": " ++ e.message))

end PluginTable

end Scriptlet
