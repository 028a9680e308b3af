import Scriptlet.Host.Lambda

/-! The state of an interpreter, and how plugins enter and leave it. -/

namespace Scriptlet

inductive Builtin where
  | print | input | length | loadPlugin | unloadPlugin | listPlugins
deriving DecidableEq, Repr

namespace Builtin

/-- The names and the parameters under which they are known. -/
def signature : Builtin → Signature
  | print => ⟨"print", ["value"]⟩
  | input => ⟨"input", ["prompt"]⟩
  | length => ⟨"length", ["value"]⟩
  | loadPlugin => ⟨"loadPlugin", ["pluginName"]⟩
  | unloadPlugin => ⟨"unloadPlugin", ["pluginName"]⟩
  | listPlugins => ⟨"listPlugins", []⟩

def all : List Builtin := [print, input, length, loadPlugin, unloadPlugin, listPlugins]

def ofName? (name : String) : Option Builtin :=
  all.find? (·.signature.name = name)

end Builtin

/-- An interpreter between two steps. `stubs` holds, by function name, the stubs that were bound for
the functions of loaded plugins. -/
structure Machine where
  store : Store
  console : Console
  registry : Registry
  plugins : PluginTable
  stubs : Table FunctionId

namespace Machine

def writeLine (m : Machine) (text : String) : Machine :=
  { m with console := m.console.writeLine text }

def defineGlobal (m : Machine) (name : String) (value : Value) : Machine :=
  { m with store := { m.store with scopes := m.store.scopes.define Scopes.globals name value } }

/-- Binds a global variable to a new function, and gives a reference to it. -/
def defineFunction (m : Machine) (name : String) (f : FunctionObject) : FunctionId × Machine :=
  let (id, store) := m.store.addFunction (f.placed m.store.scopes)
  (id, { m with store }.defineGlobal name (.functionRef id))

/-- Binds a global variable to a new stub, and gives a reference to it. -/
def defineStub (m : Machine) (name : String) (signature : Signature) : FunctionId × Machine :=
  m.defineFunction name (.stub signature)

/-- An interpreter that has run nothing yet. -/
def fresh (console : Console) : Machine :=
  let start : Machine :=
    { store := { Store.empty with scopes := Scopes.empty.root.2 }
      console
      registry := ∅
      plugins := Lambda.aliases.foldl (fun t nickname => t.offer nickname Lambda.plugin) {}
      stubs := ∅ }
  Builtin.all.foldl (fun m b => (m.defineStub b.signature.name b.signature).2) start

/-- Runs the setup of a plugin up to its end or to the first step that fails. -/
def runSetup (m : Machine) : List SetupStep → Except PluginError Unit × Machine
  | [] => (.ok (), m)
  | .register resource entry :: steps =>
      let (value, store) := resource.build m.store
      runSetup { m with store, registry := m.registry.add (entry value) } steps
  | .unregister name :: steps => runSetup { m with registry := m.registry.erase name } steps
  | .define name f :: steps => runSetup (m.defineFunction name f).2 steps
  | .say text :: steps => runSetup (m.writeLine text) steps
  | .fail message :: _ => (.error (.setupFailed message), m)

/-- Forgets the stub of a plugin function. The global variable goes as well if it is still bound to
that stub. -/
def removeStub (m : Machine) (name : String) : Machine :=
  match m.stubs[name]? with
  | none => m
  | some id =>
      let m := { m with stubs := m.stubs.erase name }
      match m.store.scopes.local? Scopes.globals name with
      | some (.functionRef bound) =>
          if bound = id then
            { m with store := { m.store with scopes := m.store.scopes.remove Scopes.globals name } }
          else m
      | _ => m

def expose (m : Machine) (f : PluginFunction) : Machine :=
  let (id, m) := m.defineStub f.name f.signature
  { m with stubs := m.stubs.insert f.name id }.writeLine ("  Registered function: " ++ f.name)

/-- Loads a plugin. If its setup fails, what the setup has done before remains. The functions are
built after the setup, while the stubs of a plugin that is replaced are still bound. -/
def load (m : Machine) (p : Plugin) : Except PluginError Unit × Machine :=
  let m := m.writeLine ("Loading plugin: " ++ p.name ++ " v" ++ p.version)
  match m.runSetup p.setup with
  | (.error e, m) =>
      (.error e, m.writeLine ("Failed to load plugin '" ++ p.name ++ "': " ++ e.text))
  | (.ok _, m) =>
      let (functions, store) := FunctionDesign.buildAll p.functions m.store
      let (replaced, plugins) := m.plugins.install p functions
      let m := replaced.foldl removeStub { m with store, plugins }
      let m := functions.foldl expose m
      (.ok (), m.writeLine ("Plugin " ++ p.name ++ " loaded successfully"))

def loadByName (m : Machine) (nickname : String) : Except PluginError Unit × Machine :=
  match m.plugins.find? nickname with
  | none =>
      let e := PluginError.notFound nickname
      (.error e, m.writeLine e.message)
  | some p =>
    match m.load p with
    | (.ok _, m) => (.ok (), { m with plugins := m.plugins.recordAlias nickname p.name })
    | failed => failed

/-- Unloads the plugin that a name or an alias leads to, and says whether there was one. -/
def unload (m : Machine) (nameOrAlias : String) : Bool × Machine :=
  match m.plugins.resolve? nameOrAlias with
  | none => (false, m)
  | some name =>
      let removed := m.plugins.ownedBy name
      let m := { m with plugins := m.plugins.remove name }.writeLine
        ("Plugin " ++ name ++ " unloaded")
      (true, removed.foldl removeStub m)

def arguments (m : Machine) (values : List Value) : List Argument :=
  values.map fun value => ⟨value, m.store.display value⟩

def callPlugin (m : Machine) (name : String) (values : List Value) : Value × Machine :=
  let (value, console) := m.plugins.call name (m.arguments values) m.console
  (value, { m with console })

def callRegistered (m : Machine) (name : String) (values : List Value) : Value × Machine :=
  let (value, console) := m.registry.call name (m.arguments values) m.console
  (value, { m with console })

end Machine

end Scriptlet
