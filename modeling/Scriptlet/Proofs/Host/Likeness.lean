import Scriptlet.Proofs.Host.Frames
import Scriptlet.Proofs.Syntax.Likeness

/-! # Like interpreters

Two interpreters are alike if they differ in the bodies of functions only, and these are alike. The
bodies that plugins bring are like themselves, and of a function the host sees the name at most. So
whatever it does to like interpreters, it gets the same answer and leaves them alike. -/

namespace Scriptlet

namespace Likeness

variable (L : Likeness)

inductive Function : FunctionObject → FunctionObject → Prop where
  | mk {signature : Signature} {body body' : Option (List Stmt)} {modifiers : Modifiers}
      {scope : Option FrameId} (bodies : Option.Rel (List.Forall₂ L.stmt) body body') :
      Function ⟨signature, body, modifiers, scope⟩ ⟨signature, body', modifiers, scope⟩

inductive Stores : Store → Store → Prop where
  | mk {scopes : Scopes} {functions functions' : Array FunctionObject} {classes : Array ClassObject}
      {instances : Array InstanceObject}
      (like : List.Forall₂ L.Function functions.toList functions'.toList) :
      Stores ⟨scopes, functions, classes, instances⟩ ⟨scopes, functions', classes, instances⟩

/-- A body that is like itself. -/
def Body (body : List Stmt) : Prop :=
  List.Forall₂ L.stmt body body

inductive Machines : Machine → Machine → Prop where
  | mk {store store' : Store} {console : Console} {registry : Registry} {plugins : PluginTable}
      {stubs : Table FunctionId} (stores : L.Stores store store')
      (offers : ∀ body, plugins.Offers body → L.Body body) :
      Machines ⟨store, console, registry, plugins, stubs⟩
        ⟨store', console, registry, plugins, stubs⟩

variable {L} {s s' : Store} {m m' : Machine}

/-- The same answer, in related states. -/
inductive Answers {α σ : Type} (R : σ → σ → Prop) : α × σ → α × σ → Prop where
  | mk {a : α} {x y : σ} : R x y → Answers R (a, x) (a, y)

theorem Answers.parts {α σ : Type} {R : σ → σ → Prop} {x y : α × σ} (h : Answers R x y) :
    ∃ a s s', x = (a, s) ∧ y = (a, s') ∧ R s s' := by
  obtain ⟨related⟩ := h
  exact ⟨_, _, _, rfl, rfl, related⟩

theorem Answers.related {α σ : Type} {R : σ → σ → Prop} {x y : α × σ} (h : Answers R x y) :
    R x.2 y.2 := by
  obtain ⟨related⟩ := h
  exact related

/-! ## Stores -/

theorem function_stub (signature : Signature) : L.Function (.stub signature) (.stub signature) :=
  .mk .none

theorem function_self {f : FunctionObject} (bodies : ∀ body ∈ f.body, L.Body body) :
    L.Function f f := by
  obtain ⟨signature, body, modifiers, scope⟩ := f
  cases body with
  | none => exact .mk .none
  | some body => exact .mk (.some (bodies body rfl))

theorem Function.placed {f f' : FunctionObject} (h : L.Function f f') (scopes : Scopes) :
    L.Function (f.placed scopes) (f'.placed scopes) := by
  obtain ⟨bodies⟩ := h
  exact .mk bodies

namespace Stores

theorem function (h : L.Stores s s') (id : FunctionId) :
    L.Function (s.function id) (s'.function id) := by
  obtain @⟨scopes, functions, functions', classes, instances, like⟩ := h
  have both := List.forall₂_iff_get.mp like
  simp only [Store.function, Array.getD_eq_getD_getElem?, ← Array.getElem?_toList]
  by_cases inside : id < functions.toList.length
  · rw [List.getElem?_eq_getElem inside, List.getElem?_eq_getElem (both.1 ▸ inside)]
    exact both.2 id inside (both.1 ▸ inside)
  · rw [List.getElem?_eq_none (Nat.le_of_not_lt inside),
      List.getElem?_eq_none (Nat.le_of_not_lt (both.1 ▸ inside))]
    exact .mk .none

theorem classObject (h : L.Stores s s') : s.classObject = s'.classObject := by
  obtain ⟨like⟩ := h
  rfl

theorem instanceObject (h : L.Stores s s') : s.instanceObject = s'.instanceObject := by
  obtain ⟨like⟩ := h
  rfl

theorem classMember? (h : L.Stores s s') : s.classMember? = s'.classMember? := by
  obtain ⟨like⟩ := h
  rfl

theorem instanceMember? (h : L.Stores s s') : s.instanceMember? = s'.instanceMember? := by
  obtain ⟨like⟩ := h
  rfl

theorem display (h : L.Stores s s') : s.display = s'.display := by
  funext value
  cases value with
  | functionRef id =>
      have name : (s.function id).name = (s'.function id).name := by
        generalize s.function id = f, s'.function id = f', h.function id = like
        obtain ⟨bodies⟩ := like
        rfl
      simp only [Store.display, name]
  | null | number | string | bool | classRef | instanceRef | host =>
      obtain ⟨like⟩ := h
      rfl

theorem addFunction {f f' : FunctionObject} (h : L.Stores s s') (function : L.Function f f') :
    Answers L.Stores (s.addFunction f) (s'.addFunction f') := by
  obtain @⟨scopes, functions, functions', classes, instances, like⟩ := h
  have size : functions.size = functions'.size := like.length_eq
  simp only [Store.addFunction, size]
  refine ⟨⟨?_⟩⟩
  rw [Array.toList_push, Array.toList_push]
  exact List.rel_append like (.cons function .nil)

theorem addClass (h : L.Stores s s') (c : ClassObject) :
    Answers L.Stores (s.addClass c) (s'.addClass c) := by
  obtain ⟨like⟩ := h
  exact ⟨⟨like⟩⟩

theorem addInstance (h : L.Stores s s') (id : ClassId) :
    Answers L.Stores (s.addInstance id) (s'.addInstance id) := by
  obtain ⟨like⟩ := h
  exact ⟨⟨like⟩⟩

theorem setField (h : L.Stores s s') (id : InstanceId) (name : String) (value : Value) :
    L.Stores (s.setField id name value) (s'.setField id name value) := by
  obtain ⟨like⟩ := h
  exact ⟨like⟩

theorem withScopes (h : L.Stores s s') (change : Scopes → Scopes) :
    L.Stores { s with scopes := change s.scopes } { s' with scopes := change s'.scopes } := by
  obtain ⟨like⟩ := h
  exact ⟨like⟩

theorem addStubs (h : L.Stores s s') (signatures : List Signature) :
    Answers L.Stores (s.addStubs signatures) (s'.addStubs signatures) := by
  unfold Store.addStubs
  generalize (∅ : Table FunctionId) = stubs
  induction signatures generalizing s s' stubs with
  | nil => exact ⟨h⟩
  | cons signature signatures ih =>
      obtain ⟨id, t, t', eq, eq', like⟩ := (h.addFunction (function_stub signature)).parts
      simp only [List.foldl_cons, eq, eq']
      exact ih like _

mutual

theorem build : ∀ (design : Blueprint) {s s' : Store}, L.Stores s s' →
    Answers L.Stores (design.build s) (design.build s')
  | .known value, s, s', h => ⟨h⟩
  | .global name, s, s', h => by
      obtain ⟨like⟩ := h
      exact ⟨⟨like⟩⟩
  | .stub signature, s, s', h => by
      obtain ⟨id, t, t', eq, eq', like⟩ := (h.addFunction (function_stub signature)).parts
      simp only [Blueprint.build, eq, eq']
      exact ⟨like⟩
  | .newClass name methods properties isStatic, s, s', h => by
      obtain ⟨methods, t, t', eq, eq', like⟩ := (h.addStubs methods).parts
      simp only [Blueprint.build, eq, eq']
      obtain ⟨properties, t, t', eq, eq', like⟩ := (buildProperties properties ∅ like).parts
      simp only [eq, eq']
      obtain ⟨id, t, t', eq, eq', like⟩ :=
        (like.addClass ⟨name, methods, properties, isStatic⟩).parts
      simp only [eq, eq']
      exact ⟨like⟩
  | .newInstance design, s, s', h => by
      obtain ⟨value, t, t', eq, eq', like⟩ := (build design h).parts
      simp only [Blueprint.build, eq, eq']
      cases value with
      | classRef id =>
          obtain ⟨new, u, u', eq, eq', added⟩ := (like.addInstance id).parts
          have same := congrFun like.classObject id
          by_cases isStatic : (t'.classObject id).isStatic
          · simp only [Store.instantiate?, same, isStatic, if_true]
            exact ⟨like⟩
          · simp only [Store.instantiate?, same, isStatic, eq, eq']
            exact ⟨added⟩
      | null | number | string | bool | functionRef | instanceRef | host => exact ⟨like⟩

theorem buildProperties : ∀ (designs : List (String × Blueprint)) (built : Table Value)
    {s s' : Store}, L.Stores s s' → Answers L.Stores (Blueprint.buildProperties designs built s)
      (Blueprint.buildProperties designs built s')
  | [], built, s, s', h => ⟨h⟩
  | (name, design) :: designs, built, s, s', h => by
      obtain ⟨value, t, t', eq, eq', like⟩ := (build design h).parts
      simp only [Blueprint.buildProperties, eq, eq']
      exact buildProperties designs _ like

end

theorem buildParameter (h : L.Stores s s') (p : Parameter Blueprint) :
    Answers L.Stores (p.build s) (p.build s') := by
  unfold Parameter.build
  split
  · exact ⟨h⟩
  · rename_i design _
    obtain ⟨value, t, t', eq, eq', like⟩ := (build design h).parts
    simp only [eq, eq']
    exact ⟨like⟩

theorem buildParameters (h : L.Stores s s') (ps : List (Parameter Blueprint)) :
    Answers L.Stores (Parameter.buildAll ps s) (Parameter.buildAll ps s') := by
  induction ps generalizing s s' with
  | nil => exact ⟨h⟩
  | cons p ps ih =>
      obtain ⟨p, t, t', eq, eq', like⟩ := (h.buildParameter p).parts
      simp only [Parameter.buildAll, eq, eq']
      obtain ⟨ps, t, t', eq, eq', like⟩ := (ih like).parts
      simp only [eq, eq']
      exact ⟨like⟩

theorem buildFunction (h : L.Stores s s') (f : FunctionDesign) :
    Answers L.Stores (f.build s) (f.build s') := by
  obtain ⟨resource, t, t', eq, eq', like⟩ := (build f.resource h).parts
  simp only [FunctionDesign.build, eq, eq']
  obtain ⟨parameters, t, t', eq, eq', like⟩ := (like.buildParameters f.parameters).parts
  simp only [eq, eq']
  exact ⟨like⟩

theorem buildFunctions (h : L.Stores s s') (fs : List FunctionDesign) :
    Answers L.Stores (FunctionDesign.buildAll fs s) (FunctionDesign.buildAll fs s') := by
  induction fs generalizing s s' with
  | nil => exact ⟨h⟩
  | cons f fs ih =>
      obtain ⟨f, t, t', eq, eq', like⟩ := (h.buildFunction f).parts
      simp only [FunctionDesign.buildAll, eq, eq']
      obtain ⟨fs, t, t', eq, eq', like⟩ := (ih like).parts
      simp only [eq, eq']
      exact ⟨like⟩

end Stores

/-! ## Interpreters -/

namespace Machines

theorem store (h : L.Machines m m') : L.Stores m.store m'.store := by
  obtain ⟨stores, -⟩ := h
  exact stores

theorem plugins (h : L.Machines m m') : m'.plugins = m.plugins := by
  obtain ⟨-, -⟩ := h
  rfl

theorem offers (h : L.Machines m m') : ∀ body, m.plugins.Offers body → L.Body body := by
  obtain ⟨-, offers⟩ := h
  exact offers

theorem withStore {t t' : Store} (h : L.Machines m m') (stores : L.Stores t t') :
    L.Machines { m with store := t } { m' with store := t' } := by
  obtain ⟨-, offers⟩ := h
  exact ⟨stores, offers⟩

theorem writeLine (h : L.Machines m m') (text : String) :
    L.Machines (m.writeLine text) (m'.writeLine text) := by
  obtain ⟨stores, offers⟩ := h
  exact ⟨stores, offers⟩

theorem defineGlobal (h : L.Machines m m') (name : String) (value : Value) :
    L.Machines (m.defineGlobal name value) (m'.defineGlobal name value) :=
  h.withStore (h.store.withScopes (·.define Scopes.globals name value))

theorem defineFunction (h : L.Machines m m') (name : String) {f f' : FunctionObject}
    (function : L.Function f f') :
    Answers L.Machines (m.defineFunction name f) (m'.defineFunction name f') := by
  have scopes : m'.store.scopes = m.store.scopes := by
    obtain ⟨⟨-⟩, -⟩ := h
    rfl
  obtain ⟨id, t, t', eq, eq', like⟩ :=
    (h.store.addFunction (function.placed m.store.scopes)).parts
  simp only [Machine.defineFunction, scopes, eq, eq']
  exact ⟨(h.withStore like).defineGlobal name _⟩

theorem defineStub (h : L.Machines m m') (name : String) (signature : Signature) :
    Answers L.Machines (m.defineStub name signature) (m'.defineStub name signature) :=
  h.defineFunction name (function_stub signature)

theorem runSetup (h : L.Machines m m') {steps : List SetupStep}
    (bodies : ∀ name f, SetupStep.define name f ∈ steps → ∀ body ∈ f.body, L.Body body) :
    Answers L.Machines (m.runSetup steps) (m'.runSetup steps) := by
  induction steps generalizing m m' with
  | nil => exact ⟨h⟩
  | cons step steps ih =>
      have ih {n n' : Machine} (like : L.Machines n n') :=
        ih like fun name f mem => bodies name f (List.mem_cons_of_mem _ mem)
      cases step with
      | register resource entry =>
          obtain ⟨value, t, t', eq, eq', like⟩ := (Stores.build resource h.store).parts
          simp only [Machine.runSetup, eq, eq']
          obtain ⟨-, offers⟩ := h
          exact ih ⟨like, offers⟩
      | unregister name =>
          obtain ⟨stores, offers⟩ := h
          exact ih ⟨stores, offers⟩
      | define name f =>
          have function := function_self (bodies name f (by simp))
          obtain ⟨id, n, n', eq, eq', like⟩ := (h.defineFunction name function).parts
          simp only [Machine.runSetup, eq, eq']
          exact ih like
      | say text => exact ih (h.writeLine text)
      | fail message => exact ⟨h⟩

theorem removeStub (h : L.Machines m m') (name : String) :
    L.Machines (m.removeStub name) (m'.removeStub name) := by
  obtain ⟨⟨like⟩, offers⟩ := h
  unfold Machine.removeStub
  dsimp only
  split
  · exact ⟨⟨like⟩, offers⟩
  · split
    · split
      · exact ⟨⟨like⟩, offers⟩
      · exact ⟨⟨like⟩, offers⟩
    · exact ⟨⟨like⟩, offers⟩

theorem expose (h : L.Machines m m') (f : PluginFunction) :
    L.Machines (m.expose f) (m'.expose f) := by
  obtain ⟨id, n, n', eq, eq', like⟩ := (h.defineStub f.name f.signature).parts
  simp only [Machine.expose, eq, eq']
  obtain ⟨stores, offers⟩ := like
  exact ⟨stores, offers⟩

theorem foldl {α : Type} {change : Machine → α → Machine}
    (keeps : ∀ {m m'} a, L.Machines m m' → L.Machines (change m a) (change m' a)) (as : List α)
    (h : L.Machines m m') : L.Machines (as.foldl change m) (as.foldl change m') := by
  induction as generalizing m m' with
  | nil => exact h
  | cons a as ih => exact ih (keeps a h)

theorem load (h : L.Machines m m') {p : Plugin} (bodies : ∀ body, p.Makes body → L.Body body) :
    Answers L.Machines (m.load p) (m'.load p) := by
  have started := h.writeLine ("Loading plugin: " ++ p.name ++ " v" ++ p.version)
  have defined : ∀ name f, SetupStep.define name f ∈ p.setup → ∀ body ∈ f.body, L.Body body :=
    fun name f mem body has => bodies body ⟨name, f, mem, has⟩
  obtain ⟨result, n, n', eq, eq', like⟩ := (started.runSetup defined).parts
  simp only [Machine.load, eq, eq']
  cases result with
  | error e => exact ⟨like.writeLine _⟩
  | ok =>
      obtain ⟨functions, t, t', eq, eq', built⟩ := (like.store.buildFunctions p.functions).parts
      simp only [eq, eq']
      obtain ⟨-, offers⟩ := like
      refine ⟨writeLine ?_ _⟩
      exact foldl (fun f h => h.expose f) functions
        (foldl (fun name h => h.removeStub name) _ ⟨built, offers⟩)

theorem loadByName (h : L.Machines m m') (nickname : String) :
    Answers L.Machines (m.loadByName nickname) (m'.loadByName nickname) := by
  simp only [Machine.loadByName, h.plugins]
  cases found : m.plugins.find? nickname with
  | none => exact ⟨h.writeLine _⟩
  | some p =>
      have loaded := h.load (p := p) fun body makes => h.offers body ⟨_, p, found, makes⟩
      obtain ⟨result, n, n', eq, eq', like⟩ := loaded.parts
      simp only [eq, eq']
      cases result with
      | error e => exact ⟨like⟩
      | ok =>
          obtain ⟨stores, offers⟩ := like
          exact ⟨⟨stores, offers⟩⟩

theorem unload (h : L.Machines m m') (nameOrAlias : String) :
    Answers L.Machines (m.unload nameOrAlias) (m'.unload nameOrAlias) := by
  obtain ⟨stores, offers⟩ := h
  simp only [Machine.unload]
  split
  · exact ⟨⟨stores, offers⟩⟩
  · refine ⟨foldl (fun name h => h.removeStub name) _ (writeLine ?_ _)⟩
    exact ⟨stores, offers⟩

/-- One more plugin can be loaded. -/
theorem offer (h : L.Machines m m') (nickname : String) {p : Plugin}
    (bodies : ∀ body, p.Makes body → L.Body body) :
    L.Machines { m with plugins := m.plugins.offer nickname p }
      { m' with plugins := m'.plugins.offer nickname p } := by
  obtain ⟨stores, offers⟩ := h
  exact ⟨stores, fun body offered =>
    (PluginTable.offers_offer offered).elim (bodies body) (offers body)⟩

theorem arguments (h : L.Machines m m') (values : List Value) :
    m.arguments values = m'.arguments values := by
  simp only [Machine.arguments, h.store.display]

theorem callPlugin (h : L.Machines m m') (name : String) (values : List Value) :
    Answers L.Machines (m.callPlugin name values) (m'.callPlugin name values) := by
  have args := h.arguments values
  obtain ⟨stores, offers⟩ := h
  simp only [Machine.callPlugin, args]
  exact ⟨⟨stores, offers⟩⟩

theorem callRegistered (h : L.Machines m m') (name : String) (values : List Value) :
    Answers L.Machines (m.callRegistered name values) (m'.callRegistered name values) := by
  have args := h.arguments values
  obtain ⟨stores, offers⟩ := h
  simp only [Machine.callRegistered, args]
  exact ⟨⟨stores, offers⟩⟩

/-- A fresh interpreter has no functions but stubs, and no plugin that defines others. -/
theorem fresh (console : Console) : L.Machines (.fresh console) (.fresh console) := by
  unfold Machine.fresh
  refine foldl (fun b h => ?_) Builtin.all ⟨⟨.nil⟩, fun body offers => ?_⟩
  · obtain ⟨id, n, n', eq, eq', like⟩ := (h.defineStub b.signature.name b.signature).parts
    rw [eq, eq']
    exact like
  · exact absurd offers (Machine.not_offers_fresh console body)

end Machines

end Likeness

end Scriptlet
