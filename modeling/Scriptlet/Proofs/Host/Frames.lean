import Scriptlet.Proofs.Host.Bookkeeping
import Scriptlet.Proofs.Value.Frames

/-! # Plugins and frames

Loading and unloading plugins binds and frees names in the global frame only. The functions that are
made meanwhile run in frames that are there, and have no bodies but those that plugins define. -/

namespace Scriptlet

/-- The plugin defines a function with this body. -/
def Plugin.Makes (p : Plugin) (body : List Stmt) : Prop :=
  ∃ name f, SetupStep.define name f ∈ p.setup ∧ body ∈ f.body

/-- A plugin that can be loaded by an alias defines a function with this body. -/
def PluginTable.Offers (t : PluginTable) (body : List Stmt) : Prop :=
  ∃ (nickname : String) (p : Plugin), t.available[nickname]? = some p ∧ p.Makes body

/-- What is offered after a plugin was offered is what this makes or was offered before. -/
theorem PluginTable.offers_offer {t : PluginTable} {nickname : String} {p : Plugin}
    {body : List Stmt} (h : (t.offer nickname p).Offers body) : p.Makes body ∨ t.Offers body := by
  obtain ⟨other, q, found, makes⟩ := h
  rcases Machine.available_offer found with rfl | old
  · exact .inl makes
  · exact .inr ⟨other, q, old, makes⟩

/-- The plugin that comes with the interpreter defines no functions. -/
theorem Machine.not_offers_fresh (console : Console) (body : List Stmt) :
    ¬ (fresh console).plugins.Offers body := by
  have plugins : (fresh console).plugins =
    Lambda.aliases.foldl (fun t nickname => t.offer nickname Lambda.plugin) {} := rfl
  rw [plugins]
  rintro ⟨nickname, p, found, name, f, mem, -⟩
  rcases available_offerAll found with rfl | nothing
  · cases mem
  · simp at nothing

namespace Store

/-- All frames stay as they are but for the variables of the global one, and references lead where
they led. New functions run in frames that were there, and only such bodies are made. -/
structure VariesInGlobals (made : List Stmt → Prop) (s t : Store) : Prop where
  scopes : s.scopes.VaryInGlobals t.scopes
  functions : ∀ f ∈ t.functions, f ∈ s.functions ∨
    (∀ body ∈ f.body, made body) ∧ ∀ g ∈ f.scope, g < s.scopes.count
  objects : s.Within t

def noBody : List Stmt → Prop := fun _ => False

variable {made made' : List Stmt → Prop} {s t u : Store}

theorem VariesInGlobals.refl (s : Store) : s.VariesInGlobals made s :=
  ⟨.refl _, fun _ h => .inl h, .refl s⟩

theorem VariesInGlobals.trans (h : s.VariesInGlobals made t) (h' : t.VariesInGlobals made u) :
    s.VariesInGlobals made u where
  scopes := h.scopes.trans h'.scopes
  functions f mem := by
    rcases h'.functions f mem with old | ⟨bodies, scope⟩
    · exact h.functions f old
    · exact .inr ⟨bodies, fun g mem => Nat.lt_of_lt_of_eq (scope g mem) h.scopes.count⟩
  objects := h.objects.trans h'.objects

theorem VariesInGlobals.mono (h : s.VariesInGlobals made t) (le : ∀ body, made body → made' body) :
    s.VariesInGlobals made' t where
  scopes := h.scopes
  functions f mem := (h.functions f mem).imp_right fun new =>
    ⟨fun body hb => le body (new.1 body hb), new.2⟩
  objects := h.objects

theorem VariesInGlobals.of_noBody (h : s.VariesInGlobals noBody t) : s.VariesInGlobals made t :=
  h.mono fun _ => False.elim

theorem addFunction_variesInGlobals (s : Store) {f : FunctionObject}
    (bodies : ∀ body ∈ f.body, made body) (scope : ∀ g ∈ f.scope, g < s.scopes.count) :
    s.VariesInGlobals made (s.addFunction f).2 where
  scopes := .refl s.scopes
  functions g mem := by
    rcases Array.mem_push.mp mem with old | rfl
    · exact .inl old
    · exact .inr ⟨bodies, scope⟩
  objects := (s.addFunction_extends f).within

theorem addStub_variesInGlobals (s : Store) (signature : Signature) :
    s.VariesInGlobals noBody (s.addFunction (.stub signature)).2 :=
  s.addFunction_variesInGlobals (fun _ none => by cases none) fun _ none => by cases none

/-- New objects of a plugin touch no frame. -/
theorem Allocations.variesInGlobals (h : Allocations s t) : s.VariesInGlobals noBody t := by
  induction h with
  | refl => exact .refl s
  | tail _ last ih =>
      cases last with
      | stub signature => exact ih.trans (addStub_variesInGlobals _ signature)
      | newClass c =>
          exact ih.trans ⟨.refl _, fun _ mem => .inl mem, (addClass_extends _ c).within⟩
      | newInstance id =>
          exact ih.trans ⟨.refl _, fun _ mem => .inl mem, (addInstance_extends _ id).within⟩

end Store

theorem FunctionObject.placed_lt {f : FunctionObject} {scopes : Scopes} :
    ∀ g ∈ (f.placed scopes).scope, g < scopes.count := by
  intro g mem
  exact of_decide_eq_true (Option.mem_filter_iff.mp mem).2

namespace Machine

open Store (VariesInGlobals noBody)

variable {made : List Stmt → Prop}

theorem defineFunction_variesInGlobals (m : Machine) (name : String) {f : FunctionObject}
    (bodies : ∀ body ∈ f.body, made body) :
    m.store.VariesInGlobals made (m.defineFunction name f).2.store := by
  have added := m.store.addFunction_variesInGlobals (f := f.placed m.store.scopes) bodies
    FunctionObject.placed_lt
  exact added.trans ⟨Scopes.varyInGlobals_define _ name _, fun _ mem => .inl mem,
    Store.within_scopes _ _⟩

theorem defineStub_variesInGlobals (m : Machine) (name : String) (signature : Signature) :
    m.store.VariesInGlobals noBody (m.defineStub name signature).2.store :=
  m.defineFunction_variesInGlobals name fun _ none => by cases none

theorem removeStub_variesInGlobals (m : Machine) (name : String) :
    m.store.VariesInGlobals noBody (m.removeStub name).store := by
  rcases m.removeStub_cases name with ⟨-, eq⟩ | ⟨id, -, ⟨-, eq⟩ | ⟨-, eq⟩⟩
  · rw [eq]
    exact .refl m.store
  · rw [eq]
    exact ⟨m.store.scopes.varyInGlobals_remove name, fun _ mem => .inl mem,
      m.store.within_scopes _⟩
  · rw [eq]
    exact .refl m.store

theorem foldl_variesInGlobals {α : Type} {change : Machine → α → Machine}
    (varies : ∀ (m : Machine) a, m.store.VariesInGlobals made (change m a).store) (as : List α)
    (m : Machine) : m.store.VariesInGlobals made (as.foldl change m).store := by
  induction as generalizing m with
  | nil => exact .refl m.store
  | cons a as ih => exact (varies m a).trans (ih _)

theorem runSetup_variesInGlobals (m : Machine) {steps : List SetupStep}
    (bodies : ∀ name f, SetupStep.define name f ∈ steps → ∀ body ∈ f.body, made body) :
    m.store.VariesInGlobals made (m.runSetup steps).2.store := by
  induction steps generalizing m with
  | nil => exact .refl m.store
  | cons step steps ih =>
      have ih (m : Machine) := ih m fun name f mem => bodies name f (List.mem_cons_of_mem _ mem)
      cases step with
      | register resource entry =>
          have rest := ih { m with
            store := (resource.build m.store).2
            registry := m.registry.add (entry (resource.build m.store).1) }
          exact (resource.build_allocates m.store).variesInGlobals.of_noBody.trans rest
      | unregister name => exact ih { m with registry := m.registry.erase name }
      | define name f =>
          have defined := m.defineFunction_variesInGlobals name (bodies name f (by simp))
          exact defined.trans (ih _)
      | say text => exact ih (m.writeLine text)
      | fail message => exact .refl m.store

theorem enlist_variesInGlobals (m : Machine) (p : Plugin) :
    m.store.VariesInGlobals noBody (m.enlist p).store := by
  have built := (FunctionDesign.buildAll_allocates p.functions m.store).variesInGlobals
  have removed := foldl_variesInGlobals removeStub_variesInGlobals (m.plugins.ownedBy p.name)
    { m with
      store := (FunctionDesign.buildAll p.functions m.store).2
      plugins := (m.plugins.install p (FunctionDesign.buildAll p.functions m.store).1).2 }
  have exposed (m : Machine) (f : PluginFunction) :
      m.store.VariesInGlobals noBody (m.expose f).store :=
    m.defineStub_variesInGlobals f.name f.signature
  exact built.trans (removed.trans (foldl_variesInGlobals exposed _ _))

theorem setUp_variesInGlobals (m : Machine) (p : Plugin) :
    m.store.VariesInGlobals p.Makes (m.setUp p).2.store :=
  runSetup_variesInGlobals (m.writeLine _) fun name f mem _ has => ⟨name, f, mem, has⟩

theorem load_variesInGlobals (m : Machine) (p : Plugin) :
    m.store.VariesInGlobals p.Makes (m.load p).2.store := by
  have setup := m.setUp_variesInGlobals p
  rcases m.load_cases p with ⟨e, ready, result, eq⟩ | ⟨ready, result, eq⟩
  · rw [result] at setup
    rw [eq]
    exact setup
  · rw [result] at setup
    rw [eq]
    exact setup.trans (ready.enlist_variesInGlobals p).of_noBody

theorem loadByName_variesInGlobals (m : Machine) (nickname : String) :
    m.store.VariesInGlobals m.plugins.Offers (m.loadByName nickname).2.store := by
  unfold loadByName
  split
  · exact .refl m.store
  · rename_i p found
    have loaded : VariesInGlobals m.plugins.Offers m.store (m.load p).2.store :=
      (m.load_variesInGlobals p).mono fun _ makes => ⟨_, p, found, makes⟩
    cases result : m.load p with
    | mk outcome m' =>
        rw [result] at loaded
        cases outcome with
        | error e => exact loaded
        | ok => exact loaded

theorem unload_variesInGlobals (m : Machine) (nameOrAlias : String) :
    m.store.VariesInGlobals noBody (m.unload nameOrAlias).2.store := by
  unfold unload
  split
  · exact .refl m.store
  · rename_i name _
    exact foldl_variesInGlobals removeStub_variesInGlobals (m.plugins.ownedBy name)
      (writeLine { m with plugins := m.plugins.remove name } ("Plugin " ++ name ++ " unloaded"))

end Machine

end Scriptlet
