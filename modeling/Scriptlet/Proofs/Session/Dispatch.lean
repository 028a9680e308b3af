import Scriptlet.Proofs.Session.Extensions
import Scriptlet.Proofs.Session.Operations

/-! # Calls that find their function

Where a call by name goes is decided before its arguments are evaluated, and only to where the
function is. The function is still there when the call is handed over, unless a plugin call that was
made for the arguments has taken it away. -/

namespace Scriptlet

/-- Where a call by name can be handed over to. -/
inductive Route where
  | plugin
  | registry
deriving DecidableEq

namespace Route

def offers (m : Machine) (name : String) : Route → Bool
  | plugin => m.plugins.functions.contains name
  | registry => m.registry.contains name

/-- The route of a call by name, if there is a function. Plugins come before the registry. -/
def of? (m : Machine) (name : String) : Option Route :=
  if plugin.offers m name then some plugin
  else if registry.offers m name then some registry
  else none

def call (name : String) (values : List Value) : Route → Eval Value
  | plugin => Eval.step (·.callPlugin name values)
  | registry => Eval.step (·.callRegistered name values)

theorem offers_of_of? {m : Machine} {name : String} {route : Route}
    (h : of? m name = some route) : route.offers m name := by
  unfold of? at h
  split at h
  · obtain rfl := Option.some.inj h
    assumption
  · split at h
    · obtain rfl := Option.some.inj h
      assumption
    · cases h

end Route

/-! ## How functions go away -/

namespace Machine

theorem removeStub_registry (m : Machine) (name : String) :
    (m.removeStub name).registry = m.registry := by
  rcases m.removeStub_cases name with ⟨-, eq⟩ | ⟨id, -, ⟨-, eq⟩ | ⟨-, eq⟩⟩ <;> rw [eq]

theorem unload_registry (m : Machine) (nameOrAlias : String) :
    (m.unload nameOrAlias).2.registry = m.registry := by
  have removed (names : List String) (m : Machine) :
      (names.foldl removeStub m).registry = m.registry := by
    induction names generalizing m with
    | nil => rfl
    | cons name names ih => rw [List.foldl_cons, ih, removeStub_registry]
  unfold unload
  split
  · rfl
  · exact removed _ _

/-- Any number of steps of a script. -/
abbrev LeadsTo : Machine → Machine → Prop :=
  Relation.ReflTransGen fun m n => ∃ l, Step l m n

end Machine

namespace Route

open Machine

/-- A plugin call that takes a function away. A registered one is taken away by the setup of a
plugin only. -/
inductive Takes (name : String) : Route → Machine → Machine → Prop where
  | load {route : Route} {m : Machine} (nickname : String) :
      route.offers m name → ¬ route.offers (m.loadByName nickname).2 name →
      Takes name route m (m.loadByName nickname).2
  | unload {m : Machine} (nameOrAlias : String) :
      plugin.offers m name → ¬ plugin.offers (m.unload nameOrAlias).2 name →
      Takes name plugin m (m.unload nameOrAlias).2

/-- A script leads from one interpreter to the other, and a plugin call takes the function away on
the way. -/
structure Loses (name : String) (route : Route) (m n : Machine) : Prop where
  before : route.offers m name
  after : ¬ route.offers n name
  taken : ∃ a b, m.LeadsTo a ∧ Takes name route a b ∧ b.LeadsTo n

variable {name : String} {route : Route} {m n : Machine} {l : Licence}

/-- Of the steps of scripts only plugin calls take functions away. -/
theorem takes_of_step (step : Step l m n) (before : route.offers m name)
    (after : ¬ route.offers n name) : Takes name route m n := by
  cases step with
  | console | newFrame | rebind | declare | newFunction | newClass | newInstance | setField =>
      cases route <;> exact absurd before after
  | load nickname => exact .load nickname before after
  | unload nameOrAlias =>
      cases route with
      | plugin => exact .unload nameOrAlias before after
      | registry =>
          simp only [offers, unload_registry] at before after
          exact absurd before after

theorem loses_of_steps (steps : Steps l m n) (before : route.offers m name)
    (after : ¬ route.offers n name) : route.Loses name m n := by
  refine ⟨before, after, ?_⟩
  induction steps with
  | refl => exact absurd before after
  | @tail mid n earlier step ih =>
      by_cases still : route.offers mid name
      · exact ⟨mid, n, earlier.lift id fun _ _ step => ⟨l, step⟩, takes_of_step step still after,
          .refl⟩
      · obtain ⟨a, b, first, taken, last⟩ := ih still
        exact ⟨a, b, first, taken, last.tail ⟨l, step⟩⟩

end Route

/-! ## Alarms -/

namespace Evaluator

open Machine

/-- What is done about a call that is handed over and finds no function. It is told the route, the
name, the arguments, the interpreter when the route was chosen, and the values of the arguments. -/
abbrev Alarm := Route → String → List Expr → Machine → List Value → Eval Value

/-- Calls a function by name, but sets off an alarm if the function is not there when the call is
handed over. -/
def callNameGuarded (alarm : Alarm) (ev : Evaluator) (f : FrameId) (callee : Expr) (name : String)
    (args : List Expr) (line : Nat) : Eval Value := do
  match Builtin.ofName? name with
  | some builtin => callBuiltin builtin (← evalAll ev f args)
  | none =>
      let m ← get
      match Route.of? m name with
      | some route =>
          let values ← evalAll ev f args
          if route.offers (← get) name then route.call name values
          else alarm route name args m values
      | none => callValue ev f callee args line

/-- Runs an expression, with an alarm for calls by name. -/
def evalStepGuarded (alarm : Alarm) (ev : Evaluator) (e : Expr) (f : FrameId) : Eval Value :=
  match e with
  | .call pos (.identifier namePos name) args =>
      callNameGuarded alarm ev f (.identifier namePos name) name args pos.line
  | e => evalStep ev e f

/-- Runs expressions and statements as they are run without an alarm, but sets it off where a call
is handed over and finds no function. -/
def guarded (alarm : Alarm) : Nat → Evaluator
  | 0 => ofFuel 0
  | n + 1 =>
      ⟨fun e f => evalStepGuarded alarm (guarded alarm n) e f,
        fun s f => execStep (guarded alarm n) n s f⟩

/-- A plugin call stands in one of the expressions or in the body of a function. -/
def CanCallPlugins (args : List Expr) (m : Machine) : Prop :=
  (∃ e ∈ args, ¬ e.CallsOnly (· ∉ pluginCalls)) ∨ ¬ m.CallsOnly (· ∉ pluginCalls)

/-- Where the arguments were evaluated in between and a plugin call has taken the function away
meanwhile, the alarm does what is done without it. -/
def Alarm.Concedes (alarm : Alarm) : Prop :=
  ∀ route name args m values n, (∃ fuel f, evalAll (ofFuel fuel) f args m = .ok values n) →
    route.Loses name m n → CanCallPlugins args m →
      alarm route name args m values n = route.call name values n

variable {alarm : Alarm} {fuel : Nat} {f : FrameId} {name : String} {args : List Expr}
  {m n : Machine} {values : List Value} {route : Route}

/-- Arguments that lose a function can call plugins. -/
theorem canCallPlugins_of_evalAll (ran : evalAll (ofFuel fuel) f args m = .ok values n)
    (before : route.offers m name) (after : ¬ route.offers n name) : CanCallPlugins args m := by
  by_contra cannot
  simp only [CanCallPlugins, not_or, not_exists, not_and, not_not] at cannot
  have tied : Eval.Tied m.withExtensionsOf 0 (evalAll (ofFuel fuel) f args)
      (evalAll (ofFuel fuel) f args) := (tied_ofFuel fuel).evalAll cannot.1 (.inl trivial)
  have kept := tied.ties m m ⟨rfl, .refl m, cannot.2⟩ (Nat.zero_le _)
  rw [ran] at kept
  cases kept with
  | ok kept =>
      have same : route.offers n name = route.offers m name := by
        cases route <;> simp only [Route.offers, kept.2.1.plugins, kept.2.1.registry]
      exact after (same.trans before)
  | astray lost => exact lost

/-- An alarm makes no difference to a call that is handed over to where its function was. -/
theorem handOver_eq (concedes : alarm.Concedes) (before : route.offers m name) :
    (evalAll (ofFuel fuel) f args >>= fun values => get >>= fun n =>
      if route.offers n name then route.call name values
      else alarm route name args m values) m =
    (evalAll (ofFuel fuel) f args >>= fun values => route.call name values) m := by
  have steps := (runs_ofFuel fuel).evalAll f args m
  cases ran : evalAll (ofFuel fuel) f args m with
  | error halt n => simp only [Bind.bind, EStateM.bind, ran]
  | ok values n =>
      simp only [Eval.after, ran] at steps
      simp only [Bind.bind, EStateM.bind, ran]
      show (if route.offers n name then _ else _ : Eval Value) n = _
      by_cases after : route.offers n name
      · simp only [after, if_true]
      · simp only [after, Bool.false_eq_true, if_false]
        exact concedes route name args m values n ⟨fuel, f, ran⟩
          (Route.loses_of_steps steps before after) (canCallPlugins_of_evalAll ran before after)

/-- A call of a name that every script can call takes no route; all others take theirs. -/
theorem callName_eq {ev : Evaluator} {callee : Expr} {line : Nat}
    (other : Builtin.ofName? name = none) :
    callName ev f callee name args line = get >>= fun m =>
      match Route.of? m name with
      | some route => evalAll ev f args >>= fun values => route.call name values
      | none => callValue ev f callee args line := by
  funext m
  simp only [callName, other]
  show (if m.plugins.functions.contains name then _ else _ : Eval Value) m =
    (match Route.of? m name with | some _ => _ | none => _ : Eval Value) m
  by_cases plugin : m.plugins.functions.contains name
  · simp only [Route.of?, Route.offers, plugin, if_true]
    rfl
  · simp only [Route.of?, Route.offers, plugin, Bool.false_eq_true, if_false]
    show (if m.registry.contains name then _ else _ : Eval Value) m = _
    by_cases registry : m.registry.contains name
    · simp only [registry, if_true]
      rfl
    · simp only [registry, Bool.false_eq_true, if_false]

theorem callNameGuarded_eq (concedes : alarm.Concedes) (f : FrameId) (callee : Expr)
    (name : String) (args : List Expr) (line : Nat) :
    callNameGuarded alarm (ofFuel fuel) f callee name args line =
      callName (ofFuel fuel) f callee name args line := by
  cases builtin : Builtin.ofName? name with
  | some builtin' => simp only [callNameGuarded, callName, builtin]
  | none =>
      rw [callName_eq builtin]
      simp only [callNameGuarded, builtin]
      funext m
      show (match Route.of? m name with | some _ => _ | none => _ : Eval Value) m =
        (match Route.of? m name with | some _ => _ | none => _ : Eval Value) m
      cases chosen : Route.of? m name with
      | none => rfl
      | some route => exact handOver_eq concedes (Route.offers_of_of? chosen)

theorem evalStepGuarded_eq (concedes : alarm.Concedes) (e : Expr) (f : FrameId) :
    evalStepGuarded alarm (ofFuel fuel) e f = evalStep (ofFuel fuel) e f := by
  unfold evalStepGuarded
  split
  · exact callNameGuarded_eq concedes f _ _ _ _
  · rfl

/-- A call by name is handed over only to where its function was when the call was dispatched. If
the function is not there any more, a plugin call has taken it away while the arguments were
evaluated, and one stands in them or in the body of a function. That is, an alarm that is set off
where a call finds no function, but does what is done anyway in that case, makes no difference. -/
theorem dispatched_calls_find_functions (alarm : Alarm) (concedes : alarm.Concedes) (fuel : Nat) :
    guarded alarm fuel = ofFuel fuel ∧
      ∀ program, (guarded alarm fuel).runAll program = Session.executeAll fuel program := by
  have same : guarded alarm fuel = ofFuel fuel := by
    induction fuel with
    | zero => rfl
    | succ n ih => simp only [guarded, ofFuel, ih, evalStepGuarded_eq concedes]
  refine ⟨same, fun program => ?_⟩
  rw [same, Session.executeAll_eq]

/-- The alarm ends the run, but not if some argument makes a plugin call or some function has a
body. -/
theorem dispatched_calls_find_functions_strict :
    let alarm : Alarm := fun route name args m values =>
      if args.any (·.callees.any (· ∈ pluginCalls)) || m.store.functions.any (·.body.isSome) then
        route.call name values
      else throw .exhausted
    alarm.Concedes ∧ guarded alarm 9 = ofFuel 9 ∧
      ∀ program, (guarded alarm 9).runAll program = Session.executeAll 9 program := by
  intro alarm
  have concedes : alarm.Concedes := by
    intro route name args m values n _ _ can
    have rings : args.any (·.callees.any (· ∈ pluginCalls)) ||
        m.store.functions.any (·.body.isSome) := by
      simp only [CanCallPlugins, Machine.CallsOnly, FunctionObject.CallsOnly, Expr.CallsOnly] at can
      simp only [Bool.or_eq_true, List.any_eq_true, Array.any_eq_true', decide_eq_true_eq]
      rcases can with ⟨e, mem, calls⟩ | bodies
      · push Not at calls
        exact .inl ⟨e, mem, calls⟩
      · push Not at bodies
        obtain ⟨f, mem, body, has, -⟩ := bodies
        exact .inr ⟨f, mem, Option.isSome_of_mem has⟩
    simp only [alarm, rings, if_true]
  exact ⟨concedes, dispatched_calls_find_functions alarm concedes 9⟩

end Evaluator

namespace Session

open Machine Evaluator

/-- A call can find no function: its own arguments unload the plugin that the function belongs to,
or load one whose setup unregisters it. -/
theorem dispatched_calls_miss_functions :
    let nothing : NativeFunction := .quiet fun _ => .ok .null
    let f : FunctionDesign := ⟨"f", "", [], "object", .known .null, fun _ => nothing⟩
    let g : RegistryEntry := .variadic "g" "" nothing
    let p : Plugin := ⟨"P", "1", "", [], [f]⟩
    let q : Plugin := ⟨"Q", "1", "", [.unregister "g"], []⟩
    let m := after {} [.load p, .offer "q" q, .register g]
    (Route.of? m "f", Route.of? m "g") = (some .plugin, some .registry) ∧
      ((run 9 "f(unloadPlugin(\"P\"));").after m).console.output =
        m.console.output ++ "Plugin P unloaded\nFunction f not found\n" ∧
      ((run 9 "g(loadPlugin(\"q\"));").after m).console.output = m.console.output ++
        "Loading plugin: Q v1\nPlugin Q loaded successfully\nFunction 'g' not found in registry\n" ∧
      ¬ ∀ (alarm : Alarm) (program : Program),
        (guarded alarm 9).runAll program m = executeAll 9 program m := by
  refine ⟨by decide +kernel, by decide +kernel, by decide +kernel, fun all => ?_⟩
  -- an alarm that keeps silent is noticed, as nothing is reported then
  let silent : Alarm := fun _ _ _ _ _ => return .null
  let written (r : EStateM.Result Halt Machine Unit) : String :=
    match r with
    | .ok _ n | .error _ n => n.console.output
  have same := all silent (Script.ofSource "f(unloadPlugin(\"P\"));").program
  exact absurd (congrArg written same) (by decide +kernel)

end Session

end Scriptlet
