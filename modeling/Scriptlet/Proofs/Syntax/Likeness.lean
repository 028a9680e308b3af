import Scriptlet.Proofs.Syntax.Erasure
import Scriptlet.Proofs.Syntax.WellFormed
import Mathlib.Data.List.Forall2

/-! # Likenesses of trees

Two trees are alike if they have the same head at related places, and alike parts. Which places are
related is left open, and so is whether trees of any shape are admitted or only those that a script
can be written for. A likeness of a tree with itself is a property of the tree and of all its parts.
-/

namespace Scriptlet

/-! ## Places -/

namespace Expr

mutual

/-- The places of an expression and of its parts. -/
def positions : Expr → List Position
  | .number pos _ | .string pos _ | .bool pos _ | .null pos | .identifier pos _ => [pos]
  | .binary pos _ left right => pos :: (left.positions ++ right.positions)
  | .unary pos _ operand => pos :: operand.positions
  | .call pos callee args => pos :: (callee.positions ++ positionsEach args)
  | .member pos object _ => pos :: object.positions
  | .assign pos _ target value => pos :: (target.positions ++ value.positions)

@[inherit_doc positions]
def positionsEach : List Expr → List Position
  | [] => []
  | e :: es => e.positions ++ positionsEach es

end

def positionsOption : Option Expr → List Position
  | some e => e.positions
  | none => []

theorem mem_positionsEach {p : Position} {es : List Expr} :
    p ∈ positionsEach es ↔ ∃ e ∈ es, p ∈ e.positions := by
  induction es with
  | nil => simp [positionsEach]
  | cons e es ih => simp [positionsEach, ih]

theorem areWellFormed_iff {es : List Expr} : areWellFormed es ↔ ∀ e ∈ es, e.isWellFormed := by
  induction es with
  | nil => simp [areWellFormed]
  | cons e es ih => simp [areWellFormed, ih]

end Expr

namespace Stmt

open Scriptlet.Expr (positionsOption)

mutual

/-- The places of a statement and of its parts. -/
def positions : Stmt → List Position
  | .expression pos expr => pos :: expr.positions
  | .varDecl pos _ initializer => pos :: positionsOption initializer
  | .returning pos value => pos :: positionsOption value
  | .branch pos condition consequent alternative =>
      pos :: (condition.positions ++ (consequent.positions ++ positionsOf alternative))
  | .whileLoop pos condition body => pos :: (condition.positions ++ body.positions)
  | .forLoop pos initializer condition step body =>
      pos :: (positionsOf initializer ++ (positionsOption condition ++
        (positionsOption step ++ body.positions)))
  | .block pos body => pos :: positionsEach body
  | .function pos _ _ body _ => pos :: positionsEach body
  | .classDecl pos _ members _ => pos :: positionsEach members
  | .property pos _ initializer _ => pos :: positionsOption initializer

@[inherit_doc positions]
def positionsEach : List Stmt → List Position
  | [] => []
  | s :: ss => s.positions ++ positionsEach ss

def positionsOf : Option Stmt → List Position
  | some s => s.positions
  | none => []

end

theorem mem_positionsEach {p : Position} {ss : List Stmt} :
    p ∈ positionsEach ss ↔ ∃ s ∈ ss, p ∈ s.positions := by
  induction ss with
  | nil => simp [positionsEach]
  | cons s ss ih => simp [positionsEach, ih]

theorem areWellFormed_iff {ss : List Stmt} : areWellFormed ss ↔ ∀ s ∈ ss, s.isWellFormed := by
  induction ss with
  | nil => simp [areWellFormed]
  | cons s ss ih => simp [areWellFormed, ih]

theorem areMembers_iff {ss : List Stmt} : areMembers ss ↔ ∀ s ∈ ss, s.isMember := by
  induction ss with
  | nil => simp [areMembers]
  | cons s ss ih => simp [areMembers, ih]

end Stmt

def Program.positions (program : Program) : List Position :=
  Stmt.positionsEach program

/-! ## Layers -/

section Layers

variable (pos : Position → Position → Prop) (anyShape : Prop) (expr : Expr → Expr → Prop)
  (stmt member : Stmt → Stmt → Prop)

/-- The same head at related places, with parts that are related. -/
inductive Expr.Layer : Expr → Expr → Prop where
  | number {p q value} : pos p q → Layer (.number p value) (.number q value)
  | string {p q value} : pos p q → Layer (.string p value) (.string q value)
  | bool {p q value} : pos p q → Layer (.bool p value) (.bool q value)
  | null {p q} : pos p q → Layer (.null p) (.null q)
  | identifier {p q name} : pos p q → Layer (.identifier p name) (.identifier q name)
  | binary {p q op left left' right right'} : pos p q → expr left left' → expr right right' →
      Layer (.binary p op left right) (.binary q op left' right')
  | unary {p q op operand operand'} : pos p q → expr operand operand' →
      Layer (.unary p op operand) (.unary q op operand')
  | call {p q callee callee' args args'} : pos p q → expr callee callee' →
      List.Forall₂ expr args args' → Layer (.call p callee args) (.call q callee' args')
  | member {p q object object' name} : pos p q → expr object object' →
      Layer (.member p object name) (.member q object' name)
  | assign {p q op target target' value value'} : pos p q → expr target target' →
      expr value value' → anyShape ∨ target.isTarget →
      Layer (.assign p op target value) (.assign q op target' value')

@[inherit_doc Expr.Layer]
inductive Stmt.Layer : Stmt → Stmt → Prop where
  | expression {p q e e'} : pos p q → expr e e' → Layer (.expression p e) (.expression q e')
  | varDecl {p q name value value'} : pos p q → Option.Rel expr value value' →
      Layer (.varDecl p name value) (.varDecl q name value')
  | returning {p q value value'} : pos p q → Option.Rel expr value value' →
      Layer (.returning p value) (.returning q value')
  | branch {p q test test' s s' other other'} : pos p q → expr test test' → stmt s s' →
      Option.Rel stmt other other' → Layer (.branch p test s other) (.branch q test' s' other')
  | whileLoop {p q test test' body body'} : pos p q → expr test test' → stmt body body' →
      Layer (.whileLoop p test body) (.whileLoop q test' body')
  | forLoop {p q start start' test test' step step' body body'} : pos p q →
      Option.Rel stmt start start' → Option.Rel expr test test' → Option.Rel expr step step' →
      stmt body body' → anyShape ∨ start.all isLoopStart →
      Layer (.forLoop p start test step body) (.forLoop q start' test' step' body')
  | block {p q body body'} : pos p q → List.Forall₂ stmt body body' →
      Layer (.block p body) (.block q body')
  | function {p q name params body body' modifiers} : pos p q → List.Forall₂ stmt body body' →
      anyShape ∨ modifiers = {} →
      Layer (.function p name params body modifiers) (.function q name params body' modifiers)
  | classDecl {p q name members members' isStatic} : pos p q →
      List.Forall₂ member members members' →
      Layer (.classDecl p name members isStatic) (.classDecl q name members' isStatic)
  | property {p q name value value' modifiers} : pos p q → Option.Rel expr value value' →
      anyShape → Layer (.property p name value modifiers) (.property q name value' modifiers)

/-- As for statements, but for a member of a class: a function or a property, if not every shape is
admitted. -/
inductive Stmt.MemberLayer : Stmt → Stmt → Prop where
  | function {p q name params body body' modifiers} : pos p q → List.Forall₂ stmt body body' →
      anyShape ∨ (modifiers.isStatic && modifiers.isPublic) = false →
      MemberLayer (.function p name params body modifiers) (.function q name params body' modifiers)
  | property {p q name value value' modifiers} : pos p q → Option.Rel expr value value' →
      anyShape ∨ (modifiers.isStatic && modifiers.isPublic) = false →
      MemberLayer (.property p name value modifiers) (.property q name value' modifiers)
  | other {s s'} : anyShape → stmt s s' → MemberLayer s s'

end Layers

/-- What is counted as alike: trees are, exactly if their heads and their parts are. -/
structure Likeness where
  pos : Position → Position → Prop
  /-- Trees of any shape are admitted. -/
  anyShape : Prop
  expr : Expr → Expr → Prop
  stmt : Stmt → Stmt → Prop
  member : Stmt → Stmt → Prop
  expr_iff : ∀ {e e'}, expr e e' ↔ Expr.Layer pos anyShape expr e e'
  stmt_iff : ∀ {s s'}, stmt s s' ↔ Stmt.Layer pos anyShape expr stmt member s s'
  member_iff : ∀ {s s'}, member s s' ↔ Stmt.MemberLayer pos anyShape expr stmt s s'

/-! ## Trees that are the same up to places -/

theorem forall₂_map_eq {α β : Type} {f : α → β} {xs ys : List α} :
    List.Forall₂ (fun x y => f x = f y) xs ys ↔ xs.map f = ys.map f := by
  rw [← List.forall₂_eq_eq_eq, List.forall₂_map_left_iff, List.forall₂_map_right_iff]

theorem optionRel_map_eq {α β : Type} {f : α → β} {x y : Option α} :
    Option.Rel (fun x y => f x = f y) x y ↔ x.map f = y.map f := by
  constructor
  · rintro (h | _)
    · exact congrArg some h
    · rfl
  · intro h
    cases x <;> cases y
    case some.some => exact .some (Option.some.inj h)
    case none.none => exact .none
    all_goals cases h

namespace Expr

theorem erase_eq_iff {e e' : Expr} :
    e.erase = e'.erase ↔ Layer (fun _ _ => True) True (fun e e' => e.erase = e'.erase) e e' := by
  constructor
  · intro h
    cases e <;> cases e' <;> simp only [erase, reduceCtorEq, eraseEach_eq_map] at h
    case number.number => cases h; exact .number trivial
    case string.string => cases h; exact .string trivial
    case bool.bool => cases h; exact .bool trivial
    case null.null => exact .null trivial
    case identifier.identifier => cases h; exact .identifier trivial
    case binary.binary =>
        obtain ⟨-, rfl, left, right⟩ := binary.inj h
        exact .binary trivial left right
    case unary.unary =>
        obtain ⟨-, rfl, operand⟩ := unary.inj h
        exact .unary trivial operand
    case call.call =>
        obtain ⟨-, callee, args⟩ := call.inj h
        exact .call trivial callee (forall₂_map_eq.mpr args)
    case member.member =>
        obtain ⟨-, object, rfl⟩ := member.inj h
        exact .member trivial object
    case assign.assign =>
        obtain ⟨-, rfl, target, value⟩ := assign.inj h
        exact .assign trivial target value (.inl trivial)
  · intro h
    cases h with
    | number | string | bool | null | identifier => rfl
    | binary _ left right => simp only [erase, left, right]
    | unary _ operand => simp only [erase, operand]
    | call _ callee args => simp only [erase, callee, eraseEach_eq_map, forall₂_map_eq.mp args]
    | member _ object => simp only [erase, object]
    | assign _ target value => simp only [erase, target, value]

end Expr

namespace Stmt

theorem erase_eq_iff {s s' : Stmt} :
    s.erase = s'.erase ↔ Layer (fun _ _ => True) True (fun e e' => e.erase = e'.erase)
      (fun s s' => s.erase = s'.erase) (fun s s' => s.erase = s'.erase) s s' := by
  constructor
  · intro h
    cases s <;> cases s' <;>
      simp only [erase, reduceCtorEq, eraseEach_eq_map, eraseOption_eq_map] at h
    case expression.expression =>
        obtain ⟨-, e⟩ := expression.inj h
        exact .expression trivial e
    case varDecl.varDecl =>
        obtain ⟨-, rfl, value⟩ := varDecl.inj h
        exact .varDecl trivial (optionRel_map_eq.mpr value)
    case returning.returning =>
        obtain ⟨-, value⟩ := returning.inj h
        exact .returning trivial (optionRel_map_eq.mpr value)
    case branch.branch =>
        obtain ⟨-, test, s, other⟩ := branch.inj h
        exact .branch trivial test s (optionRel_map_eq.mpr other)
    case whileLoop.whileLoop =>
        obtain ⟨-, test, body⟩ := whileLoop.inj h
        exact .whileLoop trivial test body
    case forLoop.forLoop =>
        obtain ⟨-, start, test, step, body⟩ := forLoop.inj h
        exact .forLoop trivial (optionRel_map_eq.mpr start) (optionRel_map_eq.mpr test)
          (optionRel_map_eq.mpr step) body (.inl trivial)
    case block.block =>
        obtain ⟨-, body⟩ := block.inj h
        exact .block trivial (forall₂_map_eq.mpr body)
    case function.function =>
        obtain ⟨-, rfl, rfl, body, rfl⟩ := function.inj h
        exact .function trivial (forall₂_map_eq.mpr body) (.inl trivial)
    case classDecl.classDecl =>
        obtain ⟨-, rfl, members, rfl⟩ := classDecl.inj h
        exact .classDecl trivial (forall₂_map_eq.mpr members)
    case property.property =>
        obtain ⟨-, rfl, value, rfl⟩ := property.inj h
        exact .property trivial (optionRel_map_eq.mpr value) trivial
  · intro h
    cases h with
    | expression _ e => simp only [erase, e]
    | varDecl _ value => simp only [erase, optionRel_map_eq.mp value]
    | returning _ value => simp only [erase, optionRel_map_eq.mp value]
    | branch _ test s other =>
        simp only [erase, test, s, eraseOption_eq_map, optionRel_map_eq.mp other]
    | whileLoop _ test body => simp only [erase, test, body]
    | forLoop _ start test step body =>
        simp only [erase, eraseOption_eq_map, optionRel_map_eq.mp start, optionRel_map_eq.mp test,
          optionRel_map_eq.mp step, body]
    | block _ body => simp only [erase, eraseEach_eq_map, forall₂_map_eq.mp body]
    | function _ body => simp only [erase, eraseEach_eq_map, forall₂_map_eq.mp body]
    | classDecl _ members => simp only [erase, eraseEach_eq_map, forall₂_map_eq.mp members]
    | property _ value => simp only [erase, optionRel_map_eq.mp value]

theorem erase_eq_iff_member {s s' : Stmt} :
    s.erase = s'.erase ↔ MemberLayer (fun _ _ => True) True (fun e e' => e.erase = e'.erase)
      (fun s s' => s.erase = s'.erase) s s' := by
  constructor
  · exact fun h => .other trivial h
  · intro h
    cases h with
    | function _ body => exact erase_eq_iff.mpr (.function trivial body (.inl trivial))
    | property _ value => exact erase_eq_iff.mpr (.property trivial value trivial)
    | other _ h => exact h

end Stmt

/-- Trees of any shape that are the same up to places. -/
def Likeness.upToPlaces : Likeness where
  pos _ _ := True
  anyShape := True
  expr e e' := e.erase = e'.erase
  stmt s s' := s.erase = s'.erase
  member s s' := s.erase = s'.erase
  expr_iff := Expr.erase_eq_iff
  stmt_iff := Stmt.erase_eq_iff
  member_iff := Stmt.erase_eq_iff_member

/-! ## Trees that a script can be written for -/

theorem optionRel_and_left {α : Type} {P : α → Prop} {x y : Option α} :
    Option.Rel (fun x y => P x ∧ x = y) x y ↔ (∀ a ∈ x, P a) ∧ x = y := by
  constructor
  · rintro (⟨h, rfl⟩ | _)
    · exact ⟨fun a mem => Option.some.inj mem ▸ h, rfl⟩
    · exact ⟨by simp, rfl⟩
  · rintro ⟨h, rfl⟩
    cases x with
    | none => exact .none
    | some a => exact .some ⟨h a rfl, rfl⟩

theorem forall₂_and_eq {α : Type} {P : α → Prop} {xs ys : List α} :
    List.Forall₂ (fun x y => P x ∧ x = y) xs ys ↔ (∀ x ∈ xs, P x) ∧ xs = ys := by
  rw [List.forall₂_and_left, List.forall₂_eq_eq_eq]

-- derives the equations of these definitions once, for all the lemmas that open them below
attribute [local simp] Expr.isWellFormed Expr.positions Stmt.isWellFormed Stmt.positions
  Stmt.isMember

/-- The expression is well-formed, and its places are of the given ones. -/
def Expr.Lies (places : Position → Prop) (e : Expr) : Prop :=
  e.isWellFormed ∧ ∀ p ∈ e.positions, places p

@[inherit_doc Expr.Lies]
def Stmt.Lies (places : Position → Prop) (s : Stmt) : Prop :=
  s.isWellFormed ∧ ∀ p ∈ s.positions, places p

/-- As for statements, but for a member of a class. -/
def Stmt.LiesInClass (places : Position → Prop) (s : Stmt) : Prop :=
  s.isMember ∧ ∀ p ∈ s.positions, places p

namespace Expr

variable {places : Position → Prop} {p : Position}

theorem lies_binary {op : BinaryOp} {left right : Expr} :
    (binary p op left right).Lies places ↔ places p ∧ left.Lies places ∧ right.Lies places := by
  simp only [Lies, isWellFormed, positions, Bool.and_eq_true, List.forall_mem_cons,
    List.forall_mem_append]
  grind

theorem lies_unary {op : UnaryOp} {operand : Expr} :
    (unary p op operand).Lies places ↔ places p ∧ operand.Lies places := by
  simp only [Lies, isWellFormed, positions, List.forall_mem_cons]
  grind

theorem lies_call {callee : Expr} {args : List Expr} :
    (call p callee args).Lies places ↔
      places p ∧ callee.Lies places ∧ ∀ e ∈ args, e.Lies places := by
  simp only [Lies, isWellFormed, positions, Bool.and_eq_true, List.forall_mem_cons,
    List.forall_mem_append, areWellFormed_iff, mem_positionsEach]
  grind

theorem lies_member {object : Expr} {name : String} :
    (member p object name).Lies places ↔ places p ∧ object.Lies places := by
  simp only [Lies, isWellFormed, positions, List.forall_mem_cons]
  grind

theorem lies_assign {op : AssignOp} {target value : Expr} :
    (assign p op target value).Lies places ↔
      places p ∧ target.Lies places ∧ value.Lies places ∧ target.isTarget := by
  simp only [Lies, isWellFormed, positions, Bool.and_eq_true, List.forall_mem_cons,
    List.forall_mem_append]
  grind

theorem lies_iff {e e' : Expr} : e.Lies places ∧ e = e' ↔
    Layer (fun p q => places p ∧ p = q) False (fun e e' => e.Lies places ∧ e = e') e e' := by
  constructor
  · rintro ⟨h, rfl⟩
    cases e with
    | number => exact .number ⟨h.2 _ (List.mem_singleton_self _), rfl⟩
    | string => exact .string ⟨h.2 _ (List.mem_singleton_self _), rfl⟩
    | bool => exact .bool ⟨h.2 _ (List.mem_singleton_self _), rfl⟩
    | null => exact .null ⟨h.2 _ (List.mem_singleton_self _), rfl⟩
    | identifier => exact .identifier ⟨h.2 _ (List.mem_singleton_self _), rfl⟩
    | binary p op left right =>
        obtain ⟨place, left, right⟩ := lies_binary.mp h
        exact .binary ⟨place, rfl⟩ ⟨left, rfl⟩ ⟨right, rfl⟩
    | unary p op operand =>
        obtain ⟨place, operand⟩ := lies_unary.mp h
        exact .unary ⟨place, rfl⟩ ⟨operand, rfl⟩
    | call p callee args =>
        obtain ⟨place, callee, args⟩ := lies_call.mp h
        exact .call ⟨place, rfl⟩ ⟨callee, rfl⟩ (forall₂_and_eq.mpr ⟨args, rfl⟩)
    | member p object name =>
        obtain ⟨place, object⟩ := lies_member.mp h
        exact .member ⟨place, rfl⟩ ⟨object, rfl⟩
    | assign p op target value =>
        obtain ⟨place, target, value, isTarget⟩ := lies_assign.mp h
        exact .assign ⟨place, rfl⟩ ⟨target, rfl⟩ ⟨value, rfl⟩ (.inr isTarget)
  · intro h
    cases h with
    | number place | string place | bool place | null place | identifier place =>
        obtain ⟨place, rfl⟩ := place
        exact ⟨⟨rfl, by simpa [positions] using place⟩, rfl⟩
    | binary place left right =>
        obtain ⟨place, rfl⟩ := place
        obtain ⟨left, rfl⟩ := left
        obtain ⟨right, rfl⟩ := right
        exact ⟨lies_binary.mpr ⟨place, left, right⟩, rfl⟩
    | unary place operand =>
        obtain ⟨place, rfl⟩ := place
        obtain ⟨operand, rfl⟩ := operand
        exact ⟨lies_unary.mpr ⟨place, operand⟩, rfl⟩
    | call place callee args =>
        obtain ⟨place, rfl⟩ := place
        obtain ⟨callee, rfl⟩ := callee
        obtain ⟨lie, rfl⟩ := forall₂_and_eq.mp args
        exact ⟨lies_call.mpr ⟨place, callee, lie⟩, rfl⟩
    | member place object =>
        obtain ⟨place, rfl⟩ := place
        obtain ⟨object, rfl⟩ := object
        exact ⟨lies_member.mpr ⟨place, object⟩, rfl⟩
    | assign place target value shape =>
        obtain ⟨place, rfl⟩ := place
        obtain ⟨target, rfl⟩ := target
        obtain ⟨value, rfl⟩ := value
        exact ⟨lies_assign.mpr ⟨place, target, value, shape.resolve_left id⟩, rfl⟩

end Expr

namespace Stmt

variable {places : Position → Prop} {p : Position}

theorem forall_mem_positionsOption {e : Option Expr} :
    (e.all Expr.isWellFormed = true ∧ ∀ p ∈ Expr.positionsOption e, places p) ↔
      ∀ a ∈ e, a.Lies places := by
  cases e <;> simp [Expr.positionsOption, Expr.Lies]

theorem forall_mem_positionsOf {s : Option Stmt} :
    (isWellFormedOption s = true ∧ ∀ p ∈ positionsOf s, places p) ↔
      ∀ a ∈ s, a.Lies places := by
  cases s <;> simp [positionsOf, isWellFormedOption, Lies]

theorem forall_mem_positionsEach {ss : List Stmt} :
    (areWellFormed ss = true ∧ ∀ p ∈ positionsEach ss, places p) ↔ ∀ s ∈ ss, s.Lies places := by
  simp only [areWellFormed_iff, mem_positionsEach, Lies]
  grind

theorem lies_expression {e : Expr} :
    (expression p e).Lies places ↔ places p ∧ e.Lies places := by
  simp only [Lies, isWellFormed, positions, List.forall_mem_cons, Expr.Lies]
  grind

theorem lies_varDecl {name : String} {value : Option Expr} :
    (varDecl p name value).Lies places ↔ places p ∧ ∀ e ∈ value, e.Lies places := by
  simp only [Lies, isWellFormed, positions, List.forall_mem_cons, ← forall_mem_positionsOption]
  grind

theorem lies_returning {value : Option Expr} :
    (returning p value).Lies places ↔ places p ∧ ∀ e ∈ value, e.Lies places := by
  simp only [Lies, isWellFormed, positions, List.forall_mem_cons, ← forall_mem_positionsOption]
  grind

theorem lies_branch {test : Expr} {s : Stmt} {other : Option Stmt} :
    (branch p test s other).Lies places ↔
      places p ∧ test.Lies places ∧ s.Lies places ∧ ∀ s ∈ other, s.Lies places := by
  rw [← forall_mem_positionsOf]
  simp only [Lies, isWellFormed, positions, List.forall_mem_cons, List.forall_mem_append,
    Bool.and_eq_true, Expr.Lies]
  grind

theorem lies_whileLoop {test : Expr} {body : Stmt} :
    (whileLoop p test body).Lies places ↔ places p ∧ test.Lies places ∧ body.Lies places := by
  simp only [Lies, isWellFormed, positions, List.forall_mem_cons, List.forall_mem_append,
    Bool.and_eq_true, Expr.Lies]
  grind

theorem lies_forLoop {start : Option Stmt} {test step : Option Expr} {body : Stmt} :
    (forLoop p start test step body).Lies places ↔
      places p ∧ (∀ s ∈ start, s.Lies places) ∧ (∀ e ∈ test, e.Lies places) ∧
        (∀ e ∈ step, e.Lies places) ∧ body.Lies places ∧ start.all isLoopStart := by
  rw [← forall_mem_positionsOf, ← forall_mem_positionsOption, ← forall_mem_positionsOption]
  simp only [Lies, isWellFormed, positions, List.forall_mem_cons, List.forall_mem_append,
    Bool.and_eq_true]
  grind

theorem lies_block {body : List Stmt} :
    (block p body).Lies places ↔ places p ∧ ∀ s ∈ body, s.Lies places := by
  rw [← forall_mem_positionsEach]
  simp only [Lies, isWellFormed, positions, List.forall_mem_cons]
  grind

theorem lies_function {name : String} {params : List String} {body : List Stmt}
    {modifiers : Modifiers} :
    (function p name params body modifiers).Lies places ↔
      places p ∧ (∀ s ∈ body, s.Lies places) ∧ modifiers = {} := by
  rw [← forall_mem_positionsEach]
  simp only [Lies, isWellFormed, positions, List.forall_mem_cons, Bool.and_eq_true,
    decide_eq_true_iff]
  grind

theorem lies_classDecl {name : String} {members : List Stmt} {isStatic : Bool} :
    (classDecl p name members isStatic).Lies places ↔
      places p ∧ ∀ s ∈ members, s.LiesInClass places := by
  simp only [Lies, isWellFormed, positions, List.forall_mem_cons, areMembers_iff,
    mem_positionsEach, LiesInClass]
  grind

theorem liesInClass_function {name : String} {params : List String} {body : List Stmt}
    {modifiers : Modifiers} :
    (function p name params body modifiers).LiesInClass places ↔
      places p ∧ (∀ s ∈ body, s.Lies places) ∧
        (modifiers.isStatic && modifiers.isPublic) = false := by
  rw [← forall_mem_positionsEach]
  simp only [LiesInClass, isMember, positions, List.forall_mem_cons, Bool.and_eq_true]
  grind

theorem liesInClass_property {name : String} {value : Option Expr} {modifiers : Modifiers} :
    (property p name value modifiers).LiesInClass places ↔
      places p ∧ (∀ e ∈ value, e.Lies places) ∧
        (modifiers.isStatic && modifiers.isPublic) = false := by
  rw [← forall_mem_positionsOption]
  simp only [LiesInClass, isMember, positions, List.forall_mem_cons, Bool.and_eq_true]
  grind

theorem lies_iff {s s' : Stmt} : s.Lies places ∧ s = s' ↔
    Layer (fun p q => places p ∧ p = q) False (fun e e' => e.Lies places ∧ e = e')
      (fun s s' => s.Lies places ∧ s = s') (fun s s' => s.LiesInClass places ∧ s = s') s s' := by
  constructor
  · rintro ⟨h, rfl⟩
    cases s with
    | expression p e =>
        obtain ⟨place, e⟩ := lies_expression.mp h
        exact .expression ⟨place, rfl⟩ ⟨e, rfl⟩
    | varDecl p name value =>
        obtain ⟨place, value⟩ := lies_varDecl.mp h
        exact .varDecl ⟨place, rfl⟩ (optionRel_and_left.mpr ⟨value, rfl⟩)
    | returning p value =>
        obtain ⟨place, value⟩ := lies_returning.mp h
        exact .returning ⟨place, rfl⟩ (optionRel_and_left.mpr ⟨value, rfl⟩)
    | branch p test s other =>
        obtain ⟨place, test, s, other⟩ := lies_branch.mp h
        exact .branch ⟨place, rfl⟩ ⟨test, rfl⟩ ⟨s, rfl⟩ (optionRel_and_left.mpr ⟨other, rfl⟩)
    | whileLoop p test body =>
        obtain ⟨place, test, body⟩ := lies_whileLoop.mp h
        exact .whileLoop ⟨place, rfl⟩ ⟨test, rfl⟩ ⟨body, rfl⟩
    | forLoop p start test step body =>
        obtain ⟨place, start, test, step, body, shape⟩ := lies_forLoop.mp h
        exact .forLoop ⟨place, rfl⟩ (optionRel_and_left.mpr ⟨start, rfl⟩)
          (optionRel_and_left.mpr ⟨test, rfl⟩) (optionRel_and_left.mpr ⟨step, rfl⟩) ⟨body, rfl⟩
          (.inr shape)
    | block p body =>
        obtain ⟨place, body⟩ := lies_block.mp h
        exact .block ⟨place, rfl⟩ (forall₂_and_eq.mpr ⟨body, rfl⟩)
    | function p name params body modifiers =>
        obtain ⟨place, body, shape⟩ := lies_function.mp h
        exact .function ⟨place, rfl⟩ (forall₂_and_eq.mpr ⟨body, rfl⟩) (.inr shape)
    | classDecl p name members isStatic =>
        obtain ⟨place, members⟩ := lies_classDecl.mp h
        exact .classDecl ⟨place, rfl⟩ (forall₂_and_eq.mpr ⟨members, rfl⟩)
    | property p name value modifiers => cases h.1
  · intro h
    cases h with
    | expression place e =>
        obtain ⟨place, rfl⟩ := place
        obtain ⟨e, rfl⟩ := e
        exact ⟨lies_expression.mpr ⟨place, e⟩, rfl⟩
    | varDecl place value =>
        obtain ⟨place, rfl⟩ := place
        obtain ⟨lies, rfl⟩ := optionRel_and_left.mp value
        exact ⟨lies_varDecl.mpr ⟨place, lies⟩, rfl⟩
    | returning place value =>
        obtain ⟨place, rfl⟩ := place
        obtain ⟨lies, rfl⟩ := optionRel_and_left.mp value
        exact ⟨lies_returning.mpr ⟨place, lies⟩, rfl⟩
    | branch place test s other =>
        obtain ⟨place, rfl⟩ := place
        obtain ⟨test, rfl⟩ := test
        obtain ⟨s, rfl⟩ := s
        obtain ⟨lies, rfl⟩ := optionRel_and_left.mp other
        exact ⟨lies_branch.mpr ⟨place, test, s, lies⟩, rfl⟩
    | whileLoop place test body =>
        obtain ⟨place, rfl⟩ := place
        obtain ⟨test, rfl⟩ := test
        obtain ⟨body, rfl⟩ := body
        exact ⟨lies_whileLoop.mpr ⟨place, test, body⟩, rfl⟩
    | forLoop place start test step body shape =>
        obtain ⟨place, rfl⟩ := place
        obtain ⟨startLies, rfl⟩ := optionRel_and_left.mp start
        obtain ⟨testLies, rfl⟩ := optionRel_and_left.mp test
        obtain ⟨stepLies, rfl⟩ := optionRel_and_left.mp step
        obtain ⟨body, rfl⟩ := body
        have shape := shape.resolve_left id
        exact ⟨lies_forLoop.mpr ⟨place, startLies, testLies, stepLies, body, shape⟩, rfl⟩
    | block place body =>
        obtain ⟨place, rfl⟩ := place
        obtain ⟨lie, rfl⟩ := forall₂_and_eq.mp body
        exact ⟨lies_block.mpr ⟨place, lie⟩, rfl⟩
    | function place body shape =>
        obtain ⟨place, rfl⟩ := place
        obtain ⟨lie, rfl⟩ := forall₂_and_eq.mp body
        exact ⟨lies_function.mpr ⟨place, lie, shape.resolve_left id⟩, rfl⟩
    | classDecl place members =>
        obtain ⟨place, rfl⟩ := place
        obtain ⟨lie, rfl⟩ := forall₂_and_eq.mp members
        exact ⟨lies_classDecl.mpr ⟨place, lie⟩, rfl⟩
    | property _ _ impossible => exact impossible.elim

theorem liesInClass_iff {s s' : Stmt} : s.LiesInClass places ∧ s = s' ↔
    MemberLayer (fun p q => places p ∧ p = q) False (fun e e' => e.Lies places ∧ e = e')
      (fun s s' => s.Lies places ∧ s = s') s s' := by
  constructor
  · rintro ⟨h, rfl⟩
    cases s with
    | function p name params body modifiers =>
        obtain ⟨place, body, shape⟩ := liesInClass_function.mp h
        exact .function ⟨place, rfl⟩ (forall₂_and_eq.mpr ⟨body, rfl⟩) (.inr shape)
    | property p name value modifiers =>
        obtain ⟨place, value, shape⟩ := liesInClass_property.mp h
        exact .property ⟨place, rfl⟩ (optionRel_and_left.mpr ⟨value, rfl⟩) (.inr shape)
    | expression | varDecl | returning | branch | whileLoop | forLoop | block | classDecl =>
        cases h.1
  · intro h
    cases h with
    | function place body shape =>
        obtain ⟨place, rfl⟩ := place
        obtain ⟨lie, rfl⟩ := forall₂_and_eq.mp body
        exact ⟨liesInClass_function.mpr ⟨place, lie, shape.resolve_left id⟩, rfl⟩
    | property place value shape =>
        obtain ⟨place, rfl⟩ := place
        obtain ⟨lies, rfl⟩ := optionRel_and_left.mp value
        exact ⟨liesInClass_property.mpr ⟨place, lies, shape.resolve_left id⟩, rfl⟩
    | other impossible => exact impossible.elim

end Stmt

/-- Equal trees that a script can be written for, with places of the given ones. -/
def Likeness.exact (places : Position → Prop) : Likeness where
  pos p q := places p ∧ p = q
  anyShape := False
  expr e e' := e.Lies places ∧ e = e'
  stmt s s' := s.Lies places ∧ s = s'
  member s s' := s.LiesInClass places ∧ s = s'
  expr_iff := Expr.lies_iff
  stmt_iff := Stmt.lies_iff
  member_iff := Stmt.liesInClass_iff

end Scriptlet
