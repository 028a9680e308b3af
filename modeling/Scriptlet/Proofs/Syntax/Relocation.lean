import Scriptlet.Proofs.Syntax.Likeness

/-! # Trees with other places

A tree whose places are changed by one rule is like the tree as it was, and only that one is. -/

namespace Scriptlet

variable {f : Position → Position}

namespace Expr

mutual

/-- The expression with every place changed. -/
def relocate (f : Position → Position) : Expr → Expr
  | .number pos value => .number (f pos) value
  | .string pos value => .string (f pos) value
  | .bool pos value => .bool (f pos) value
  | .null pos => .null (f pos)
  | .identifier pos name => .identifier (f pos) name
  | .binary pos op left right => .binary (f pos) op (left.relocate f) (right.relocate f)
  | .unary pos op operand => .unary (f pos) op (operand.relocate f)
  | .call pos callee args => .call (f pos) (callee.relocate f) (relocateEach f args)
  | .member pos object name => .member (f pos) (object.relocate f) name
  | .assign pos op target value => .assign (f pos) op (target.relocate f) (value.relocate f)

def relocateEach (f : Position → Position) : List Expr → List Expr
  | [] => []
  | e :: es => e.relocate f :: relocateEach f es

end

@[simp] theorem relocateEach_eq_map (es : List Expr) : relocateEach f es = es.map (relocate f) := by
  induction es with
  | nil => rfl
  | cons e es ih => rw [relocateEach, ih, List.map_cons]

end Expr

namespace Stmt

mutual

/-- The statement with every place changed. -/
def relocate (f : Position → Position) : Stmt → Stmt
  | .expression pos expr => .expression (f pos) (expr.relocate f)
  | .varDecl pos name initializer =>
      .varDecl (f pos) name (initializer.map (Expr.relocate f))
  | .returning pos value => .returning (f pos) (value.map (Expr.relocate f))
  | .branch pos condition consequent alternative =>
      .branch (f pos) (condition.relocate f) (consequent.relocate f)
        (relocateOption f alternative)
  | .whileLoop pos condition body => .whileLoop (f pos) (condition.relocate f) (body.relocate f)
  | .forLoop pos initializer condition step body =>
      .forLoop (f pos) (relocateOption f initializer) (condition.map (Expr.relocate f))
        (step.map (Expr.relocate f)) (body.relocate f)
  | .block pos body => .block (f pos) (relocateEach f body)
  | .function pos name params body modifiers =>
      .function (f pos) name params (relocateEach f body) modifiers
  | .classDecl pos name members isStatic =>
      .classDecl (f pos) name (relocateEach f members) isStatic
  | .property pos name initializer modifiers =>
      .property (f pos) name (initializer.map (Expr.relocate f)) modifiers

def relocateEach (f : Position → Position) : List Stmt → List Stmt
  | [] => []
  | s :: ss => s.relocate f :: relocateEach f ss

def relocateOption (f : Position → Position) : Option Stmt → Option Stmt
  | none => none
  | some s => some (s.relocate f)

end

@[simp] theorem relocateEach_eq_map (ss : List Stmt) : relocateEach f ss = ss.map (relocate f) := by
  induction ss with
  | nil => rfl
  | cons s ss ih => rw [relocateEach, ih, List.map_cons]

@[simp] theorem relocateOption_eq_map (s : Option Stmt) :
    relocateOption f s = s.map (relocate f) := by
  cases s <;> rfl

end Stmt

def Program.relocate (f : Position → Position) (program : Program) : Program :=
  program.map (Stmt.relocate f)

/-! ## Likeness -/

theorem forall₂_eq_map {α β : Type} {f : α → β} {xs : List α} {ys : List β} :
    List.Forall₂ (fun x y => y = f x) xs ys ↔ ys = xs.map f := by
  have symmetric : (fun x y => y = f x) = fun x y => f x = y := by
    funext x y
    exact propext eq_comm
  rw [symmetric, eq_comm, ← List.forall₂_eq_eq_eq, List.forall₂_map_left_iff]

theorem optionRel_eq_map {α β : Type} {f : α → β} {x : Option α} {y : Option β} :
    Option.Rel (fun x y => y = f x) x y ↔ y = x.map f := by
  constructor
  · rintro (h | _)
    · exact congrArg some h
    · rfl
  · rintro rfl
    cases x with
    | none => exact .none
    | some a => exact .some rfl

theorem Expr.relocate_iff {e e' : Expr} :
    e' = e.relocate f ↔
      Layer (fun p q => q = f p) True (fun e e' => e' = e.relocate f) e e' := by
  constructor
  · rintro rfl
    cases e <;> simp only [relocate, relocateEach_eq_map]
    case number => exact .number rfl
    case string => exact .string rfl
    case bool => exact .bool rfl
    case null => exact .null rfl
    case identifier => exact .identifier rfl
    case binary => exact .binary rfl rfl rfl
    case unary => exact .unary rfl rfl
    case call => exact .call rfl rfl (forall₂_eq_map.mpr rfl)
    case member => exact .member rfl rfl
    case assign => exact .assign rfl rfl rfl (.inl trivial)
  · intro h
    cases h with
    | number place | string place | bool place | null place | identifier place =>
        rw [place, relocate]
    | binary place left right => rw [place, left, right, relocate]
    | unary place operand => rw [place, operand, relocate]
    | call place callee args =>
        rw [place, callee, forall₂_eq_map.mp args, relocate, relocateEach_eq_map]
    | member place object => rw [place, object, relocate]
    | assign place target value => rw [place, target, value, relocate]

theorem Stmt.relocate_iff {s s' : Stmt} :
    s' = s.relocate f ↔
      Layer (fun p q => q = f p) True (fun e e' => e' = e.relocate f)
        (fun s s' => s' = s.relocate f) (fun s s' => s' = s.relocate f) s s' := by
  constructor
  · rintro rfl
    cases s <;> simp only [relocate, relocateEach_eq_map, relocateOption_eq_map]
    case expression => exact .expression rfl rfl
    case varDecl => exact .varDecl rfl (optionRel_eq_map.mpr rfl)
    case returning => exact .returning rfl (optionRel_eq_map.mpr rfl)
    case branch => exact .branch rfl rfl rfl (optionRel_eq_map.mpr rfl)
    case whileLoop => exact .whileLoop rfl rfl rfl
    case forLoop =>
        exact .forLoop rfl (optionRel_eq_map.mpr rfl) (optionRel_eq_map.mpr rfl)
          (optionRel_eq_map.mpr rfl) rfl (.inl trivial)
    case block => exact .block rfl (forall₂_eq_map.mpr rfl)
    case function => exact .function rfl (forall₂_eq_map.mpr rfl) (.inl trivial)
    case classDecl => exact .classDecl rfl (forall₂_eq_map.mpr rfl)
    case property => exact .property rfl (optionRel_eq_map.mpr rfl) trivial
  · intro h
    cases h with
    | expression place e => rw [place, e, relocate]
    | varDecl place value | returning place value | property place value =>
        rw [place, optionRel_eq_map.mp value, relocate]
    | branch place test s other =>
        rw [place, test, s, optionRel_eq_map.mp other, relocate, relocateOption_eq_map]
    | whileLoop place test body => rw [place, test, body, relocate]
    | forLoop place start test step body =>
        rw [place, optionRel_eq_map.mp start, optionRel_eq_map.mp test, optionRel_eq_map.mp step,
          body, relocate, relocateOption_eq_map]
    | block place body | function place body | classDecl place body =>
        rw [place, forall₂_eq_map.mp body, relocate, relocateEach_eq_map]

theorem Stmt.relocate_iff_member {s s' : Stmt} :
    s' = s.relocate f ↔
      MemberLayer (fun p q => q = f p) True (fun e e' => e' = e.relocate f)
        (fun s s' => s' = s.relocate f) s s' := by
  constructor
  · exact fun h => .other trivial h
  · intro h
    cases h with
    | function place body => exact relocate_iff.mpr (.function place body (.inl trivial))
    | property place value => exact relocate_iff.mpr (.property place value trivial)
    | other _ h => exact h

/-- The trees on the right are those on the left with their places changed. -/
def Likeness.relocated (f : Position → Position) : Likeness where
  pos p q := q = f p
  anyShape := True
  expr e e' := e' = e.relocate f
  stmt s s' := s' = s.relocate f
  member s s' := s' = s.relocate f
  expr_iff := Expr.relocate_iff
  stmt_iff := Stmt.relocate_iff
  member_iff := Stmt.relocate_iff_member

end Scriptlet
