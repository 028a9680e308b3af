import Scriptlet.Proofs.Syntax.Legible

/-! # What the form of a tree shows

A legible tree can be read off its form as far as it is shown: the word in front tells the kind of a
tree, with the number of its parts, and no word is shown for two things. -/

namespace Scriptlet

open Form Number

/-! ## Words -/

theorem binarySymbol_injective {op op' : BinaryOp} (h : op.symbol = op'.symbol) : op = op' := by
  revert h
  cases op <;> cases op' <;> decide

theorem unarySymbol_injective {op op' : UnaryOp} (h : op.symbol = op'.symbol) : op = op' := by
  revert h
  cases op <;> cases op' <;> decide

theorem assignSymbol_injective {op op' : AssignOp} (h : op.symbol = op'.symbol) : op = op' := by
  revert h
  cases op <;> cases op' <;> decide

/-- The words that are shown for values. -/
def constants : List (String × Expr) :=
  [("true", .bool default true), ("false", .bool default false), ("null", .null default)]

/-- What a word is shown for. -/
inductive ShownFor : String → Expr → Prop where
  | number {x : Float} : Unsigned x.toModel.unpack → x.isInf = false →
      ShownFor (treeText x) (.number default x)
  | constant {s : String} {e : Expr} : constants.lookup s = some e → ShownFor s e
  | name {s : String} : IsName s → ShownFor s (.identifier default s)

theorem not_numeral_of_head {s : String} (h : ∀ c ∈ s.toList.head?, c.isDigit = false) :
    ¬ IsNumeral s := by
  rintro ⟨⟨c, first, digit⟩, -⟩
  rw [h c first] at digit
  cases digit

theorem mem_reserved_of_lookup {s : String} {e : Expr} (h : constants.lookup s = some e) :
    s ∈ reserved := by
  obtain ⟨front, back, whole, -⟩ := List.lookup_eq_some_iff.mp h
  have mem : s ∈ constants.map (·.1) := by
    rw [whole]
    simp
  have table : ∀ s ∈ constants.map (·.1), s ∈ reserved := by decide
  exact table s mem

theorem not_numeral_of_lookup {s : String} {e : Expr} (h : constants.lookup s = some e) :
    ¬ IsNumeral s := by
  have table : ∀ s ∈ reserved, s.toList.head?.all fun c => !c.isDigit := by decide
  refine not_numeral_of_head ?_
  simpa [Option.all_eq_true] using table s (mem_reserved_of_lookup h)

theorem isNumeral_treeText {x : Float} (h : Unsigned x.toModel.unpack) (finite : x.isInf = false) :
    IsNumeral (treeText x) := by
  obtain ⟨digit, parts⟩ := treeText_numeral h finite
  exact ⟨digit, parts⟩

/-- A word is shown for one thing only. -/
theorem ShownFor.unique {s : String} {e e' : Expr} (h : ShownFor s e) (h' : ShownFor s e') :
    e = e' := by
  cases h with
  | @number x hx finite =>
      have numeral := isNumeral_treeText hx finite
      generalize text : treeText x = s at h' numeral
      cases h' with
      | number hy finite' => rw [treeText_injective hx hy finite finite' text]
      | constant lookup => exact (not_numeral_of_lookup lookup numeral).elim
      | name name => exact (not_numeral_of_head name.noDigit numeral).elim
  | constant lookup =>
      cases h' with
      | number hy finite' =>
          exact (not_numeral_of_lookup lookup (isNumeral_treeText hy finite')).elim
      | constant lookup' => exact Option.some.inj (lookup.symm.trans lookup')
      | name name => exact (name.free (mem_reserved_of_lookup lookup)).elim
  | name name =>
      cases h' with
      | number hy finite' =>
          exact (not_numeral_of_head name.noDigit (isNumeral_treeText hy finite')).elim
      | constant lookup => exact (name.free (mem_reserved_of_lookup lookup)).elim
      | name => rfl

namespace Expr

/-- An expression that is a single word. -/
theorem Legible.shownFor {e : Expr} {last : Bool} {s : String} (h : e.Legible last)
    (single : e.form = .word s) : ShownFor s e.shown := by
  cases e with
  | number _ x =>
      obtain rfl := Form.word.inj single
      rcases treeText_cases h with ⟨finite, -⟩ | ⟨infinite, text⟩
      · rw [shown, if_neg (by simp [finite])]
        exact .number h finite
      · rw [shown, if_pos infinite, text]
        exact .name (by decide)
  | bool _ b =>
      obtain rfl := Form.word.inj single
      cases b with
      | false => exact .constant rfl
      | true => exact .constant rfl
  | null =>
      obtain rfl := Form.word.inj single
      exact .constant rfl
  | identifier =>
      obtain rfl := Form.word.inj single
      exact .name h
  | _ => cases single

/-- The kind of expression that a group is shown for. The word in front tells it, and for a minus the
number of its parts. -/
def groupKind : List Form → Nat
  | .word head :: parts =>
      if head = "call" then 7
      else if head = "." then 8
      else if parts.length = 1 then 6
      else if head ∈ ["=", "+=", "-="] then 9
      else 5
  | _ => 0

theorem groupKind_form {e : Expr} {fs : List Form} (h : e.form = .group fs) :
    groupKind fs = e.ctorIdx := by
  cases e with
  | binary _ op | unary _ op | assign _ op =>
      cases h
      cases op <;> rfl
  | call | member =>
      cases h
      rfl
  | _ => cases h

theorem ctorIdx_eq {e e' : Expr} {fs : List Form} (same : e.form = e'.form)
    (group : e.form = .group fs) : e.ctorIdx = e'.ctorIdx := by
  rw [← groupKind_form group, ← groupKind_form (same.symm.trans group)]

mutual

/-- Expressions of the same form are shown alike. -/
theorem shown_eq : ∀ (e e' : Expr) {last last' : Bool}, e.Legible last → e'.Legible last' →
    e.form = e'.form → e.shown = e'.shown
  | .number .., e', _, _, h, h', same => (h.shownFor rfl).unique (h'.shownFor same.symm)
  | .bool .., e', _, _, h, h', same => (h.shownFor rfl).unique (h'.shownFor same.symm)
  | .null _, e', _, _, h, h', same => (h.shownFor rfl).unique (h'.shownFor same.symm)
  | .identifier .., e', _, _, h, h', same => (h.shownFor rfl).unique (h'.shownFor same.symm)
  | .string .., e', _, _, _, _, same => by
      cases e' with
      | string => rw [shown, shown, Form.quoted.inj same]
      | _ => cases same
  | .binary _ op left right, e', _, _, h, h', same => by
      have kind := ctorIdx_eq same rfl
      cases e' with
      | binary _ op' left' right' =>
          simp only [form, Form.group.injEq, List.cons.injEq, Form.word.injEq, and_true] at same
          rw [shown, shown, binarySymbol_injective same.1, shown_eq left left' h.1 h'.1 same.2.1,
            shown_eq right right' h.2 h'.2 same.2.2]
      | _ => cases kind
  | .unary _ op operand, e', _, _, h, h', same => by
      have kind := ctorIdx_eq same rfl
      cases e' with
      | unary _ op' operand' =>
          simp only [form, Form.group.injEq, List.cons.injEq, Form.word.injEq, and_true] at same
          rw [shown, shown, unarySymbol_injective same.1, shown_eq operand operand' h h' same.2]
      | _ => cases kind
  | .call _ callee args, e', _, _, h, h', same => by
      have kind := ctorIdx_eq same rfl
      cases e' with
      | call _ callee' args' =>
          simp only [form, Form.group.injEq, List.cons.injEq, true_and] at same
          rw [shown, shown, shown_eq callee callee' h.1 h'.1 same.1,
            shownEach_eq args args' h.2 h'.2 same.2]
      | _ => cases kind
  | .member _ object name, e', _, _, h, h', same => by
      have kind := ctorIdx_eq same rfl
      cases e' with
      | member _ object' name' =>
          simp only [form, Form.group.injEq, List.cons.injEq, Form.word.injEq, true_and,
            and_true] at same
          rw [shown, shown, shown_eq object object' h.1 h'.1 same.1, same.2]
      | _ => cases kind
  | .assign _ op target value, e', _, _, h, h', same => by
      have kind := ctorIdx_eq same rfl
      cases e' with
      | assign _ op' target' value' =>
          simp only [form, Form.group.injEq, List.cons.injEq, Form.word.injEq, and_true] at same
          rw [shown, shown, assignSymbol_injective same.1,
            shown_eq target target' h.1 h'.1 same.2.1, shown_eq value value' h.2 h'.2 same.2.2]
      | _ => cases kind

theorem shownEach_eq : ∀ (es es' : List Expr), LegibleEach es → LegibleEach es' →
    formEach es = formEach es' → shownEach es = shownEach es'
  | [], [], _, _, _ => rfl
  | [], _ :: _, _, _, same => by cases same
  | _ :: _, [], _, _, same => by cases same
  | e :: es, e' :: es', h, h', same => by
      obtain ⟨first, rest⟩ := List.cons.inj same
      rw [shownEach, shownEach, shown_eq e e' h.1 h'.1 first, shownEach_eq es es' h.2 h'.2 rest]

end

theorem shownOption_eq {e e' : Option Expr} {last last' : Bool} (h : LegibleOption e last)
    (h' : LegibleOption e' last') (same : (e.map form).toList = (e'.map form).toList) :
    e.map shown = e'.map shown := by
  cases e with
  | none =>
      cases e' with
      | none => rfl
      | some e' => cases same
  | some e =>
      cases e' with
      | none => cases same
      | some e' => exact congrArg some (shown_eq e e' (h e rfl) (h' e' rfl) (List.cons.inj same).1)

/-- An absent clause has the form of a name. -/
theorem shownClause_eq {e e' : Option Expr} {last last' : Bool} (h : LegibleOption e last)
    (h' : LegibleOption e' last') (same : formClause e = formClause e') :
    shownClause e = shownClause e' := by
  have absent : ShownFor "_" (.identifier default "_") := .name (by decide)
  cases e with
  | none =>
      cases e' with
      | none => rfl
      | some e' => exact absent.unique ((h' e' rfl).shownFor same.symm)
  | some e =>
      cases e' with
      | none => exact ((h e rfl).shownFor same).unique absent
      | some e' => exact shown_eq e e' (h e rfl) (h' e' rfl) same

end Expr

namespace Stmt

/-- The words that statements start with, with the kinds of statements they tell. -/
def kinds : List (String × Nat) :=
  [(";", 0), ("var", 1), ("return", 2), ("if", 3), ("while", 4), ("for", 5), ("block", 6),
   ("function", 7), ("class", 8), ("static", 8), ("property", 9)]

theorem exists_label (s : Stmt) :
    ∃ label fs, s.form = .group (.word label :: fs) ∧ kinds.lookup label = some s.ctorIdx := by
  cases s with
  | classDecl _ _ _ isStatic => cases isStatic <;> exact ⟨_, _, rfl, rfl⟩
  | _ => exact ⟨_, _, rfl, rfl⟩

theorem ctorIdx_eq {s s' : Stmt} (same : s.form = s'.form) : s.ctorIdx = s'.ctorIdx := by
  obtain ⟨label, fs, form, kind⟩ := exists_label s
  obtain ⟨label', fs', form', kind'⟩ := exists_label s'
  rw [form, form'] at same
  simp only [Form.group.injEq, List.cons.injEq, Form.word.injEq] at same
  rw [same.1, kind'] at kind
  exact (Option.some.inj kind).symm

/-- A name is not taken for the modifier in front of it. -/
theorem form_property_inj {pos pos' : Position} {name name' : String}
    {initializer initializer' : Option Expr} {modifiers modifiers' : Modifiers}
    (h : IsName name) (h' : IsName name')
    (same : (property pos name initializer modifiers).form =
      (property pos' name' initializer' modifiers').form) :
    name = name' ∧ modifiers = modifiers' ∧
      (initializer.map Expr.form).toList = (initializer'.map Expr.form).toList := by
  have free {name : String} (h : IsName name) : name ≠ "static" := fun same =>
    h.free (same ▸ by decide)
  obtain ⟨isStatic, isPublic⟩ := modifiers
  obtain ⟨isStatic', isPublic'⟩ := modifiers'
  simp only [form, Form.group.injEq, List.cons.injEq, Form.word.injEq, true_and] at same
  obtain ⟨access, rest⟩ := same
  obtain rfl : isPublic = isPublic' := by
    cases isPublic <;> cases isPublic' <;> simp_all
  cases isStatic <;> cases isStatic' <;> simp at rest
  case false.false => exact ⟨rest.1, rfl, rest.2⟩
  case false.true => exact (free h rest.1).elim
  case true.false => exact (free h' rest.1.symm).elim
  case true.true => exact ⟨rest.1, rfl, rest.2⟩

mutual

/-- Statements of the same form are shown alike. -/
theorem shown_eq : ∀ (s s' : Stmt) {last last' : Bool}, s.Legible last → s'.Legible last' →
    s.form = s'.form → s.shown = s'.shown
  | .expression _ expr, s', _, _, h, h', same => by
      have kind := ctorIdx_eq same
      cases s' with
      | expression _ expr' =>
          simp only [form, Form.group.injEq, List.cons.injEq, true_and, and_true] at same
          rw [shown, shown, expr.shown_eq expr' h h' same]
      | _ => cases kind
  | .varDecl _ name initializer, s', _, _, h, h', same => by
      have kind := ctorIdx_eq same
      cases s' with
      | varDecl _ name' initializer' =>
          simp only [form, Form.group.injEq, List.cons.injEq, Form.word.injEq, true_and] at same
          rw [shown, shown, same.1, Expr.shownOption_eq h.2 h'.2 same.2]
      | _ => cases kind
  | .returning _ value, s', _, _, h, h', same => by
      have kind := ctorIdx_eq same
      cases s' with
      | returning _ value' =>
          simp only [form, Form.group.injEq, List.cons.injEq, true_and] at same
          rw [shown, shown, Expr.shownOption_eq h h' same]
      | _ => cases kind
  | .branch _ condition consequent alternative, s', _, _, h, h', same => by
      have kind := ctorIdx_eq same
      cases s' with
      | branch _ condition' consequent' alternative' =>
          simp only [form, Form.group.injEq, List.cons.injEq, true_and] at same
          rw [shown, shown, condition.shown_eq condition' h.1 h'.1 same.1,
            shown_eq consequent consequent' h.2.1 h'.2.1 same.2.1,
            shownElse_eq alternative alternative' h.2.2 h'.2.2 same.2.2]
      | _ => cases kind
  | .whileLoop _ condition body, s', _, _, h, h', same => by
      have kind := ctorIdx_eq same
      cases s' with
      | whileLoop _ condition' body' =>
          simp only [form, Form.group.injEq, List.cons.injEq, true_and, and_true] at same
          rw [shown, shown, condition.shown_eq condition' h.1 h'.1 same.1,
            shown_eq body body' h.2 h'.2 same.2]
      | _ => cases kind
  | .forLoop _ initializer condition step body, s', _, _, h, h', same => by
      have kind := ctorIdx_eq same
      cases s' with
      | forLoop _ initializer' condition' step' body' =>
          simp only [form, Form.group.injEq, List.cons.injEq, true_and, and_true] at same
          rw [shown, shown, shownStart_eq initializer initializer' h.1 h'.1 same.1,
            Expr.shownClause_eq h.2.1 h'.2.1 same.2.1,
            Expr.shownClause_eq h.2.2.1 h'.2.2.1 same.2.2.1,
            shown_eq body body' h.2.2.2 h'.2.2.2 same.2.2.2]
      | _ => cases kind
  | .block _ body, s', _, _, h, h', same => by
      have kind := ctorIdx_eq same
      cases s' with
      | block _ body' =>
          simp only [form, Form.group.injEq, List.cons.injEq, true_and] at same
          rw [shown, shown, shownEach_eq body body' h h' same]
      | _ => cases kind
  | .function _ name params body _, s', _, _, h, h', same => by
      have kind := ctorIdx_eq same
      cases s' with
      | function _ name' params' body' _ =>
          simp only [form, Form.group.injEq, List.cons.injEq, Form.word.injEq, true_and] at same
          have names : params = params' :=
            List.map_injective_iff.mpr (fun _ _ => Form.word.inj) same.2.1
          rw [shown, shown, same.1, names, shownEach_eq body body' h.2.2 h'.2.2 same.2.2]
      | _ => cases kind
  | .classDecl _ name members isStatic, s', _, _, h, h', same => by
      have kind := ctorIdx_eq same
      cases s' with
      | classDecl _ name' members' isStatic' =>
          obtain ⟨rfl, rfl, rest⟩ :
              isStatic = isStatic' ∧ name = name' ∧ formEach members = formEach members' := by
            cases isStatic <;> cases isStatic' <;> simp_all [form]
          rw [shown, shown, shownEach_eq members members' h.2 h'.2 rest]
      | _ => cases kind
  | .property _ name initializer modifiers, s', _, _, h, h', same => by
      have kind := ctorIdx_eq same
      cases s' with
      | property _ name' initializer' modifiers' =>
          obtain ⟨rfl, rfl, rest⟩ := form_property_inj h.1 h'.1 same
          rw [shown, shown, Expr.shownOption_eq h.2 h'.2 rest]
      | _ => cases kind

theorem shownEach_eq : ∀ (ss ss' : List Stmt) {last last' : Bool}, LegibleEach ss last →
    LegibleEach ss' last' → formEach ss = formEach ss' → shownEach ss = shownEach ss'
  | [], [], _, _, _, _, _ => rfl
  | [], _ :: _, _, _, _, _, same => by cases same
  | _ :: _, [], _, _, _, _, same => by cases same
  | s :: ss, s' :: ss', _, _, h, h', same => by
      obtain ⟨first, rest⟩ := List.cons.inj same
      rw [shownEach, shownEach, shown_eq s s' h.1 h'.1 first, shownEach_eq ss ss' h.2 h'.2 rest]

theorem shownElse_eq : ∀ (s s' : Option Stmt) {last last' : Bool}, LegibleOption s last →
    LegibleOption s' last' → formElse s = formElse s' → shownOption s = shownOption s'
  | none, none, _, _, _, _, _ => rfl
  | none, some _, _, _, _, _, same => by cases same
  | some _, none, _, _, _, _, same => by cases same
  | some s, some s', _, _, h, h', same => by
      rw [shownOption, shownOption, shown_eq s s' h h' (List.cons.inj same).1]

theorem shownStart_eq : ∀ (s s' : Option Stmt) {last last' : Bool}, LegibleOption s last →
    LegibleOption s' last' → formClause s = formClause s' → shownOption s = shownOption s'
  | none, none, _, _, _, _, _ => rfl
  | none, some s', _, _, _, _, same => by
      obtain ⟨_, _, form, -⟩ := exists_label s'
      cases same.trans form
  | some s, none, _, _, _, _, same => by
      obtain ⟨_, _, form, -⟩ := exists_label s
      cases form.symm.trans same
  | some s, some s', _, _, h, h', same => by
      rw [shownOption, shownOption, shown_eq s s' h h' same]

end

end Stmt

/-! ## Programs -/

theorem Stmt.formEach_eq_map (ss : List Stmt) : formEach ss = ss.map form := by
  induction ss with
  | nil => rfl
  | cons s ss ih => rw [formEach, ih, List.map_cons]

theorem Stmt.shownEach_eq_map (ss : List Stmt) : shownEach ss = ss.map shown := by
  induction ss with
  | nil => rfl
  | cons s ss ih => rw [shownEach, ih, List.map_cons]

namespace Program

variable {program other : Program}

theorem render_shown (h : Stmt.LegibleEach program true) :
    program.shown.render = program.render := by
  apply String.toList_injective
  rw [toList_render, toList_render, shown, ← Stmt.shownEach_eq_map, ← Stmt.formEach_eq_map,
    ← Stmt.formEach_eq_map, Stmt.Legible.formEach_shown h]

/-- The text of a legible program determines all that is shown of it. -/
theorem shown_eq_of_render (h : Stmt.LegibleEach program true) (h' : Stmt.LegibleEach other true)
    (same : program.render = other.render) : program.shown = other.shown := by
  have lines := congrArg String.toList same
  rw [toList_render, toList_render, ← Stmt.formEach_eq_map, ← Stmt.formEach_eq_map] at lines
  have forms := Form.lines_injective (Stmt.Legible.formEach h) (Stmt.Legible.formEach h') lines
  rw [shown, shown, ← Stmt.shownEach_eq_map, ← Stmt.shownEach_eq_map]
  exact Stmt.shownEach_eq _ _ h h' forms

end Program

end Scriptlet
