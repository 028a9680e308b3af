import Scriptlet.Proofs.Number.TreeText
import Scriptlet.Proofs.Syntax.Forms
import Scriptlet.Syntax.Render

/-! # What is shown of a tree

The text of a tree is the text of a form. Places, the modifiers of functions, and how an absent
clause of a loop and an infinite number were written are not in it. -/

namespace Scriptlet

/-! ## Forms of trees -/

namespace Expr

mutual

/-- What an expression is shown as. -/
def form : Expr → Form
  | .number _ value => .word (Number.treeText value)
  | .string _ value => .quoted value
  | .bool _ value => .word (toString value)
  | .null _ => .word "null"
  | .identifier _ name => .word name
  | .binary _ op left right => .group [.word op.symbol, left.form, right.form]
  | .unary _ op operand => .group [.word op.symbol, operand.form]
  | .call _ callee args => .group (.word "call" :: callee.form :: formEach args)
  | .member _ object name => .group [.word ".", object.form, .word name]
  | .assign _ op target value => .group [.word op.symbol, target.form, value.form]

@[inherit_doc form]
def formEach : List Expr → List Form
  | [] => []
  | e :: es => e.form :: formEach es

end

def formClause : Option Expr → Form
  | none => .word "_"
  | some e => e.form

end Expr

namespace Stmt

mutual

/-- What a statement is shown as. -/
def form : Stmt → Form
  | .expression _ expr => .group [.word ";", expr.form]
  | .varDecl _ name initializer =>
      .group (.word "var" :: .word name :: (initializer.map Expr.form).toList)
  | .returning _ value => .group (.word "return" :: (value.map Expr.form).toList)
  | .branch _ condition consequent alternative =>
      .group (.word "if" :: condition.form :: consequent.form :: formElse alternative)
  | .whileLoop _ condition body => .group [.word "while", condition.form, body.form]
  | .forLoop _ initializer condition step body =>
      .group [.word "for", formClause initializer, Expr.formClause condition,
        Expr.formClause step, body.form]
  | .block _ body => .group (.word "block" :: formEach body)
  | .function _ name params body _ =>
      .group (.word "function" :: .word name :: .group (params.map .word) :: formEach body)
  | .classDecl _ name members isStatic =>
      .group ((if isStatic then [.word "static", .word "class"] else [.word "class"]) ++
        .word name :: formEach members)
  | .property _ name initializer modifiers =>
      .group (.word "property" :: .word (if modifiers.isPublic then "public" else "private") ::
        ((if modifiers.isStatic then [.word "static"] else []) ++
          .word name :: (initializer.map Expr.form).toList))

@[inherit_doc form]
def formEach : List Stmt → List Form
  | [] => []
  | s :: ss => s.form :: formEach ss

def formElse : Option Stmt → List Form
  | none => []
  | some s => [s.form]

def formClause : Option Stmt → Form
  | none => .word "_"
  | some s => s.form

end

end Stmt

/-! ## Texts of trees -/

namespace Expr

mutual

theorem toList_render : ∀ e : Expr, e.render.toList = e.form.text
  | .number .. | .string .. | .bool .. | .null _ | .identifier .. => by simp [render, form]
  | .binary _ _ left right => by simp [render, form, toList_render left, toList_render right]
  | .unary _ _ operand => by simp [render, form, toList_render operand]
  | .call _ callee args => by simp [render, form, toList_render callee, toList_renderEach args]
  | .member _ object _ => by simp [render, form, toList_render object]
  | .assign _ _ target value => by simp [render, form, toList_render target, toList_render value]

theorem toList_renderEach : ∀ es : List Expr,
    (renderEach es).toList = Form.textAfter ' ' (formEach es)
  | [] => by simp [renderEach, formEach]
  | e :: es => by simp [renderEach, formEach, toList_render e, toList_renderEach es]

end

theorem toList_renderAfter (e : Option Expr) :
    (renderAfter e).toList = Form.textAfter ' ' (e.map form).toList := by
  cases e <;> simp [renderAfter, toList_render]

theorem toList_renderClause (e : Option Expr) : (renderClause e).toList = (formClause e).text := by
  cases e <;> simp [renderClause, formClause, toList_render]

end Expr

namespace Stmt

theorem text_params (params : List String) :
    (Form.group (params.map .word)).text = '(' :: ((" ".intercalate params).toList ++ [')']) := by
  have texts : (params.map Form.word).map Form.text = params.map String.toList := by
    simp [List.map_map, Function.comp_def]
  rw [Form.text, Form.tail_textAfter, texts, String.toList_intercalate]
  rfl

mutual

theorem toList_render : ∀ s : Stmt, s.render.toList = s.form.text
  | .expression _ expr => by
      change ("(; " ++ expr.render ++ ")").toList = _
      simp [form, expr.toList_render]
  | .varDecl _ name initializer => by
      change ("(var " ++ name ++ Expr.renderAfter initializer ++ ")").toList = _
      simp [form, Expr.toList_renderAfter]
  | .returning _ value => by
      change ("(return" ++ Expr.renderAfter value ++ ")").toList = _
      simp [form, Expr.toList_renderAfter]
  | .branch _ condition consequent alternative => by
      change ("(if " ++ condition.render ++ " " ++ consequent.render ++ renderElse alternative ++
        ")").toList = _
      simp [form, condition.toList_render, toList_render consequent, toList_renderElse alternative]
  | .whileLoop _ condition body => by
      change ("(while " ++ condition.render ++ " " ++ body.render ++ ")").toList = _
      simp [form, condition.toList_render, toList_render body]
  | .forLoop _ initializer condition step body => by
      change ("(for " ++ renderClause initializer ++ " " ++ Expr.renderClause condition ++ " " ++
        Expr.renderClause step ++ " " ++ body.render ++ ")").toList = _
      simp [form, toList_renderClause initializer, Expr.toList_renderClause, toList_render body]
  | .block _ body => by
      change ("(block" ++ renderEach body ++ ")").toList = _
      simp [form, toList_renderEach body]
  | .function _ name params body _ => by
      change ("(function " ++ name ++ " (" ++ " ".intercalate params ++ ")" ++ renderEach body ++
        ")").toList = _
      simp [form, toList_renderEach body, text_params]
  | .classDecl _ name members isStatic => by
      change ((if isStatic then "(static class " else "(class ") ++ name ++ renderEach members ++
        ")").toList = _
      cases isStatic <;> simp [form, toList_renderEach members]
  | .property _ name initializer ⟨isStatic, isPublic⟩ => by
      change ("(property " ++ (if isPublic then "public" else "private") ++
        (if isStatic then " static" else "") ++ " " ++ name ++ Expr.renderAfter initializer ++
        ")").toList = _
      cases isStatic <;> cases isPublic <;> simp [form, Expr.toList_renderAfter]

theorem toList_renderEach : ∀ ss : List Stmt,
    (renderEach ss).toList = Form.textAfter ' ' (formEach ss)
  | [] => rfl
  | s :: ss => by
      change (" " ++ s.render ++ renderEach ss).toList = _
      simp [formEach, toList_render s, toList_renderEach ss]

theorem toList_renderElse : ∀ s : Option Stmt,
    (renderElse s).toList = Form.textAfter ' ' (formElse s)
  | none => rfl
  | some s => by
      change (" " ++ s.render).toList = _
      simp [formElse, toList_render s]

theorem toList_renderClause : ∀ s : Option Stmt, (renderClause s).toList = (formClause s).text
  | none => rfl
  | some s => toList_render s

end

end Stmt

theorem Program.toList_render (program : Program) :
    program.render.toList = Form.lines (program.map Stmt.form) := by
  have texts : (program.map Stmt.render).map String.toList =
      (program.map Stmt.form).map Form.text := by
    simp [List.map_map, Function.comp_def, Stmt.toList_render]
  rw [render, String.toList_intercalate, texts, Form.lines, Form.tail_textAfter]
  rfl

/-! ## Trees as they are shown -/

namespace Expr

mutual

/-- The expression with every place forgotten, and with the name `inf` for infinite numbers. -/
def shown : Expr → Expr
  | .number _ value => if value.isInf then .identifier default "inf" else .number default value
  | .string _ value => .string default value
  | .bool _ value => .bool default value
  | .null _ => .null default
  | .identifier _ name => .identifier default name
  | .binary _ op left right => .binary default op left.shown right.shown
  | .unary _ op operand => .unary default op operand.shown
  | .call _ callee args => .call default callee.shown (shownEach args)
  | .member _ object name => .member default object.shown name
  | .assign _ op target value => .assign default op target.shown value.shown

@[inherit_doc shown]
def shownEach : List Expr → List Expr
  | [] => []
  | e :: es => e.shown :: shownEach es

end

/-- A clause of a loop, which is the name `_` if it is absent. -/
def shownClause (clause : Option Expr) : Expr :=
  (clause.map shown).getD (.identifier default "_")

end Expr

namespace Stmt

mutual

/-- The statement with every place and the modifiers of functions forgotten, with the name `inf` for
infinite numbers and the name `_` for the absent condition or step of a loop. -/
def shown : Stmt → Stmt
  | .expression _ expr => .expression default expr.shown
  | .varDecl _ name initializer => .varDecl default name (initializer.map Expr.shown)
  | .returning _ value => .returning default (value.map Expr.shown)
  | .branch _ condition consequent alternative =>
      .branch default condition.shown consequent.shown (shownOption alternative)
  | .whileLoop _ condition body => .whileLoop default condition.shown body.shown
  | .forLoop _ initializer condition step body =>
      .forLoop default (shownOption initializer) (some (Expr.shownClause condition))
        (some (Expr.shownClause step)) body.shown
  | .block _ body => .block default (shownEach body)
  | .function _ name params body _ => .function default name params (shownEach body) {}
  | .classDecl _ name members isStatic => .classDecl default name (shownEach members) isStatic
  | .property _ name initializer modifiers =>
      .property default name (initializer.map Expr.shown) modifiers

@[inherit_doc shown]
def shownEach : List Stmt → List Stmt
  | [] => []
  | s :: ss => s.shown :: shownEach ss

@[inherit_doc shown]
def shownOption : Option Stmt → Option Stmt
  | none => none
  | some s => some s.shown

end

end Stmt

/-- The program without what its text leaves out. -/
def Program.shown (program : Program) : Program :=
  program.map Stmt.shown

end Scriptlet
