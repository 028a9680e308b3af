import Scriptlet.Proofs.Grammar.Expression

/-! The grammar of statements, apart from the parser. It has three rules that look at what follows a
phrase: a branch without an alternative is not followed by `else`, and the end of a return statement
or of a block may be left out in certain places. -/

namespace Scriptlet.Grammar

/-! ## Parts of statements -/

/-- An expression, or nothing. -/
inductive Optional : List Token → Option Expr → List Token → Prop where
  | absent {ts} : Optional ts none ts
  | present {e ts rest} : Expression ts e rest → Optional ts (some e) rest

/-- An equals sign and a value, or nothing. -/
inductive Initializer : List Token → Option Expr → List Token → Prop where
  | absent {ts} : Initializer ts none ts
  | present {e ts a rest} : Terminal .equal ts a → Expression a e rest →
      Initializer ts (some e) rest

inductive VarDecl : List Token → Stmt → List Token → Prop where
  | intro {pos name value ts a b c rest} : Terminal .kwVar ts a → Named name a b →
      Initializer b value c → Terminal .semicolon c rest →
      VarDecl ts (.varDecl pos name value) rest

inductive ExpressionStmt : List Token → Stmt → List Token → Prop where
  | intro {pos e ts a rest} : Expression ts e a → Terminal .semicolon a rest →
      ExpressionStmt ts (.expression pos e) rest

inductive Condition : List Token → Expr → List Token → Prop where
  | intro {e ts a b rest} : Terminal .leftParen ts a → Expression a e b →
      Terminal .rightParen b rest → Condition ts e rest

/-- The first clause of a for loop with its semicolon. -/
inductive LoopStart : List Token → Option Stmt → List Token → Prop where
  | absent {ts rest} : Terminal .semicolon ts rest → LoopStart ts none rest
  | varDecl {s ts rest} : VarDecl ts s rest → LoopStart ts (some s) rest
  | expression {s ts rest} : ExpressionStmt ts s rest → LoopStart ts (some s) rest

inductive LoopHead : List Token → Option Stmt → Option Expr → Option Expr → List Token →
    Prop where
  | intro {start test step ts a b c d e rest} : Terminal .leftParen ts a → LoopStart a start b →
      Optional b test c → Terminal .semicolon c d → Optional d step e →
      Terminal .rightParen e rest → LoopHead ts start test step rest

inductive Parameters : List Token → List String → List Token → Prop where
  | one {name ts rest} : Named name ts rest → Parameters ts [name] rest
  | more {name names ts a b rest} : Named name ts a → Terminal .comma a b →
      Parameters b names rest → Parameters ts (name :: names) rest

/-- A function up to the brace that opens its body. -/
inductive FunctionHead : List Token → String → List String → List Token → Prop where
  | nullary {name ts a b c d rest} : Terminal .kwFunction ts a → Named name a b →
      Terminal .leftParen b c → Terminal .rightParen c d → Terminal .leftBrace d rest →
      FunctionHead ts name [] rest
  | intro {name params ts a b c d e rest} : Terminal .kwFunction ts a → Named name a b →
      Terminal .leftParen b c → Parameters c params d → Terminal .rightParen d e →
      Terminal .leftBrace e rest → FunctionHead ts name params rest

/-- A class up to the brace that opens its body, and whether it is static. -/
inductive ClassHead : List Token → String → Bool → List Token → Prop where
  | plain {name ts a b rest} : Terminal .kwClass ts a → Named name a b →
      Terminal .leftBrace b rest → ClassHead ts name false rest
  | isStatic {name ts a b c rest} : Terminal .kwStatic ts a → Terminal .kwClass a b →
      Named name b c → Terminal .leftBrace c rest → ClassHead ts name true rest

/-- At most one modifier. -/
inductive Modified : List Token → Modifiers → List Token → Prop where
  | absent {ts} : Modified ts {} ts
  | isPublic {ts rest} : Terminal .kwPublic ts rest → Modified ts { isPublic := true } rest
  | isPrivate {ts rest} : Terminal .kwPrivate ts rest → Modified ts {} rest
  | isStatic {ts rest} : Terminal .kwStatic ts rest → Modified ts { isStatic := true } rest

inductive Property (modifiers : Modifiers) : List Token → Stmt → List Token → Prop where
  | intro {pos name value ts a b rest} : Named name ts a → Initializer a value b →
      Terminal .semicolon b rest → Property modifiers ts (.property pos name value modifiers) rest

/-- The end of a return statement: a semicolon, which may be left out in front of a closing brace
and where the tokens end. -/
inductive ReturnEnd : List Token → List Token → Prop where
  | semicolon {ts rest} : Terminal .semicolon ts rest → ReturnEnd ts rest
  | beforeBrace {ts rest} : Terminal .rightBrace ts rest → ReturnEnd ts ts
  | atEnd : ReturnEnd [] []

/-- The end of a block: a brace, which may be left out where the tokens end. -/
inductive BlockEnd : List Token → List Token → Prop where
  | brace {ts rest} : Terminal .rightBrace ts rest → BlockEnd ts rest
  | atEnd : BlockEnd [] []

/-! ## Statements -/

mutual

/-- `Statement ts s rest`: the tokens of `ts` in front of `rest` are the statement `s`. -/
inductive Statement : List Token → Stmt → List Token → Prop where
  | varDecl {s ts rest} : VarDecl ts s rest → Statement ts s rest
  | expression {s ts rest} : ExpressionStmt ts s rest → Statement ts s rest
  | returning {pos value ts a b rest} : Terminal .kwReturn ts a → Optional a value b →
      ReturnEnd b rest → Statement ts (.returning pos value) rest
  /-- An `else` that follows would belong to this branch. -/
  | branch {pos test s ts a b rest} : Terminal .kwIf ts a → Condition a test b →
      Statement b s rest → (∀ after, ¬ Terminal .kwElse rest after) →
      Statement ts (.branch pos test s none) rest
  | branchElse {pos test s other ts a b c d rest} : Terminal .kwIf ts a → Condition a test b →
      Statement b s c → Terminal .kwElse c d → Statement d other rest →
      Statement ts (.branch pos test s (some other)) rest
  | whileLoop {pos test body ts a b rest} : Terminal .kwWhile ts a → Condition a test b →
      Statement b body rest → Statement ts (.whileLoop pos test body) rest
  | forLoop {pos start test step body ts a b rest} : Terminal .kwFor ts a →
      LoopHead a start test step b → Statement b body rest →
      Statement ts (.forLoop pos start test step body) rest
  | block {pos body ts a b rest} : Terminal .leftBrace ts a → Statements a body b →
      BlockEnd b rest → Statement ts (.block pos body) rest
  | function {pos name params body ts a b rest} : FunctionHead ts name params a →
      Statements a body b → BlockEnd b rest →
      Statement ts (.function pos name params body {}) rest
  /-- The brace that closes a class is never left out. -/
  | classDecl {pos name members isStatic ts a b rest} : ClassHead ts name isStatic a →
      Members a members b → Terminal .rightBrace b rest →
      Statement ts (.classDecl pos name members isStatic) rest

inductive Statements : List Token → List Stmt → List Token → Prop where
  | nil {ts} : Statements ts [] ts
  | cons {s ss ts a rest} : Statement ts s a → Statements a ss rest → Statements ts (s :: ss) rest

inductive Member : List Token → Stmt → List Token → Prop where
  | property {s modifiers ts a rest} : Modified ts modifiers a → Property modifiers a s rest →
      Member ts s rest
  | function {pos name params body modifiers ts a b c rest} : Modified ts modifiers a →
      FunctionHead a name params b → Statements b body c → BlockEnd c rest →
      Member ts (.function pos name params body modifiers) rest

inductive Members : List Token → List Stmt → List Token → Prop where
  | nil {ts} : Members ts [] ts
  | cons {s ss ts a rest} : Member ts s a → Members a ss rest → Members ts (s :: ss) rest

end

/-- All the tokens, in their order, are the statements of the program. -/
def Derives (ts : List Token) (program : Program) : Prop :=
  Statements ts program []

end Scriptlet.Grammar
