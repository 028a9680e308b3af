import Scriptlet.Number.Decimal
import Scriptlet.Parse.Expression
import Scriptlet.Syntax.Basic

/-! The grammar of expressions, apart from the parser. A phrase is given by the tokens it starts
with and the tokens left behind it; the places in its tree are free. -/

namespace Scriptlet

/-! ## Operators -/

/-- The strata of expressions, the loosest first. A phrase of one stratum is built from phrases of
that stratum and of the next. -/
inductive Stratum where
  | assignment | logicOr | logicAnd | equality | comparison | term | factor
  | unary | call | primary
deriving DecidableEq, Repr

namespace Stratum

def tighter : Stratum → Stratum
  | assignment => logicOr
  | logicOr => logicAnd
  | logicAnd => equality
  | equality => comparison
  | comparison => term
  | term => factor
  | factor => unary
  | unary => call
  | call => primary
  | primary => primary

def rank : Stratum → Nat
  | assignment => 0
  | logicOr => 1
  | logicAnd => 2
  | equality => 3
  | comparison => 4
  | term => 5
  | factor => 6
  | unary => 7
  | call => 8
  | primary => 9

end Stratum

def BinaryOp.stratum : BinaryOp → Stratum
  | .or => .logicOr
  | .and => .logicAnd
  | .equal | .notEqual => .equality
  | .less | .lessEqual | .greater | .greaterEqual => .comparison
  | .add | .sub => .term
  | .mul | .div | .mod => .factor

/-- The token that spells an operator. -/
def BinaryOp.kind : BinaryOp → TokenKind
  | .or => .orOr
  | .and => .andAnd
  | .equal => .equalEqual
  | .notEqual => .bangEqual
  | .less => .less
  | .lessEqual => .lessEqual
  | .greater => .greater
  | .greaterEqual => .greaterEqual
  | .add => .plus
  | .sub => .minus
  | .mul => .star
  | .div => .slash
  | .mod => .percent

@[inherit_doc BinaryOp.kind]
def UnaryOp.kind : UnaryOp → TokenKind
  | .negate => .minus
  | .not => .bang

@[inherit_doc BinaryOp.kind]
def AssignOp.kind : AssignOp → TokenKind
  | .set => .equal
  | .add => .plusEqual
  | .sub => .minusEqual

namespace Grammar

/-! ## Phrases -/

/-- One token of the given kind. -/
inductive Terminal (kind : TokenKind) : List Token → List Token → Prop where
  | intro {t : Token} {rest : List Token} (h : t.kind = kind) : Terminal kind (t :: rest) rest

/-- One token that is a name. -/
inductive Named : String → List Token → List Token → Prop where
  | intro {t : Token} {rest : List Token} (h : t.kind = .identifier) :
      Named t.lexeme (t :: rest) rest

mutual

/-- `Phrase p ts e rest`: the tokens of `ts` in front of `rest` are a phrase of the stratum `p` that
stands for `e`. -/
inductive Phrase : Stratum → List Token → Expr → List Token → Prop where
  /-- A phrase of the next stratum is a phrase of this one. -/
  | tighter {p ts e rest} : Phrase (Stratum.tighter p) ts e rest → Phrase p ts e rest
  /-- Assignments group to the right. The target is a phrase whose tree is a name or a member. -/
  | assign {pos op target value ts a b rest} : Phrase .logicOr ts target a →
      target.isTarget → Terminal (AssignOp.kind op) a b → Phrase .assignment b value rest →
      Phrase .assignment ts (.assign pos op target value) rest
  /-- Operations group to the left. -/
  | operation {pos p op left right ts a b rest} : BinaryOp.stratum op = p → Phrase p ts left a →
      Terminal (BinaryOp.kind op) a b → Phrase p.tighter b right rest →
      Phrase p ts (.binary pos op left right) rest
  | unary {pos op e ts a rest} : Terminal (UnaryOp.kind op) ts a → Phrase .unary a e rest →
      Phrase .unary ts (.unary pos op e) rest
  | emptyCall {pos e ts a b rest} : Phrase .call ts e a → Terminal .leftParen a b →
      Terminal .rightParen b rest → Phrase .call ts (.call pos e []) rest
  | call {pos e args ts a b c rest} : Phrase .call ts e a → Terminal .leftParen a b →
      Arguments b args c → Terminal .rightParen c rest → Phrase .call ts (.call pos e args) rest
  | member {pos e name ts a b rest} : Phrase .call ts e a → Terminal .dot a b →
      Named name b rest → Phrase .call ts (.member pos e name) rest
  | number {pos value} {t : Token} {rest} : t.kind = .number →
      Number.ofDecimal? t.lexeme = some value →
      Phrase .primary (t :: rest) (.number pos value) rest
  | string {pos} {t : Token} {rest} : t.kind = .string →
      Phrase .primary (t :: rest)
        (.string pos (String.ofList (Parse.unquote t.lexeme.toList))) rest
  | yes {pos ts rest} : Terminal .kwTrue ts rest → Phrase .primary ts (.bool pos true) rest
  | no {pos ts rest} : Terminal .kwFalse ts rest → Phrase .primary ts (.bool pos false) rest
  | null {pos ts rest} : Terminal .kwNull ts rest → Phrase .primary ts (.null pos) rest
  | new {pos name ts a rest} : Terminal .kwNew ts a → Named name a rest →
      Phrase .primary ts (.identifier pos name) rest
  | this {pos ts rest} : Terminal .kwThis ts rest →
      Phrase .primary ts (.identifier pos "this") rest
  | name {pos name ts rest} : Named name ts rest → Phrase .primary ts (.identifier pos name) rest
  /-- Parentheses leave no node. -/
  | group {e ts a b rest} : Terminal .leftParen ts a → Phrase .assignment a e b →
      Terminal .rightParen b rest → Phrase .primary ts e rest

inductive Arguments : List Token → List Expr → List Token → Prop where
  | one {e ts rest} : Phrase .assignment ts e rest → Arguments ts [e] rest
  | more {e es ts a b rest} : Phrase .assignment ts e a → Terminal .comma a b →
      Arguments b es rest → Arguments ts (e :: es) rest

end

abbrev Expression : List Token → Expr → List Token → Prop := Phrase .assignment

end Grammar

end Scriptlet
