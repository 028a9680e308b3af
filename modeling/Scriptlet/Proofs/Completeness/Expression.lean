import Scriptlet.Proofs.Completeness.Strata
import Scriptlet.Proofs.Syntax.Erasure

/-! # Completeness of the expression rules

Every phrase of the grammar is read, up to places, where what follows cannot go on with it. The
grammar groups operations and calls to the left while the rules read them in loops, so the loop of a
stratum is resumed after each of its phrases. -/

namespace Scriptlet

namespace Parse

open Grammar

variable {n : Nat} {p : Stratum} {t : Token} {ts rest : List Token} {e : Expr}

/-! ## Phrases are read -/

/-- In front of these tokens the rule of the stratum comes to its loop, or to its end if it has
none. -/
def Pauses (p : Stratum) (rest : List Token) : Prop :=
  Stops (if p.loops then p.tighter else p) rest

theorem pauses_of_stops (stop : Stops p rest) : Pauses p rest := by
  unfold Pauses
  split
  · exact stop.tighter
  · exact stop

theorem pauses_binary {op : BinaryOp} (stratum : op.stratum = p) :
    Pauses p rest ↔ Stops p.tighter rest := by
  subst stratum
  cases op <;> rfl

theorem pauses_call {kind : TokenKind} (h : Terminal kind ts rest)
    (goes : kind.continues? = some .call) : Pauses .call ts := by
  obtain ⟨rfl⟩ := h
  show Stops .primary _
  rw [stops_cons, goes]
  simp [Stratum.rank]

/-- The rule of the stratum reads a tree that is `e` up to places. -/
def Reads (p : Stratum) (ts : List Token) (e : Expr) (rest : List Token) : Prop :=
  ∃ e', e'.erase = e.erase ∧ ∀ n (h : ts.length ≤ n), (ruleOf p ts h).read? = some (e', rest)

/-- The rule of the stratum comes to read a tree that is `e` up to places, and goes on from
there. -/
def Resumes (p : Stratum) (ts : List Token) (e : Expr) (rest : List Token) : Prop :=
  ∃ e', e'.erase = e.erase ∧ ∀ n (h : ts.length ≤ n) r,
    (∀ h' : rest.length ≤ n, (resume p e' rest h').read? = some r) →
      (ruleOf p ts h).read? = some r

theorem Resumes.reads (resumes : Resumes p ts e rest) (stop : Stops p rest) :
    Reads p ts e rest := by
  obtain ⟨e', same, go⟩ := resumes
  exact ⟨e', same, fun n h => go n h _ fun h' => resume_of_stops stop h'⟩

theorem Reads.resumes_tighter (loops : p.loops) (reads : Reads p.tighter ts e rest) :
    Resumes p ts e rest := by
  obtain ⟨e', same, read⟩ := reads
  refine ⟨e', same, fun n h r go => ?_⟩
  rw [ruleOf_of_loops loops, Parsed.read?_andThen]
  have shorter := Parsed.length_lt_of_read? (read n h)
  exact ⟨e', rest, shorter, read n h, go _⟩

theorem Reads.resumes (loops : p.loops = false) (reads : Reads p ts e rest) :
    Resumes p ts e rest := by
  obtain ⟨e', same, read⟩ := reads
  refine ⟨e', same, fun n h r go => ?_⟩
  have shorter := Parsed.length_lt_of_read? (read n h)
  rw [read n h, ← go (le_of_lt_of_le shorter h)]
  cases p <;> first | rfl | cases loops

theorem expression_eq_ruleOf (ts : List Token) :
    expression ts = ruleOf .assignment ts (length_le ts) := by
  rw [expression]
  rfl

theorem Reads.expression (reads : Reads .assignment ts e rest) :
    ∃ e', e'.erase = e.erase ∧ (expression ts).read? = some (e', rest) := by
  obtain ⟨e', same, read⟩ := reads
  exact ⟨e', same, by rw [expression_eq_ruleOf]; exact read _ _⟩

theorem Reads.assignment_of_logicOr (reads : Reads .logicOr ts e rest)
    (stop : Stops .assignment rest) : Reads .assignment ts e rest := by
  obtain ⟨e', same, read⟩ := reads
  refine ⟨e', same, fun n h => ?_⟩
  refine (Parsed.read?_andThen _ _).mpr
    ⟨e', rest, Parsed.length_lt_of_read? (read n h), read n h, ?_⟩
  cases rest with
  | nil => rfl
  | cons t rest =>
      dsimp only
      split
      · rename_i op hop
        have hk := assignOp?_eq_some.mp hop
        have lt := stops_cons.mp stop .assignment (by rw [← hk]; cases op <;> rfl)
        exact absurd lt (Nat.lt_irrefl _)
      · rfl

theorem Reads.unary_of_call (reads : Reads .call ts e rest)
    (starts : ∃ t ∈ ts.head?, Stratum.call.starts t.kind) : Reads .unary ts e rest := by
  obtain ⟨e', same, read⟩ := reads
  obtain ⟨t, ht, hs⟩ := starts
  refine ⟨e', same, fun n h => ?_⟩
  cases ts with
  | nil => cases ht
  | cons first ts =>
      obtain rfl : first = t := by simpa using ht
      have sign : unaryOp? first.kind = none := by
        cases hop : unaryOp? first.kind with
        | none => rfl
        | some op =>
            rw [← unaryOp?_eq_some.mp hop] at hs
            cases op <;> cases hs
      have same_rule : ruleOf .unary (first :: ts) h = unary inner (first :: ts) h := rfl
      rw [same_rule, unary, sign]
      exact read n h

theorem Resumes.tighter (resumes : Pauses p.tighter rest → Resumes p.tighter ts e rest)
    (starts : ∃ t ∈ ts.head?, p.tighter.starts t.kind) (pause : Pauses p rest) :
    Resumes p ts e rest := by
  have reads (stop : Stops p.tighter rest) : Reads p.tighter ts e rest :=
    (resumes (pauses_of_stops stop)).reads stop
  cases p with
  | assignment => exact ((reads pause.tighter).assignment_of_logicOr pause).resumes rfl
  | unary => exact ((reads pause.tighter).unary_of_call starts).resumes rfl
  | primary => exact resumes pause
  | logicOr | logicAnd | equality | comparison | term | factor | call =>
      exact (reads pause).resumes_tighter rfl

theorem Reads.assign {op : AssignOp} {target value : Expr} {a b : List Token} {pos : Position}
    (readsTarget : Reads .logicOr ts target a) (valid : target.isTarget)
    (sign : Terminal op.kind a b) (readsValue : Reads .assignment b value rest) :
    Reads .assignment ts (.assign pos op target value) rest := by
  obtain ⟨target', sameTarget, readTarget⟩ := readsTarget
  obtain ⟨value', sameValue, readValue⟩ := readsValue.expression
  obtain @⟨t, b, hk⟩ := sign
  refine ⟨.assign t.pos op target' value', by simp [Expr.erase, sameTarget, sameValue], ?_⟩
  intro n h
  refine (Parsed.read?_andThen _ _).mpr
    ⟨target', t :: b, Parsed.length_lt_of_read? (readTarget n h), readTarget n h, ?_⟩
  have hop : assignOp? t.kind = some op := assignOp?_eq_some.mpr hk.symm
  have valid' : target'.isTarget := by
    rw [← Expr.isTarget_erase, sameTarget, Expr.isTarget_erase]
    exact valid
  dsimp only
  rw [hop]
  simp only [Parsed.read?_succ, Parsed.read?_andThen, inner, valid', if_true]
  exact ⟨value', rest, Parsed.length_lt_of_read? readValue, readValue, rfl⟩

theorem resume_binary {op : BinaryOp} (stratum : op.stratum = p) (h : ts.length ≤ n) :
    resume p e ts h = operations (levels.getD (p.rank - 1) []) (ruleOf p.tighter) e ts h := by
  subst stratum
  cases op <;> rfl

theorem Resumes.operation {op : BinaryOp} {left right : Expr} {a b : List Token} {pos : Position}
    (stratum : op.stratum = p) (resumes : Resumes p ts left a) (sign : Terminal op.kind a b)
    (reads : Reads p.tighter b right rest) : Resumes p ts (.binary pos op left right) rest := by
  obtain ⟨left', sameLeft, go⟩ := resumes
  obtain ⟨right', sameRight, read⟩ := reads
  obtain @⟨t, b, hk⟩ := sign
  refine ⟨.binary t.pos op left' right', by simp [Expr.erase, sameLeft, sameRight], ?_⟩
  rintro n h ⟨v, after⟩ goOn
  refine go n h _ fun h' => ?_
  have loose : p ≠ .assignment := by
    rintro rfl
    cases op <;> cases stratum
  have hop := (lookup_level loose t.kind op).mpr ⟨stratum, hk.symm⟩
  have readRight := read n (tail_le_of_le h')
  rw [resume_binary stratum, operations]
  split
  · rename_i op' hop'
    obtain rfl : op = op' := Option.some.inj (hop.symm.trans hop')
    simp only [Parsed.read?_succ, Parsed.read?_andThen]
    refine ⟨right', rest, Parsed.length_lt_of_read? readRight, readRight, ?_⟩
    rw [← resume_binary stratum]
    exact goOn _
  · rename_i hop'
    cases hop.symm.trans hop'

theorem Reads.unary {op : UnaryOp} {a : List Token} {pos : Position}
    (sign : Terminal op.kind ts a) (reads : Reads .unary a e rest) :
    Reads .unary ts (.unary pos op e) rest := by
  obtain ⟨e', same, read⟩ := reads
  obtain @⟨t, a, hk⟩ := sign
  refine ⟨.unary t.pos op e', by simp [Expr.erase, same], fun n h => ?_⟩
  have same_rule : ruleOf .unary (t :: a) h = Parse.unary inner (t :: a) h := rfl
  have hop : unaryOp? t.kind = some op := unaryOp?_eq_some.mpr hk.symm
  rw [same_rule, Parse.unary, hop]
  simp only [Parsed.read?_succ, Parsed.read?_map]
  exact ⟨e', read n _, rfl⟩

/-- The rule for arguments reads them, up to places. -/
def ReadsArguments (ts : List Token) (args : List Expr) (rest : List Token) : Prop :=
  ∃ args', args'.map Expr.erase = args.map Expr.erase ∧
    ∀ n (h : ts.length < n), (arguments inner ts h).read? = some (args', rest)

theorem ReadsArguments.one (reads : Reads .assignment ts e rest)
    (last : ∀ after, ¬ Terminal .comma rest after) : ReadsArguments ts [e] rest := by
  obtain ⟨e', same, read⟩ := reads.expression
  refine ⟨[e'], by simp [same], fun n h => ?_⟩
  rw [arguments, Parsed.read?_andThen]
  refine ⟨e', rest, Parsed.length_lt_of_read? read, read, ?_⟩
  cases rest with
  | nil => rfl
  | cons t rest =>
      have comma : t.kind ≠ .comma := fun hk => last rest ⟨hk⟩
      dsimp only
      rw [if_neg comma]
      rfl

theorem ReadsArguments.more {args : List Expr} {a b : List Token}
    (reads : Reads .assignment ts e a) (comma : Terminal .comma a b)
    (readsArgs : ReadsArguments b args rest) : ReadsArguments ts (e :: args) rest := by
  obtain ⟨e', same, read⟩ := reads.expression
  obtain ⟨args', sameArgs, readArgs⟩ := readsArgs
  obtain @⟨t, b, hk⟩ := comma
  refine ⟨e' :: args', by simp [same, sameArgs], fun n h => ?_⟩
  rw [arguments, Parsed.read?_andThen]
  refine ⟨e', t :: b, Parsed.length_lt_of_read? read, read, ?_⟩
  dsimp only
  rw [if_pos hk]
  simp only [Parsed.read?_succ, Parsed.read?_map]
  exact ⟨args', readArgs n _, rfl⟩

theorem Resumes.emptyCall {a b : List Token} {pos : Position} (resumes : Resumes .call ts e a)
    (opening : Terminal .leftParen a b) (closing : Terminal .rightParen b rest) :
    Resumes .call ts (.call pos e []) rest := by
  obtain ⟨e', same, go⟩ := resumes
  obtain @⟨t, b, hk⟩ := opening
  obtain @⟨paren, rest, hp⟩ := closing
  refine ⟨.call paren.pos e' [], by simp [Expr.erase, same], ?_⟩
  rintro n h ⟨v, after⟩ goOn
  refine go n h _ fun h' => ?_
  have arguments : (callArguments inner (paren :: rest) (tail_lt_of_le h')).read? =
      some (([], paren), rest) := by
    simp [callArguments, startsWith, hp, Expectation.kind]
  show (postfixes inner e' (t :: paren :: rest) h').read? = some (v, after)
  rw [postfixes, if_pos hk]
  simp only [Parsed.read?_succ, Parsed.read?_andThen]
  exact ⟨([], paren), rest, Parsed.length_lt_of_read? arguments, arguments, goOn _⟩

theorem Resumes.call {args : List Expr} {a b c : List Token} {pos : Position}
    (resumes : Resumes .call ts e a) (opening : Terminal .leftParen a b)
    (reads : ReadsArguments b args c) (starts : ∃ t ∈ b.head?, Stratum.assignment.starts t.kind)
    (closing : Terminal .rightParen c rest) : Resumes .call ts (.call pos e args) rest := by
  obtain ⟨e', same, go⟩ := resumes
  obtain ⟨args', sameArgs, readArgs⟩ := reads
  obtain @⟨t, b, hk⟩ := opening
  obtain @⟨paren, rest, hp⟩ := closing
  refine ⟨.call paren.pos e' args', by simp [Expr.erase, same, sameArgs], ?_⟩
  rintro n h ⟨v, after⟩ goOn
  refine go n h _ fun h' => ?_
  have first : startsWith .rightParen b = false := startsWith_of_starts starts rfl
  have arguments : (callArguments inner b (tail_lt_of_le h')).read? =
      some ((args', paren), rest) := by
    rw [callArguments, first]
    simp only [Bool.false_eq_true, if_false, Parsed.read?_andThen, Parsed.read?_succ,
      Parsed.read?_map, read?_expect]
    have read := readArgs n (tail_lt_of_le h')
    exact ⟨args', paren :: rest, Parsed.length_lt_of_read? read, read, paren, ⟨rfl, hp⟩, rfl⟩
  show (postfixes inner e' (t :: b) h').read? = some (v, after)
  rw [postfixes, if_pos hk]
  simp only [Parsed.read?_succ, Parsed.read?_andThen]
  exact ⟨(args', paren), rest, Parsed.length_lt_of_read? arguments, arguments, goOn _⟩

theorem Resumes.member {name : String} {a b : List Token} {pos : Position}
    (resumes : Resumes .call ts e a) (dot : Terminal .dot a b) (named : Named name b rest) :
    Resumes .call ts (.member pos e name) rest := by
  obtain ⟨e', same, go⟩ := resumes
  obtain @⟨t, b, hk⟩ := dot
  obtain @⟨word, rest, hw⟩ := named
  refine ⟨.member word.pos e' word.lexeme, by simp [Expr.erase, same], ?_⟩
  rintro n h ⟨v, after⟩ goOn
  refine go n h _ fun h' => ?_
  have paren : t.kind ≠ .leftParen := by
    rw [hk]
    decide
  show (postfixes inner e' (t :: word :: rest) h').read? = some (v, after)
  rw [postfixes, if_neg paren, if_pos hk]
  simp only [Parsed.read?_succ, Parsed.read?_andThen, read?_expect]
  exact ⟨word, rest, Nat.lt_succ_self _, ⟨rfl, hw⟩, goOn _⟩

/-- A phrase of one token, by which the rule for primary phrases tells it. -/
theorem Reads.of_take (tree : Position → Expr) (same : ∀ pos, (tree pos).erase = e.erase)
    (takes : ∀ n (h : (t :: rest).length ≤ n),
      primary inner (t :: rest) h = .take (tree t.pos) t rest) :
    Reads .primary (t :: rest) e rest := by
  refine ⟨tree t.pos, same _, fun n h => ?_⟩
  show (primary inner (t :: rest) h).read? = some (tree t.pos, rest)
  rw [takes, Parsed.read?_take]

theorem Reads.new {name : String} {a : List Token} {pos : Position}
    (keyword : Terminal .kwNew ts a) (named : Named name a rest) :
    Reads .primary ts (.identifier pos name) rest := by
  obtain @⟨t, a, hk⟩ := keyword
  obtain @⟨word, rest, hw⟩ := named
  refine ⟨.identifier t.pos word.lexeme, rfl, fun n h => ?_⟩
  simp only [ruleOf, primary, hk, Parsed.read?_succ, Parsed.read?_map, read?_expect]
  exact ⟨word, ⟨rfl, hw⟩, rfl⟩

theorem Reads.group {a b : List Token} (opening : Terminal .leftParen ts a)
    (reads : Reads .assignment a e b) (closing : Terminal .rightParen b rest) :
    Reads .primary ts e rest := by
  obtain ⟨e', same, read⟩ := reads.expression
  obtain @⟨t, a, hk⟩ := opening
  obtain @⟨paren, rest, hp⟩ := closing
  refine ⟨e', same, fun n h => ?_⟩
  simp only [ruleOf, primary, hk, Parsed.read?_succ, Parsed.read?_andThen, Parsed.read?_map,
    read?_expect]
  exact ⟨e', paren :: rest, Parsed.length_lt_of_read? read, read, paren, ⟨rfl, hp⟩, rfl⟩

end Parse

/-! ## Derivations are read -/

namespace Grammar

open Parse

theorem Arguments.starts {ts rest : List Token} {args : List Expr} :
    Arguments ts args rest → ∃ t ∈ ts.head?, Stratum.assignment.starts t.kind
  | .one d => d.starts
  | .more d _ _ => d.starts

mutual

/-- A left operand stands in front of the operator on which the loop of its stratum goes on, so it
is only resumed there. It is read where nothing goes on with it. -/
theorem Phrase.resumes {p : Stratum} {ts rest : List Token} {e : Expr} :
    Phrase p ts e rest → Pauses p rest → Resumes p ts e rest
  | .tighter d, pause => .tighter d.resumes d.starts pause
  | .assign target valid sign value, pause => by
      have stop := Stops.of_assign sign
      have reads := (target.resumes (pauses_of_stops stop)).reads stop
      exact (reads.assign valid sign ((value.resumes pause).reads pause)).resumes rfl
  | .operation stratum left sign right, pause => by
      have stop := (pauses_binary stratum).mp pause
      have stopLeft := (pauses_binary stratum).mpr (stratum ▸ Stops.of_binary sign)
      exact .operation stratum (left.resumes stopLeft) sign
        ((right.resumes (pauses_of_stops stop)).reads stop)
  | .unary sign d, pause => (Reads.unary sign ((d.resumes pause).reads pause)).resumes rfl
  | .emptyCall d opening closing, _ =>
      .emptyCall (d.resumes (pauses_call opening rfl)) opening closing
  | .call d opening args closing, _ => by
      have reads := args.reads (.of_terminal _ closing rfl) (fun _ comma => by
        obtain ⟨hc⟩ := closing
        obtain ⟨hk⟩ := comma
        cases hc.symm.trans hk)
      exact .call (d.resumes (pauses_call opening rfl)) opening reads args.starts closing
  | .member d dot named, _ => .member (d.resumes (pauses_call dot rfl)) dot named
  | .number kind decimal, _ => by
      refine (Reads.of_take (.number · _) (fun _ => rfl) fun n h => ?_).resumes rfl
      simp only [primary, kind, decimal]
  | .string kind, _ => by
      refine (Reads.of_take (.string · _) (fun _ => rfl) fun n h => ?_).resumes rfl
      simp only [primary, kind]
  | .yes ⟨kind⟩, _ => by
      refine (Reads.of_take (.bool · true) (fun _ => rfl) fun n h => ?_).resumes rfl
      simp only [primary, kind]
  | .no ⟨kind⟩, _ => by
      refine (Reads.of_take (.bool · false) (fun _ => rfl) fun n h => ?_).resumes rfl
      simp only [primary, kind]
  | .null ⟨kind⟩, _ => by
      refine (Reads.of_take .null (fun _ => rfl) fun n h => ?_).resumes rfl
      simp only [primary, kind]
  | .this ⟨kind⟩, _ => by
      refine (Reads.of_take (.identifier · "this") (fun _ => rfl) fun n h => ?_).resumes rfl
      simp only [primary, kind]
  | .name ⟨kind⟩, _ => by
      refine (Reads.of_take (.identifier · _) (fun _ => rfl) fun n h => ?_).resumes rfl
      simp only [primary, kind]
  | .new keyword named, _ => (Reads.new keyword named).resumes rfl
  | .group opening d closing, _ => by
      have stop := Stops.of_terminal .assignment closing rfl
      exact (Reads.group opening ((d.resumes stop).reads stop) closing).resumes rfl

theorem Arguments.reads {ts rest : List Token} {args : List Expr} :
    Arguments ts args rest → Stops .assignment rest → (∀ after, ¬ Terminal .comma rest after) →
      ReadsArguments ts args rest
  | .one d, stop, last => .one ((d.resumes stop).reads stop) last
  | .more d comma args, stop, last => by
      have pause := Stops.of_terminal .assignment comma rfl
      exact .more ((d.resumes pause).reads pause) comma (args.reads stop last)

end

/-- An expression is read, up to places, in front of tokens that do not go on with it. -/
theorem Expression.read {ts rest : List Token} {e : Expr} (d : Expression ts e rest)
    (stop : Stops .assignment rest) :
    ∃ e', e'.erase = e.erase ∧ (expression ts).read? = some (e', rest) :=
  ((d.resumes stop).reads stop).expression

end Grammar

end Scriptlet
