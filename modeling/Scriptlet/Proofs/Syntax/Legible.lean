import Scriptlet.Proofs.Syntax.Shown

/-! # Legible trees

A tree is legible if its names are not taken for anything else, its numbers have no minus, and its
strings end where they are closed. It is shown as a legible form, and leaving out what is not shown
does not change that form. -/

namespace Scriptlet

open Form Number

/-- The words that are shown for something that is not a name. -/
def reserved : List String := ["true", "false", "null", "static"]

/-- A word that is shown for names only. -/
structure IsName (s : String) : Prop where
  word : IsWord s
  free : s ∉ reserved
  noDigit : ∀ c ∈ s.toList.head?, c.isDigit = false

instance (s : String) : Decidable (IsName s) :=
  decidable_of_iff (IsWord s ∧ s ∉ reserved ∧ s.toList.head?.all fun c => !c.isDigit)
    ⟨fun ⟨isWord, free, noDigit⟩ => ⟨isWord, free, by simpa [Option.all_eq_true] using noDigit⟩,
      fun ⟨isWord, free, noDigit⟩ => ⟨isWord, free, by simpa [Option.all_eq_true] using noDigit⟩⟩

namespace Expr

mutual

/-- What is legible of an expression; `last` tells whether nothing is read behind it, so that a
string at its end may be open. -/
def Legible : Expr → Bool → Prop
  | .number _ value, _ => Unsigned value.toModel.unpack
  | .string _ value, last => (Form.quoted value).Legible last
  | .bool .., _ | .null _, _ => True
  | .identifier _ name, _ => IsName name
  | .binary _ _ left right, last => left.Legible false ∧ right.Legible last
  | .unary _ _ operand, last => operand.Legible last
  | .call _ callee args, _ => callee.Legible false ∧ LegibleEach args
  | .member _ object name, _ => object.Legible false ∧ IsName name
  | .assign _ _ target value, last => target.Legible false ∧ value.Legible last

@[inherit_doc Legible]
def LegibleEach : List Expr → Prop
  | [] => True
  | e :: es => e.Legible false ∧ LegibleEach es

end

def LegibleOption (e : Option Expr) (last : Bool) : Prop :=
  ∀ a ∈ e, a.Legible last

/-- What is legible in front of something is legible anywhere. -/
theorem Legible.mono : ∀ {e : Expr}, e.Legible false → ∀ last, e.Legible last
  | .number .., h, _ | .bool .., h, _ | .null _, h, _ | .identifier .., h, _ | .call .., h, _
  | .member .., h, _ => h
  | .string .., h, _ => .inl (h.resolve_right fun ⟨other, _⟩ => Bool.false_ne_true other)
  | .binary _ _ _ right, h, last => ⟨h.1, mono (e := right) h.2 last⟩
  | .unary _ _ operand, h, last => mono (e := operand) h last
  | .assign _ _ _ value, h, last => ⟨h.1, mono (e := value) h.2 last⟩

theorem LegibleOption.mono {e : Option Expr} (h : LegibleOption e false) (last : Bool) :
    LegibleOption e last :=
  fun a mem => (h a mem).mono last

end Expr

namespace Stmt

mutual

@[inherit_doc Expr.Legible]
def Legible : Stmt → Bool → Prop
  | .expression _ expr, _ => expr.Legible false
  | .varDecl _ name initializer, _ => IsName name ∧ Expr.LegibleOption initializer false
  | .returning _ value, last => Expr.LegibleOption value last
  | .branch _ condition consequent alternative, last =>
      condition.Legible false ∧ consequent.Legible (last && alternative.isNone) ∧
        LegibleOption alternative last
  | .whileLoop _ condition body, last => condition.Legible false ∧ body.Legible last
  | .forLoop _ initializer condition step body, last =>
      LegibleOption initializer false ∧ Expr.LegibleOption condition false ∧
        Expr.LegibleOption step false ∧ body.Legible last
  | .block _ body, last => LegibleEach body last
  | .function _ name params body _, last =>
      IsName name ∧ (∀ p ∈ params, IsName p) ∧ LegibleEach body last
  | .classDecl _ name members _, _ => IsName name ∧ LegibleEach members false
  | .property _ name initializer _, _ => IsName name ∧ Expr.LegibleOption initializer false

/-- Only the last of the statements may be open at its end. -/
def LegibleEach : List Stmt → Bool → Prop
  | [], _ => True
  | s :: ss, last => s.Legible (last && ss.isEmpty) ∧ LegibleEach ss last

def LegibleOption : Option Stmt → Bool → Prop
  | none, _ => True
  | some s, last => s.Legible last

end

mutual

@[inherit_doc Expr.Legible.mono]
theorem Legible.mono : ∀ {s : Stmt}, s.Legible false → ∀ last, s.Legible last
  | .expression .., h, _ | .varDecl .., h, _ | .classDecl .., h, _ | .property .., h, _ => h
  | .returning .., h, last => Expr.LegibleOption.mono h last
  | .branch _ _ consequent _, h, last =>
      ⟨h.1, mono (s := consequent) h.2.1 _, monoOption h.2.2 last⟩
  | .whileLoop _ _ body, h, last => ⟨h.1, mono (s := body) h.2 last⟩
  | .forLoop _ _ _ _ body, h, last => ⟨h.1, h.2.1, h.2.2.1, mono (s := body) h.2.2.2 last⟩
  | .block .., h, last => monoEach h last
  | .function .., h, last => ⟨h.1, h.2.1, monoEach h.2.2 last⟩

theorem Legible.monoEach : ∀ {ss : List Stmt}, LegibleEach ss false → ∀ last, LegibleEach ss last
  | [], _, _ => trivial
  | s :: _, h, last => ⟨mono (s := s) h.1 _, monoEach h.2 last⟩

theorem Legible.monoOption : ∀ {s : Option Stmt}, LegibleOption s false → ∀ last,
    LegibleOption s last
  | none, _, _ => trivial
  | some s, h, last => mono (s := s) h last

end

end Stmt

/-! ## Words -/

theorem isWord_binary (op : BinaryOp) : IsWord op.symbol := by
  cases op <;> decide

theorem isWord_unary (op : UnaryOp) : IsWord op.symbol := by
  cases op <;> decide

theorem isWord_assign (op : AssignOp) : IsWord op.symbol := by
  cases op <;> decide

/-- The text of a number. -/
structure IsNumeral (s : String) : Prop where
  digit : ∃ c ∈ s.toList.head?, c.isDigit
  parts : ∀ c ∈ s.toList, Token.isNumberPart c

theorem IsNumeral.word {s : String} (h : IsNumeral s) : IsWord s := by
  obtain ⟨c, first, -⟩ := h.digit
  refine ⟨?_, fun c mem => not_mem_breaks (by decide) (h.parts c mem)⟩
  rintro rfl
  cases first

/-- The words that tell kinds of trees. -/
def labels : List String :=
  ["call", ".", ";", "var", "return", "if", "while", "for", "block", "function", "class", "static",
   "property", "public", "private"]

theorem legible_label {s : String} {last : Bool} (h : s ∈ labels) : (word s).Legible last := by
  have table : ∀ s ∈ labels, IsWord s := by decide
  exact table s h

theorem isWord_bool (b : Bool) : IsWord (toString b) := by
  cases b <;> decide

/-- A number is shown as a numeral or as the name `inf`. -/
theorem treeText_cases {x : Float} (h : Unsigned x.toModel.unpack) :
    x.isInf = false ∧ IsNumeral (treeText x) ∨ x.isInf = true ∧ treeText x = "inf" := by
  cases infinite : x.isInf with
  | false =>
      obtain ⟨digit, parts⟩ := treeText_numeral h infinite
      exact .inl ⟨rfl, digit, parts⟩
  | true =>
      refine .inr ⟨rfl, ?_⟩
      change x.toModel.unpack.isInf = true at infinite
      cases unpacked : x.toModel.unpack with
      | infinity sign =>
          rw [unpacked] at h
          cases h
          exact treeText_infinity unpacked
      | _ =>
          rw [unpacked] at infinite
          cases infinite

theorem isWord_treeText {x : Float} (h : Unsigned x.toModel.unpack) : IsWord (treeText x) := by
  rcases treeText_cases h with ⟨-, numeral⟩ | ⟨-, text⟩
  · exact numeral.word
  · rw [text]
    decide

/-! ## Forms of legible trees -/

namespace Expr

mutual

theorem Legible.form : ∀ {e : Expr} {last : Bool}, e.Legible last → e.form.Legible last
  | .number .., _, h => isWord_treeText h
  | .string .., _, h => h
  | .bool _ value, _, _ => isWord_bool value
  | .null _, _, _ => (by decide : IsWord "null")
  | .identifier .., _, h => IsName.word h
  | .binary _ op left right, _, h =>
      ⟨isWord_binary op, Legible.form (e := left) (Legible.mono h.1 _),
        legibleEach_singleton (Legible.form (e := right) h.2)⟩
  | .unary _ op operand, _, h =>
      ⟨isWord_unary op, legibleEach_singleton (Legible.form (e := operand) h)⟩
  | .call _ callee _, _, h =>
      ⟨legible_label (by decide), Legible.form (e := callee) (Legible.mono h.1 _),
        Legible.formEach h.2 _⟩
  | .member _ object _, _, h =>
      ⟨legible_label (by decide), Legible.form (e := object) (Legible.mono h.1 _), h.2.word,
        trivial⟩
  | .assign _ op target value, _, h =>
      ⟨isWord_assign op, Legible.form (e := target) (Legible.mono h.1 _),
        legibleEach_singleton (Legible.form (e := value) h.2)⟩

theorem Legible.formEach : ∀ {es : List Expr}, LegibleEach es → ∀ last,
    Form.LegibleEach (formEach es) last
  | [], _, _ => trivial
  | e :: _, h, last => ⟨Legible.form (e := e) (Legible.mono h.1 _), Legible.formEach h.2 last⟩

end

theorem LegibleOption.form {e : Option Expr} {last : Bool} (h : LegibleOption e last) :
    Form.LegibleEach (e.map Expr.form).toList last := by
  cases e with
  | none => trivial
  | some e => simp [Legible.form (h e rfl)]

theorem LegibleOption.formClause {e : Option Expr} {last : Bool} (h : LegibleOption e last) :
    (formClause e).Legible last := by
  cases e with
  | none => exact (by decide : IsWord "_")
  | some e => exact Legible.form (h e rfl)

end Expr

namespace Stmt

theorem legible_params {params : List String} (h : ∀ p ∈ params, IsName p) (last : Bool) :
    (Form.group (params.map .word)).Legible last := by
  induction params with
  | nil => trivial
  | cons p params ih =>
      exact ⟨(h p List.mem_cons_self).word, ih fun q mem => h q (List.mem_cons_of_mem p mem)⟩

mutual

theorem Legible.form : ∀ {s : Stmt} {last : Bool}, s.Legible last → s.form.Legible last
  | .expression .., _, h =>
      ⟨legible_label (by decide), legibleEach_singleton (Expr.Legible.form (Expr.Legible.mono h _))⟩
  | .varDecl .., _, h => ⟨legible_label (by decide), h.1.word, (h.2.mono _).form⟩
  | .returning .., _, h => ⟨legible_label (by decide), Expr.LegibleOption.form h⟩
  | .branch _ _ consequent alternative, last, h => by
      have empty : alternative.isNone = (Stmt.formElse alternative).isEmpty := by
        cases alternative <;> rfl
      refine ⟨legible_label (by decide), (h.1.mono _).form, ?_, Legible.formElse h.2.2⟩
      rw [← empty]
      exact Legible.form (s := consequent) h.2.1
  | .whileLoop _ _ body, _, h =>
      ⟨legible_label (by decide), (h.1.mono _).form,
        legibleEach_singleton (Legible.form (s := body) h.2)⟩
  | .forLoop _ _ _ _ body, _, h =>
      ⟨legible_label (by decide), Legible.formClause (Legible.monoOption h.1 _),
        (h.2.1.mono _).formClause, (h.2.2.1.mono _).formClause,
        legibleEach_singleton (Legible.form (s := body) h.2.2.2)⟩
  | .block .., _, h => ⟨legible_label (by decide), Legible.formEach h⟩
  | .function .., _, h =>
      ⟨legible_label (by decide), h.1.word, legible_params h.2.1 _, Legible.formEach h.2.2⟩
  | .classDecl _ _ _ isStatic, last, h => by
      have rest := Legible.formEach (Legible.monoEach h.2 last)
      cases isStatic with
      | false => exact ⟨legible_label (by decide), h.1.word, rest⟩
      | true => exact ⟨legible_label (by decide), legible_label (by decide), h.1.word, rest⟩
  | .property _ _ _ ⟨isStatic, isPublic⟩, last, h => by
      have access : (if isPublic then "public" else "private") ∈ labels := by
        cases isPublic <;> decide
      have rest := (h.2.mono last).form
      cases isStatic with
      | false => exact ⟨legible_label (by decide), legible_label access, h.1.word, rest⟩
      | true =>
          exact ⟨legible_label (by decide), legible_label access, legible_label (by decide),
            h.1.word, rest⟩

theorem Legible.formEach : ∀ {ss : List Stmt} {last : Bool}, LegibleEach ss last →
    Form.LegibleEach (formEach ss) last
  | [], _, _ => trivial
  | [s], _, h => ⟨Legible.form (s := s) h.1, trivial⟩
  | s :: _ :: _, _, h => ⟨Legible.form (s := s) h.1, Legible.formEach h.2⟩

theorem Legible.formElse : ∀ {s : Option Stmt} {last : Bool}, LegibleOption s last →
    Form.LegibleEach (formElse s) last
  | none, _, _ => trivial
  | some s, _, h => by simp [Stmt.formElse, Legible.form (s := s) h]

theorem Legible.formClause : ∀ {s : Option Stmt} {last : Bool}, LegibleOption s last →
    (formClause s).Legible last
  | none, _, _ => (by decide : IsWord "_")
  | some s, _, h => Legible.form (s := s) h

end

end Stmt

/-! ## What is shown keeps the form -/

namespace Expr

mutual

theorem Legible.form_shown : ∀ {e : Expr} {last : Bool}, e.Legible last → e.shown.form = e.form
  | .number _ value, _, h => by
      rcases treeText_cases h with ⟨finite, -⟩ | ⟨infinite, text⟩
      · simp [shown, finite, Expr.form]
      · simp [shown, infinite, Expr.form, text]
  | .string .., _, _ | .bool .., _, _ | .null _, _, _ | .identifier .., _, _ => rfl
  | .binary _ _ left right, _, h => by
      simp [shown, Expr.form, form_shown (e := left) h.1, form_shown (e := right) h.2]
  | .unary _ _ operand, _, h => by
      simp [shown, Expr.form, form_shown (e := operand) h]
  | .call _ callee args, _, h => by
      simp [shown, Expr.form, form_shown (e := callee) h.1, formEach_shown h.2]
  | .member _ object _, _, h => by
      simp [shown, Expr.form, form_shown (e := object) h.1]
  | .assign _ _ target value, _, h => by
      simp [shown, Expr.form, form_shown (e := target) h.1, form_shown (e := value) h.2]

theorem Legible.formEach_shown : ∀ {es : List Expr}, LegibleEach es →
    Expr.formEach (shownEach es) = Expr.formEach es
  | [], _ => rfl
  | e :: _, h => by
      simp [shownEach, Expr.formEach, form_shown (e := e) h.1, formEach_shown h.2]

end

theorem LegibleOption.form_shown {e : Option Expr} {last : Bool} (h : LegibleOption e last) :
    (e.map shown).map Expr.form = e.map Expr.form := by
  cases e with
  | none => rfl
  | some e => simp [(h e rfl).form_shown]

theorem LegibleOption.formClause_shown {e : Option Expr} {last : Bool} (h : LegibleOption e last) :
    Expr.formClause (some (shownClause e)) = Expr.formClause e := by
  cases e with
  | none => rfl
  | some e => exact (h e rfl).form_shown

end Expr

namespace Stmt

mutual

theorem Legible.form_shown : ∀ {s : Stmt} {last : Bool}, s.Legible last → s.shown.form = s.form
  | .expression .., _, h => by
      simp [shown, Stmt.form, Expr.Legible.form_shown h]
  | .varDecl .., _, h => by
      simp only [shown, Stmt.form, h.2.form_shown]
  | .returning .., _, h => by
      simp only [shown, Stmt.form, Expr.LegibleOption.form_shown h]
  | .branch _ _ consequent _, _, h => by
      simp [shown, Stmt.form, h.1.form_shown, form_shown (s := consequent) h.2.1,
        formElse_shown h.2.2]
  | .whileLoop _ _ body, _, h => by
      simp [shown, Stmt.form, h.1.form_shown, form_shown (s := body) h.2]
  | .forLoop _ _ _ _ body, _, h => by
      simp [shown, Stmt.form, formClause_shown h.1, h.2.1.formClause_shown,
        h.2.2.1.formClause_shown, form_shown (s := body) h.2.2.2]
  | .block .., _, h => by
      simp [shown, Stmt.form, formEach_shown h]
  | .function .., _, h => by
      simp [shown, Stmt.form, formEach_shown h.2.2]
  | .classDecl .., _, h => by
      simp [shown, Stmt.form, formEach_shown h.2]
  | .property .., _, h => by
      simp only [shown, Stmt.form, h.2.form_shown]

theorem Legible.formEach_shown : ∀ {ss : List Stmt} {last : Bool}, LegibleEach ss last →
    Stmt.formEach (shownEach ss) = Stmt.formEach ss
  | [], _, _ => rfl
  | s :: _, _, h => by
      simp [shownEach, Stmt.formEach, form_shown (s := s) h.1, formEach_shown h.2]

theorem Legible.formElse_shown : ∀ {s : Option Stmt} {last : Bool}, LegibleOption s last →
    Stmt.formElse (shownOption s) = Stmt.formElse s
  | none, _, _ => rfl
  | some s, _, h => by simp [shownOption, Stmt.formElse, form_shown (s := s) h]

theorem Legible.formClause_shown : ∀ {s : Option Stmt} {last : Bool}, LegibleOption s last →
    Stmt.formClause (shownOption s) = Stmt.formClause s
  | none, _, _ => rfl
  | some s, _, h => form_shown (s := s) h

end

end Stmt

end Scriptlet
