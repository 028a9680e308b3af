import Mathlib.Data.List.Chain
import Scriptlet.Host.Lambda
import Scriptlet.Proofs.Text.Trimming
import Scriptlet.Proofs.Token.Spacing

/-! # Lambda notation, taken apart

A lambda is translated by cuts at the first arrow, at parentheses, commas, colons and braces, which
know nothing of tokens. The parts of a well-formed lambda are found again that way. -/

namespace Scriptlet.Lambda

/-! ## Names and parameters -/

/-- A word that is no keyword. -/
structure IsName (word : String) : Prop where
  starts : ∃ c cs, word.toList = c :: cs ∧ Token.isWordStart c ∧ ∀ d ∈ cs, Token.isWordPart d
  free : keyword? word = none

theorem isWordPart_of_wordStart {c : Char} (h : Token.isWordStart c) : Token.isWordPart c := by
  simp only [Token.isWordStart, Bool.or_eq_true] at h
  rcases h with letter | underscore
  · simp [Token.isWordPart, letter]
  · simp [Token.isWordPart, underscore]

namespace IsName

variable {word : String} (h : IsName word)
include h

theorem isWordPart : ∀ c ∈ word.toList, Token.isWordPart c := by
  obtain ⟨c, cs, spelled, start, all⟩ := h.starts
  rw [spelled]
  exact List.forall_mem_cons.mpr ⟨isWordPart_of_wordStart start, all⟩

theorem not_mem {c : Char} (other : Token.isWordPart c = false) : c ∉ word.toList := by
  intro mem
  rw [h.isWordPart c mem] at other
  cases other

theorem ne_nil : word.toList ≠ [] := by
  obtain ⟨c, cs, spelled, -⟩ := h.starts
  simp [spelled]

theorem not_blank : ∀ c ∈ word.toList, Text.isBlank c = false := by
  intro c mem
  rw [Bool.eq_false_iff]
  intro blank
  have part := h.isWordPart c mem
  rw [Token.isWordPart_of_blank blank] at part
  cases part

theorem head_not_blank (behind : List Char) :
    ∀ c ∈ (word.toList ++ behind).head?, Text.isBlank c = false := by
  intro c first
  rw [List.head?_append_of_ne_nil _ h.ne_nil] at first
  exact h.not_blank c (List.mem_of_mem_head? first)

end IsName

/-- A parameter as it is written: a name between blanks, and perhaps a type behind a colon. Only
what ends a parameter or the list of them is kept out of the type. -/
structure Parameter where
  name : String
  before : List Char
  after : List Char
  type? : Option (List Char)
  isName : IsName name
  blanks : ∀ c ∈ before ++ after, Text.isBlank c
  plain : ∀ type ∈ type?, ')' ∉ type ∧ ',' ∉ type ∧ ¬ ['=', '>'] <:+: type

def Parameter.text (p : Parameter) : List Char :=
  p.before ++ (p.name.toList ++ (p.after ++ p.type?.elim [] (':' :: ·)))

def parameterList (params : List Parameter) : List Char :=
  [','].intercalate (params.map Parameter.text)

/-! ## The arrow -/

theorem splitArrow?_cons {c : Char} {cs : List Char} (apart : c = '=' → cs.head? ≠ some '>') :
    splitArrow? (c :: cs) = (splitArrow? cs).map fun (before, after) => (c :: before, after) := by
  rw [splitArrow?]
  rintro _ rfl rfl
  exact apart rfl rfl

def NoArrow (cs : List Char) : Prop :=
  cs.IsChain fun c d => c = '=' → d ≠ '>'

theorem noArrow_iff {cs : List Char} : NoArrow cs ↔ ¬ ['=', '>'] <:+: cs := by
  rw [NoArrow, List.isChain_iff_forall_rel_of_append_cons_cons]
  constructor
  · rintro apart ⟨front, back, rfl⟩
    exact apart (by rw [List.append_assoc]; rfl) rfl rfl
  · rintro none_there c d front back rfl rfl rfl
    exact none_there ⟨front, back, by simp⟩

/-- The first arrow is found. -/
theorem splitArrow?_append {before : List Char} (plain : NoArrow before) (after : List Char) :
    splitArrow? (before ++ '=' :: '>' :: after) = some (before, after) := by
  induction before with
  | nil => rfl
  | cons c before ih =>
      obtain ⟨next, rest⟩ := List.isChain_cons.mp plain
      have apart : c = '=' → (before ++ '=' :: '>' :: after).head? ≠ some '>' := by
        intro equal first
        cases before with
        | nil => cases first
        | cons d before => exact next d rfl equal (Option.some.inj first)
      rw [List.cons_append, splitArrow?_cons apart, ih rest]
      rfl

theorem noArrow_of_not_mem {cs : List Char} (h : '=' ∉ cs) : NoArrow cs := by
  rw [noArrow_iff]
  exact fun inside => h (inside.subset (by simp))

theorem NoArrow.append {front back : List Char} (h : NoArrow front) (h' : NoArrow back)
    (apart : back.head? ≠ some '>') : NoArrow (front ++ back) := by
  refine List.isChain_append.mpr ⟨h, h', fun c _ d first _ => ?_⟩
  rintro rfl
  exact apart first

/-! ## Commas -/

theorem splitCommas_eq_splitOn (cs : List Char) : splitCommas cs = cs.splitOn ',' := by
  rw [List.splitOn_eq_splitOnP]
  induction cs with
  | nil => rfl
  | cons c cs ih =>
      rw [splitCommas, List.splitOnP_cons_eq_if_modifyHead, ih]
      by_cases comma : c = ','
      · simp [comma]
      · have some_part := List.splitOnP_ne_nil (· == ',') cs
        rw [if_neg comma, if_neg (by simpa using comma)]
        split
        · rename_i part parts whole
          rw [whole]
          rfl
        · rename_i none_left
          exact absurd none_left some_part

/-- Parts between commas are found again. -/
theorem splitCommas_intercalate {parts : List (List Char)} (plain : ∀ part ∈ parts, ',' ∉ part)
    (nonempty : parts ≠ []) : splitCommas ([','].intercalate parts) = parts := by
  rw [splitCommas_eq_splitOn]
  exact List.splitOn_intercalate ',' plain nonempty

/-- What holds of the parts and of the comma holds of the list. -/
theorem forall_mem_intercalate {q : Char → Prop} {parts : List (List Char)} (comma : q ',')
    (all : ∀ part ∈ parts, ∀ c ∈ part, q c) : ∀ c ∈ [','].intercalate parts, q c := by
  induction parts with
  | nil => simp
  | cons part parts ih =>
      obtain ⟨first, others⟩ := List.forall_mem_cons.mp all
      cases parts with
      | nil => simpa using first
      | cons next parts =>
          rw [List.intercalate_cons_cons]
          refine List.forall_mem_append.mpr ⟨List.forall_mem_append.mpr ⟨first, ?_⟩, ih others⟩
          simpa using comma

theorem noArrow_intercalate {parts : List (List Char)} (all : ∀ part ∈ parts, NoArrow part) :
    NoArrow ([','].intercalate parts) := by
  induction parts with
  | nil => simp [NoArrow]
  | cons part parts ih =>
      obtain ⟨first, others⟩ := List.forall_mem_cons.mp all
      cases parts with
      | nil => simpa using first
      | cons next parts =>
          rw [List.intercalate_cons_cons, List.append_assoc]
          refine first.append ?_ (by simp)
          exact List.isChain_cons.mpr ⟨fun _ _ equal => absurd equal (by decide), ih others⟩

/-! ## Parameters -/

namespace Parameter

variable (p : Parameter)

theorem blank_before : ∀ c ∈ p.before, Text.isBlank c :=
  fun c mem => p.blanks c (List.mem_append_left _ mem)

theorem blank_after : ∀ c ∈ p.after, Text.isBlank c :=
  fun c mem => p.blanks c (List.mem_append_right _ mem)

/-- A character that is none of a name, no blank and not in the type is not in the parameter. -/
theorem not_mem_text {c : Char} (other : Token.isWordPart c = false)
    (visible : Text.isBlank c = false) (colon : c ≠ ':') (type : ∀ t ∈ p.type?, c ∉ t) :
    c ∉ p.text := by
  have before : c ∉ p.before := fun mem => by simp [p.blank_before c mem] at visible
  have after : c ∉ p.after := fun mem => by simp [p.blank_after c mem] at visible
  have name := p.isName.not_mem other
  cases found : p.type? with
  | none => simp [text, before, after, name, found]
  | some t => simp [text, before, after, name, found, colon, type t found]

theorem noArrow_text : NoArrow p.text := by
  have before : '=' ∉ p.before := fun mem => absurd (p.blank_before _ mem) (by decide +kernel)
  have after : '=' ∉ p.after := fun mem => absurd (p.blank_after _ mem) (by decide +kernel)
  have name : '=' ∉ p.name.toList := p.isName.not_mem (by decide +kernel)
  have front : NoArrow (p.before ++ (p.name.toList ++ p.after)) :=
    noArrow_of_not_mem (by simp [before, after, name])
  rw [text, ← List.append_assoc p.name.toList, ← List.append_assoc]
  cases found : p.type? with
  | none => simpa using front
  | some t =>
      refine front.append ?_ (by simp)
      exact List.isChain_cons.mpr
        ⟨fun _ _ equal => absurd equal (by decide), noArrow_iff.mpr (p.plain t found).2.2⟩

/-- Without the blanks at its ends, a parameter is its name, or a name and a colon with more behind
it. -/
theorem trim_text : Text.trim p.text = p.name.toList ∨
    ∃ rest, Text.trim p.text = p.name.toList ++ p.after ++ ':' :: rest := by
  rw [text, Text.trim_blanks_append p.blank_before]
  cases p.type? with
  | none =>
      left
      rw [Option.elim_none, List.append_nil, Text.trim_append_blanks p.blank_after]
      exact Text.trim_eq_self
        (fun c first => p.isName.not_blank c (List.mem_of_mem_head? first))
        fun c last => p.isName.not_blank c (List.mem_of_getLast? last)
  | some t =>
      right
      rw [Option.elim_some, Text.trim, Text.dropWhile_eq_self (p.isName.head_not_blank _),
        ← List.append_assoc, Text.dropEndWhile_append_cons (by decide +kernel)]
      exact ⟨_, rfl⟩

end Parameter

theorem parameterName_of_not_mem {part : List Char} (plain : ':' ∉ part) :
    parameterName part = part := by
  have whole : part.takeWhile (· ≠ ':') = part := by
    rw [List.takeWhile_eq_self_iff]
    simp only [ne_eq, decide_not, Bool.not_eq_true', decide_eq_false_iff_not]
    rintro c mem rfl
    exact plain mem
  rw [parameterName, whole]
  split
  · rfl
  · exact if_neg (Nat.lt_irrefl _)

theorem parameterName_of_colon {front : List Char} (plain : ':' ∉ front) (nonempty : front ≠ [])
    (back : List Char) : parameterName (front ++ ':' :: back) = Text.trim front := by
  have run : (front ++ ':' :: back).takeWhile (· ≠ ':') = front := by
    refine Token.takeWhile_append_stop ?_ (by simp)
    simp only [ne_eq, decide_not, Bool.not_eq_true', decide_eq_false_iff_not]
    rintro c mem rfl
    exact plain mem
  rw [parameterName, run]
  split
  · exact absurd rfl nonempty
  · exact if_pos (by simp)

/-- The name of a parameter is found. -/
theorem parameterName_trim (p : Parameter) :
    Text.trim p.text ≠ [] ∧ parameterName (Text.trim p.text) = p.name.toList := by
  have colon : ':' ∉ p.name.toList := p.isName.not_mem (by decide +kernel)
  have after : ':' ∉ p.after := fun mem => absurd (p.blank_after _ mem) (by decide +kernel)
  rcases p.trim_text with alone | ⟨rest, typed⟩
  · rw [alone]
    exact ⟨p.isName.ne_nil, parameterName_of_not_mem colon⟩
  · rw [typed]
    refine ⟨by simp, ?_⟩
    rw [parameterName_of_colon (by simp [colon, after]) (by simp [p.isName.ne_nil]),
      Text.trim_append_blanks p.blank_after]
    exact Text.trim_eq_self
      (fun c first => p.isName.not_blank c (List.mem_of_mem_head? first))
      fun c last => p.isName.not_blank c (List.mem_of_getLast? last)

/-- The names of the parameters in a list are found. -/
theorem parameterNames_parameterList (params : List Parameter) :
    parameterNames (parameterList params) = params.map (·.name.toList) := by
  cases params with
  | nil => rfl
  | cons first params =>
      generalize whole : first :: params = all
      have plain : ∀ part ∈ all.map Parameter.text, ',' ∉ part := by
        refine List.forall_mem_map.mpr fun p _ => p.not_mem_text ?_ ?_ ?_ ?_
        · decide +kernel
        · decide +kernel
        · decide
        · exact fun t found => (p.plain t found).2.1
      rw [parameterNames, parameterList, splitCommas_intercalate plain (by simp [← whole])]
      clear whole plain
      induction all with
      | nil => rfl
      | cons p params ih =>
          obtain ⟨visible, name⟩ := parameterName_trim p
          simpa [visible, name] using ih

/-- The list between the parentheses is found. -/
theorem parameters_eq {list : List Char} (plain : ')' ∉ list) (behind : List Char) :
    parameters ('(' :: list ++ ')' :: behind) = parameterNames list := by
  have run : ('(' :: list ++ ')' :: behind).takeWhile (· ≠ ')') = '(' :: list := by
    refine Token.takeWhile_append_stop ?_ (by simp)
    simp only [ne_eq, decide_not, Bool.not_eq_true', decide_eq_false_iff_not]
    rintro c mem rfl
    simp [plain] at mem
  rw [parameters, run, if_pos (by simp)]
  rfl

/-! ## The body -/

theorem stripBraces_braces (inner : List Char) :
    stripBraces ('\x7b' :: (inner ++ ['\x7d'])) = Text.trim inner := by
  simp [stripBraces]

theorem stripBraces_of_head? {body : List Char} (opening : body.head? ≠ some '\x7b') :
    stripBraces body = body := by
  unfold stripBraces
  split
  · exact absurd rfl opening
  · rfl

/-- The statement that is made of a value, which the word `return` stood in front of. -/
def returnText (value : List Char) : List Char :=
  "    return ".toList ++ Text.dropEndWhile (· = ';') (Text.trim value) ++ ";\n".toList

/-- The statement that is made of anything else. -/
def plainText (body : List Char) : List Char :=
  "    ".toList ++ Text.dropEndWhile (· = ';') body ++ ";\n".toList

theorem statement_eq (body : List Char) :
    statement body =
      if "return".toList.isPrefixOf (stripBraces (Text.trim body)) then
        returnText ((stripBraces (Text.trim body)).drop "return".toList.length)
      else plainText (stripBraces (Text.trim body)) :=
  rfl

theorem trim_between {c d : Char} (first : Text.isBlank c = false) (last : Text.isBlank d = false)
    (cs : List Char) : Text.trim (c :: (cs ++ [d])) = c :: (cs ++ [d]) := by
  refine Text.trim_eq_self ?_ ?_
  · rintro _ ⟨⟩
    exact first
  · intro d' found
    rw [← List.cons_append, List.getLast?_concat] at found
    cases found
    exact last

/-- The value in a block of one return statement is found. -/
theorem statement_block (value : String) :
    statement (' ' :: ("\x7b return " ++ value ++ "; \x7d").toList) =
      returnText (value.toList ++ [';']) := by
  have blank : ∀ c ∈ [' '], Text.isBlank c := List.all_eq_true.mp (by decide +kernel)
  -- the text behind the word, inside the braces
  generalize given : value.toList ++ [';'] = text
  have whole : ' ' :: ("\x7b return " ++ value ++ "; \x7d").toList =
      [' '] ++ '\x7b' :: ([' '] ++ ("return".toList ++ ' ' :: text ++ [' ']) ++ ['\x7d']) := by
    rw [String.toList_append, String.toList_append, ← given]
    simp
  have inner : Text.trim ([' '] ++ ("return".toList ++ ' ' :: text ++ [' '])) =
      "return".toList ++ ' ' :: text := by
    have letters : "return".toList ++ ' ' :: text =
        'r' :: ("eturn ".toList ++ value.toList ++ [';']) := by
      rw [← given]
      simp
    rw [Text.trim_blanks_append blank, Text.trim_append_blanks blank, letters]
    exact trim_between (by decide +kernel) (by decide +kernel) _
  have isReturn : "return".toList.isPrefixOf ("return".toList ++ ' ' :: text) :=
    List.isPrefixOf_iff_prefix.mpr (List.prefix_append _ _)
  rw [statement_eq, whole, Text.trim_blanks_append blank,
    trim_between (by decide +kernel) (by decide +kernel), stripBraces_braces, inner,
    if_pos isReturn, List.drop_left]
  unfold returnText
  rw [← List.singleton_append, Text.trim_blanks_append blank]

/-- Any other body is found, unless it starts with the letters of `return`. -/
theorem statement_expression {body : List Char}
    (opening : (Text.trim body).head? ≠ some '\x7b') :
    statement (' ' :: body) =
      if "return".toList <+: Text.trim body then
        returnText ((Text.trim body).drop "return".toList.length)
      else plainText (Text.trim body) := by
  have blank : ∀ c ∈ [' '], Text.isBlank c := List.all_eq_true.mp (by decide +kernel)
  have trimmed : Text.trim (' ' :: body) = Text.trim body := Text.trim_blanks_append blank _
  rw [statement_eq, trimmed, stripBraces_of_head? opening]
  by_cases isReturn : "return".toList <+: Text.trim body
  · rw [if_pos isReturn, if_pos (List.isPrefixOf_iff_prefix.mpr isReturn)]
  · rw [if_neg isReturn, if_neg (isReturn ∘ List.isPrefixOf_iff_prefix.mp)]

/-! ## The function -/

def headText (name : String) (params : List String) : List Char :=
  "function ".toList ++ name.toList ++ "(".toList ++
    ", ".toList.intercalate (params.map String.toList) ++ ") \x7b\n".toList

theorem noArrow_parameterList (params : List Parameter) :
    NoArrow ('(' :: (parameterList params ++ [')', ' '])) := by
  have list : NoArrow (parameterList params) :=
    noArrow_intercalate (List.forall_mem_map.mpr fun p _ => p.noArrow_text)
  have whole := list.append (noArrow_of_not_mem (by decide : '=' ∉ [')', ' '])) (by decide)
  exact List.isChain_cons.mpr ⟨fun _ _ equal => absurd equal (by decide), whole⟩

theorem not_mem_parameterList (params : List Parameter) : ')' ∉ parameterList params := by
  have apart : ∀ c ∈ parameterList params, c ≠ ')' := by
    refine forall_mem_intercalate (by decide) (List.forall_mem_map.mpr fun p _ c mem => ?_)
    rintro rfl
    refine p.not_mem_text ?_ ?_ ?_ ?_ mem
    · decide +kernel
    · decide +kernel
    · decide
    · exact fun t found => (p.plain t found).1
  exact fun mem => apart _ mem rfl

def lambdaText (params : List Parameter) (body : String) : String :=
  "(" ++ String.ofList (parameterList params) ++ ") => " ++ body

theorem toList_lambdaText (params : List Parameter) (body : String) :
    (lambdaText params body).toList =
      '(' :: (parameterList params ++ [')', ' ']) ++ '=' :: '>' :: ' ' :: body.toList := by
  have opening : "(".toList = ['('] := by decide
  have arrow : ") => ".toList = [')', ' ', '=', '>', ' '] := by decide
  rw [lambdaText, String.toList_append, String.toList_append, String.toList_append, opening, arrow,
    @String.toList_ofList (parameterList params)]
  simp

/-- A lambda becomes a function: its first line, the statement that is made of the body, and a
closing brace. -/
theorem toList_functionSource (name : String) (params : List Parameter) (body : String) :
    (functionSource name (lambdaText params body)).toList =
      headText name (params.map (·.name)) ++ statement (' ' :: body.toList) ++ "\x7d".toList := by
  have whole := toList_lambdaText params body
  generalize lambdaText params body = lambda at whole
  have list : lambda.toList =
      '(' :: parameterList params ++ ')' :: (" => ".toList ++ body.toList) := by
    rw [whole]
    simp
  have names : parameters lambda.toList = params.map (·.name.toList) := by
    rw [list, parameters_eq (not_mem_parameterList params), parameterNames_parameterList]
  have arrow := splitArrow?_append (noArrow_parameterList params) (' ' :: body.toList)
  rw [← whole] at arrow
  have words : (params.map (·.name.toList)).map String.ofList = params.map (·.name) := by simp
  have spelled := @String.toList_intercalate ", " (params.map (·.name))
  have inner := @String.toList_ofList (statement (' ' :: body.toList))
  unfold functionSource headText
  simp only [names, arrow, words]
  rw [← spelled]
  -- the texts of the parts as such do not matter to the concatenation
  generalize ", ".intercalate (params.map (·.name)) = list
  generalize String.ofList (statement (' ' :: body.toList)) = text at inner ⊢
  rw [← inner, String.toList_append, String.toList_append, String.toList_append,
    String.toList_append, String.toList_append, String.toList_append]

end Scriptlet.Lambda
