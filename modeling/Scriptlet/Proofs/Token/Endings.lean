import Scriptlet.Proofs.Text.Trimming
import Scriptlet.Proofs.Token.Spacing

/-! # How a text ends

What becomes of a text behind another one depends on where the first one ends: between its pieces,
in a comment, which the rest of the line goes on with, or in a string, which is not closed yet. -/

namespace Scriptlet.Token

/-! ## The last piece -/

/-- Whether the last piece of a text is a comment, with no line break behind it. -/
def endsInComment : List Char → Bool
  | [] => false
  | c :: cs =>
      let p := piece c cs
      let rest := cs.drop p.tail
      if rest.isEmpty then p.kind.isNone && c = '/' else endsInComment rest
termination_by cs => cs.length
decreasing_by simp only [List.length_cons, List.length_drop]; omega

theorem endsInComment_blank {c : Char} (h : Text.isBlank c) (cs : List Char) :
    endsInComment (c :: cs) = endsInComment cs := by
  have slash : c ≠ '/' := by
    rintro rfl
    cases h
  cases cs <;> simp [endsInComment, piece_of_blank h, slash]

theorem endsInComment_token {kind : TokenKind} {lexeme rest : List Char}
    (h : Munch kind lexeme rest) : endsInComment (lexeme ++ rest) = endsInComment rest := by
  obtain ⟨c, cs, rfl, piece⟩ := h.piece
  rw [List.cons_append, endsInComment, piece, List.drop_left]
  cases rest <;> simp [endsInComment]

theorem endsInComment_comment {body rest : List Char} (inner : '\n' ∉ body)
    (stop : ∀ c ∈ rest.head?, c = '\n') :
    endsInComment ('/' :: '/' :: body ++ rest) = (rest.isEmpty || endsInComment rest) := by
  have whole : '/' :: '/' :: body ++ rest = '/' :: ('/' :: body ++ rest) := rfl
  rw [whole, endsInComment, piece_of_comment inner stop, List.drop_left]
  cases rest <;> simp

/-! ## What becomes of more text -/

/-- Nothing of the text goes on: what starts with a separating character is cut as if it stood
alone. -/
def Clear (text : List Char) (pieces : List (TokenKind × String)) : Prop :=
  ∀ more others, (∀ c ∈ more.head?, separates c) → Cut more others →
    Cut (text ++ more) (pieces ++ others)

/-- A comment goes on to the end of the line. -/
def Commented (text : List Char) (pieces : List (TokenKind × String)) : Prop :=
  ∀ line more others, '\n' ∉ line → (∀ c ∈ more.head?, c = '\n') → Cut more others →
    Cut (text ++ (line ++ more)) (pieces ++ others)

/-- A string goes on while there is no quote. -/
def Quoted (text : List Char) (pieces : List (TokenKind × String)) : Prop :=
  ∀ more, '"' ∉ more → ∃ lexeme, Cut (text ++ more) (pieces ++ [(.string, lexeme)])

/-- How a text ends, and whether that is in a comment. -/
inductive Ending (text : List Char) : Bool → Prop where
  | clear {pieces} : Clear text pieces → Ending text false
  | commented {pieces} : Commented text pieces → Ending text true
  | quoted {pieces} : Quoted text pieces → Ending text false

/-- A text in front that is cut by itself changes nothing. -/
theorem Ending.prepend (front : List Char) (first : List (TokenKind × String)) {rest : List Char}
    {b : Bool} (h : Ending rest b)
    (step : ∀ more others, Cut (rest ++ more) others →
      Cut (front ++ (rest ++ more)) (first ++ others)) : Ending (front ++ rest) b := by
  cases h with
  | @clear pieces clear =>
      refine @Ending.clear _ (first ++ pieces) fun more others separated cut => ?_
      rw [List.append_assoc, List.append_assoc]
      exact step _ _ (clear more others separated cut)
  | @commented pieces commented =>
      refine @Ending.commented _ (first ++ pieces) fun line more others inner stop cut => ?_
      rw [List.append_assoc, List.append_assoc]
      exact step _ _ (commented line more others inner stop cut)
  | @quoted pieces quoted =>
      refine @Ending.quoted _ (first ++ pieces) fun more inner => ?_
      obtain ⟨lexeme, cut⟩ := quoted more inner
      refine ⟨lexeme, ?_⟩
      rw [List.append_assoc, List.append_assoc]
      exact step _ _ cut

theorem stringTail_eq_length {cs : List Char} (h : '"' ∉ cs) : stringTail cs = cs.length := by
  fun_induction stringTail cs with
  | case1 => rfl
  | case2 => simp at h
  | case3 c cs ih =>
      have inner : '"' ∉ cs := fun mem => h (by simp [mem])
      simp [ih inner]
  | case4 c cs _ _ ih =>
      have inner : '"' ∉ cs := fun mem => h (by simp [mem])
      simp [ih inner]

/-- A string that is not closed takes more text along. -/
theorem munch_unclosed {cs : List Char} (unclosed : Unclosed cs) (more : List Char)
    (h : '"' ∉ more) :
    Munch .string ('"' :: (cs ++ more)) [] := by
  have tail : stringTail (cs ++ more) = (cs ++ more).length := by
    rw [stringTail_unclosed unclosed, stringTail_eq_length h, List.length_append]
  have munch := munch_string (cs ++ more)
  rwa [tail, List.take_length, List.drop_length] at munch

/-- A text that is one token. -/
theorem Munch.ending {kind : TokenKind} {lexeme : List Char} (h : Munch kind lexeme []) :
    Ending lexeme false := by
  have quoted {cs : List Char} (unclosed : Unclosed cs) (front : List Char)
      (plain : '"' ∉ front) : Ending ('"' :: (cs ++ front)) false := by
    refine @Ending.quoted _ [] fun more inner => ⟨String.ofList ('"' :: (cs ++ front ++ more)), ?_⟩
    have munch := munch_unclosed unclosed (front ++ more) (by simp [plain, inner])
    rw [← List.append_assoc] at munch
    have cut := Cut.token .nil munch (.last .nil)
    rwa [List.append_nil] at cut
  have clear (moves : ∀ rest, (∀ c ∈ rest.head?, separates c) → Munch kind lexeme rest) :
      Ending lexeme false :=
    @Ending.clear _ [(kind, String.ofList lexeme)] fun more _ separated cut =>
      .token .nil (moves more separated) cut
  by_cases string : kind = .string
  · subst string
    cases h with
    | compound mem | simple mem => simp [compounds, simples] at mem
    | delimiter mem => simp [delimiters] at mem
    | keyword _ _ _ mem => simp [keywords] at mem
    | closed inner => exact clear fun _ _ => .closed inner
    | @unclosed cs inner => simpa using quoted inner [] (by simp)
    | escaping inner => exact quoted inner ['\\'] (by decide)
  · exact clear fun rest separated => h.move (.inr separated) fun _ => (absurd · string)

/-- Every text ends in one of the three ways. -/
theorem ending (text : List Char) : Ending text (endsInComment text) := by
  induction text using induction_on_pieces with
  | nil =>
      rw [endsInComment]
      exact @Ending.clear _ [] fun _ _ _ cut => cut
  | gap gap rest isGap ih =>
      induction isGap with
      | nil => exact ih
      | @blank c gap rest isBlank _ ih' =>
          rw [List.cons_append, endsInComment_blank isBlank]
          exact (ih' ih).prepend [c] [] fun _ _ cut =>
            .gap (.blank isBlank .nil) cut
      | @comment body gap rest inner stop _ ih' =>
          have ending := ih' ih
          rw [List.append_assoc, endsInComment_comment inner stop]
          generalize gap ++ rest = rest at stop ending
          cases rest with
          | nil =>
              refine @Ending.commented _ [] fun line more others inner' stop' cut => ?_
              have whole : '/' :: '/' :: body ++ [] ++ (line ++ more) =
                  '/' :: '/' :: (body ++ line) ++ [] ++ more := by simp
              rw [whole]
              exact .gap (.comment (by simp [inner, inner']) stop' .nil) cut
          | cons c rest =>
              refine ending.prepend _ [] fun more others cut => ?_
              have isGap : Gap ('/' :: '/' :: body ++ []) (c :: rest ++ more) :=
                .comment inner stop .nil
              rw [List.append_nil] at isGap
              exact .gap isGap cut
  | token kind lexeme rest munch ih =>
      rw [endsInComment_token munch]
      cases rest with
      | nil =>
          rw [List.append_nil, endsInComment]
          exact munch.ending
      | cons c rest =>
          refine ih.prepend lexeme [(kind, String.ofList lexeme)] fun more others cut => ?_
          exact .token .nil (munch.move (.inl rfl) (by simp)) cut

/-! ## One ending only -/

variable {text : List Char} {pieces pieces' : List (TokenKind × String)}

theorem Cut.unique (h : Cut text pieces) (h' : Cut text pieces') : pieces = pieces' :=
  List.append_cancel_right ((h.scanFrom .start).symm.trans (h'.scanFrom .start))

def semicolon : TokenKind × String := (.semicolon, ";")

theorem separates_semicolon : separates ';' := by
  decide +kernel

theorem Cut.delimiter_cons {c : Char} {kind : TokenKind} {more : List Char}
    (mem : (c, kind) ∈ delimiters) (h : Cut more pieces) :
    Cut (c :: more) ((kind, String.ofList [c]) :: pieces) :=
  .token .nil (.delimiter mem) h

theorem Cut.semicolon_cons {more : List Char} (h : Cut more pieces) :
    Cut (';' :: more) (semicolon :: pieces) :=
  .delimiter_cons (by decide) h

theorem Cut.blank_cons {c : Char} {more : List Char} (blank : Text.isBlank c)
    (h : Cut more pieces) : Cut (c :: more) pieces :=
  .gap (.blank blank .nil) h

theorem gap_of_blanks {blanks : List Char} (h : ∀ c ∈ blanks, Text.isBlank c) (rest : List Char) :
    Gap blanks rest := by
  induction blanks with
  | nil => exact .nil
  | cons c blanks ih =>
      obtain ⟨first, others⟩ := List.forall_mem_cons.mp h
      exact .blank first (ih others)

theorem Cut.blanks_append {blanks more : List Char} (all : ∀ c ∈ blanks, Text.isBlank c)
    (h : Cut more pieces) : Cut (blanks ++ more) pieces :=
  .gap (gap_of_blanks all more) h

theorem Cut.of_blanks_append {blanks more : List Char} (all : ∀ c ∈ blanks, Text.isBlank c)
    (h : Cut (blanks ++ more) pieces) : Cut more pieces := by
  obtain ⟨pieces', -, cut⟩ := cut_scanFrom .start more
  rwa [h.unique (cut.blanks_append all)]

theorem Cut.nil : Cut [] [] :=
  .last .nil

theorem Clear.not_commented (h : Clear text pieces) (h' : Commented text pieces') : False := by
  -- a semicolon would be a token and no token
  have alone := h [] [] (by simp) .nil
  have apart := h [';'] [semicolon] (by simpa using separates_semicolon) (.semicolon_cons .nil)
  have alone' := h' [] [] [] (by simp) (by simp) .nil
  have apart' := h' [';'] [] [] (by decide) (by simp) .nil
  have same := (apart.unique apart').trans (alone'.unique alone)
  simp at same

theorem Quoted.not_commented (h : Quoted text pieces) (h' : Commented text pieces') : False := by
  -- on the next line, a semicolon would be the end of a string and a token
  have line : Cut ['\n', ';'] [semicolon] :=
    .blank_cons (by decide +kernel) (.semicolon_cons .nil)
  obtain ⟨lexeme, inside⟩ := h ['\n', ';'] (by decide)
  have apart := h' [] ['\n', ';'] [semicolon] (by simp) (by simp) line
  have same := congrArg List.getLast? (inside.unique apart)
  simp [semicolon] at same

theorem Ending.eq {b : Bool} (h : Ending text b) : endsInComment text = b := by
  have found := ending text
  generalize endsInComment text = b' at found
  cases h with
  | clear clear =>
      cases found with
      | clear | quoted => rfl
      | commented commented => exact (clear.not_commented commented).elim
  | commented commented =>
      cases found with
      | clear clear => exact (clear.not_commented commented).elim
      | commented => rfl
      | quoted quoted => exact (quoted.not_commented commented).elim
  | quoted quoted =>
      cases found with
      | clear | quoted => rfl
      | commented commented => exact (quoted.not_commented commented).elim

/-- A comment in which a text ends. -/
theorem exists_commented (h : endsInComment text) : ∃ pieces, Commented text pieces := by
  have found := ending text
  rw [h] at found
  cases found with
  | commented commented => exact ⟨_, commented⟩

/-- The rest of its line is part of a comment. -/
theorem Commented.append (h : Commented text pieces) {line : List Char} (inner : '\n' ∉ line) :
    Commented (text ++ line) pieces := by
  intro line' more others inner' stop cut
  have cut := h (line ++ line') more others (by simp [inner, inner']) stop cut
  rwa [List.append_assoc, ← List.append_assoc line]

/-- Blanks with a line break close a comment. -/
theorem Commented.clear (h : Commented text pieces) {blanks : List Char}
    (all : ∀ c ∈ blanks, Text.isBlank c) (line : '\n' ∈ blanks) :
    Clear (text ++ blanks) pieces := by
  intro more others _ cut
  obtain ⟨front, back, rfl, inner⟩ := List.eq_append_cons_of_mem line
  have below : Cut ('\n' :: back ++ more) others :=
    .blanks_append (fun c mem => all c (List.mem_append_right front mem)) cut
  have cut := h front _ others inner (by simp) below
  simpa only [List.append_assoc] using cut

/-- Blanks in front do not matter. -/
theorem endsInComment_blanks_append {blanks : List Char} (all : ∀ c ∈ blanks, Text.isBlank c)
    (text : List Char) : endsInComment (blanks ++ text) = endsInComment text := by
  induction blanks with
  | nil => rfl
  | cons c blanks ih =>
      obtain ⟨first, others⟩ := List.forall_mem_cons.mp all
      rw [List.cons_append, endsInComment_blank first, ih others]

theorem cut_semicolons {semis more : List Char} (all : ∀ c ∈ semis, c = ';')
    (cut : Cut more pieces) :
    Cut (semis ++ more) (semis.map (fun _ => semicolon) ++ pieces) := by
  induction semis with
  | nil => exact cut
  | cons c semis ih =>
      obtain ⟨rfl, others⟩ := List.forall_mem_cons.mp all
      exact .semicolon_cons (ih others)

theorem endsInComment_append_semicolons {semis : List Char} (all : ∀ c ∈ semis, c = ';')
    (text : List Char) : endsInComment (text ++ semis) = endsInComment text := by
  refine Ending.eq ?_
  have outside {c : Char} (plain : c ≠ ';') : c ∉ semis := fun mem => plain (all c mem)
  have found := ending text
  generalize endsInComment text = b at found
  cases found with
  | @clear pieces clear =>
      refine @Ending.clear _ (pieces ++ semis.map fun _ => semicolon)
        fun more others separated cut => ?_
      have head : ∀ c ∈ (semis ++ more).head?, separates c := by
        cases semis with
        | nil => exact separated
        | cons c semis => simpa [all c List.mem_cons_self] using separates_semicolon
      rw [List.append_assoc, List.append_assoc]
      exact clear _ _ head (cut_semicolons all cut)
  | commented commented => exact .commented (commented.append (outside (by decide)))
  | @quoted pieces quoted =>
      refine @Ending.quoted _ pieces fun more inner => ?_
      obtain ⟨lexeme, cut⟩ := quoted (semis ++ more) (by simp [outside, inner])
      rw [List.append_assoc]
      exact ⟨lexeme, cut⟩

/-- Blanks behind a comment leave it open unless there is a line break among them. -/
theorem endsInComment_append_blanks {blanks : List Char} (all : ∀ c ∈ blanks, Text.isBlank c)
    (h : endsInComment text) : endsInComment (text ++ blanks) ↔ '\n' ∉ blanks := by
  obtain ⟨pieces, commented⟩ := exists_commented h
  by_cases line : '\n' ∈ blanks
  · simp [line, (Ending.clear (commented.clear all line)).eq]
  · simp [line, (Ending.commented (commented.append line)).eq]

/-! ## A semicolon closer to the text

A text is followed by a semicolon, which is its last token and its only semicolon. Semicolons and
blanks in between are left out, and a line break is put behind it. -/

section Semicolons

variable {semis blanks more : List Char} {lexeme : String} {others : List (TokenKind × String)}

theorem not_mem_tail (allSemis : ∀ c ∈ semis, c = ';') {c : Char} (plain : c ≠ ';')
    (blank : c ∉ blanks) : c ∉ semis ++ (blanks ++ [';']) := by
  simp only [List.mem_append, List.mem_singleton, not_or]
  exact ⟨fun mem => plain (allSemis c mem), blank, plain⟩

theorem cut_tail (allSemis : ∀ c ∈ semis, c = ';') (allBlanks : ∀ c ∈ blanks, Text.isBlank c) :
    Cut (semis ++ (blanks ++ [';'])) (semis.map (fun _ => semicolon) ++ [semicolon]) :=
  cut_semicolons allSemis (.blanks_append allBlanks (.semicolon_cons .nil))

theorem separates_tail (allSemis : ∀ c ∈ semis, c = ';')
    (allBlanks : ∀ c ∈ blanks, Text.isBlank c) :
    ∀ c ∈ (semis ++ (blanks ++ [';'])).head?, separates c := by
  intro c first
  have mem := List.mem_of_mem_head? first
  simp only [List.mem_append, List.mem_singleton] at mem
  rcases mem with mem | mem | rfl
  · rw [allSemis c mem]
    exact separates_semicolon
  · exact separates_of_blank (allBlanks c mem)
  · exact separates_semicolon

variable (allSemis : ∀ c ∈ semis, c = ';') (allBlanks : ∀ c ∈ blanks, Text.isBlank c)
  (cut : Cut (text ++ (semis ++ (blanks ++ [';']))) (pieces ++ [(.semicolon, lexeme)]))
  (below : Cut ('\n' :: more) others)
include allSemis allBlanks cut below

/-- The semicolon stays a token unless it comes to stand in a comment in which it did not. -/
theorem Cut.keeps_semicolon (plain : ∀ piece ∈ pieces, piece.1 ≠ .semicolon)
    (kept : endsInComment text → '\n' ∉ blanks) :
    Cut (text ++ ';' :: '\n' :: more) (pieces ++ (.semicolon, lexeme) :: others) := by
  have found := ending text
  generalize endsInComment text = b at found kept
  cases found with
  | @clear front clear =>
      -- there was one semicolon only, so none was left out
      have whole := clear _ _ (separates_tail allSemis allBlanks) (cut_tail allSemis allBlanks)
      obtain ⟨same, last⟩ := List.append_inj'
        ((cut.unique whole).trans (List.append_assoc ..).symm) rfl
      obtain rfl : semis = [] := by
        cases semis with
        | nil => rfl
        | cons c semis => exact (plain semicolon (by simp [same]) rfl).elim
      rw [same, List.map_nil, List.append_nil, List.cons.inj last |>.1]
      exact clear _ _ (by simpa using separates_semicolon) (.semicolon_cons below)
  | @commented front commented =>
      have outside := not_mem_tail allSemis (by decide) (kept rfl)
      have whole := commented _ [] [] outside (by simp) .nil
      rw [List.append_nil] at whole
      have same := cut.unique whole
      rw [List.append_nil] at same
      have cut := commented [';'] ('\n' :: more) others (by decide) (by simp) below
      rwa [← same, List.append_assoc] at cut
  | quoted quoted =>
      have noQuote : '"' ∉ blanks := fun mem => absurd (allBlanks _ mem) (by decide +kernel)
      obtain ⟨lexeme', inside⟩ := quoted _ (not_mem_tail allSemis (by decide) noQuote)
      have same := congrArg List.getLast? (cut.unique inside)
      simp at same

/-- The semicolon is no token any more if it comes to stand in a comment that was closed. -/
theorem Cut.loses_semicolon (comment : endsInComment text) (line : '\n' ∈ blanks) :
    Cut (text ++ ';' :: '\n' :: more) (pieces ++ others) := by
  obtain ⟨front, commented⟩ := exists_commented comment
  have inner : '\n' ∉ semis := fun mem => absurd (allSemis _ mem) (by decide)
  have behind := commented.append inner
  have whole := behind.clear allBlanks line [';'] [semicolon]
    (by simpa using separates_semicolon) (.semicolon_cons .nil)
  simp only [List.append_assoc] at whole
  obtain ⟨rfl, -⟩ := List.append_inj' (cut.unique whole) rfl
  exact commented [';'] ('\n' :: more) others (by decide) (by simp) below

end Semicolons

end Scriptlet.Token
