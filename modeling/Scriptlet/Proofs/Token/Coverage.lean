import Scriptlet.Token.Scan

/-! # What the tokens of a text cover

A text is its lexemes in their order with gaps between them, and every token stands at the place of
its first character. -/

namespace Scriptlet

/-! ## Places -/

/-- The place behind a text: one line further for each line break, and one column further for each
character since the last one. -/
def Position.after (before : List Char) : Position :=
  ⟨1 + before.count '\n', 1 + (before.reverse.takeWhile (· ≠ '\n')).length⟩

theorem Position.after_concat (before : List Char) (c : Char) :
    after (before ++ [c]) = (after before).next c := by
  by_cases hc : c = '\n'
  · subst hc
    simp [after, next, Nat.add_assoc]
  · have other : ¬ '\n' = c := fun h => hc h.symm
    simp [after, next, hc, Nat.add_comm]

theorem Position.after_append (before cs : List Char) :
    after (before ++ cs) = (after before).advance cs := by
  induction cs generalizing before with
  | nil => simp [advance]
  | cons c cs ih =>
      calc after (before ++ c :: cs)
        _ = after ((before ++ [c]) ++ cs) := by rw [List.append_assoc, List.singleton_append]
        _ = (after (before ++ [c])).advance cs := ih _
        _ = (after before).advance (c :: cs) := by rw [after_concat, advance, advance,
              List.foldl_cons]

theorem Position.advance_append (p : Position) (front back : List Char) :
    p.advance (front ++ back) = (p.advance front).advance back :=
  List.foldl_append

namespace Token

/-! ## Gaps -/

/-- `Gap gap rest`: the text `gap` in front of `rest` is blanks and comments. A comment runs up to a
line break, which is not part of it, or to the end. -/
inductive Gap : List Char → List Char → Prop where
  | nil {rest} : Gap [] rest
  | blank {c gap rest} : Text.isBlank c → Gap gap rest → Gap (c :: gap) rest
  | comment {body gap rest} : '\n' ∉ body → (∀ c ∈ (gap ++ rest).head?, c = '\n') →
      Gap gap rest → Gap ('/' :: '/' :: body ++ gap) rest

theorem Gap.append {gap next rest : List Char} (h : Gap gap (next ++ rest)) (h' : Gap next rest) :
    Gap (gap ++ next) rest := by
  generalize hr : next ++ rest = text at h
  induction h with
  | nil => exact h'
  | blank hc _ ih => exact .blank hc (ih hr)
  | comment hb stop _ ih =>
      subst hr
      rw [List.append_assoc]
      exact .comment hb (by rwa [List.append_assoc]) (ih rfl)

/-- `Covers before text ts`: the tokens `ts` cover `text`, which stands behind `before`. The last
one marks the end of the text; the others are not empty. -/
inductive Covers : List Char → List Char → List Token → Prop where
  | last {before gap t} : Gap gap [] → t.kind = .endOfInput → t.lexeme = "" →
      t.pos = .after (before ++ gap) → Covers before gap [t]
  | token {before gap rest t ts} : Gap gap (t.lexeme.toList ++ rest) → t.kind ≠ .endOfInput →
      t.lexeme ≠ "" → t.pos = .after (before ++ gap) →
      Covers (before ++ gap ++ t.lexeme.toList) rest ts →
      Covers before (gap ++ (t.lexeme.toList ++ rest)) (t :: ts)

/-- A gap in front of a text becomes part of its first gap. -/
theorem Covers.gap {before gap text : List Char} {ts : List Token} (h : Gap gap text)
    (covered : Covers (before ++ gap) text ts) : Covers before (gap ++ text) ts := by
  cases covered with
  | last h' isEnd isEmpty pos =>
      rw [List.append_assoc] at pos
      have whole : Gap (gap ++ text) [] := Gap.append (by rwa [List.append_nil]) h'
      exact .last whole isEnd isEmpty pos
  | token h' kind visible pos covered =>
      rw [List.append_assoc] at pos
      rw [← List.append_assoc]
      exact .token (h.append h') kind visible pos (by simpa only [List.append_assoc] using covered)

/-- A token in front of a covered text. -/
theorem Covers.lexeme {before text rest : List Char} {kind : TokenKind} {ts : List Token}
    (visible : text ≠ []) (notEnd : kind ≠ .endOfInput)
    (covered : Covers (before ++ text) rest ts) :
    Covers before (text ++ rest) (⟨kind, String.ofList text, .after before⟩ :: ts) := by
  have lexeme : (String.ofList text).toList = text := String.toList_ofList
  have token :=
    @Covers.token before [] rest ⟨kind, String.ofList text, .after before⟩ ts .nil notEnd
  simp only [lexeme, List.append_nil, List.nil_append] at token
  exact token (by simpa using visible) trivial covered

/-! ## Pieces -/

theorem take_length_takeWhile (p : Char → Bool) (cs : List Char) :
    cs.take (cs.takeWhile p).length = cs.takeWhile p :=
  (List.prefix_iff_eq_take.mp (List.takeWhile_prefix p)).symm

theorem drop_length_takeWhile (p : Char → Bool) (cs : List Char) :
    cs.drop (cs.takeWhile p).length = cs.dropWhile p := by
  have whole := List.take_append_drop (cs.takeWhile p).length cs
  rw [take_length_takeWhile] at whole
  exact List.append_cancel_left (whole.trans List.takeWhile_append_dropWhile.symm)

theorem comment_gap (cs : List Char) :
    Gap ('/' :: '/' :: cs.takeWhile (· ≠ '\n')) (cs.dropWhile (· ≠ '\n')) := by
  have body : '\n' ∉ cs.takeWhile (· ≠ '\n') := by
    intro h
    simpa using List.all_eq_true.mp List.all_takeWhile '\n' h
  have stop : ∀ c ∈ ([] ++ cs.dropWhile (· ≠ '\n')).head?, c = '\n' := by
    intro c hc
    have := List.head?_dropWhile_not (· ≠ '\n') cs
    simp_all
  simpa using Gap.comment body stop .nil

/-- A piece without a kind is a comment or a blank. -/
theorem piece_gap {c : Char} {cs : List Char} (h : (piece c cs).kind = none) :
    Gap (c :: cs.take (piece c cs).tail) (cs.drop (piece c cs).tail) := by
  revert h
  fun_cases piece c cs with
  | case4 _ _ slash twice =>
      -- the second slash is the first character of the run up to the line break
      intro _
      obtain ⟨rest, rfl⟩ : ∃ rest, cs = '/' :: rest := by
        cases cs with
        | nil => cases twice
        | cons d rest => exact ⟨rest, by rw [Option.some.inj twice]⟩
      subst slash
      have body : ('/' :: rest).takeWhile (· ≠ '\n') = '/' :: rest.takeWhile (· ≠ '\n') :=
        List.takeWhile_cons_of_pos (by decide)
      rw [body, List.length_cons, List.take_succ_cons, List.drop_succ_cons,
        take_length_takeWhile, drop_length_takeWhile]
      exact comment_gap rest
  | case9 _ _ _ _ _ _ blank =>
      intro _
      exact .blank blank .nil
  | case1 | case2 | case3 | case5 | case6 | case7 | case8 | case10 => intro h; cases h

theorem snd_ne_of_lookup {α : Type} [BEq α] [LawfulBEq α] {table : List (α × TokenKind)} {key : α}
    {kind other : TokenKind} (all : ∀ entry ∈ table, entry.2 ≠ other)
    (h : table.lookup key = some kind) : kind ≠ other := by
  obtain ⟨front, back, rfl, -⟩ := List.lookup_eq_some_iff.mp h
  exact all (key, kind) (by simp)

/-- A piece never marks the end of a text. -/
theorem piece_kind_ne {c : Char} {cs : List Char} {kind : TokenKind}
    (h : (piece c cs).kind = some kind) : kind ≠ .endOfInput := by
  have operator : ∀ op ∈ operators, op.double ≠ .endOfInput ∧ op.single ≠ .endOfInput := by decide
  revert h
  fun_cases piece c cs with
  | case1 kind lookup =>
      rintro ⟨⟩
      exact snd_ne_of_lookup (by decide) lookup
  | case2 _ op find =>
      rintro ⟨⟩
      exact (operator op (List.mem_of_find?_eq_some find)).1
  | case3 _ op find =>
      rintro ⟨⟩
      exact (operator op (List.mem_of_find?_eq_some find)).2
  | case8 =>
      rintro ⟨⟩
      cases hw : keyword? _ with
      | none => simp
      | some kind => exact snd_ne_of_lookup (by decide) hw
  | case4 | case9 =>
      intro h
      cases h
  | case5 | case6 | case7 | case10 =>
      rintro ⟨⟩
      decide

/-! ## Texts -/

/-- The scanner goes from piece to piece and is always at the place behind the text before it. -/
theorem scanFrom_covers : ∀ before text : List Char,
    Covers before text (scanFrom (.after before) text)
  | before, [] => by
      rw [scanFrom]
      exact .last .nil rfl rfl (by rw [List.append_nil])
  | before, c :: cs => by
      have whole : c :: cs = (c :: cs.take (piece c cs).tail) ++ cs.drop (piece c cs).tail := by
        rw [List.cons_append, List.take_append_drop]
      have covered := scanFrom_covers (before ++ c :: cs.take (piece c cs).tail)
        (cs.drop (piece c cs).tail)
      rw [Position.after_append] at covered
      rw [scanFrom]
      cases hk : (piece c cs).kind with
      | none =>
          have gap := Covers.gap (piece_gap hk) covered
          rwa [← whole] at gap
      | some kind =>
          have token := Covers.lexeme (List.cons_ne_nil _ _) (piece_kind_ne hk) covered
          rwa [← whole] at token
termination_by _ text => text.length
decreasing_by
  simp only [List.length_cons, List.length_drop]
  omega

/-- Every text is covered by its tokens. -/
theorem scan_covers (source : String) : Covers [] source.toList (scan source) :=
  scanFrom_covers [] source.toList

end Token

end Scriptlet
