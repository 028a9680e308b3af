import Scriptlet.Proofs.Eval.Places
import Scriptlet.Proofs.Token.Coverage

/-! # Reports point into the source

Whatever is reported about a text, whether a statement is rejected or an error stops the script, is
reported for a token of the text. -/

namespace Scriptlet

/-! ## Tokens of a text -/

namespace Token

theorem Covers.exists_front {before text : List Char} {ts : List Token}
    (h : Covers before text ts) :
    ∀ t ∈ ts, ∃ front, front <+: text ∧ t.pos = .after (before ++ front) := by
  induction h with
  | last _ _ _ pos => exact fun t mem => ⟨_, List.prefix_rfl, List.mem_singleton.mp mem ▸ pos⟩
  | @token before gap rest t ts _ _ _ pos _ ih =>
      intro t' mem
      rcases List.mem_cons.mp mem with rfl | later
      · exact ⟨gap, List.prefix_append _ _, pos⟩
      · obtain ⟨front, inside, pos⟩ := ih t' later
        refine ⟨gap ++ (t.lexeme.toList ++ front), ?_, ?_⟩
        · exact (List.prefix_append_right_inj _).mpr ((List.prefix_append_right_inj _).mpr inside)
        · rw [pos, List.append_assoc, List.append_assoc]

theorem Covers.exists_end {before text : List Char} {ts : List Token} (h : Covers before text ts) :
    ∃ t ∈ ts, t.kind = .endOfInput := by
  induction h with
  | last _ kind => exact ⟨_, List.mem_singleton_self _, kind⟩
  | token _ _ _ _ _ ih =>
      obtain ⟨t, mem, kind⟩ := ih
      exact ⟨t, List.mem_cons_of_mem _ mem, kind⟩

def IsPlace (ts : List Token) (p : Position) : Prop :=
  ∃ t ∈ ts, t.pos = p

theorem isPlace_of_mem (ts : List Token) : ∀ t ∈ ts, IsPlace ts t.pos :=
  fun t mem => ⟨t, mem, rfl⟩

/-- The line of a token is one of the lines of the text. -/
theorem line_of_mem_scan {source : String} {t : Token} (mem : t ∈ scan source) :
    1 ≤ t.pos.line ∧ t.pos.line ≤ 1 + source.toList.count '\n' := by
  obtain ⟨front, inside, pos⟩ := (scanFrom_covers [] source.toList).exists_front t mem
  have bounded := inside.sublist.count_le '\n'
  rw [pos]
  exact ⟨Nat.le_add_right 1 _, Nat.add_le_add_left bounded 1⟩

end Token

/-! ## Reports -/

def ScriptError.line : ScriptError → Nat
  | rejected d => d.pos.line
  | stopped e => e.line

namespace Session

/-- What is reported about a text is what was rejected and what stopped the program. -/
theorem mem_errors_of_run {fuel : Nat} {source : String} {m n : Machine}
    {errors : List ScriptError} (h : run fuel source m = .ok errors n) {error : ScriptError}
    (mem : error ∈ errors) :
    (∃ d ∈ (Script.ofSource source).diagnostics, error = .rejected d) ∨
      ∃ e n, executeAll fuel (Script.ofSource source).program m = .error (.failed e) n ∧
        error = .stopped e := by
  simp only [run, Bind.bind, EStateM.bind, interpret_eq] at h
  cases ended : executeAll fuel (Script.ofSource source).program m with
  | ok a n =>
      simp only [ended] at h
      obtain ⟨rfl, rfl⟩ := EStateM.Result.ok.inj h
      obtain ⟨d, inside, rfl⟩ := List.mem_map.mp mem
      exact .inl ⟨d, inside, rfl⟩
  | error halt n =>
      simp only [ended] at h
      cases halt with
      | exhausted => cases h
      | failed e =>
          obtain ⟨rfl, rfl⟩ := EStateM.Result.ok.inj h
          rcases List.mem_append.mp mem with rejected | stopped
          · obtain ⟨d, inside, rfl⟩ := List.mem_map.mp rejected
            exact .inl ⟨d, inside, rfl⟩
          · exact .inr ⟨e, n, rfl, List.mem_singleton.mp stopped⟩

/-- Every place in a program is the place of one of its tokens. What is reported when a fresh
interpreter runs a text stands at the place of a token of the text, or on its line if the script was
stopped; so its line is one of the lines of the text, and it is not the place that stands for
none. -/
theorem reports_point_into_source :
    (∀ ts : List Token, ∀ p ∈ (Script.ofTokens ts).program.positions, ∃ t ∈ ts, t.pos = p) ∧
    ∀ (fuel : Nat) (source : String) (console : Console) (errors : List ScriptError) (m : Machine),
      run fuel source (.fresh console) = .ok errors m →
        (∀ d, .rejected d ∈ errors → d.pos ≠ ⟨0, 0⟩ ∧ ∃ t ∈ Token.scan source, t.pos = d.pos) ∧
        (∀ e, .stopped e ∈ errors → ∃ t ∈ Token.scan source, t.pos.line = e.line) ∧
        ∀ error ∈ errors, 1 ≤ error.line ∧ error.line ≤ 1 + source.toList.count '\n' := by
  constructor
  · intro ts p mem
    obtain ⟨s, inside, mem⟩ := Stmt.mem_positionsEach.mp mem
    exact (Script.program_lies (Token.isPlace_of_mem ts) s inside).2 p mem
  · intro fuel source console errors m h
    have tokens := Token.isPlace_of_mem (Token.scan source)
    have ends := (Token.scanFrom_covers [] source.toList).exists_end
    have rejected : ∀ d, .rejected d ∈ errors → ∃ t ∈ Token.scan source, t.pos = d.pos := by
      intro d mem
      rcases mem_errors_of_run h mem with ⟨d', mem, same⟩ | ⟨e, n, -, other⟩
      · obtain rfl := ScriptError.rejected.inj same
        exact Script.diagnostics_lie tokens ends d mem
      · cases other
    have stopped : ∀ e, .stopped e ∈ errors → ∃ t ∈ Token.scan source, t.pos.line = e.line := by
      intro e mem
      rcases mem_errors_of_run h mem with ⟨d, -, other⟩ | ⟨e', n, failed, same⟩
      · cases other
      · obtain rfl := ScriptError.stopped.inj same
        have left : Eval.LeavesLying _ (executeAll fuel (Script.ofSource source).program _) :=
          leavesLying_executeAll (Machine.lies_fresh console) (Script.program_lies tokens) fuel
        rw [failed] at left
        obtain ⟨-, ⟨p, ⟨t, mem, rfl⟩, line⟩, -⟩ := left
        exact ⟨t, mem, line⟩
    refine ⟨fun d mem => ⟨?_, rejected d mem⟩, stopped, fun error mem => ?_⟩
    · obtain ⟨t, inside, pos⟩ := rejected d mem
      rintro none
      have first := (Token.line_of_mem_scan inside).1
      rw [pos, none] at first
      cases first
    · cases error with
      | rejected d =>
          obtain ⟨t, inside, pos⟩ := rejected d mem
          rw [ScriptError.line, ← pos]
          exact Token.line_of_mem_scan inside
      | stopped e =>
          obtain ⟨t, inside, line⟩ := stopped e mem
          rw [ScriptError.line, ← line]
          exact Token.line_of_mem_scan inside

/-- A declaration without a name on the first line, and a call of nothing on the second. -/
theorem reports_point_into_source_two :
    let source := "var ;\nf();"
    let rejected : Diagnostic := ⟨.expected .variableName, ⟨1, 5⟩⟩
    let stopped : RuntimeError := ⟨.undefinedVariable "f", 2⟩
    (∃ m, run 9 source (.fresh {}) = .ok [.rejected rejected, .stopped stopped] m) ∧
      (∃ t ∈ Token.scan source, t.pos = rejected.pos) ∧
      ∃ t ∈ Token.scan source, t.pos.line = stopped.line := by
  intro source rejected stopped
  have answer : Eval.answer? (run 9 source (.fresh {})) =
      some [.rejected rejected, .stopped stopped] := by decide +kernel
  obtain ⟨m, ran⟩ := Eval.answer?_eq_some.mp answer
  have ⟨read, raised, _⟩ := reports_point_into_source.2 9 source {} _ m ran
  exact ⟨⟨m, ran⟩, (read rejected (by simp)).2, raised stopped (by simp)⟩

end Session

end Scriptlet
