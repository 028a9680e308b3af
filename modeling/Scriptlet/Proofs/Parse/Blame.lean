import Scriptlet.Proofs.Parse.Stopping

/-! # The order in which faults are found

Every fault blames a token. A rule that gets over faults goes on behind the tokens it blamed, so the
faults of a log blame tokens from the front to the back. Only the end of the tokens can be blamed
again and again. -/

namespace Scriptlet.Parse

/-- `Blamed us log rest`: the faults blame tokens of `us` from the front to the back, and those of
`rest` lie behind them. -/
inductive Blamed : List Token → List Fault → List Token → Prop where
  | nil {us rest} : rest <:+ us → Blamed us [] rest
  | token {us t behind fault log rest} : t :: behind <:+ us → fault.pos = some t.pos →
      Blamed behind log rest → Blamed us (fault :: log) rest
  | atEnd {us fault log rest} : fault.pos = none → Blamed [] log rest →
      Blamed us (fault :: log) rest

variable {α β : Type} {n : Nat} {us rest : List Token} {log : List Fault}

namespace Blamed

theorem rest_suffix (h : Blamed us log rest) : rest <:+ us := by
  induction h with
  | nil suffix => exact suffix
  | token suffix _ _ ih => exact ih.trans ((List.suffix_cons _ _).trans suffix)
  | atEnd _ _ ih => exact ih.trans (List.nil_suffix)

theorem of_suffix {vs : List Token} (h : Blamed us log rest) (suffix : us <:+ vs) :
    Blamed vs log rest := by
  cases h with
  | nil left => exact .nil (left.trans suffix)
  | token place blamed later => exact .token (place.trans suffix) blamed later
  | atEnd blamed later => exact .atEnd blamed later

theorem trans {mid : List Token} {log' : List Fault} (h : Blamed us log mid)
    (h' : Blamed mid log' rest) : Blamed us (log ++ log') rest := by
  induction h with
  | nil suffix => exact h'.of_suffix suffix
  | token place blamed _ ih => exact .token place blamed (ih h')
  | atEnd blamed _ ih => exact .atEnd blamed (ih h')

theorem shrink {left : List Token} (h : Blamed us log rest) (suffix : left <:+ rest) :
    Blamed us log left := by
  have later := h.trans (.nil suffix)
  rwa [List.append_nil] at later

end Blamed

theorem synchronize_suffix (us : List Token) : synchronize us <:+ us.tail := by
  induction us with
  | nil => exact List.suffix_rfl
  | cons t us ih =>
      rw [synchronize]
      split
      · exact List.suffix_rfl
      · exact ih.trans (List.tail_suffix us)

/-! ## Answers -/

/-- The faults of an answer are in order. Reading goes on in `rest`, or behind the token where the
last fault was noticed; the end is blamed only there. -/
def Attempt.Orderly (us : List Token) (a : Attempt α n) : Prop :=
  match a.result with
  | .ok _ rest _ => Blamed us a.log rest
  | .error fault rest _ =>
      rest <:+ us ∧ Blamed us (a.log ++ [fault]) rest.tail ∧ (fault.pos = none → rest = [])

namespace Attempt.Orderly

variable {a : Attempt α n}

theorem rest_suffix (h : a.Orderly us) : a.result.rest <:+ us := by
  obtain ⟨log, result⟩ := a
  cases result with
  | ok => exact Blamed.rest_suffix h
  | error => exact h.1

theorem of_suffix {vs : List Token} (h : a.Orderly us) (suffix : us <:+ vs) : a.Orderly vs := by
  obtain ⟨log, result⟩ := a
  cases result with
  | ok => exact Blamed.of_suffix h suffix
  | error => exact ⟨h.1.trans suffix, h.2.1.of_suffix suffix, h.2.2⟩

theorem done (value : α) (us : List Token) : (clean (.done value us)).Orderly us :=
  Blamed.nil List.suffix_rfl

/-- The next token is blamed. -/
theorem fail {t : Token} (cause : SyntaxCause) (us : List Token) :
    (clean (.fail ⟨cause, some t.pos⟩ (t :: us)) : Attempt α _).Orderly (t :: us) :=
  ⟨List.suffix_rfl, .token List.suffix_rfl rfl (.nil List.suffix_rfl), by simp⟩

theorem fail_nil (cause : SyntaxCause) :
    (clean (.fail ⟨cause, none⟩ []) : Attempt α _).Orderly [] :=
  ⟨List.suffix_rfl, .atEnd rfl (.nil List.suffix_rfl), fun _ => rfl⟩

theorem succ (h : a.Orderly us) : a.succ.Orderly us := by
  obtain ⟨log, result⟩ := a
  cases result with
  | ok => exact h
  | error => exact h

theorem map (h : a.Orderly us) (f : α → β) : (a.map f).Orderly us := by
  obtain ⟨log, result⟩ := a
  cases result with
  | ok => exact h
  | error => exact h

theorem andThen {f : α → (rest : List Token) → rest.length < n → Attempt β (rest.length + 1)}
    (h : a.Orderly us) (next : ∀ value rest shorter, a.result = .ok value rest shorter →
      (f value rest shorter).Orderly rest) : (a.andThen f).Orderly us := by
  obtain ⟨log, result⟩ := a
  cases result with
  | error => exact h
  | ok value rest shorter =>
      have first : Blamed us log rest := h
      have second := next value rest shorter rfl
      simp only [Attempt.andThen]
      generalize f value rest shorter = answer at second
      obtain ⟨log', result'⟩ := answer
      cases result' with
      | ok => exact first.trans second
      | error =>
          refine ⟨second.1.trans first.rest_suffix, ?_, second.2.2⟩
          simpa only [List.append_assoc] using first.trans second.2.1

/-- A token that was taken is judged after what comes behind it has been read. -/
theorem judged {p : Parsed α n} {t : Token}
    {g : α → (rest : List Token) → rest.length < n → Parsed β (rest.length + 1)}
    (h : (clean p).Orderly us) (cause : SyntaxCause) (next : ∀ value rest shorter,
      (∃ result, g value rest shorter = .done result rest) ∨
        g value rest shorter = (Parsed.fail ⟨cause, some t.pos⟩ rest).succ) :
    (clean (p.andThen g)).Orderly (t :: us) := by
  cases p with
  | error => exact h.of_suffix (List.suffix_cons t us)
  | ok value rest shorter =>
      have suffix : rest <:+ us := h.rest_suffix
      have left := suffix.trans (List.suffix_cons t us)
      rw [Parsed.andThen]
      rcases next value rest shorter with ⟨result, kept⟩ | rejected
      · rw [kept]
        exact Blamed.nil left
      · rw [rejected]
        have behind := (List.tail_suffix rest).trans suffix
        exact ⟨left, .token List.suffix_rfl rfl (.nil behind), by simp⟩

end Attempt.Orderly

/-! ## Sequences -/

namespace Attempt

variable (a : Attempt α n)

/-- What an attempt leaves for the sequence in which it is made. -/
def kept : Option α :=
  match a.result with
  | .ok value _ _ => some value
  | .error .. => none

def faults : List Fault :=
  match a.result with
  | .ok .. => a.log
  | .error fault .. => a.log ++ [fault]

/-- The tokens with which the sequence goes on. -/
def resumed : List Token :=
  match a.result with
  | .ok _ rest _ => rest
  | .error _ rest _ => synchronize rest

theorem Orderly.settled {a : Attempt α n} (h : a.Orderly us) : Blamed us a.faults a.resumed := by
  obtain ⟨log, result⟩ := a
  cases result with
  | ok => exact h
  | error => exact h.2.1.shrink (synchronize_suffix _)

end Attempt

theorem Attempt.resumed_lt {t : Token} {ts : List Token} (a : Attempt α (t :: ts).length) :
    a.resumed.length < (t :: ts).length := by
  obtain ⟨log, result⟩ := a
  cases result with
  | ok _ _ shorter => exact shorter
  | error _ _ bounded => exact synchronize_lt bounded

/-- A sequence that has not come to its end starts with an attempt and goes on behind it. -/
theorem sequence_cons {rule : UpTo Attempt α n} {closes : Token → Bool} {t : Token}
    {ts : List Token} {h : (t :: ts).length ≤ n} {first : Attempt α (t :: ts).length}
    (made : rule (t :: ts) h = first) (going : closes t = false) :
    let next := sequence rule closes first.resumed (le_of_lt_of_le first.resumed_lt h)
    let whole := sequence rule closes (t :: ts) h
    whole.items = first.kept.toList ++ next.items ∧ whole.log = first.faults ++ next.log ∧
      whole.rest = next.rest := by
  obtain ⟨log, result⟩ := first
  rw [sequence]
  simp only [going, made]
  cases result with
  | ok => exact ⟨rfl, rfl, rfl⟩
  | error => exact ⟨rfl, List.append_cons .., rfl⟩

end Scriptlet.Parse
