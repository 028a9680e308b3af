import Scriptlet.Proofs.Token.Munch

/-! # Parenthesised text

Words, quoted texts and groups in parentheses. A quoted text is copied as it is, and may have
blanks, parentheses and quotes in it; still there is one way only to read the text of a form. -/

namespace Scriptlet

open Token

/-- What parenthesised text is made of. -/
inductive Form where
  | word (text : String)
  | quoted (text : String)
  | group (items : List Form)

namespace Form

mutual

/-- The text of a form. The items of a group stand in parentheses with spaces between them. -/
def text : Form → List Char
  | .word s => s.toList
  | .quoted s => '"' :: (s.toList ++ ['"'])
  | .group items => '(' :: ((textAfter ' ' items).tail ++ [')'])

def textAfter (separator : Char) : List Form → List Char
  | [] => []
  | f :: fs => separator :: (f.text ++ textAfter separator fs)

end

section

variable (f : Form) (fs : List Form) (s : String) (separator : Char)

@[simp] theorem text_word : (word s).text = s.toList := by
  rw [text]

@[simp] theorem text_quoted : (quoted s).text = '"' :: (s.toList ++ ['"']) := by
  rw [text]

@[simp] theorem text_group_nil : (group []).text = ['(', ')'] := by
  simp [text, textAfter]

@[simp] theorem text_group_cons :
    (group (f :: fs)).text = '(' :: (f.text ++ (textAfter ' ' fs ++ [')'])) := by
  rw [text, textAfter, List.tail_cons, List.append_assoc]

@[simp] theorem textAfter_nil : textAfter separator [] = [] := by
  rw [textAfter]

@[simp] theorem textAfter_cons :
    textAfter separator (f :: fs) = separator :: (f.text ++ textAfter separator fs) := by
  rw [textAfter]

/-- Without the first separator, one stands between each two. -/
theorem tail_textAfter : (textAfter separator fs).tail = [separator].intercalate (fs.map text) := by
  cases fs with
  | nil => simp
  | cons f fs =>
      induction fs generalizing f with
      | nil => simp
      | cons g fs ih =>
          have later := ih g
          rw [textAfter_cons, List.tail_cons] at later
          simp [later]

end

def lines (forms : List Form) : List Char :=
  (textAfter '\n' forms).tail

/-! ## Legible forms -/

/-- The characters that end a word. -/
def breaks : List Char := [' ', '\n', '(', ')', '"']

/-- A text without a character that would end it. -/
def IsWord (s : String) : Prop :=
  s ≠ "" ∧ ∀ c ∈ s.toList, c ∉ breaks

instance (s : String) : Decidable (IsWord s) :=
  decidable_of_iff (s ≠ "" ∧ s.toList.all fun c => !breaks.contains c) (by simp [IsWord])

/-- Characters of a class that has no break in it. -/
theorem not_mem_breaks {p : Char → Bool} (table : breaks.all fun c => !p c) {c : Char} (h : p c) :
    c ∉ breaks := by
  intro mem
  simpa [h] using List.all_eq_true.mp table c mem

mutual

/-- Words are words, and quoted texts have no quote in them that would close them. The last quoted
text of all may take its own closing quote along. -/
def Legible : Form → Bool → Prop
  | .word s, _ => IsWord s
  | .quoted s, last =>
      Unclosed s.toList ∨ last ∧ ∃ cs, Unclosed cs ∧ s.toList = cs ++ ['\\']
  | .group items, last => LegibleEach items last

@[inherit_doc Legible]
def LegibleEach : List Form → Bool → Prop
  | [], _ => True
  | f :: fs, last => f.Legible (last && fs.isEmpty) ∧ LegibleEach fs last

end

section

variable {f : Form} {fs : List Form} {s : String} {last : Bool}

@[simp] theorem legible_word : (word s).Legible last ↔ IsWord s := Iff.rfl

@[simp] theorem legible_group : (group fs).Legible last ↔ LegibleEach fs last := Iff.rfl

@[simp] theorem legibleEach_nil : LegibleEach [] last := trivial

@[simp] theorem legibleEach_cons :
    LegibleEach (f :: fs) last ↔ f.Legible (last && fs.isEmpty) ∧ LegibleEach fs last := Iff.rfl

theorem legibleEach_singleton (h : f.Legible last) : LegibleEach [f] last := by
  simpa using h

end

/-- What may follow a form: what ends a word, and only closing parentheses after the last form. -/
def Ends : Bool → List Char → Prop
  | false, cs => ∀ c ∈ cs.head?, c ∈ breaks
  | true, cs => ∀ c ∈ cs, c = ')'

variable {f g : Form} {fs gs : List Form} {last last' : Bool} {k k' : List Char}

theorem Ends.head (h : Ends last k) : ∀ c ∈ k.head?, c ∈ breaks := by
  cases last with
  | false => exact h
  | true =>
      intro c first
      obtain ⟨tail, rfl⟩ := List.head?_eq_some_iff.mp first
      rw [h c List.mem_cons_self]
      decide

/-! ## Words -/

theorem word_append_inj {s t : String} (hs : IsWord s) (ht : IsWord t)
    (hk : ∀ c ∈ k.head?, c ∈ breaks) (hk' : ∀ c ∈ k'.head?, c ∈ breaks)
    (same : s.toList ++ k = t.toList ++ k') : s = t ∧ k = k' := by
  have stop {s : String} {k : List Char} (word : IsWord s) (ends : ∀ c ∈ k.head?, c ∈ breaks) :
      (s.toList ++ k).takeWhile (· ∉ breaks) = s.toList := by
    refine takeWhile_append_stop ?_ ?_
    · simpa using word.2
    · simpa using ends
  have words : s.toList = t.toList := by rw [← stop hs hk, same, stop ht hk']
  rw [words] at same
  exact ⟨String.toList_injective words, List.append_cancel_left same⟩

/-! ## Quoted texts -/

theorem unclosed_append {cs ds : List Char} (h : Unclosed cs) (h' : Unclosed ds) :
    Unclosed (cs ++ ds) := by
  induction h with
  | nil => exact h'
  | plain quote backslash _ ih => exact .plain quote backslash ih
  | pair _ ih => exact .pair ih

theorem unclosed_of_cons {c : Char} {cs : List Char} (h : Unclosed (c :: cs))
    (plain : c ≠ '\\') : c ≠ '"' ∧ Unclosed cs := by
  cases h with
  | plain quote _ rest => exact ⟨quote, rest⟩
  | pair => exact (plain rfl).elim

theorem unclosed_of_pair {c : Char} {cs : List Char} (h : Unclosed ('\\' :: c :: cs)) :
    Unclosed cs := by
  cases h with
  | plain _ backslash => exact (backslash rfl).elim
  | pair rest => exact rest

/-- A quote after a text that does not close closes it. -/
theorem not_unclosed_append_quote {cs : List Char} (h : Unclosed cs) (k : List Char) :
    ¬ Unclosed (cs ++ '"' :: k) := by
  intro whole
  induction h with
  | nil => exact (unclosed_of_cons whole (by decide)).1 rfl
  | plain _ backslash _ ih => exact ih (unclosed_of_cons whole backslash).2
  | pair _ ih => exact ih (unclosed_of_pair whole)

theorem unclosed_parentheses (h : ∀ c ∈ k, c = ')') : Unclosed k := by
  induction k with
  | nil => exact .nil
  | cons c k ih =>
      obtain rfl := h c List.mem_cons_self
      exact .plain (by decide) (by decide) (ih fun d mem => h d (List.mem_cons_of_mem _ mem))

theorem closed_append_inj {cs ds : List Char} (hs : Unclosed cs) (ht : Unclosed ds)
    (same : cs ++ '"' :: k = ds ++ '"' :: k') : cs = ds ∧ k = k' := by
  have tail {cs : List Char} (h : Unclosed cs) (k : List Char) :
      stringTail (cs ++ '"' :: k) = cs.length + 1 := by
    rw [stringTail_unclosed h, stringTail]
  have length : cs.length = ds.length := by
    have := tail hs k
    rw [same, tail ht] at this
    omega
  obtain ⟨rfl, rest⟩ := List.append_inj same length
  exact ⟨rfl, (List.cons.inj rest).2⟩

/-- In front of closing parentheses the last quote is the closing one. -/
theorem last_append_inj {cs ds : List Char} (hk : ∀ c ∈ k, c = ')') (hk' : ∀ c ∈ k', c = ')')
    (same : cs ++ '"' :: k = ds ++ '"' :: k') : cs = ds ∧ k = k' := by
  have stop {cs k : List Char} (ends : ∀ c ∈ k, c = ')') :
      (cs ++ '"' :: k).reverse.takeWhile (· = ')') = k.reverse := by
    rw [List.reverse_append, List.reverse_cons, List.append_assoc]
    refine takeWhile_append_stop ?_ (by simp)
    simpa using ends
  have ends : k = k' := by
    rw [← List.reverse_inj, ← stop hk, same, stop hk']
  subst ends
  exact ⟨List.append_cancel_right same, rfl⟩

/-- The text takes no quote along that another form closes with. -/
theorem escaping_append_ne {cs ds : List Char} (hs : Unclosed cs) (ht : Unclosed ds)
    (hk' : ∀ c ∈ k', c = ')') : cs ++ '"' :: k ≠ ds ++ ['\\'] ++ '"' :: k' := by
  intro same
  refine not_unclosed_append_quote hs k ?_
  rw [same, List.append_assoc]
  exact unclosed_append ht (.pair (unclosed_parentheses hk'))

theorem quoted_append_inj {s t : String} (hs : (quoted s).Legible last)
    (ht : (quoted t).Legible last') (hk : Ends last k) (hk' : Ends last' k')
    (same : s.toList ++ '"' :: k = t.toList ++ '"' :: k') : s = t ∧ k = k' := by
  have texts : s.toList = t.toList ∧ k = k' := by
    rcases hs with hs | ⟨rfl, cs, hs, escaping⟩
    · rcases ht with ht | ⟨rfl, ds, ht, escaping'⟩
      · exact closed_append_inj hs ht same
      · rw [escaping'] at same
        exact (escaping_append_ne hs ht hk' same).elim
    · rcases ht with ht | ⟨rfl, ds, ht, escaping'⟩
      · rw [escaping] at same
        exact (escaping_append_ne ht hs hk same.symm).elim
      · exact last_append_inj hk hk' same
  exact ⟨String.toList_injective texts.1, texts.2⟩

/-! ## Unique reading -/

theorem exists_head_of_word {s : String} (h : IsWord s) :
    ∃ c cs, s.toList = c :: cs ∧ c ∉ breaks := by
  obtain ⟨c, cs, text⟩ := List.exists_cons_of_ne_nil (mt String.toList_eq_nil_iff.mp h.1)
  exact ⟨c, cs, text, h.2 c (by rw [text]; exact List.mem_cons_self)⟩

/-- A form does not start like what closes a group. -/
theorem exists_head (h : f.Legible last) : ∃ c cs, f.text = c :: cs ∧ c ≠ ')' := by
  cases f with
  | word s =>
      obtain ⟨c, cs, text, plain⟩ := exists_head_of_word h
      refine ⟨c, cs, text, ?_⟩
      rintro rfl
      exact plain (by decide)
  | quoted s => exact ⟨'"', _, rfl, by decide⟩
  | group items => exact ⟨'(', _, rfl, by decide⟩

theorem word_append_ne {s : String} (h : IsWord s) {c : Char} (mem : c ∈ breaks) :
    s.toList ++ k ≠ c :: k' := by
  obtain ⟨d, cs, text, plain⟩ := exists_head_of_word h
  intro same
  rw [text] at same
  exact plain ((List.cons.inj same).1 ▸ mem)

/-- What follows an item of a list ends it. -/
theorem ends_textAfter {separator : Char} (blank : separator ∈ breaks) (hk : Ends last k) :
    Ends (last && fs.isEmpty) (textAfter separator fs ++ k) := by
  cases fs with
  | nil => simpa [textAfter] using hk
  | cons f fs =>
      rw [List.isEmpty_cons, Bool.and_false]
      intro c first
      obtain rfl : separator = c := by simpa [textAfter] using first
      exact blank

/-- Lists of items with separators between them are told apart as those with one in front of
each. -/
theorem textAfter_of_tail {separator : Char} (hs : LegibleEach fs last) (ht : LegibleEach gs last')
    (close : ∀ c ∈ k.head?, c = ')') (close' : ∀ c ∈ k'.head?, c = ')')
    (same : (textAfter separator fs).tail ++ k = (textAfter separator gs).tail ++ k') :
    textAfter separator fs ++ k = textAfter separator gs ++ k' := by
  have apart {f : Form} {fs : List Form} {last : Bool} {k k' : List Char}
      (h : LegibleEach (f :: fs) last) (close : ∀ c ∈ k.head?, c = ')') :
      k ≠ (textAfter separator (f :: fs)).tail ++ k' := by
    obtain ⟨c, cs, text, other⟩ := exists_head h.1
    rintro rfl
    exact other (close c (by simp [textAfter, text]))
  cases fs with
  | nil =>
      cases gs with
      | nil => exact same
      | cons g gs => exact (apart ht close same).elim
  | cons f fs =>
      cases gs with
      | nil => exact (apart hs close' same.symm).elim
      | cons g gs => exact congrArg (separator :: ·) same

mutual

theorem text_append_inj : ∀ (f g : Form) {last last' : Bool} {k k' : List Char},
    f.Legible last → g.Legible last' → Ends last k → Ends last' k' →
    f.text ++ k = g.text ++ k' → f = g ∧ k = k'
  | .word s, .word t, _, _, _, _, hs, ht, hk, hk', same => by
      obtain ⟨rfl, rest⟩ := word_append_inj hs ht hk.head hk'.head same
      exact ⟨rfl, rest⟩
  | .word s, .quoted t, _, _, _, _, hs, _, _, _, same =>
      (word_append_ne hs (by decide) same).elim
  | .word s, .group items, _, _, _, _, hs, _, _, _, same =>
      (word_append_ne hs (by decide) same).elim
  | .quoted s, .word t, _, _, _, _, _, ht, _, _, same =>
      (word_append_ne ht (by decide) same.symm).elim
  | .quoted s, .quoted t, _, _, _, _, hs, ht, hk, hk', same => by
      simp only [text, List.cons_append, List.append_assoc, List.nil_append, List.cons.injEq,
        true_and] at same
      obtain ⟨rfl, rest⟩ := quoted_append_inj hs ht hk hk' same
      exact ⟨rfl, rest⟩
  | .quoted s, .group items, _, _, _, _, _, _, _, _, same => by
      cases (List.cons.inj same).1
  | .group items, .word t, _, _, _, _, _, ht, _, _, same =>
      (word_append_ne ht (by decide) same.symm).elim
  | .group items, .quoted t, _, _, _, _, _, _, _, _, same => by
      cases (List.cons.inj same).1
  | .group items, .group items', last, last', k, k', hs, ht, hk, hk', same => by
      simp only [text, List.cons_append, List.append_assoc, List.nil_append, List.cons.injEq,
        true_and] at same
      have ends {last : Bool} {k : List Char} (h : Ends last k) : Ends last (')' :: k) := by
        cases last with
        | false => simp [Ends, breaks]
        | true => exact fun c mem => (List.mem_cons.mp mem).elim id (h c)
      have whole := textAfter_of_tail hs ht (by simp) (by simp) same
      obtain ⟨rfl, rest⟩ := textAfter_append_inj items items' (by decide) (by decide) hs ht
        (ends hk) (ends hk') (by simp) (by simp) whole
      exact ⟨rfl, (List.cons.inj rest).2⟩

theorem textAfter_append_inj : ∀ (fs gs : List Form) {separator : Char} {last last' : Bool}
    {k k' : List Char}, separator ∈ breaks → separator ≠ ')' →
    LegibleEach fs last → LegibleEach gs last' → Ends last k → Ends last' k' →
    (∀ c ∈ k.head?, c = ')') → (∀ c ∈ k'.head?, c = ')') →
    textAfter separator fs ++ k = textAfter separator gs ++ k' → fs = gs ∧ k = k'
  | [], [], _, _, _, _, _, _, _, _, _, _, _, _, _, same => ⟨rfl, same⟩
  | [], g :: gs, _, _, _, _, _, _, other, _, _, _, _, close, _, same => by
      rw [textAfter, List.nil_append] at same
      exact (other (close _ (by rw [same]; rfl))).elim
  | f :: fs, [], _, _, _, _, _, _, other, _, _, _, _, _, close', same => by
      rw [textAfter, textAfter, List.nil_append] at same
      exact (other (close' _ (by rw [← same]; rfl))).elim
  | f :: fs, g :: gs, _, _, _, _, _, blank, other, hs, ht, hk, hk', close, close', same => by
      simp only [textAfter, List.cons_append, List.append_assoc, List.cons.injEq,
        true_and] at same
      obtain ⟨rfl, rest⟩ := text_append_inj f g hs.1 ht.1 (ends_textAfter blank hk)
        (ends_textAfter blank hk') same
      obtain ⟨rfl, ends⟩ := textAfter_append_inj fs gs blank other hs.2 ht.2 hk hk' close close'
        rest
      exact ⟨rfl, ends⟩

end

/-- The lines of legible forms can be read in one way only. -/
theorem lines_injective (hs : LegibleEach fs true) (ht : LegibleEach gs true)
    (same : lines fs = lines gs) : fs = gs := by
  have whole : textAfter '\n' fs ++ [] = textAfter '\n' gs ++ [] := by
    refine textAfter_of_tail hs ht (by simp) (by simp) ?_
    rw [List.append_nil, List.append_nil]
    exact same
  exact (textAfter_append_inj fs gs (by decide) (by decide) hs ht (by simp [Ends]) (by simp [Ends])
    (by simp) (by simp) whole).1

end Form

end Scriptlet
