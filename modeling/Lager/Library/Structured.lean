import Mathlib.Data.List.Induction
import Mathlib.Data.List.TakeWhile
import Mathlib.Data.String.Basic
import Mathlib.Tactic.Common

set_option relaxedAutoImplicit false
set_option autoImplicit false

/-!
# Structured header fields

The body of a structured header field is a sequence of lexemes: special characters, quoted strings
and atoms, with blanks and comments between them. In quoted strings and comments a backslash takes
the character behind it as it is. Fields with parameters have an atom first, and then the
parameters, each a name with a value behind a semicolon.

The lexer reads one character after the other; what it is in the middle of is its mode. Which
characters may stand in quoted strings and comments is a parameter.

## Main definitions

* `Library.Structured.Mode`, `Library.Structured.step`, `Library.Structured.run` — the lexer.
* `Library.Structured.lex` — the lexemes of a text.
* `Library.Structured.parseField` — the parameters of a field.
* `Library.Structured.backslashes` — how many backslashes a text ends in.

## Main results

* `Library.Structured.run_append` — the lexemes of two texts.
* `Library.Structured.run_quoted` — a text without quotes leaves the lexer in the quoted string, or
  in a pair of it, by the number of backslashes it ends in.
* `Library.Structured.conclude_quoted` — where a quoted string ends, and what its value is.
* `Library.Structured.conclude_lone_quote` — a text with one quote, at its end, has no lexemes.
-/

namespace Library.Structured

/-! ## The lexer -/

/-- A lexeme. -/
inductive Lexeme
  | special (c : Char)
  | quoted (s : List Char)
  | atom (s : List Char)
  deriving DecidableEq, Repr

/-- What a lexer is in the middle of, and what it has of it. -/
inductive Mode
  | plain
  | atom (s : List Char)
  | quoted (s : List Char)
  | quotedPair (s : List Char)
  | comment (depth : ℕ)
  | commentPair (depth : ℕ)
  deriving DecidableEq, Repr

/-- The blanks between lexemes. -/
def isBlank (c : Char) : Bool := c == ' ' || c == '\t'

/-- The characters that are lexemes of their own. -/
def isSpecial (c : Char) : Bool :=
  c ∈ ['(', ')', '<', '>', '@', ',', ';', ':', '\\', '"', '/', '[', ']', '?', '=']

/-- The characters of atoms. -/
def isAtomChar (c : Char) : Bool := 33 ≤ c.toNat && c.toNat < 127 && !isSpecial c

/-- A character between lexemes. -/
def stepPlain (c : Char) : Option (Mode × List Lexeme) :=
  if isBlank c then some (.plain, [])
  else if c = '"' then some (.quoted [], [])
  else if c = '(' then some (.comment 0, [])
  else if isSpecial c then some (.plain, [.special c])
  else if isAtomChar c then some (.atom [c], [])
  else none

/-- One character more: the new mode, and the lexemes that are done. -/
def step (text : Char → Bool) : Mode → Char → Option (Mode × List Lexeme)
  | .plain, c => stepPlain c
  | .atom s, c =>
    if isAtomChar c then some (.atom (s ++ [c]), [])
    else (stepPlain c).map fun p => (p.1, .atom s :: p.2)
  | .quoted s, c =>
    if text c = false ∨ c = '\r' then none
    else if c = '"' then some (.plain, [.quoted s])
    else if c = '\\' then some (.quotedPair s, [])
    else some (.quoted (s ++ [c]), [])
  | .quotedPair s, c => if text c then some (.quoted (s ++ [c]), []) else none
  | .comment depth, c =>
    if text c = false ∨ c = '\r' then none
    else if c = '(' then some (.comment (depth + 1), [])
    else if c = ')' then some (if depth = 0 then .plain else .comment (depth - 1), [])
    else if c = '\\' then some (.commentPair depth, [])
    else some (.comment depth, [])
  | .commentPair depth, c => if text c then some (.comment depth, []) else none

/-- The mode behind a text, and the lexemes that are done. -/
def run (text : Char → Bool) : Mode → List Char → Option (Mode × List Lexeme)
  | mode, [] => some (mode, [])
  | mode, c :: rest =>
    (step text mode c).bind fun p => (run text p.1 rest).map fun q => (q.1, p.2 ++ q.2)

/-- The lexemes at the end of a text. -/
def finish : Mode → Option (List Lexeme)
  | .plain => some []
  | .atom s => some [.atom s]
  | _ => none

/-- The lexemes of the rest of a text, from a mode. -/
def conclude (text : Char → Bool) (mode : Mode) (s : List Char) : Option (List Lexeme) :=
  (run text mode s).bind fun p => (finish p.1).map (p.2 ++ ·)

/-- The lexemes of a text. -/
def lex (text : Char → Bool) (s : List Char) : Option (List Lexeme) := conclude text .plain s

/-! ## Parameters -/

/-- The parameters of a field, by their lexemes. -/
def parseParameters : List Lexeme → Option (List (List Char × List Char))
  | [] => some []
  | .special ';' :: .atom name :: .special '=' :: .quoted value :: rest =>
    (parseParameters rest).map ((name, value) :: ·)
  | .special ';' :: .atom name :: .special '=' :: .atom value :: rest =>
    (parseParameters rest).map ((name, value) :: ·)
  | _ => none

/-- A field with parameters: its first atom, and the parameters. -/
def parseField (text : Char → Bool) (s : List Char) :
    Option (List Char × List (List Char × List Char)) :=
  (lex text s).bind fun
    | .atom kind :: rest => (parseParameters rest).map ((kind, ·))
    | _ => none

example : parseField (fun _ => true) " a/b".toList = none := by decide

example : parseField (fun _ => true) "a (note) ; b=c;d=\"x\\\"y;z\"".toList =
    some (['a'], [(['b'], ['c']), (['d'], "x\"y;z".toList)]) := by decide

/-! ## Runs -/

variable {text : Char → Bool}

/-- A text in two parts. -/
theorem run_append (mode : Mode) (s t : List Char) :
    run text mode (s ++ t) =
      (run text mode s).bind fun p => (run text p.1 t).map fun q => (q.1, p.2 ++ q.2) := by
  induction s generalizing mode with
  | nil => simp [run]
  | cons c s ih =>
    rw [List.cons_append, run, run]
    cases step text mode c with
    | none => rfl
    | some p =>
      rw [Option.bind_some, Option.bind_some, ih]
      cases run text p.1 s with
      | none => rfl
      | some q =>
        simp only [Option.map_some, Option.bind_some, Option.map_map, Function.comp_def,
          List.append_assoc]

/-- The lexemes of a text in two parts, the first of which can be read. -/
theorem conclude_append {mode mode' : Mode} {s : List Char} {done : List Lexeme}
    (h : run text mode s = some (mode', done)) (t : List Char) :
    conclude text mode (s ++ t) = (conclude text mode' t).map (done ++ ·) := by
  rw [conclude, run_append, h, Option.bind_some, conclude]
  cases run text mode' t with
  | none => rfl
  | some p =>
    simp only [Option.map_some, Option.bind_some, Option.map_map, Function.comp_def,
      List.append_assoc]

/-- A text whose front cannot be read has no lexemes. -/
theorem conclude_append_none {mode : Mode} {s : List Char} (h : run text mode s = none)
    (t : List Char) : conclude text mode (s ++ t) = none := by
  rw [conclude, run_append, h]
  rfl

/-- Two texts that are read one after the other. -/
theorem run_append_of {mode mode' mode'' : Mode} {s t : List Char} {done done' : List Lexeme}
    (hs : run text mode s = some (mode', done)) (ht : run text mode' t = some (mode'', done')) :
    run text mode (s ++ t) = some (mode'', done ++ done') := by
  rw [run_append, hs, Option.bind_some, ht, Option.map_some]

/-- One character. -/
theorem run_singleton (mode : Mode) (c : Char) : run text mode [c] = step text mode c := by
  rw [run]
  cases step text mode c with
  | none => rfl
  | some p => simp [run]

/-! ## In a quoted string -/

/-- How many backslashes a text ends in. -/
def backslashes (s : List Char) : ℕ := (s.reverse.takeWhile (· == '\\')).length

/-- One character more. -/
theorem backslashes_concat (s : List Char) (c : Char) :
    backslashes (s ++ [c]) = if c = '\\' then backslashes s + 1 else 0 := by
  rw [backslashes, List.reverse_append, List.reverse_singleton, List.singleton_append]
  by_cases hc : c = '\\'
  · rw [if_pos hc, List.takeWhile_cons_of_pos (by simp [hc]), List.length_cons, backslashes]
  · rw [if_neg hc, List.takeWhile_cons_of_neg (by simp [hc]), List.length_nil]

/-- A text that ends in a backslash has one. -/
theorem mem_of_backslashes {s : List Char} (h : backslashes s ≠ 0) : '\\' ∈ s := by
  obtain ⟨c, hc⟩ := List.exists_mem_of_length_pos (Nat.pos_of_ne_zero h)
  have hsame := List.mem_takeWhile_imp hc
  rw [beq_iff_eq] at hsame
  exact List.mem_reverse.mp (hsame ▸ (List.takeWhile_prefix _).subset hc)

/-- The characters of a text may all stand in a quoted string, and none of them ends it. -/
structure Inside (text : Char → Bool) (s : List Char) : Prop where
  allowed : ∀ c ∈ s, text c = true
  noQuote : '"' ∉ s
  noBreak : '\r' ∉ s

/-- The modes in a quoted string. -/
def Mode.InQuoted : Mode → Prop
  | .quoted _ => True
  | .quotedPair _ => True
  | _ => False

/-- The mode in a quoted string behind a text with so many backslashes at its end. -/
def quotedMode (n : ℕ) (s : List Char) : Mode := if n % 2 = 0 then .quoted s else .quotedPair s

/-- One character more in a quoted string. -/
theorem step_quotedMode {c : Char} (hallowed : text c = true) (hquote : c ≠ '"')
    (hbreak : c ≠ '\r') (n : ℕ) (s : List Char) :
    step text (quotedMode n s) c =
      if c = '\\' then
        some (quotedMode (n + 1) (if n % 2 = 0 then s else s ++ [c]), [])
      else some (.quoted (s ++ [c]), []) := by
  rcases Nat.mod_two_eq_zero_or_one n with hn | hn
  · have hnext : (n + 1) % 2 ≠ 0 := by omega
    simp [quotedMode, hn, hnext, step, hallowed, hquote, hbreak]
  · have hodd : n % 2 ≠ 0 := by omega
    have hnext : (n + 1) % 2 = 0 := by omega
    simp [quotedMode, hodd, hnext, step, hallowed]

/-- **A text in a quoted string.** A text without quotes leaves the lexer in the quoted string; it
is in a pair if the text ends in an odd number of backslashes. What is read is shorter than the text
if that has a backslash, and the text itself otherwise.

**Proof sketch.** Induction on the text from its end: a backslash opens a pair or is the second
character of one, and any other character closes the pair there is. -/
theorem run_quoted {s : List Char} (h : Inside text s) (front : List Char) :
    ∃ value, run text (.quoted front) s =
        some (quotedMode (backslashes s) (front ++ value), []) ∧
      if '\\' ∈ s then value.length < s.length else value = s := by
  induction s using List.reverseRecOn with
  | nil => exact ⟨[], by simp [run, quotedMode, backslashes], by simp⟩
  | append_singleton s c ih =>
    have hc : c ∈ s ++ [c] := by simp
    have hfront : Inside text s := ⟨fun d hd => h.allowed d (List.mem_append_left _ hd),
      fun hd => h.noQuote (List.mem_append_left _ hd),
      fun hd => h.noBreak (List.mem_append_left _ hd)⟩
    obtain ⟨value, hrun, hvalue⟩ := ih hfront
    have hstep := step_quotedMode (h.allowed c hc) (fun heq => h.noQuote (heq ▸ hc))
      (fun heq => h.noBreak (heq ▸ hc)) (backslashes s) (front ++ value)
    rw [← run_singleton] at hstep
    by_cases hslash : c = '\\'
    · have hmem : '\\' ∈ s ++ [c] := by simp [hslash]
      rw [if_pos hslash] at hstep
      rw [backslashes_concat, if_pos hslash]
      rcases Nat.mod_two_eq_zero_or_one (backslashes s) with heven | hodd
      · rw [if_pos heven] at hstep
        refine ⟨value, run_append_of hrun hstep, ?_⟩
        rw [if_pos hmem, List.length_append, List.length_singleton]
        split_ifs at hvalue with hin
        · omega
        · rw [hvalue]
          omega
      · have hne : backslashes s % 2 ≠ 0 := by omega
        have hin : '\\' ∈ s := mem_of_backslashes (by omega)
        rw [if_neg hne, List.append_assoc] at hstep
        rw [if_pos hin] at hvalue
        refine ⟨value ++ [c], run_append_of hrun hstep, ?_⟩
        rw [if_pos hmem, List.length_append, List.length_append]
        omega
    · rw [if_neg hslash, List.append_assoc] at hstep
      rw [backslashes_concat, if_neg hslash]
      refine ⟨value ++ [c], run_append_of hrun hstep, ?_⟩
      have hiff : '\\' ∈ s ++ [c] ↔ '\\' ∈ s := by simp [Ne.symm hslash]
      rw [if_congr hiff rfl rfl]
      split_ifs at hvalue ⊢ with hin
      · rw [List.length_append, List.length_append]
        omega
      · rw [hvalue]

/-- One character more, that is no quote, does not lead out of a quoted string. -/
theorem Mode.InQuoted.step {mode mode' : Mode} {c : Char} {done : List Lexeme}
    (h : mode.InQuoted) (hc : c ≠ '"') (hstep : step text mode c = some (mode', done)) :
    mode'.InQuoted ∧ text c = true := by
  cases mode with
  | quoted s =>
    simp only [Structured.step, if_neg hc] at hstep
    split_ifs at hstep with hbad hslash
    all_goals
      cases hstep
      exact ⟨trivial, by simpa using fun hno => hbad (.inl hno)⟩
  | quotedPair s =>
    simp only [Structured.step] at hstep
    split_ifs at hstep with htext
    cases hstep
    exact ⟨trivial, htext⟩
  | plain | atom | comment | commentPair => exact h.elim

/-- A character that may not stand in a quoted string stops the lexer. -/
theorem run_quoted_none {mode : Mode} (h : mode.InQuoted) {s : List Char} (hquote : '"' ∉ s)
    (hbad : ∃ c ∈ s, text c = false) : run text mode s = none := by
  induction s generalizing mode with
  | nil =>
    obtain ⟨c, hc, -⟩ := hbad
    cases hc
  | cons c s ih =>
    obtain ⟨hc, hs⟩ := not_or.mp (List.mem_cons.not.mp hquote)
    rw [run]
    cases hstep : step text mode c with
    | none => rfl
    | some p =>
      obtain ⟨hmode, hallowed⟩ := h.step (Ne.symm hc) hstep
      have hrest : ∃ d ∈ s, text d = false := by
        obtain ⟨d, hd, hno⟩ := hbad
        rcases List.mem_cons.mp hd with rfl | hd
        · rw [hallowed] at hno
          cases hno
        · exact ⟨d, hd, hno⟩
      rw [Option.bind_some, ih hmode hs hrest, Option.map_none]

/-- Every character of a text may stand in a quoted string, and the quote behind it is no part of a
pair. -/
def Closed (text : Char → Bool) (s : List Char) : Prop :=
  (∀ c ∈ s, text c = true) ∧ backslashes s % 2 = 0

/-- A text with a character that may not stand in quoted strings has no lexemes. -/
theorem conclude_quoted_none {s : List Char} (hquote : '"' ∉ s)
    (hbad : ¬ ∀ c ∈ s, text c = true) (front rest : List Char) :
    conclude text (.quoted front) (s ++ rest) = none := by
  have hin : (Mode.quoted front).InQuoted := trivial
  refine conclude_append_none (run_quoted_none hin hquote ?_) rest
  simpa using hbad

/-- **A quoted string and what follows.** If the text is closed the quote behind it ends the string,
and otherwise it is one more character of it. The value is the text if that has no backslash. -/
theorem conclude_quoted {s : List Char} (h : Inside text s) (hquote : text '"' = true)
    (front : List Char) :
    ∃ value, (value = s ↔ '\\' ∉ s) ∧
      ∀ rest, conclude text (.quoted front) (s ++ '"' :: rest) =
        if backslashes s % 2 = 0 then
          (conclude text .plain rest).map (.quoted (front ++ value) :: ·)
        else conclude text (.quoted (front ++ value ++ ['"'])) rest := by
  obtain ⟨value, hrun, hvalue⟩ := run_quoted h front
  refine ⟨value, ?_, fun rest => ?_⟩
  · split_ifs at hvalue with hin
    · refine ⟨fun heq => absurd (congrArg List.length heq) (by omega), fun hno => absurd hin hno⟩
    · exact ⟨fun _ => hin, fun _ => hvalue⟩
  · rw [← List.singleton_append, ← List.append_assoc]
    rw [quotedMode] at hrun
    split_ifs at hrun ⊢ with heven
    · have hstep : step text (.quoted (front ++ value)) '"' =
          some (.plain, [.quoted (front ++ value)]) := by simp [step, hquote]
      rw [← run_singleton] at hstep
      rw [conclude_append (run_append_of hrun hstep)]
      rfl
    · have hstep : step text (.quotedPair (front ++ value)) '"' =
          some (.quoted (front ++ value ++ ['"']), []) := by simp [step, hquote]
      rw [← run_singleton] at hstep
      rw [conclude_append (run_append_of hrun hstep)]
      exact Option.map_id_apply

/-- A quoted string that is not closed does not end. -/
theorem conclude_open {s : List Char} (hquote : '"' ∉ s) (hbreak : '\r' ∉ s)
    (hopen : ¬ Closed text s) (htext : text '"' = true) (front : List Char) :
    conclude text (.quoted front) (s ++ ['"']) = none := by
  by_cases hallowed : ∀ c ∈ s, text c = true
  · obtain ⟨value, -, hread⟩ := conclude_quoted ⟨hallowed, hquote, hbreak⟩ htext front
    rw [hread [], if_neg fun heven => hopen ⟨hallowed, heven⟩]
    rfl
  · exact conclude_quoted_none hquote hallowed front _

/-! ## A lone quote -/

/-- One character more between lexemes, that is no quote, does not lead into a quoted string. -/
theorem not_inQuoted_stepPlain {mode' : Mode} {c : Char} {done : List Lexeme} (hc : c ≠ '"')
    (hstep : stepPlain c = some (mode', done)) : ¬ mode'.InQuoted := by
  simp only [stepPlain, if_neg hc] at hstep
  split_ifs at hstep
  all_goals
    cases hstep
    exact id

/-- One character more, that is no quote, does not lead into a quoted string. -/
theorem not_inQuoted_step {mode mode' : Mode} {c : Char} {done : List Lexeme}
    (h : ¬ mode.InQuoted) (hc : c ≠ '"') (hstep : step text mode c = some (mode', done)) :
    ¬ mode'.InQuoted := by
  cases mode with
  | plain => exact not_inQuoted_stepPlain hc hstep
  | atom s =>
    simp only [step] at hstep
    split_ifs at hstep
    · cases hstep
      exact id
    · obtain ⟨p, hplain, heq⟩ := Option.map_eq_some_iff.mp hstep
      obtain ⟨rfl, -⟩ := Prod.mk.inj heq
      exact not_inQuoted_stepPlain hc hplain
  | quoted | quotedPair => exact absurd trivial h
  | comment depth =>
    simp only [step] at hstep
    split_ifs at hstep
    all_goals
      cases hstep
      exact id
  | commentPair depth =>
    simp only [step] at hstep
    split_ifs at hstep
    cases hstep
    exact id

/-- A quote at the end of a text opens a quoted string, or stands in a comment that stays open. -/
theorem finish_step_quote {mode mode' : Mode} {done : List Lexeme} (h : ¬ mode.InQuoted)
    (hstep : step text mode '"' = some (mode', done)) : finish mode' = none := by
  cases mode with
  | plain =>
    cases hstep
    rfl
  | atom s =>
    cases hstep
    rfl
  | quoted | quotedPair => exact absurd trivial h
  | comment depth =>
    simp only [step] at hstep
    split_ifs at hstep
    all_goals first | cases hstep; rfl | contradiction
  | commentPair depth =>
    simp only [step] at hstep
    split_ifs at hstep
    cases hstep
    rfl

/-- **A lone quote.** A text with one quote, at its end, has no lexemes. -/
theorem conclude_lone_quote {mode : Mode} (h : ¬ mode.InQuoted) {s : List Char} (hs : '"' ∉ s) :
    conclude text mode (s ++ ['"']) = none := by
  induction s generalizing mode with
  | nil =>
    rw [List.nil_append, conclude, run_singleton]
    cases hstep : step text mode '"' with
    | none => rfl
    | some p => rw [Option.bind_some, finish_step_quote h hstep, Option.map_none]
  | cons c s ih =>
    obtain ⟨hc, hrest⟩ := not_or.mp (List.mem_cons.not.mp hs)
    rw [List.cons_append, ← List.singleton_append]
    cases hstep : step text mode c with
    | none => exact conclude_append_none ((run_singleton mode c).trans hstep) _
    | some p =>
      rw [conclude_append ((run_singleton mode c).trans hstep),
        ih (not_inQuoted_step h (Ne.symm hc) hstep) hrest, Option.map_none]

end Library.Structured
