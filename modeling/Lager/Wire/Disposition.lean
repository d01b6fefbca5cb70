import Lager.Library.Structured
import Lager.Wire.Multipart
import Mathlib.Data.List.Forall2

set_option relaxedAutoImplicit false
set_option autoImplicit false

/-!
# What a form says about its parts

A part of a form names itself, and its file, in quoted strings of its `Content-Disposition` line.
`quote` takes quotes and line breaks out of the texts, but leaves backslashes, which are special in
a quoted string too: the backslash at the end of a text takes the closing quote with it.

## Main definitions

* `Lager.readDisposition` — a reader of the line, with the grammar of structured header fields.
* `Lager.FormPart.Contained` — the line says just the parameters of the part.
* `Lager.FormPart.Verbatim` — it says their texts, too.

## Main results

* `Lager.readDisposition_of_closed`, `Lager.readDisposition_of_not_closed` — what the reader finds.
* `Lager.FormPart.contained_iff` — a part is contained just when all its texts end in an even number
  of backslashes, and verbatim when they have none.

## Implementation notes

The grammar of quoted strings is one of ASCII characters. RFC 7578 has forms that use UTF-8 in
their place, so which characters a reader takes is a parameter.
-/

namespace Lager

open Library

/-! ## The reader -/

/-- The characters that may stand in a quoted string: ASCII, or all of them. -/
def isText (extended : Bool) (c : Char) : Bool := extended || c.toNat < 128

/-- The kind a `Content-Disposition` line names, and its parameters. -/
def readDisposition (extended : Bool) (line : List Char) :
    Option (List Char × List (List Char × List Char)) :=
  (splitOnce [':'] line).bind fun p =>
    if eqIgnoreAsciiCase p.1 "content-disposition".toList then
      Structured.parseField (isText extended) p.2
    else none

/-- What a form part is. -/
def formData : List Char := "form-data".toList

namespace FormPart

/-- The texts a part gives about itself. -/
def texts (p : FormPart) : List String := p.name :: p.filename.toList

/-- The parameters that are to be in the line. -/
def parameters (p : FormPart) : List (List Char × List Char) :=
  ("name".toList, (quote p.name).toList) ::
    p.filename.toList.map fun filename => ("filename".toList, (quote filename).toList)

/-- The disposition is one line, and a reader finds just the parameters of the part in it. -/
def Contained (extended : Bool) (p : FormPart) : Prop :=
  ('\r' ∉ p.disposition.toList ∧ '\n' ∉ p.disposition.toList) ∧
    (readDisposition extended p.disposition.toList).map (fun d => (d.1, d.2.map Prod.fst)) =
      some (formData, p.parameters.map Prod.fst)

/-- A reader finds the parameters and their texts, as they were quoted. -/
def Verbatim (extended : Bool) (p : FormPart) : Prop :=
  readDisposition extended p.disposition.toList = some (formData, p.parameters)

instance (extended : Bool) (p : FormPart) : Decidable (p.Contained extended) :=
  inferInstanceAs (Decidable ((_ ∧ _) ∧ _ = _))

instance (extended : Bool) (p : FormPart) : Decidable (p.Verbatim extended) :=
  inferInstanceAs (Decidable (_ = _))

end FormPart

/-! ## Quoting -/

/-- What becomes of a character. -/
def quoteChar (c : Char) : Char := if c ∈ ['"', '\r', '\n'] then '_' else c

/-- Quoting goes character by character. -/
theorem toList_quote (s : String) : (quote s).toList = s.toList.map quoteChar :=
  String.toList_ofList

/-- What quoting leaves no character of. -/
theorem quoteChar_ne (c : Char) : quoteChar c ≠ '"' ∧ quoteChar c ≠ '\r' ∧ quoteChar c ≠ '\n' := by
  rw [quoteChar]
  split_ifs with h
  · decide
  · simpa using h

/-- Quoting neither makes nor takes away backslashes. -/
theorem quoteChar_beq (c : Char) : (quoteChar c == '\\') = (c == '\\') := by
  rw [quoteChar]
  split_ifs with h
  · simp only [List.mem_cons, List.not_mem_nil, or_false] at h
    obtain rfl | rfl | rfl := h
    all_goals decide
  · rfl

/-- Quoting makes no character one that a reader takes. -/
theorem isText_quoteChar (extended : Bool) (c : Char) :
    isText extended (quoteChar c) = isText extended c := by
  rw [quoteChar]
  split_ifs with h
  · simp only [List.mem_cons, List.not_mem_nil, or_false] at h
    obtain rfl | rfl | rfl := h
    all_goals
      cases extended
      all_goals decide
  · rfl

/-- The quote is a character readers take. -/
theorem isText_quote (extended : Bool) : isText extended '"' = true := by
  cases extended
  all_goals decide

/-- No quote is in a quoted text. -/
theorem quote_notMem_quote (s : String) : '"' ∉ (quote s).toList := by
  rw [toList_quote, List.mem_map]
  rintro ⟨c, -, hc⟩
  exact (quoteChar_ne c).1 hc

/-- No line feed is in a quoted text. -/
theorem lineFeed_notMem_quote (s : String) : '\n' ∉ (quote s).toList := by
  rw [toList_quote, List.mem_map]
  rintro ⟨c, -, hc⟩
  exact (quoteChar_ne c).2.2 hc

/-- The backslashes at the end of a quoted text. -/
theorem backslashes_quote (s : String) :
    Structured.backslashes (quote s).toList = Structured.backslashes s.toList := by
  have hsame : (fun c => c == '\\') ∘ quoteChar = fun c => c == '\\' := funext quoteChar_beq
  rw [Structured.backslashes, toList_quote, ← List.map_reverse, List.takeWhile_map, hsame,
    List.length_map, Structured.backslashes]

/-- A quoted text is closed when the text is. -/
theorem closed_quote (extended : Bool) (s : String) :
    Structured.Closed (isText extended) (quote s).toList ↔
      Structured.Closed (isText extended) s.toList := by
  rw [Structured.Closed, Structured.Closed, backslashes_quote, toList_quote, List.forall_mem_map]
  simp only [isText_quoteChar]

/-- The backslashes in a quoted text. -/
theorem backslash_mem_quote (s : String) : '\\' ∈ (quote s).toList ↔ '\\' ∈ s.toList := by
  rw [toList_quote, List.mem_map]
  constructor
  · rintro ⟨c, hc, heq⟩
    have hsame := quoteChar_beq c
    rw [heq, beq_self_eq_true] at hsame
    exact beq_iff_eq.mp hsame.symm ▸ hc
  · exact fun h => ⟨'\\', h, by decide⟩

/-- A quoted text that readers take is one that can stand in a quoted string. -/
theorem inside_quote {extended : Bool} {s : String}
    (h : ∀ c ∈ (quote s).toList, isText extended c = true) :
    Structured.Inside (isText extended) (quote s).toList :=
  ⟨h, quote_notMem_quote s, FormPart.notMem_quote s⟩

/-! ## What a reader finds -/

section

variable {extended : Bool}

/-- What stands in front of the name. -/
theorem run_front : Structured.run (isText extended) .plain " form-data; name=\"".toList =
    some (.quoted [], [.atom formData, .special ';', .atom "name".toList, .special '=']) := by
  cases extended
  all_goals decide +kernel

/-- What stands in front of the file name. -/
theorem run_filename : Structured.run (isText extended) .plain "; filename=\"".toList =
    some (.quoted [], [.special ';', .atom "filename".toList, .special '=']) := by
  cases extended
  all_goals decide +kernel

/-- What stands in front of the file name, read in a quoted string. -/
theorem run_quoted_filename (extended : Bool) (front : List Char) :
    ∃ value, Structured.run (isText extended) (.quoted front) "; filename=\"".toList =
      some (.plain, [.quoted value]) := by
  cases extended
  all_goals exact ⟨_, rfl⟩

/-- What stands behind the name and its closing quote. -/
def FormPart.afterName (p : FormPart) : List Char :=
  match p.filename with
  | some filename => "; filename=\"".toList ++ ((quote filename).toList ++ ['"'])
  | none => []

/-- The line in parts: the name, and what stands behind it. -/
theorem FormPart.toList_disposition (p : FormPart) : p.disposition.toList =
    "Content-Disposition".toList ++ ([':'] ++ (" form-data; name=\"".toList ++
      ((quote p.name).toList ++ '"' :: p.afterName))) := by
  have hfront : "Content-Disposition: form-data; name=\"".toList =
      "Content-Disposition".toList ++ ([':'] ++ " form-data; name=\"".toList) := by decide +kernel
  have hquote : "\"".toList = ['"'] := rfl
  unfold FormPart.disposition FormPart.afterName
  rcases p.filename with _ | filename
  all_goals
    simp [String.toList_append, hfront, hquote]

/-- The name of the line is read off in front of it. -/
theorem readDisposition_append (rest : List Char) :
    readDisposition extended ("Content-Disposition".toList ++ ([':'] ++ rest)) =
      Structured.parseField (isText extended) rest := by
  have hcolon : ':' ∉ "Content-Disposition".toList := by decide +kernel
  have hname : eqIgnoreAsciiCase "Content-Disposition".toList "content-disposition".toList = true :=
    by decide +kernel
  have hsplit : splitOnce [':'] ("Content-Disposition".toList ++ ([':'] ++ rest)) =
      some ("Content-Disposition".toList, rest) := splitOnce_of_notMem hcolon rest
  rw [readDisposition, hsplit, Option.bind_some]
  exact if_pos hname

/-- What a reader finds behind the quote in front of the name. -/
theorem parseField_front (rest : List Char) :
    Structured.parseField (isText extended) (" form-data; name=\"".toList ++ rest) =
      (Structured.conclude (isText extended) (.quoted []) rest).bind fun ls =>
        (Structured.parseParameters
          (.special ';' :: .atom "name".toList :: .special '=' :: ls)).map ((formData, ·)) := by
  rw [Structured.parseField, Structured.lex, Structured.conclude_append run_front]
  cases Structured.conclude (isText extended) (.quoted []) rest with
  | none => rfl
  | some ls => rfl

/-- A parameter found in the place of another: the name is the same, and so is the text if no
backslash is in it. -/
def Stands (given found : List Char × List Char) : Prop :=
  found.1 = given.1 ∧ (found.2 = given.2 ↔ '\\' ∉ given.2)

/-- If all texts are closed a reader finds the parameters. -/
theorem readDisposition_of_closed {p : FormPart}
    (h : ∀ s ∈ p.texts, Structured.Closed (isText extended) s.toList) :
    ∃ found, readDisposition extended p.disposition.toList = some (formData, found) ∧
      List.Forall₂ Stands p.parameters found := by
  have hclosed : ∀ s ∈ p.texts, Structured.Closed (isText extended) (quote s).toList :=
    fun s hs => (closed_quote extended s).mpr (h s hs)
  obtain ⟨hallowed, heven⟩ := hclosed p.name List.mem_cons_self
  obtain ⟨value, hvalue, hname⟩ :=
    Structured.conclude_quoted (inside_quote hallowed) (isText_quote extended) []
  rw [FormPart.toList_disposition, readDisposition_append, parseField_front, hname, if_pos heven,
    FormPart.afterName, FormPart.parameters]
  cases hfile : p.filename with
  | none => exact ⟨[("name".toList, value)], rfl, .cons ⟨rfl, hvalue⟩ .nil⟩
  | some filename =>
    have hmem : filename ∈ p.texts := by simp [FormPart.texts, hfile]
    obtain ⟨hallowed', heven'⟩ := hclosed filename hmem
    obtain ⟨value', hvalue', hfilename⟩ :=
      Structured.conclude_quoted (inside_quote hallowed') (isText_quote extended) []
    dsimp only
    rw [Structured.conclude_append run_filename, hfilename, if_pos heven']
    exact ⟨[("name".toList, value), ("filename".toList, value')], rfl,
      .cons ⟨rfl, hvalue⟩ (.cons ⟨rfl, hvalue'⟩ .nil)⟩

/-- A file name that is not closed leaves nothing behind the name. -/
theorem conclude_afterName_none {p : FormPart} {filename : String}
    (hfile : p.filename = some filename)
    (h : ¬ Structured.Closed (isText extended) filename.toList) :
    Structured.conclude (isText extended) .plain p.afterName = none := by
  have hopen : ¬ Structured.Closed (isText extended) (quote filename).toList :=
    fun hclosed => h ((closed_quote extended filename).mp hclosed)
  rw [FormPart.afterName, hfile]
  dsimp only
  rw [Structured.conclude_append run_filename, Structured.conclude_open
    (quote_notMem_quote filename) (FormPart.notMem_quote filename) hopen (isText_quote extended)]
  rfl

/-- What stands behind the name does not end in a quoted string: either that does not end, or it
ends at the quote in front of the file name, and the one behind the file name is the only one
left. -/
theorem conclude_quoted_afterName (p : FormPart) (front : List Char) :
    Structured.conclude (isText extended) (.quoted front) p.afterName = none := by
  rw [FormPart.afterName]
  cases p.filename with
  | none => rfl
  | some filename =>
    obtain ⟨value, hrun⟩ := run_quoted_filename extended front
    dsimp only
    rw [Structured.conclude_append hrun,
      Structured.conclude_lone_quote id (quote_notMem_quote filename)]
    rfl

/-- If a text is not closed a reader finds nothing. -/
theorem readDisposition_of_not_closed {p : FormPart}
    (h : ¬ ∀ s ∈ p.texts, Structured.Closed (isText extended) s.toList) :
    readDisposition extended p.disposition.toList = none := by
  rw [FormPart.toList_disposition, readDisposition_append, parseField_front]
  suffices hnone : Structured.conclude (isText extended) (.quoted [])
      ((quote p.name).toList ++ '"' :: p.afterName) = none by
    rw [hnone]
    rfl
  by_cases hallowed : ∀ c ∈ (quote p.name).toList, isText extended c = true
  · obtain ⟨value, -, hname⟩ :=
      Structured.conclude_quoted (inside_quote hallowed) (isText_quote extended) []
    rw [hname]
    split_ifs with heven
    · -- The name is closed, so there is a file name, which is not.
      have hclosed : Structured.Closed (isText extended) p.name.toList :=
        (closed_quote extended p.name).mp ⟨hallowed, heven⟩
      rw [FormPart.texts, List.forall_mem_cons, and_iff_right hclosed] at h
      push Not at h
      obtain ⟨filename, hfile, hopen⟩ := h
      rw [conclude_afterName_none (Option.mem_toList.mp hfile) hopen]
      rfl
    · exact conclude_quoted_afterName p _
  · exact Structured.conclude_quoted_none (quote_notMem_quote p.name) hallowed _ _

end

/-! ## Which parts are contained -/

/-- The disposition is one line. -/
theorem FormPart.lineFeed_notMem_disposition (p : FormPart) : '\n' ∉ p.disposition.toList := by
  have hname : '\n' ∉ "Content-Disposition".toList := by decide +kernel
  have hfront : '\n' ∉ " form-data; name=\"".toList := by decide +kernel
  have hfile : '\n' ∉ "; filename=\"".toList := by decide +kernel
  rw [FormPart.toList_disposition, FormPart.afterName]
  cases p.filename with
  | none => simp [-String.reduceToList, hname, hfront, lineFeed_notMem_quote]
  | some filename => simp [-String.reduceToList, hname, hfront, hfile, lineFeed_notMem_quote]

/-- Parameters found in the place of others have their names. -/
theorem map_fst_of_stands {given found : List (List Char × List Char)}
    (h : List.Forall₂ Stands given found) : found.map Prod.fst = given.map Prod.fst := by
  induction h with
  | nil => rfl
  | cons hstands _ ih => rw [List.map_cons, List.map_cons, ih, hstands.1]

/-- Parameters found in the place of others are the same when no text has a backslash. -/
theorem eq_iff_of_stands {given found : List (List Char × List Char)}
    (h : List.Forall₂ Stands given found) : found = given ↔ ∀ p ∈ given, '\\' ∉ p.2 := by
  induction h with
  | nil => simp
  | cons hstands _ ih =>
    rw [List.cons.injEq, List.forall_mem_cons, ih, Prod.ext_iff, hstands.2, and_iff_right hstands.1]

/-- No parameter has a backslash in it when no text of the part has. -/
theorem FormPart.forall_mem_parameters (p : FormPart) :
    (∀ q ∈ p.parameters, '\\' ∉ q.2) ↔ ∀ s ∈ p.texts, '\\' ∉ s.toList := by
  rw [FormPart.parameters, FormPart.texts, List.forall_mem_cons, List.forall_mem_cons,
    List.forall_mem_map, backslash_mem_quote]
  simp only [backslash_mem_quote]

/-- **Which form parts stay in their quotes.** The `Content-Disposition` of a part is one line
whatever its texts are. A reader finds just the parameters of the part in it if and only if every
text ends in an even number of backslashes and has only characters the reader takes, and it finds
the texts as they were quoted if and only if there are no backslashes at all.

**Proof sketch.** A quoted text has no quote and no line break. Read from the end, each backslash
at its end opens a pair or closes one, so the quote behind an even number of them ends the string
(`readDisposition_of_closed`). Behind an odd number it does not, and one quote too few is left for
the rest of the line (`readDisposition_of_not_closed`). -/
theorem FormPart.contained_iff (extended : Bool) (p : FormPart) :
    (p.Contained extended ↔
      ∀ s ∈ p.texts, Structured.Closed (isText extended) s.toList) ∧
    (p.Verbatim extended ↔
      ∀ s ∈ p.texts, (∀ c ∈ s.toList, isText extended c = true) ∧ '\\' ∉ s.toList) := by
  by_cases hclosed : ∀ s ∈ p.texts, Structured.Closed (isText extended) s.toList
  · obtain ⟨found, hread, hstands⟩ := readDisposition_of_closed hclosed
    constructor
    · refine iff_of_true ⟨⟨p.notMem_disposition, p.lineFeed_notMem_disposition⟩, ?_⟩ hclosed
      rw [hread, Option.map_some, map_fst_of_stands hstands]
    · rw [FormPart.Verbatim, hread, Option.some_inj, Prod.mk.injEq, eq_self, true_and,
        eq_iff_of_stands hstands, p.forall_mem_parameters]
      exact forall₂_congr fun s hs => (and_iff_right (hclosed s hs).1).symm
  · have hread := readDisposition_of_not_closed hclosed
    constructor
    · refine iff_of_false (fun h => ?_) hclosed
      have hparameters := h.2
      rw [hread, Option.map_none] at hparameters
      cases hparameters
    · refine iff_of_false (fun h => ?_) fun hplain => hclosed fun s hs => ?_
      · rw [FormPart.Verbatim, hread] at h
        cases h
      · obtain ⟨hallowed, hslash⟩ := hplain s hs
        refine ⟨hallowed, ?_⟩
        by_contra hodd
        exact hslash (Structured.mem_of_backslashes fun hzero => hodd (by rw [hzero]))

/-- The part of an uploaded binary whose name ends in a backslash. -/
abbrev trailingBackslash : FormPart :=
  ⟨"binary", some "tool\\", some "application/octet-stream", []⟩

/-- Its file name takes the closing quote into the string, for both kinds of readers. -/
theorem FormPart.not_contained_trailingBackslash :
    ¬ trailingBackslash.Contained false ∧ ¬ trailingBackslash.Contained true := by
  decide +kernel

end Lager
