import Lager.Library.Cut

set_option relaxedAutoImplicit false
set_option autoImplicit false

/-!
# Multipart bodies

A multipart body is read by lines: a line that is the boundary behind two dashes, with nothing but
blanks after it, starts a part; one with two more dashes ends the body. The line break in front of
such a line belongs to it, so what a part holds is what its lines hold with the line breaks between
them. A part starts with header lines, up to the first empty line.

## Main definitions

* `Library.Mime.lines`, `Library.Mime.join` — the lines of a text, and the text of some lines.
* `Library.Mime.lineKind` — which lines are delimiters.
* `Library.Mime.parse` — the parts of a body.
* `Library.Mime.frame` — a body made of some parts.

## Main results

* `Library.Mime.lines_append` — the lines of two texts with a line break between them.
* `Library.Mime.parse_frame` — a body made of parts without delimiters has just these parts.
-/

namespace Library.Mime

/-! ## Lines -/

/-- A carriage return. -/
def cr : UInt8 := 13

/-- A line feed. -/
def lf : UInt8 := 10

/-- A line break. -/
def crlf : List UInt8 := [cr, lf]

/-- Put a byte in front of the first line. -/
def consByte (b : UInt8) : List (List UInt8) → List (List UInt8)
  | [] => [[b]]
  | line :: rest => (b :: line) :: rest

/-- The lines of a text: what stands between its line breaks. -/
def lines : List UInt8 → List (List UInt8)
  | [] => [[]]
  | [b] => [[b]]
  | b :: c :: rest =>
    if b = cr ∧ c = lf then [] :: lines rest
    else consByte b (lines (c :: rest))

/-- The text of some lines: the lines, with line breaks between them. -/
def join : List (List UInt8) → List UInt8
  | [] => []
  | [line] => line
  | line :: rest => line ++ crlf ++ join rest

/-- A text has a line. -/
theorem lines_ne_nil (text : List UInt8) : lines text ≠ [] := by
  fun_cases lines text with
  | case1 => simp
  | case2 => simp
  | case3 => simp
  | case4 b c rest h =>
    cases lines (c :: rest) <;> simp [consByte]

/-- Putting a byte in front leaves the later lines as they are. -/
theorem consByte_append {b : UInt8} {front : List (List UInt8)} (h : front ≠ [])
    (back : List (List UInt8)) : consByte b (front ++ back) = consByte b front ++ back := by
  cases front with
  | nil => exact absurd rfl h
  | cons line rest => rfl

/-- **Lines of two texts.** A line break between two texts is one of the whole, whatever the texts
end and begin with.

**Proof sketch.** A line break starts with a carriage return and ends with a line feed, so none
reaches over an edge of the one in the middle. -/
theorem lines_append (front back : List UInt8) :
    lines (front ++ crlf ++ back) = lines front ++ lines back := by
  fun_induction lines front with
  | case1 => simp [crlf, lines]
  | case2 b =>
    have hne : ¬ (b = cr ∧ cr = lf) := fun h => absurd h.2 (by decide)
    simp [crlf, lines, hne, consByte]
  | case3 b c rest h ih =>
    simp only [List.cons_append] at ih ⊢
    rw [lines, if_pos h, ih]
  | case4 b c rest h ih =>
    simp only [List.cons_append] at ih ⊢
    rw [lines, if_neg h, ih, consByte_append (lines_ne_nil _)]

/-- A text without a carriage return is one line. -/
theorem lines_of_notMem {text : List UInt8} (h : cr ∉ text) : lines text = [text] := by
  fun_induction lines text with
  | case1 => rfl
  | case2 b => rfl
  | case3 b c rest hbreak ih => exact absurd (hbreak.1 ▸ List.mem_cons_self) h
  | case4 b c rest hbreak ih =>
    rw [ih fun hmem => h (List.mem_cons_of_mem _ hmem)]
    rfl

/-- The text of lines the first of which got a byte in front. -/
theorem join_consByte (b : UInt8) {ls : List (List UInt8)} (h : ls ≠ []) :
    join (consByte b ls) = b :: join ls := by
  match ls with
  | [] => exact absurd rfl h
  | [line] => rfl
  | line :: line' :: rest => rfl

/-- The lines of a text make up the text. -/
theorem join_lines (text : List UInt8) : join (lines text) = text := by
  fun_induction lines text with
  | case1 => rfl
  | case2 b => rfl
  | case3 b c rest h ih =>
    obtain ⟨line, later, hlines⟩ := List.exists_cons_of_ne_nil (lines_ne_nil rest)
    rw [hlines] at ih ⊢
    show [] ++ crlf ++ join (line :: later) = _
    rw [ih, h.1, h.2]
    rfl
  | case4 b c rest h ih => rw [join_consByte b (lines_ne_nil _), ih]

/-- A line is a stretch of the text. -/
theorem infix_of_mem_lines {text line : List UInt8} (h : line ∈ lines text) : line <:+: text := by
  fun_induction lines text generalizing line with
  | case1 => simp_all
  | case2 b => simp_all
  | case3 b c rest hbreak ih =>
    rcases List.mem_cons.mp h with rfl | hrest
    · exact List.nil_infix
    · exact (ih hrest).trans ⟨[b, c], [], by simp⟩
  | case4 b c rest hbreak ih =>
    obtain ⟨first, later, hlines⟩ := List.exists_cons_of_ne_nil (lines_ne_nil (c :: rest))
    rw [hlines] at h ih
    rcases List.mem_cons.mp h with rfl | hlater
    · -- The first line is a stretch at the very front of its text.
      have hfront : first <+: c :: rest := by
        have hjoin := join_lines (c :: rest)
        rw [hlines] at hjoin
        rw [← hjoin]
        cases later with
        | nil => exact List.prefix_rfl
        | cons _ _ => exact ⟨_, (List.append_assoc _ _ _).symm⟩
      exact (List.prefix_cons_inj b |>.mpr hfront).isInfix
    · exact (ih (List.mem_cons_of_mem _ hlater)).trans (List.suffix_cons b _).isInfix

/-! ## Parts -/

/-- Two dashes. -/
def dashes : List UInt8 := [45, 45]

/-- A blank or a tab: what may follow a boundary on its line. -/
def isBlank (b : UInt8) : Bool := b == 32 || b == 9

/-- What a line is to a reader that looks for a boundary. -/
inductive LineKind
  | text
  | delimiter
  | closing
  deriving DecidableEq, Repr

/-- What a line is. -/
def lineKind (boundary line : List UInt8) : LineKind :=
  if dashes ++ boundary <+: line then
    let rest := line.drop (dashes ++ boundary).length
    if rest.all isBlank then .delimiter
    else if dashes <+: rest ∧ (rest.drop dashes.length).all isBlank then .closing
    else .text
  else .text

/-- Put a line in front of the first part. -/
def consLine (line : List UInt8) : List (List (List UInt8)) → List (List (List UInt8))
  | [] => [[line]]
  | part :: rest => (line :: part) :: rest

/-- The parts that follow a delimiter, each by its lines; `none` if the body is never closed. -/
def partLines (boundary : List UInt8) : List (List UInt8) → Option (List (List (List UInt8)))
  | [] => none
  | line :: rest =>
    match lineKind boundary line with
    | .closing => some [[]]
    | .delimiter => (partLines boundary rest).map ([] :: ·)
    | .text => (partLines boundary rest).map (consLine line)

/-- The parts of a body by its lines, which may start with a preamble. -/
def bodyLines (boundary : List UInt8) : List (List UInt8) → Option (List (List (List UInt8)))
  | [] => none
  | line :: rest =>
    match lineKind boundary line with
    | .closing => some []
    | .delimiter => partLines boundary rest
    | .text => bodyLines boundary rest

/-- A part: its header lines, and what it holds. -/
structure Part where
  headers : List (List UInt8)
  data : List UInt8
  deriving DecidableEq, Repr

/-- A part by its lines: the headers end at the first empty line. -/
def readPart (ls : List (List UInt8)) : Part :=
  match cut [] ls with
  | some (headers, data) => ⟨headers, join data⟩
  | none => ⟨ls, []⟩

/-- The parts of a body. -/
def parse (boundary body : List UInt8) : Option (List Part) :=
  (bodyLines boundary (lines body)).map (List.map readPart)

/-! ## Framing -/

/-- A part behind its delimiter. -/
def framePart (boundary : List UInt8) (p : Part) : List UInt8 :=
  dashes ++ boundary ++ crlf ++ p.headers.flatMap (· ++ crlf) ++ crlf ++ p.data ++ crlf

/-- A body made of some parts. -/
def frame (boundary : List UInt8) (parts : List Part) : List UInt8 :=
  parts.flatMap (framePart boundary) ++ (dashes ++ boundary ++ dashes ++ crlf)

/-- A part that can be framed: no header line is empty or has a carriage return, and no line is a
delimiter. -/
structure Part.Plain (boundary : List UInt8) (p : Part) : Prop where
  filled : [] ∉ p.headers
  unbroken : ∀ line ∈ p.headers, cr ∉ line
  headers : ∀ line ∈ p.headers, lineKind boundary line = .text
  data : ∀ line ∈ lines p.data, lineKind boundary line = .text

variable {boundary : List UInt8}

/-- A line in which the boundary does not occur is no delimiter. -/
theorem lineKind_text {line : List UInt8} (h : ¬ boundary <:+: line) :
    lineKind boundary line = .text := by
  refine if_neg fun hfront => h ?_
  exact (List.suffix_append dashes boundary).isInfix.trans hfront.isInfix

/-- A line that does not start with a dash is no delimiter. -/
theorem lineKind_of_head {line : List UInt8} {b : UInt8} (h : line.head? = some b)
    (hb : b ≠ 45) : lineKind boundary line = .text := by
  refine if_neg fun hfront => ?_
  obtain ⟨rest, rfl⟩ := hfront
  exact hb (Option.some.inj h).symm

/-- An empty line is no delimiter. -/
theorem lineKind_nil : lineKind boundary [] = .text := by
  refine if_neg fun hfront => ?_
  simpa [dashes] using hfront.length_le

/-- The line that starts a part. -/
theorem lineKind_delimiter : lineKind boundary (dashes ++ boundary) = .delimiter := by
  simp [lineKind]

/-- The line that ends the body. -/
theorem lineKind_closing : lineKind boundary (dashes ++ boundary ++ dashes) = .closing := by
  have hblank : dashes.all isBlank = false := rfl
  rw [lineKind, if_pos (List.prefix_append _ _), List.drop_left]
  simp only [hblank, Bool.false_eq_true, if_false]
  rw [if_pos ⟨List.prefix_rfl, rfl⟩]

/-- Lines that are no delimiters belong to the part they are in. -/
theorem partLines_append {ls : List (List UInt8)} (h : ∀ line ∈ ls, lineKind boundary line = .text)
    {rest : List (List UInt8)} {part : List (List UInt8)} {parts : List (List (List UInt8))}
    (hrest : partLines boundary rest = some (part :: parts)) :
    partLines boundary (ls ++ rest) = some ((ls ++ part) :: parts) := by
  induction ls with
  | nil => exact hrest
  | cons line ls ih =>
    obtain ⟨hline, hls⟩ := List.forall_mem_cons.mp h
    rw [List.cons_append, partLines, hline]
    simp only [ih hls, Option.map_some, consLine, List.cons_append]

/-- The lines of a framed part. -/
def Part.lines (p : Part) : List (List UInt8) := p.headers ++ [] :: Mime.lines p.data

/-- Reading the lines of a part gives the part back. -/
theorem readPart_lines {p : Part} (h : [] ∉ p.headers) : readPart p.lines = p := by
  rw [readPart, Part.lines, cut_append_cons h]
  simp only [join_lines]

/-- The lines of a framed part are no delimiters. -/
theorem Part.Plain.lines {p : Part} (h : p.Plain boundary) :
    ∀ line ∈ p.lines, lineKind boundary line = .text := by
  intro line hline
  rcases List.mem_append.mp hline with hheader | hline
  · exact h.headers line hheader
  · rcases List.mem_cons.mp hline with rfl | hdata
    · exact lineKind_nil
    · exact h.data line hdata

/-- Header lines, each with its line break, in front of a text. -/
theorem lines_headers {headers : List (List UInt8)} (h : ∀ line ∈ headers, cr ∉ line)
    (text : List UInt8) :
    Mime.lines (headers.flatMap (· ++ crlf) ++ text) = headers ++ Mime.lines text := by
  induction headers with
  | nil => rfl
  | cons line rest ih =>
    obtain ⟨hline, hrest⟩ := List.forall_mem_cons.mp h
    rw [List.flatMap_cons, List.append_assoc, lines_append, lines_of_notMem hline, ih hrest]
    rfl

/-- The lines of a framed part, in front of a text. -/
theorem lines_framePart (hboundary : cr ∉ boundary) {p : Part} (h : p.Plain boundary)
    (text : List UInt8) :
    Mime.lines (framePart boundary p ++ text) =
      (dashes ++ boundary) :: (p.lines ++ Mime.lines text) := by
  have hdashes : cr ∉ dashes ++ boundary := by
    rw [List.mem_append, not_or]
    exact ⟨by decide, hboundary⟩
  have hempty : Mime.lines ([] ++ crlf ++ (p.data ++ crlf ++ text)) =
      [] :: Mime.lines (p.data ++ crlf ++ text) := by
    rw [lines_append]
    rfl
  have hsplit : framePart boundary p ++ text =
      dashes ++ boundary ++ crlf ++
        (p.headers.flatMap (· ++ crlf) ++ ([] ++ crlf ++ (p.data ++ crlf ++ text))) := by
    simp [framePart]
  rw [hsplit, lines_append, lines_of_notMem hdashes, lines_headers h.unbroken, hempty,
    lines_append]
  simp [Part.lines]

/-- The lines of what ends a body. -/
theorem lines_closing (hboundary : cr ∉ boundary) :
    Mime.lines (dashes ++ boundary ++ dashes ++ crlf) = [dashes ++ boundary ++ dashes, []] := by
  have hdashes : cr ∉ dashes ++ boundary ++ dashes := by
    simp only [List.mem_append, not_or]
    exact ⟨⟨by decide, hboundary⟩, by decide⟩
  have happend := lines_append (dashes ++ boundary ++ dashes) []
  rwa [List.append_nil, lines_of_notMem hdashes] at happend

/-- The parts after the first delimiter of a framed body. -/
theorem partLines_frame (hboundary : cr ∉ boundary) {p : Part} {parts : List Part}
    (h : ∀ q ∈ p :: parts, q.Plain boundary) :
    partLines boundary (p.lines ++ Mime.lines (frame boundary parts)) =
      some ((p :: parts).map Part.lines) := by
  induction parts generalizing p with
  | nil =>
    have hclosing : partLines boundary (Mime.lines (frame boundary [])) = some [[]] := by
      show partLines boundary (Mime.lines (dashes ++ boundary ++ dashes ++ crlf)) = _
      rw [lines_closing hboundary, partLines, lineKind_closing]
    rw [partLines_append (h p List.mem_cons_self).lines hclosing, List.append_nil]
    rfl
  | cons q parts ih =>
    obtain ⟨hp, hparts⟩ := List.forall_mem_cons.mp h
    have hnext : partLines boundary (Mime.lines (frame boundary (q :: parts))) =
        some ([] :: (q :: parts).map Part.lines) := by
      rw [frame, List.flatMap_cons, List.append_assoc,
        lines_framePart hboundary (hparts q List.mem_cons_self), partLines, lineKind_delimiter]
      exact congrArg (Option.map ([] :: ·)) (ih hparts)
    rw [partLines_append hp.lines hnext, List.append_nil]
    rfl

/-- **Framing round trip.** A body made of parts in which no line is a delimiter has just these
parts, in order and byte for byte. -/
theorem parse_frame (hboundary : cr ∉ boundary) {parts : List Part}
    (h : ∀ p ∈ parts, p.Plain boundary) :
    parse boundary (frame boundary parts) = some parts := by
  have hbody : bodyLines boundary (Mime.lines (frame boundary parts)) =
      some (parts.map Part.lines) := by
    cases parts with
    | nil =>
      show bodyLines boundary (Mime.lines (dashes ++ boundary ++ dashes ++ crlf)) = _
      rw [lines_closing hboundary, bodyLines, lineKind_closing]
      rfl
    | cons p parts =>
      rw [frame, List.flatMap_cons, List.append_assoc,
        lines_framePart hboundary (h p List.mem_cons_self), bodyLines, lineKind_delimiter]
      exact partLines_frame hboundary h
  rw [parse, hbody, Option.map_some, List.map_map]
  refine congrArg some ?_
  calc parts.map (readPart ∘ Part.lines) = parts.map id :=
        List.map_congr_left fun p hp => readPart_lines (h p hp).filled
    _ = parts := List.map_id parts

end Library.Mime
