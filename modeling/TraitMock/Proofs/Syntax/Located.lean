import TraitMock.Proofs.Syntax.Excerpt
import TraitMock.Syntax.Collect

/-!
# Proofs/Syntax/Located — syntax errors point into the text

A text that cannot be read gives one error, and the error points to a place of the text: behind the
layout in front of the word that is refused, or to the last token if the text ends too early, which
is the beginning of the text if there is none (`Machine.placeIn_of_parse`).  Such a place has the
line and the column of a character of the text, or of the end of a line (`Pos.PlaceIn.within`).  No
error comes from the bounds on the number of steps: more of them change nothing
(`Machine.run_eq_readFrom`, `Machine.Underway.settle_eq`).
-/

namespace TraitMock

/-! ## Places in a text -/

/-- **A place in a text**: the one behind some front of it. -/
def Pos.PlaceIn (text : List Char) (p : Pos) : Prop :=
  ∃ front rest, text = front ++ rest ∧ p = ({} : Pos).after front

/-- **A line and a column within a text**: the line is one of its lines, which end at line feeds
alone, and the column that of a character of this line or of its end. -/
structure Pos.Within (text : List Char) (p : Pos) : Prop where
  line_pos : 1 ≤ p.line
  line_le : p.line ≤ 1 + text.count '\n'
  column_pos : 1 ≤ p.column
  column_le : ∃ content, (text.splitOn '\n')[p.line - 1]? = some content ∧
    p.column ≤ 1 + content.length

/-- **The line behind the front of a text** holds what the front has of it.  The columns are counted
from a place `p`, which may stand in the middle of its line. -/
theorem Pos.exists_line (p : Pos) (front rest : List Char) :
    ∃ content, ((front ++ rest).splitOn '\n')[front.count '\n']? = some content ∧
      (p.after front).column ≤ (if '\n' ∈ front then 1 else p.column) + content.length := by
  induction front generalizing p with
  | nil =>
    obtain ⟨content, lines, hlines⟩ := List.exists_cons_of_ne_nil (List.splitOn_ne_nil '\n' rest)
    refine ⟨content, ?_, ?_⟩
    · rw [List.nil_append, hlines]
      rfl
    · simp
  | cons c front ih =>
    obtain ⟨content, hcontent, hcolumn⟩ := ih (p.next c)
    by_cases hc : c = '\n'
    · subst hc
      refine ⟨content, ?_, ?_⟩
      · rw [List.count_cons_self, List.cons_append, List.splitOn,
          List.splitOnP_cons_eq_if_modifyHead, if_pos (beq_self_eq_true _), List.getElem?_cons_succ]
        exact hcontent
      · simpa [next] using hcolumn
    · have hsplit : ((c :: front) ++ rest).splitOn '\n' =
          ((front ++ rest).splitOn '\n').modifyHead (List.cons c) := by
        rw [List.cons_append, List.splitOn, List.splitOnP_cons_eq_if_modifyHead,
          if_neg (by simpa using hc)]
        rfl
      have hplace : p.next c = ⟨p.line, p.column + 1⟩ := if_neg hc
      rw [hplace] at hcolumn
      rw [hsplit, List.count_cons_of_ne hc, Pos.after_cons, hplace]
      by_cases hfeed : '\n' ∈ front
      · obtain ⟨k, hk⟩ := Nat.exists_eq_add_of_le' (List.count_pos_iff.mpr hfeed)
        rw [if_pos hfeed] at hcolumn
        refine ⟨content, ?_, ?_⟩
        · rw [hk, List.getElem?_modifyHead_succ, ← hk, hcontent]
        · rwa [if_pos (List.mem_cons_of_mem c hfeed)]
      · rw [List.count_eq_zero.mpr hfeed] at hcontent ⊢
        rw [if_neg hfeed] at hcolumn
        refine ⟨c :: content, ?_, ?_⟩
        · rw [List.getElem?_modifyHead_zero, hcontent, Option.map_some]
        · rw [if_neg (List.not_mem_cons_of_ne_of_not_mem (Ne.symm hc) hfeed), List.length_cons]
          change _ ≤ p.column + 1 + content.length at hcolumn
          omega

/-- **A place in a text** is on one of its lines, and within it. -/
theorem Pos.PlaceIn.within {text : List Char} {p : Pos} (h : p.PlaceIn text) : p.Within text := by
  obtain ⟨front, rest, rfl, rfl⟩ := h
  obtain ⟨content, hcontent, hcolumn⟩ := ({} : Pos).exists_line front rest
  have hline : (({} : Pos).after front).line = front.count '\n' + 1 := by rw [Pos.after_eq]
  refine ⟨?_, ?_, ?_, content, ?_, ?_⟩
  · omega
  · rw [hline, List.count_append]
    omega
  · rw [Pos.after_eq]
    exact Nat.le_add_left 1 _
  · rwa [hline, Nat.add_sub_cancel]
  · rwa [ite_self] at hcolumn

/-! ## Where reading breaks off -/

/-- **Where no token is found**, layout alone stands in front of the place. -/
theorem Lexer.placeIn_of_next {accepts : Terminal → Bool} {front cs : List Char} {e : SyntaxError}
    (h : next accepts (({} : Pos).after front) cs = .error e) : e.pos.PlaceIn (front ++ cs) := by
  rw [next] at h
  split at h
  · cases h
  · next pos c tail hskip =>
    obtain ⟨layout, -, rfl, rfl⟩ := exists_filling_of_skip hskip
    have hplace :
        ((({} : Pos).after front).after layout).PlaceIn (front ++ (layout ++ c :: tail)) :=
      ⟨front ++ layout, c :: tail, (List.append_assoc ..).symm, (Pos.after_append ..).symm⟩
    split at h
    · cases h
    · split at h <;> cases h <;> exact hplace

/-- A token that is read begins at a place in the text. -/
theorem Token.ReadFrom.placeIn {text : List Char} {t : Token} (h : t.ReadFrom text) :
    t.extent.start.PlaceIn text := by
  obtain ⟨-, front, rest, htext, hextent⟩ := h
  exact ⟨front, _, htext, by rw [hextent]⟩

namespace Machine

variable {file : Option String} {entry : Entry} {e : SyntaxError}

/-- The end of a text is shown at the last token, and at the beginning of the text if there is
none. -/
theorem placeIn_endToken {text : List Char} {last : Option Token}
    (h : ∀ t ∈ last, t.extent.start.PlaceIn text) :
    (SyntaxError.unexpectedToken (endToken last)).pos.PlaceIn text := by
  cases last with
  | none => exact ⟨[], text, rfl, rfl⟩
  | some t => exact h t rfl

/-- **A run that breaks off** behind the front of a text does so at a place in the text. -/
theorem placeIn_of_run {fuel : Nat} {stack : List Frame} {last : Option Token} (front : List Char)
    {cs : List Char} (hlast : ∀ t ∈ last, t.extent.start.PlaceIn (front ++ cs))
    (h : run file entry fuel stack last (({} : Pos).after front) cs = .error e) :
    e.pos.PlaceIn (front ++ cs) := by
  induction fuel generalizing stack last front cs with
  | zero =>
    cases h
    exact placeIn_endToken hlast
  | succ fuel ih =>
    rw [run_succ] at h
    split at h
    · next hnext =>
      cases h
      exact Lexer.placeIn_of_next hnext
    · split at h
      · cases h
      · cases h
        exact placeIn_endToken hlast
    · next token rest hnext =>
      obtain ⟨hread, front', htext, hstop⟩ := Lexer.readFrom_of_next hnext
      split at h
      · rw [hstop] at h
        rw [htext] at hread ⊢
        exact ih front' (fun t ht => Option.some.inj ht ▸ hread.placeIn) h
      · cases h
        exact hread.placeIn

/-- **A text that cannot be read** breaks off at one of its places. -/
theorem placeIn_of_parse {text : List Char} (h : parse file entry text = .error e) :
    e.pos.PlaceIn text :=
  placeIn_of_run [] (fun _ ht => absurd ht (Option.not_mem_none _)) h

end Machine

/-! ## What is said -/

/-- A text that does not begin with the end of a line has something in its first line. -/
theorem Text.firstLine_ne_empty {s : String} {c : Char} (h : s.toList.head? = some c)
    (hc : isLineEnd c = false) : firstLine s ≠ "" := by
  obtain ⟨cs, hs⟩ := List.head?_eq_some_iff.mp h
  intro hempty
  have hline := congrArg String.toList hempty
  rw [firstLine, String.toList_ofList, hs, List.takeWhile_cons_of_pos (by simp [hc])] at hline
  cases hline

/-- **A syntax error says something**, whatever is quoted of the text. -/
theorem SyntaxError.message_ne_empty (e : SyntaxError) : e.message ≠ "" := by
  cases e with
  | unexpectedToken token =>
    intro hempty
    exact absurd (String.append_eq_empty_iff.mp hempty).2 (by decide +kernel)
  | unexpectedChar c pos =>
    have hwords : "No terminal matches '".toList.head? = some 'N' := by decide +kernel
    have hfront {s t : String} (h : s.toList.head? = some 'N') :
        (s ++ t).toList.head? = some 'N' := by
      rw [String.toList_append, List.head?_append, h, Option.some_or]
    exact Text.firstLine_ne_empty (hfront (hfront (hfront (hfront (hfront hwords))))) (by decide)

/-- **A declaration file is read, or one error is told and located.**  Either the file is what
reading gives and nothing is told, or there is no file and one diagnostic, an error of the parser,
which says something and names the file and the line and the column at which the text could not be
read, a place within it. -/
theorem DeclFile.collect_located (file : Option String) (text : String) :
    (∃ decls, DeclFile.parse file text = .ok decls ∧
      DeclFile.collect file text = (some decls, [])) ∨
    ∃ e d, DeclFile.parse file text = .error e ∧ DeclFile.collect file text = (none, [d]) ∧
      d.phase = some "parser" ∧ d.severity = "error" ∧ d.message ≠ "" ∧ d.span.file = file ∧
      d.span.line = some (e.pos.line : Int) ∧ d.span.column = some (e.pos.column : Int) ∧
      e.pos.PlaceIn text.toList ∧ e.pos.Within text.toList := by
  cases hparse : DeclFile.parse file text with
  | ok decls => exact .inl ⟨decls, rfl, by rw [DeclFile.collect, hparse]⟩
  | error e =>
    have hplace : e.pos.PlaceIn text.toList := by
      rw [DeclFile.parse] at hparse
      cases hitems : Machine.parse file .declFile text.toList with
      | ok items => rw [hitems] at hparse; cases hparse
      | error e' =>
        rw [hitems] at hparse
        cases hparse
        exact Machine.placeIn_of_parse hitems
    exact .inr ⟨e, e.toDiagnostic file, rfl, by rw [DeclFile.collect, hparse], rfl, rfl,
      e.message_ne_empty, rfl, rfl, rfl, hplace, hplace.within⟩

end TraitMock
