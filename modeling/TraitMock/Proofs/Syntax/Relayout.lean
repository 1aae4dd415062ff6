import TraitMock.Proofs.Syntax.Likeness
import TraitMock.Proofs.Syntax.Spread

/-!
# Proofs/Syntax/Relayout — a text that is read, and the same text with more layout

`Machine.wordsTaken` are the words that a run takes from its text.  The run over a text with more
layout between them takes the same lexemes, so its stack stays like that of the run over the text,
and the two read alike (`Machine.exists_parse_of_spread`).
-/

namespace TraitMock.Machine

open Table

variable {file : Option String} {entry : Entry}

/-- **The words that a run takes** from the text at `pos`, up to its end or to the first one that is
refused. -/
def wordsTaken (file : Option String) (entry : Entry) :
    (fuel : Nat) → List Frame → Pos → List Char → List String
  | 0, _, _, _ => []
  | fuel + 1, stack, pos, cs =>
    match Lexer.next (accepts entry stack) pos cs with
    | .ok (some (token, rest)) =>
      match shift file entry stack token with
      | some stack => token.text :: wordsTaken file entry fuel stack token.extent.stop rest
      | none => []
    | _ => []

set_option maxRecDepth 4000 in
theorem wordsTaken_succ (fuel : Nat) (stack : List Frame) (pos : Pos) (cs : List Char) :
    wordsTaken file entry (fuel + 1) stack pos cs =
      match Lexer.next (accepts entry stack) pos cs with
      | .ok (some (token, rest)) =>
        match shift file entry stack token with
        | some stack => token.text :: wordsTaken file entry fuel stack token.extent.stop rest
        | none => []
      | _ => [] := rfl

/-- **The words of a whole text** of the given kind. -/
def wordsOf (file : Option String) (entry : Entry) (text : List Char) : List String :=
  wordsTaken file entry (text.length + 1) [] {} text

/-- Where the arguments of a macro are accepted, nothing else is read. -/
theorem eq_macroArgs_of_next {stack : List Frame} {pos : Pos} {cs rest : List Char} {token : Token}
    (h : Lexer.next (accepts entry stack) pos cs = .ok (some (token, rest)))
    (hargs : accepts entry stack .macroArgs = true) : token.kind = .macroArgs := by
  obtain ⟨-, -, hlexeme⟩ := Lexer.exists_lexeme_of_next h
  have haccepts := Lexer.accepts_of_lexeme hlexeme
  rw [accepts, action?_eq] at haccepts hargs
  exact eq_macroArgs hargs haccepts

/-- What is in front of a text that a run reads to its end is made of the words that it takes. -/
theorem spread_of_run {v : entry.phrase.Val} {fuel : Nat} {stack : List Frame} {last : Option Token}
    {pos : Pos} {cs : List Char} (hrun : run file entry fuel stack last pos cs = .ok v) :
    Spread (wordsTaken file entry fuel stack pos cs) cs cs := by
  induction fuel generalizing stack last pos cs with
  | zero => exact nomatch hrun
  | succ fuel ih =>
    rw [wordsTaken_succ]
    rcases run_eq_ok hrun with ⟨hnext, -⟩ | ⟨token, rest, next, hnext, hshift, hrun⟩
    · rw [hnext]
      refine Spread.of_skip pos (fun _ => rfl) ?_
      rw [Lexer.next_eq_none_iff.mp hnext]
      exact .nil
    · rw [hnext]
      simp only [hshift]
      obtain ⟨_, hskip, -⟩ := Lexer.exists_lexeme_of_next hnext
      have hword : token.text.toList ≠ [] :=
        (Terminal.scan_sound (Lexer.fits_of_next hnext).spells).2.1
      refine Spread.of_skip pos (fun hend => ?_) ?_
      · rw [hskip] at hend
        exact absurd (List.append_eq_nil_iff.mp hend).1 hword
      · rw [hskip]
        exact .word token.text (ih hrun)

/-- **A text that is read is made of its words**, with layout between them. -/
theorem spread_of_parse {v : entry.phrase.Val} {text : List Char}
    (h : parse file entry text = .ok v) : Spread (wordsOf file entry text) text text :=
  spread_of_run h

variable {R : Extent → Extent → Prop} {L : Likeness}

/-- **The run over a text with more layout** gives a like value. -/
theorem exists_run_of_spread (hR : ∀ e e', R e e') (hrules : ∀ r ∈ Grammar.rules, r.Respects R L)
    {v : entry.phrase.Val} {fuel fuel' : Nat} {stack stack' : List Frame}
    {last last' : Option Token} {pos pos' : Pos} {cs cs' : List Char}
    (hstacks : StacksAlike R L stack stack')
    (hspread : Spread (wordsTaken file entry fuel stack pos cs) cs cs') (hfuel : fuel ≤ fuel')
    (hrun : run file entry fuel stack last pos cs = .ok v) :
    ∃ v', run file entry fuel' stack' last' pos' cs' = .ok v' ∧ L entry.phrase v v' := by
  have hcorresponds : Corresponds R := ⟨fun _ _ => hR _ _, fun _ => hR _ _⟩
  induction fuel generalizing fuel' stack stack' last last' pos pos' cs cs' with
  | zero => exact nomatch hrun
  | succ fuel ih =>
    obtain ⟨fuel', rfl⟩ := Nat.exists_eq_add_of_le' (Nat.zero_lt_of_lt hfuel)
    rw [run_succ, accepts_alike hstacks]
    rw [wordsTaken_succ] at hspread
    rcases run_eq_ok hrun with ⟨hnext, hfinish⟩ | ⟨token, rest, next, hnext, hshift, hrun⟩
    · rw [hnext] at hspread
      obtain ⟨v', hfinish', halike⟩ :=
        finish_alike hcorresponds hrules (hR ⟨pos, pos⟩ ⟨pos', pos'⟩) hstacks hfinish
      rw [reductionBound, hstacks.length_eq, ← reductionBound] at hfinish'
      exact ⟨v', by simp only [hspread.next_eq_none hnext, hfinish'], halike⟩
    · rw [hnext] at hspread
      simp only [hshift] at hspread
      obtain ⟨token', rest', hnext', hlexeme, hrest⟩ :=
        hspread.exists_next (eq_macroArgs_of_next hnext) hnext pos'
      have htoken : token.Alike R token' :=
        ⟨congrArg Lexeme.kind hlexeme.symm, congrArg Lexeme.text hlexeme.symm, hR _ _⟩
      obtain ⟨next', hshift', hnexts⟩ := shift_alike hcorresponds hrules htoken hstacks hshift
      have hbehind : ∃ v',
          run file entry fuel' next' (some token') token'.extent.stop rest' = .ok v' ∧
          L entry.phrase v v' := ih hnexts hrest (Nat.le_of_succ_le_succ hfuel) hrun
      simpa only [hnext', hshift'] using hbehind

/-- **A text that is read is read with more layout too**, and the two values are alike. -/
theorem exists_parse_of_spread (hR : ∀ e e', R e e') (hrules : ∀ r ∈ Grammar.rules, r.Respects R L)
    {v : entry.phrase.Val} {text text' : List Char} (hparse : parse file entry text = .ok v)
    (h : Spread (wordsOf file entry text) text text') :
    ∃ v', parse file entry text' = .ok v' ∧ L entry.phrase v v' :=
  exists_run_of_spread hR hrules .nil h (Nat.succ_le_succ h.length_le) hparse

end TraitMock.Machine
