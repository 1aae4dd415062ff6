import TraitMock.Proofs.Syntax.Relayout
import TraitMock.Proofs.Syntax.Taken

/-!
# Proofs/Syntax/Onward — reading on behind a text that is read

`Machine.readFrom` reads a text to its end from wherever the machine stands; it is the run with fuel
enough (`Machine.run_eq_readFrom`), and goes from token to token (`Machine.readFrom_eq`).

A text that is read to its end is read in the same way in front of a new line and any text behind
it: the same tokens are taken, also if the text ends in a comment, and what is read there is read on
from where the machine stood at the end (`Machine.exists_end_of_readFrom`).
-/

namespace TraitMock

/-! ## Tokens in front of a longer text -/

namespace Lexer

variable {accepts : Terminal → Bool} {pos : Pos} {cs rest : List Char} {token : Token}

/-- Something has been taken from a text where a token has. -/
theorem length_lt_of_next (h : next accepts pos cs = .ok (some (token, rest))) :
    rest.length < cs.length := by
  have hword : token.text.toList ≠ [] := (Terminal.scan_sound (fits_of_next h).spells).2.1
  obtain ⟨layout, -, rfl, -⟩ := exists_filling_of_next h
  have hpos := List.length_pos_iff.mpr hword
  simp only [List.length_append]
  omega

/-- **A token is found again** where the text goes on in a new line. -/
theorem next_append (hargs : accepts .macroArgs = true → token.kind = .macroArgs)
    (h : next accepts pos cs = .ok (some (token, rest))) (tail : List Char) :
    next accepts pos (cs ++ '\n' :: tail) = .ok (some (token, rest ++ '\n' :: tail)) := by
  obtain ⟨pos', hskip, hlexeme⟩ := exists_lexeme_of_next h
  have hgoes : GoesOn rest (rest ++ '\n' :: tail) := by
    cases rest with
    | nil => exact .inr ⟨'\n', rfl, .inl rfl⟩
    | cons c rest => exact .inl rfl
  have hagain := lexeme_again hgoes hargs hlexeme
  have hne : token.text.toList ≠ [] := (Terminal.scan_sound (fits_of_next h).spells).2.1
  obtain ⟨c, word, hword⟩ := List.exists_cons_of_ne_nil hne
  rw [hword, List.cons_append] at hskip
  obtain ⟨layout, hlayout, rfl, rfl⟩ := exists_filling_of_skip hskip
  -- Both tokens stand behind the layout, and their lexemes are the same.
  have hfront : ∀ cs : List Char,
      next accepts pos (layout ++ cs) = next accepts (pos.after layout) cs := fun cs => by
    rw [next, next, skip_filling_append hlayout]
  rw [hword] at hlexeme hagain
  have hnext := next_of_lexeme hlexeme (pos.after layout)
  rw [hfront, ← List.cons_append, hnext] at h
  have htoken := (Prod.mk.inj (Option.some.inj (Except.ok.inj h))).1
  rw [List.append_assoc, ← List.cons_append, List.append_assoc, hfront,
    next_of_lexeme hagain, htoken]

/-- What is skipped to the end of a text is skipped up to the next line where the text goes on. -/
theorem skip_append_line (tail : List Char) : ∀ {inComment : Bool} {pos : Pos} {cs : List Char},
    (skip inComment pos cs).2 = [] →
      skip inComment pos (cs ++ '\n' :: tail) = skip false (pos.after (cs ++ ['\n'])) tail
  | true, _, [], _ => rfl
  | false, _, [], _ => rfl
  | true, pos, c :: cs, h => @skip_append_line tail (c != '\n') (pos.next c) cs h
  | false, pos, c :: cs, h => by
    rw [skip] at h
    rw [List.cons_append, skip]
    split at h
    next hblank =>
      rw [if_pos hblank]
      exact skip_append_line tail h
    next hblank =>
      rw [if_neg hblank]
      split at h
      next hslashes =>
        have hslashes' : c = '/' ∧ (cs ++ '\n' :: tail).head? = some '/' :=
          ⟨hslashes.1, by rw [List.head?_append, hslashes.2]; rfl⟩
        rw [if_pos hslashes']
        exact skip_append_line tail h
      next => cases h

/-- **Behind the end of a text** and its line, the next token is the first of what follows. -/
theorem next_append_line (h : next accepts pos cs = .ok none) (tail : List Char) :
    next accepts pos (cs ++ '\n' :: tail) = next accepts (pos.after (cs ++ ['\n'])) tail := by
  rw [next, next, skip_append_line tail (next_eq_none_iff.mp h)]

end Lexer

namespace Machine

variable {file : Option String} {entry : Entry}

/-! ## Reading to the end -/

/-- **Reading a text to its end** from where the machine stands. -/
def readFrom (file : Option String) (entry : Entry) (stack : List Frame) (last : Option Token)
    (pos : Pos) (cs : List Char) : Except SyntaxError entry.phrase.Val :=
  run file entry (cs.length + 1) stack last pos cs

/-- **More fuel than there are characters** makes no difference. -/
theorem run_eq_readFrom {fuel : Nat} {stack : List Frame} {last : Option Token} {pos : Pos}
    {cs : List Char} (h : cs.length < fuel) :
    run file entry fuel stack last pos cs = readFrom file entry stack last pos cs := by
  induction hn : cs.length using Nat.strong_induction_on generalizing fuel stack last pos cs with
  | _ n ih =>
    subst hn
    obtain ⟨fuel, rfl⟩ := Nat.exists_eq_add_of_le' (Nat.zero_lt_of_lt h)
    rw [readFrom, run_succ, run_succ]
    cases hnext : Lexer.next (accepts entry stack) pos cs with
    | error e => rfl
    | ok found =>
      rcases found with _ | ⟨token, rest⟩
      · rfl
      · have hlt := Lexer.length_lt_of_next hnext
        dsimp only
        cases shift file entry stack token with
        | none => rfl
        | some stack' =>
          dsimp only
          rw [ih _ hlt (by omega) rfl, ih _ hlt hlt rfl]

/-- **Reading goes from token to token.** -/
theorem readFrom_eq (stack : List Frame) (last : Option Token) (pos : Pos) (cs : List Char) :
    readFrom file entry stack last pos cs =
      match Lexer.next (accepts entry stack) pos cs with
      | .error e => .error e
      | .ok none =>
        match finish file entry pos (reductionBound stack) stack with
        | some value => .ok value
        | none => .error (.unexpectedToken (endToken last))
      | .ok (some (token, rest)) =>
        match shift file entry stack token with
        | some stack => readFrom file entry stack (some token) token.extent.stop rest
        | none => .error (.unexpectedToken token) := by
  rw [readFrom, run_succ]
  cases hnext : Lexer.next (accepts entry stack) pos cs with
  | error e => rfl
  | ok found =>
    rcases found with _ | ⟨token, rest⟩
    · rfl
    · dsimp only
      cases shift file entry stack token with
      | none => rfl
      | some stack' => exact run_eq_readFrom (Lexer.length_lt_of_next hnext)

/-! ## Behind the end -/

/-- A token stands on top of a stack. -/
def OnToken : List Frame → Prop
  | [] => False
  | frame :: _ => ∃ t, frame.symbol = .term t

/-- What is shifted stands on top. -/
theorem onToken_of_shift {stack stack' : List Frame} {token : Token}
    (h : shift file entry stack token = some stack') : OnToken stack' := by
  obtain ⟨⟨target, rest⟩, -, rfl⟩ := Option.map_eq_some_iff.mp h
  exact ⟨token.kind, rfl⟩

/-- **Where reading ends**: no token is left and the stack is reduced to the whole, a token is on
top of it unless none has been taken, and whatever stands in the lines behind the text is read on
from there. -/
theorem exists_end_of_readFrom {v : entry.phrase.Val} {stack : List Frame} {last : Option Token}
    {pos : Pos} {cs : List Char} (h : readFrom file entry stack last pos cs = .ok v) :
    ∃ stack' last' pos' cs', Lexer.next (accepts entry stack') pos' cs' = .ok none ∧
      finish file entry pos' (reductionBound stack') stack' = some v ∧
      (stack' = stack ∨ OnToken stack') ∧ pos'.after cs' = pos.after cs ∧
      ∀ tail : List Char, readFrom file entry stack last pos (cs ++ '\n' :: tail) =
        readFrom file entry stack' last' pos' (cs' ++ '\n' :: tail) := by
  induction hn : cs.length using Nat.strong_induction_on generalizing stack last pos cs with
  | _ n ih =>
    subst hn
    rw [readFrom_eq] at h
    split at h
    next => cases h
    next hnext =>
      split at h
      next value hfinish =>
        cases h
        exact ⟨stack, last, pos, cs, hnext, hfinish, .inl rfl, rfl, fun _ => rfl⟩
      next => cases h
    next token rest hnext =>
      split at h
      next stack₁ hshift =>
        obtain ⟨stack', last', pos', cs', hend, hfinish, htop, hafter, hread⟩ :=
          ih _ (Lexer.length_lt_of_next hnext) h rfl
        refine ⟨stack', last', pos', cs', hend, hfinish, .inr ?_, ?_, fun tail => ?_⟩
        · rcases htop with rfl | htop
          · exact onToken_of_shift hshift
          · exact htop
        · obtain ⟨layout, -, rfl, hextent⟩ := Lexer.exists_filling_of_next hnext
          rw [hafter, hextent, ← List.append_assoc, Pos.after_append pos (layout ++ _)]
        · rw [readFrom_eq, Lexer.next_append (eq_macroArgs_of_next hnext) hnext]
          simp only [hshift]
          exact hread tail
      next => cases h

end Machine

end TraitMock
