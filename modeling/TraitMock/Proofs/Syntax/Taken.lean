import TraitMock.Proofs.Syntax.Induction
import TraitMock.Proofs.Syntax.Spread

/-!
# Proofs/Syntax/Taken — the tokens of a text that is read

A run that ends well takes one token after the other and then comes to the end of its text.
`Machine.taken` lists these tokens, each with the state in which it was read and the text behind it.
In front of each of them stands layout alone, which ends with a blank if there is any
(`Lexer.exists_filling_of_next`, `Filling.isBlank_getLast`).
-/

namespace TraitMock

/-! ## What is skipped -/

/-- Layout ends with a blank: a comment is layout with the end of its line only. -/
theorem Filling.isBlank_getLast {layout : List Char} (h : Filling layout) :
    ∀ c ∈ layout.getLast?, Lexer.isBlank c = true := by
  induction h with
  | nil => simp
  | @cons piece cs hpiece _ ih =>
    intro c hc
    rw [List.getLast?_append, Option.mem_def, Option.or_eq_some_iff] at hc
    rcases hc with hc | ⟨-, hc⟩
    · exact ih c hc
    · cases hpiece with
      | blank hblank => cases hc; exact hblank
      | comment _ =>
        rw [List.getLast?_append, List.getLast?_singleton, Option.some_or] at hc
        cases hc
        rfl

namespace Lexer

theorem skip_filling_append {layout : List Char} (h : Filling layout) (pos : Pos) (cs : List Char) :
    skip false pos (layout ++ cs) = skip false (pos.after layout) cs := by
  induction h generalizing pos with
  | nil => rfl
  | cons hpiece _ ih => rw [List.append_assoc, skip_filler hpiece, ih, Pos.after_append]

/-- **What is skipped in front of something is layout.** -/
theorem exists_filling_of_skip {pos pos' : Pos} {c : Char} {cs rest : List Char}
    (h : skip false pos cs = (pos', c :: rest)) :
    ∃ layout, Filling layout ∧ cs = layout ++ c :: rest ∧ pos' = pos.after layout := by
  induction hn : cs.length using Nat.strong_induction_on generalizing cs pos with
  | _ n ih =>
    subst hn
    cases cs with
    | nil => cases h
    | cons d cs =>
      by_cases hblank : isBlank d = true
      · rw [skip, if_pos hblank] at h
        obtain ⟨layout, hlayout, rfl, rfl⟩ := ih _ (Nat.lt_succ_self _) h rfl
        exact ⟨[d] ++ layout, .cons (.blank hblank) hlayout, rfl, rfl⟩
      by_cases hslashes : d = '/' ∧ cs.head? = some '/'
      · obtain ⟨rfl, hhead⟩ := hslashes
        obtain ⟨cs, rfl⟩ := List.head?_eq_some_iff.mp hhead
        have hskip : skip false pos ('/' :: '/' :: cs) =
            skip true ((pos.next '/').next '/') cs := rfl
        rw [hskip] at h
        by_cases hline : '\n' ∈ cs
        · obtain ⟨body, tail, rfl, hbody⟩ := List.eq_append_cons_of_mem hline
          rw [skip_comment hbody] at h
          obtain ⟨layout, hlayout, rfl, rfl⟩ := ih _ (by simp; omega) h rfl
          exact ⟨_, .cons (.comment hbody) hlayout, by simp,
            (Pos.after_append pos ('/' :: '/' :: body ++ ['\n']) layout).symm⟩
        · have hend := skip_lastComment .nil hline ((pos.next '/').next '/')
          rw [List.append_nil, h] at hend
          cases hend
      · rw [skip, if_neg hblank, if_neg hslashes] at h
        cases h
        exact ⟨[], .nil, rfl, rfl⟩

/-- **A token that is read**: layout stands in front of it, and its place follows from theirs. -/
theorem exists_filling_of_next {accepts : Terminal → Bool} {pos : Pos} {cs rest : List Char}
    {token : Token} (h : next accepts pos cs = .ok (some (token, rest))) :
    ∃ layout, Filling layout ∧ cs = layout ++ (token.text.toList ++ rest) ∧
      token.extent = ⟨pos.after layout, pos.after (layout ++ token.text.toList)⟩ := by
  have hspells := (fits_of_next h).spells
  rw [next] at h
  split at h
  · cases h
  · next pos' c tail hskip =>
    obtain ⟨layout, hlayout, rfl, rfl⟩ := exists_filling_of_skip hskip
    split at h
    · next kind word rest' hlexeme =>
      simp only [Except.ok.injEq, Option.some.injEq, Prod.mk.injEq] at h
      obtain ⟨rfl, rfl⟩ := h
      have htext : (tokenAt (pos.after layout) kind word).text.toList = word := String.toList_ofList
      refine ⟨layout, hlayout, ?_, ?_⟩
      · rw [htext, (fits_of_lexeme hlexeme).1]
      · rw [htext, Pos.after_append]
        rfl
    · split at h <;> cases h

end Lexer

/-! ## The tokens of a run -/

namespace Machine

variable {file : Option String} {entry : Entry}

/-- **A token as it was read**: the state on top of the stack in front of it, and the text behind
it. -/
structure Taken where
  state : Nat
  token : Token
  rest : List Char

/-- **The tokens that a run takes** from the text at `pos`, up to its end or to the first one that
is refused. -/
def takenFrom (file : Option String) (entry : Entry) :
    (fuel : Nat) → List Frame → Pos → List Char → List Taken
  | 0, _, _, _ => []
  | fuel + 1, stack, pos, cs =>
    match Lexer.next (accepts entry stack) pos cs with
    | .ok (some (token, rest)) =>
      match shift file entry stack token with
      | some next => ⟨top entry stack, token, rest⟩ ::
          takenFrom file entry fuel next token.extent.stop rest
      | none => []
    | _ => []

/-- **The tokens of a whole text** of the given kind. -/
def taken (file : Option String) (entry : Entry) (text : List Char) : List Taken :=
  takenFrom file entry (text.length + 1) [] {} text

set_option maxRecDepth 4000 in
theorem takenFrom_succ (fuel : Nat) (stack : List Frame) (pos : Pos) (cs : List Char) :
    takenFrom file entry (fuel + 1) stack pos cs =
      match Lexer.next (accepts entry stack) pos cs with
      | .ok (some (token, rest)) =>
        match shift file entry stack token with
        | some next => ⟨top entry stack, token, rest⟩ ::
            takenFrom file entry fuel next token.extent.stop rest
        | none => []
      | _ => [] := rfl

/-- Every token that is taken spells its terminal. -/
theorem spells_of_mem_takenFrom {fuel : Nat} {stack : List Frame} {pos : Pos} {cs : List Char} :
    ∀ t ∈ takenFrom file entry fuel stack pos cs, t.token.kind.Spells t.token.text := by
  induction fuel generalizing stack pos cs with
  | zero => exact List.forall_mem_nil _
  | succ fuel ih =>
    rw [takenFrom_succ]
    split
    · next token rest hnext =>
      split
      · exact List.forall_mem_cons.mpr ⟨(Lexer.fits_of_next hnext).spells, ih⟩
      · exact List.forall_mem_nil _
    · exact List.forall_mem_nil _

end Machine

end TraitMock
