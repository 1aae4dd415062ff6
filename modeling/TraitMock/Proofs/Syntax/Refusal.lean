import TraitMock.Proofs.Syntax.Reading

/-!
# Proofs/Syntax/Refusal — texts that cannot be read on

`ReadsOn` says that a text is read from a stack to the end.  What is read on takes the words at its
front, one by one, so a text is refused as soon as a word is reached that the state on top of the
stack does not accept.
-/

namespace TraitMock

namespace Lexer

variable {accepts : Terminal → Bool}

theorem next_blank (accepts : Terminal → Bool) (pos : Pos) (cs : List Char) :
    next accepts pos (' ' :: cs) = next accepts (pos.next ' ') cs := rfl

/-- In front of a colon that is not accepted, alone or as one of two, there is no lexeme. -/
theorem lexeme_colon_eq_none (hcolon : accepts .colon = false) (hsep : accepts .pathSep = false)
    (cs : List Char) : lexeme accepts (':' :: cs) = none := by
  refine List.findSome?_eq_none_iff.mpr fun t _ => ?_
  rw [scanIn]
  split
  next => rfl
  next htried =>
    rw [Option.map_eq_none_iff]
    by_contra hscan
    obtain ⟨x, hx⟩ := Option.ne_none_iff_exists'.mp hscan
    have hlead : ∀ t ∈ Terminal.all, t.lead? = some ':' → t = .colon ∨ t = .pathSep := by
      decide
    rcases Terminal.lead_of_scan hx with ht | ⟨-, hc⟩ | ⟨-, hc⟩
    · rcases hlead t (Terminal.mem_all_of_scan hx) ht with rfl | rfl
      · simp [hcolon] at htried
      · simp [hsep] at htried
    · exact absurd hc (by decide)
    · exact absurd hc (by decide)

end Lexer

namespace Machine

open Table

variable {entry : Entry} {stack : List Frame} {cs : List Char} {v : entry.phrase.Val}

/-- **A text is read on** from a stack to its end, and gives a value. -/
def ReadsOn (entry : Entry) (stack : List Frame) (cs : List Char) (v : entry.phrase.Val) : Prop :=
  ∃ fuel last pos, run none entry fuel stack last pos cs = .ok v

theorem readsOn_of_parse (h : parse none entry cs = .ok v) : ReadsOn entry [] cs v := ⟨_, _, _, h⟩

/-- **The word in front is taken**, a blank before it or not, if it is one that the state on top of
the stack shifts. -/
theorem ReadsOn.word (w : Lexeme) {s target : Nat} (hs : top entry stack = s)
    (hstands : w.StandsAt s) (hstep : step s (.term w.kind) = some target)
    (hapart : w.kind.Apart cs) {text : List Char}
    (htext : text = w.text.toList ++ cs ∨ text = ' ' :: (w.text.toList ++ cs))
    (h : ReadsOn entry stack text v) :
    ∃ frame, top entry (frame :: stack) = target ∧ ReadsOn entry (frame :: stack) cs v := by
  subst hs
  obtain ⟨_ | fuel, last, pos, hrun⟩ := h
  · cases hrun
  · have haccepts : accepts entry stack w.kind = true :=
      accepts_of_reduces (.refl : Reduces none entry pos w.kind stack stack) hstep
    have hargs : accepts entry stack .macroArgs = true → w.kind = .macroArgs := by
      rw [accepts, action?_eq] at haccepts ⊢
      exact fun hargs => eq_macroArgs hargs haccepts
    obtain ⟨token, hkind, hnext⟩ : ∃ token : Token, token.kind = w.kind ∧
        Lexer.next (accepts entry stack) pos text = .ok (some (token, cs)) := by
      have hfits := fits_of_standsAt hstands haccepts
      rcases htext with rfl | rfl
      · exact ⟨_, rfl, Lexer.next_of_fits hfits haccepts hargs hapart⟩
      · exact ⟨_, rfl, (Lexer.next_blank ..).trans (Lexer.next_of_fits hfits haccepts hargs hapart)⟩
    rw [← hkind] at hstep
    have hshift : shift none entry stack token =
        some (⟨target, .term token.kind, token, token.extent⟩ :: stack) := by
      rw [shift, settle_of_reduces .refl hstep (height_lt_bound stack)]
      rfl
    rw [run_succ, hnext] at hrun
    simp only [hshift] at hrun
    exact ⟨⟨target, .term token.kind, token, token.extent⟩, rfl, fuel, _, _, hrun⟩

/-- **A colon that is not accepted ends the reading.** -/
theorem not_readsOn_colon (hcolon : accepts entry stack .colon = false)
    (hsep : accepts entry stack .pathSep = false) : ¬ ReadsOn entry stack (':' :: cs) v := by
  rintro ⟨_ | fuel, last, pos, hrun⟩
  · cases hrun
  · have hskip : Lexer.skip false pos (':' :: cs) = (pos, ':' :: cs) := rfl
    simp only [run_succ, Lexer.next, hskip, Lexer.lexeme_colon_eq_none hcolon hsep] at hrun
    split at hrun
    · cases hrun
    · next hnext => split at hnext <;> cases hnext
    · next hnext => split at hnext <;> cases hnext

end Machine

end TraitMock
