import TraitMock.Proofs.Syntax.Likeness
import TraitMock.Proofs.Syntax.Onward

/-!
# Proofs/Syntax/Down — the same text some lines further down

A text is read in the same way some lines further down: the same tokens are found there
(`Lexer.next_down`), so by rules that respect where they stand the value is alike, and an error is
the same one, further down (`Machine.readFrom_down`).
-/

namespace TraitMock

variable {d : Nat}

/-! ## Moving places down -/

/-- **A place some lines further down**, in the same column. -/
def Pos.down (d : Nat) (p : Pos) : Pos := ⟨p.line + d, p.column⟩

/-- An extent some lines further down. -/
def Extent.down (d : Nat) (e : Extent) : Extent := ⟨e.start.down d, e.stop.down d⟩

/-- A token some lines further down. -/
def Token.down (d : Nat) (t : Token) : Token := { t with extent := t.extent.down d }

/-- A syntax error some lines further down. -/
def SyntaxError.down (d : Nat) : SyntaxError → SyntaxError
  | .unexpectedToken t => .unexpectedToken (t.down d)
  | .unexpectedChar c p => .unexpectedChar c (p.down d)

@[simp] theorem SyntaxError.pos_down (e : SyntaxError) : (e.down d).pos = e.pos.down d := by
  cases e <;> rfl

namespace Pos

theorem next_down (p : Pos) (c : Char) : (p.down d).next c = (p.next c).down d := by
  rw [next, next]
  split
  · exact congrArg (Pos.mk · 1) (Nat.add_right_comm p.line d 1)
  · rfl

theorem after_down (p : Pos) (cs : List Char) : (p.down d).after cs = (p.after cs).down d := by
  induction cs generalizing p with
  | nil => rfl
  | cons c cs ih => rw [after_cons, after_cons, next_down, ih]

/-- The line behind a stretch of characters: each line feed in it counts. -/
theorem line_after (p : Pos) (cs : List Char) : (p.after cs).line = p.line + cs.count '\n' := by
  induction cs generalizing p with
  | nil => rfl
  | cons c cs ih =>
    rw [after_cons, ih, next]
    split
    next hc => rw [hc, List.count_cons_self, Nat.add_right_comm, Nat.add_assoc]
    next hc => rw [List.count_cons_of_ne hc]

/-- **Behind a text and its line** stands the beginning of a line, as many lines down as the text
has line feeds and one more. -/
theorem after_line (cs : List Char) :
    ({} : Pos).after (cs ++ ['\n']) = ({} : Pos).down (1 + cs.count '\n') := by
  rw [after_append, after_cons, after_nil, next, if_pos rfl, line_after]
  exact congrArg (Pos.mk · 1) (by rw [Nat.add_assoc, Nat.add_comm _ 1])

end Pos

/-! ## Tokens further down -/

namespace Lexer

theorem skip_down : ∀ (inComment : Bool) (pos : Pos) (cs : List Char),
    skip inComment (pos.down d) cs = ((skip inComment pos cs).1.down d, (skip inComment pos cs).2)
  | true, _, [] | false, _, [] => rfl
  | true, pos, c :: cs => by rw [skip, skip, Pos.next_down, skip_down _ _ cs]
  | false, pos, c :: cs => by
    rw [skip, skip, Pos.next_down, skip_down false _ cs, skip_down true _ cs]
    split
    · rfl
    · split <;> rfl

theorem tokenAt_down (pos : Pos) (kind : Terminal) (word : List Char) :
    tokenAt (pos.down d) kind word = (tokenAt pos kind word).down d := by
  rw [tokenAt, Pos.after_down]
  rfl

/-- **The next token further down** is the same one, there. -/
theorem next_down (accepts : Terminal → Bool) (pos : Pos) (cs : List Char) :
    next accepts (pos.down d) cs =
      ((next accepts pos cs).mapError (SyntaxError.down d)).map
        (Option.map fun found => (found.1.down d, found.2)) := by
  rw [next, next, skip_down]
  rcases skip false pos cs with ⟨pos', _ | ⟨c, cs'⟩⟩
  · rfl
  · dsimp only
    rcases lexeme accepts (c :: cs') with _ | ⟨kind, word, rest⟩
    · rcases lexeme (fun _ => true) (c :: cs') with _ | ⟨kind, word, rest⟩
      · rfl
      · dsimp only
        rw [tokenAt_down]
        rfl
    · dsimp only
      rw [tokenAt_down]
      rfl

end Lexer

/-! ## Reading further down -/

namespace Machine

variable {R : Extent → Extent → Prop} {L : Likeness} {file : Option String} {entry : Entry}

/-- **Outcomes of reading that correspond**: like values, or one error, further down. -/
inductive AgreeDown (L : Likeness) (entry : Entry) (d : Nat) :
    Except SyntaxError entry.phrase.Val → Except SyntaxError entry.phrase.Val → Prop
  | ok {v v' : entry.phrase.Val} : L entry.phrase v v' → AgreeDown L entry d (.ok v) (.ok v')
  | error (e : SyntaxError) : AgreeDown L entry d (.error e) (.error (e.down d))

theorem endToken_down (last : Token) :
    endToken (some (last.down d)) = (endToken (some last)).down d := rfl

/-- Like stacks refuse like tokens together. -/
theorem shift_eq_none_of_alike (hR : Corresponds R) (hrules : ∀ r ∈ Grammar.rules, r.Respects R L)
    {token token' : Token} (htoken : token.Alike R token') {stack stack' : List Frame}
    (h : StacksAlike R L stack stack') (hshift : shift file entry stack token = none) :
    shift file entry stack' token' = none := by
  by_contra hsome
  obtain ⟨next', hnext'⟩ := Option.ne_none_iff_exists'.mp hsome
  obtain ⟨next, hnext, -⟩ :=
    shift_alike hR.flip (fun r hr => (hrules r hr).flip) htoken.flip h.flip hnext'
  cases hshift.symm.trans hnext

/-- Like stacks are no whole together. -/
theorem finish_eq_none_of_alike (hR : Corresponds R) (hrules : ∀ r ∈ Grammar.rules, r.Respects R L)
    {here here' : Pos} (hhere : R ⟨here, here⟩ ⟨here', here'⟩) {fuel : Nat}
    {stack stack' : List Frame} (h : StacksAlike R L stack stack')
    (hfinish : finish file entry here fuel stack = none) :
    finish file entry here' fuel stack' = none := by
  by_contra hsome
  obtain ⟨v', hv'⟩ := Option.ne_none_iff_exists'.mp hsome
  obtain ⟨v, hv, -⟩ :=
    finish_alike hR.flip (fun r hr => (hrules r hr).flip) hhere h.flip hv'
  cases hfinish.symm.trans hv

/-- **The same text further down** is read alike, and with the same error: an error at its end
points to the last token, so there must be one. -/
theorem readFrom_down (hR : Corresponds R) (hdown : ∀ e : Extent, R e (e.down d))
    (hrules : ∀ r ∈ Grammar.rules, r.Respects R L) {stack stack' : List Frame} {last : Option Token}
    {pos : Pos} {cs : List Char} (h : StacksAlike R L stack stack')
    (hlast : last = none → ∀ here, (finish file entry here (reductionBound stack) stack).isSome) :
    AgreeDown L entry d (readFrom file entry stack last pos cs)
      (readFrom file entry stack' (last.map (Token.down d)) (pos.down d) cs) := by
  induction hn : cs.length using Nat.strong_induction_on generalizing stack stack' last pos cs with
  | _ n ih =>
    subst hn
    rw [readFrom_eq stack, readFrom_eq stack', accepts_alike h, Lexer.next_down]
    rcases hnext : Lexer.next (accepts entry stack) pos cs with e | _ | ⟨token, rest⟩
    · exact .error e
    · have hbound : reductionBound stack' = reductionBound stack := by
        rw [reductionBound, reductionBound, h.length_eq]
      simp only [Except.mapError, Except.map, Option.map_none, hbound]
      cases hfinish : finish file entry pos (reductionBound stack) stack with
      | some v =>
        obtain ⟨v', hfinish', halike⟩ := finish_alike hR hrules (hdown ⟨pos, pos⟩) h hfinish
        rw [show finish file entry (pos.down d) (reductionBound stack) stack' =
          some v' from hfinish']
        exact .ok halike
      | none =>
        have hfinish' : finish file entry (pos.down d) (reductionBound stack) stack' = none :=
          finish_eq_none_of_alike hR hrules (hdown ⟨pos, pos⟩) h hfinish
        cases last with
        | none =>
          have hsome := hlast rfl pos
          rw [hfinish] at hsome
          cases hsome
        | some last =>
          rw [hfinish', Option.map_some, endToken_down]
          exact .error _
    · have htoken : token.Alike R (token.down d) := ⟨rfl, rfl, hdown token.extent⟩
      simp only [Except.mapError, Except.map, Option.map_some]
      cases hshift : shift file entry stack token with
      | none =>
        rw [shift_eq_none_of_alike hR hrules htoken h hshift]
        exact .error _
      | some next =>
        obtain ⟨next', hshift', hnexts⟩ := shift_alike hR hrules htoken h hshift
        rw [hshift']
        exact ih _ (Lexer.length_lt_of_next hnext) hnexts
          (fun hnone => (Option.some_ne_none token hnone).elim) rfl

end Machine

end TraitMock
