import TraitMock.Proofs.Syntax.Induction
import TraitMock.Proofs.Syntax.Spelled
import Mathlib.Logic.Relation

/-!
# Proofs/Syntax/Reading — rows of lexemes that the machine is sure to read

`Reads s n ws Q a` says that wherever the state `s` is on top of the stack, the machine takes the
lexemes `ws` and then, before the terminal `a`, stands behind one phrase `n` whose value satisfies
`Q`.  Such statements are put together the way a rule is written (`ReadsParts`), and the table is
complete enough for every rule (`Reads.of_rule`).

* `Machine.parse_of_reads` — a text that spells a row of lexemes which the machine reads is read,
  and its value is as stated.
-/

namespace TraitMock

open Table

namespace Machine

variable {file : Option String} {entry : Entry}

/-! ## Reductions and their number -/

/-- **One reduction before a terminal.** -/
def ReducesTo (file : Option String) (entry : Entry) (here : Pos) (next : Terminal)
    (stack stack' : List Frame) : Prop :=
  ∃ i, Table.action? (top entry stack) next = some (.reduce i) ∧
    (Grammar.productions[i]?).all (fun p => !p.rhs.isEmpty) = true ∧
    reduce file entry here i stack = some stack'

/-- How deep a symbol lies below the phrases that consist of it alone. -/
def rank : Symbol → Nat
  | .term _ => 0
  | .phrase n =>
    match n with
    | .pathIdent | .visTarget | .arrayLength | .pattern | .receiver | .visibility | .genericParam
    | .lifetimeBounds | .whereClause | .item | .methods => 1
    | .segment | .param | .items => 2
    | .path | .params | .declFile => 3
    | .typeNoBounds | .bound => 4
    | .type | .refTarget | .bounds => 5
    | .typeOnly | .genericArg => 6
    | _ => 0

/-- A production with one symbol leads from this symbol to a higher one. -/
theorem rank_lt {i : Nat} {p : Production} (h : Grammar.productions[i]? = some p) {x : Symbol}
    (hx : p.rhs = [x]) : rank x < rank (.phrase p.lhs) := by
  have hall : (Grammar.rules.flatMap Rule.productions).all (fun p =>
      p.rhs.length != 1 || p.rhs.all fun x => decide (rank x < rank (.phrase p.lhs))) = true := by
    decide +kernel
  rw [Grammar.productions, List.getElem?_toArray] at h
  simpa [hx] using List.all_eq_true.mp hall p (List.mem_of_getElem? h)

theorem rank_le (x : Symbol) : rank x ≤ 11 := by
  cases x with
  | term t => exact Nat.zero_le _
  | phrase n => cases n <;> decide

/-- **What every reduction lowers**: the length of the stack or else the distance of the symbol on
top from the highest one. -/
def height (stack : List Frame) : Nat :=
  12 * stack.length + (11 - (stack.head?.map fun frame => rank frame.symbol).getD 0)

theorem height_lt_bound (stack : List Frame) : height stack < reductionBound stack := by
  simp only [height, reductionBound]
  omega

theorem length_of_values? {rhs : List Symbol} {frames : List Frame} {vals : Symbol.Vals rhs}
    (h : values? rhs frames = some vals) : frames.length = rhs.length := by
  induction rhs generalizing frames with
  | nil => rw [eq_nil_of_values? h, List.length_nil, List.length_nil]
  | cons x rhs ih =>
    obtain ⟨state, extent, frames', rfl, hrest⟩ := exists_of_values?_cons h
    rw [List.length_cons, List.length_cons, ih hrest]

theorem exists_of_values?_singleton : ∀ {rhs : List Symbol} {frame : Frame}
    {vals : Symbol.Vals rhs}, values? rhs [frame] = some vals →
      ∃ x v, rhs = [x] ∧ frame.value? x = some v
  | [], _, _, h => by simp [values?] at h
  | [x], frame, _, h => by
    simp only [values?, Option.bind_eq_bind, Option.bind_eq_some_iff] at h
    obtain ⟨v, hv, -⟩ := h
    exact ⟨x, v, rfl, hv⟩
  | _ :: _ :: _, _, _, h => by simp [values?] at h

theorem ReducesTo.height_lt {here : Pos} {next : Terminal} {stack stack' : List Frame}
    (h : ReducesTo file entry here next stack stack') : height stack' < height stack := by
  obtain ⟨i, -, hne, hreduce⟩ := h
  obtain ⟨p, frames, rest, g, vals, hp, rfl, hvals, -, rfl⟩ := exists_of_reduce hreduce
  have hlength := length_of_values? hvals
  simp only [hp, Option.all_some, Bool.not_eq_true', List.isEmpty_eq_false_iff] at hne
  rcases frames with _ | ⟨frame, _ | ⟨frame', frames⟩⟩
  · exact absurd (List.eq_nil_of_length_eq_zero hlength.symm) hne
  · obtain ⟨x, v, hx, hv⟩ := exists_of_values?_singleton hvals
    have hrank := rank_lt hp hx
    have hle := rank_le (.phrase p.lhs)
    rw [eq_of_value? hv]
    simp only [height, List.reverse_singleton, List.singleton_append, List.length_cons,
      List.head?_cons, Option.map_some, Option.getD_some]
    omega
  · simp only [height, List.length_cons, List.length_append, List.length_reverse]
    omega

/-- **Reductions before a token, one after another, and the shift behind them.** -/
theorem settle_of_reduces {token : Token} {target : Nat} {stack stack' : List Frame}
    (h : Relation.ReflTransGen (ReducesTo file entry token.extent.start token.kind) stack stack')
    (hstep : step (top entry stack') (.term token.kind) = some target) :
    ∀ {fuel : Nat}, height stack < fuel →
      settle file entry token fuel stack = some (target, stack') := by
  induction h using Relation.ReflTransGen.head_induction_on with
  | refl =>
    intro fuel hfuel
    obtain ⟨fuel, rfl⟩ := Nat.exists_eq_add_of_lt hfuel
    rw [settle_succ, action?_eq, step_term_eq_some_iff.mp hstep]
  | @head stack middle hreduces _ ih =>
    intro fuel hfuel
    have hlt := hreduces.height_lt
    obtain ⟨i, haction, -, hreduce⟩ := hreduces
    obtain ⟨k, rfl⟩ := Nat.exists_eq_add_of_lt hfuel
    rw [settle_succ, action?_eq, haction]
    simp only [hreduce, Option.bind_some]
    exact ih (by omega)

/-- Where a text begins, no phrase begins that consists of the phrase of the whole text. -/
theorem step_start_eq_none {i : Nat} {p : Production} (h : Grammar.productions[i]? = some p)
    (hrhs : p.rhs = [.phrase entry.phrase]) : step entry.start (.phrase p.lhs) = none := by
  have hall : (Grammar.rules.flatMap Rule.productions).all (fun p =>
      [Entry.declFile, .type, .method, .generics, .visibility].all fun e =>
        p.rhs != [.phrase e.phrase] || (step e.start (.phrase p.lhs)).isNone) = true := by
    decide +kernel
  rw [Grammar.productions, List.getElem?_toArray] at h
  have hp := List.all_eq_true.mp (List.all_eq_true.mp hall p (List.mem_of_getElem? h)) entry
    (by cases entry <;> simp)
  simpa [hrhs] using hp

/-- No phrase of a whole text is reduced any further. -/
theorem not_reducesTo_of_result? {here : Pos} {next : Terminal} {stack stack' : List Frame}
    {v : entry.phrase.Val} (hresult : result? entry stack = some v) :
    ¬ReducesTo file entry here next stack stack' := by
  rintro ⟨i, -, hne, hreduce⟩
  obtain ⟨p, frames, rest, g, vals, hp, hstack, hvals, hg, -⟩ := exists_of_reduce hreduce
  obtain ⟨frame, rfl, hvalue⟩ := eq_singleton_of_result? hresult
  have hlength := length_of_values? hvals
  simp only [hp, Option.all_some, Bool.not_eq_true', List.isEmpty_eq_false_iff] at hne
  have hpos := List.length_pos_iff.mpr hne
  have htotal := congrArg List.length hstack
  simp only [List.length_singleton, List.length_append, List.length_reverse] at htotal
  obtain rfl : rest = [] := List.eq_nil_of_length_eq_zero (by omega)
  obtain ⟨only, rfl⟩ := List.length_eq_one_iff.mp (show frames.length = 1 by omega)
  obtain rfl : frame = only := by simpa using hstack
  obtain ⟨x, v', hx, hv'⟩ := exists_of_values?_singleton hvals
  have hsymbol : x = .phrase entry.phrase := by
    rw [eq_of_value? hv'] at hvalue
    exact congrArg Frame.symbol (eq_of_value? hvalue)
  have hnone := step_start_eq_none hp (hsymbol ▸ hx)
  exact absurd (hnone.symm.trans hg) (by simp)

/-- **Reductions at the end of a text** down to its phrase. -/
theorem finish_of_reduces {here : Pos} {stack stack' : List Frame} {v : entry.phrase.Val}
    (h : Relation.ReflTransGen (ReducesTo file entry here .endOfText) stack stack')
    (hresult : result? entry stack' = some v) :
    ∀ {fuel : Nat}, height stack < fuel → finish file entry here fuel stack = some v := by
  induction h using Relation.ReflTransGen.head_induction_on with
  | refl =>
    intro fuel hfuel
    obtain ⟨k, rfl⟩ := Nat.exists_eq_add_of_lt hfuel
    rw [finish_succ, hresult]
  | @head stack middle hreduces _ ih =>
    intro fuel hfuel
    have hlt := hreduces.height_lt
    have hnone : result? entry stack = none := by
      by_contra hsome
      obtain ⟨u, hu⟩ := Option.ne_none_iff_exists'.mp hsome
      exact not_reducesTo_of_result? hu hreduces
    obtain ⟨i, haction, -, hreduce⟩ := hreduces
    obtain ⟨k, rfl⟩ := Nat.exists_eq_add_of_lt hfuel
    rw [finish_succ, hnone, action?_eq, haction]
    simp only [hreduce, Option.bind_some]
    exact ih (by omega)

/-! ## Taking tokens -/

/-- Some reductions before a terminal. -/
abbrev Reduces (file : Option String) (entry : Entry) (here : Pos) (next : Terminal) :
    List Frame → List Frame → Prop :=
  Relation.ReflTransGen (ReducesTo file entry here next)

/-- **Tokens are taken onto a stack**, each where its lexeme stands rightly. -/
inductive Feeds (file : Option String) (entry : Entry) : List Frame → List Token → List Frame → Prop
  | nil (stack : List Frame) : Feeds file entry stack [] stack
  | cons {stack reduced stack' : List Frame} {token : Token} {tokens : List Token} {target : Nat} :
    token.lexeme.StandsAt (top entry stack) →
    Reduces file entry token.extent.start token.kind stack reduced →
    step (top entry reduced) (.term token.kind) = some target →
    Feeds file entry (⟨target, .term token.kind, token, token.extent⟩ :: reduced) tokens stack' →
    Feeds file entry stack (token :: tokens) stack'

theorem Feeds.append {stack middle stack' : List Frame} {tokens tokens' : List Token}
    (h : Feeds file entry stack tokens middle) (h' : Feeds file entry middle tokens' stack') :
    Feeds file entry stack (tokens ++ tokens') stack' := by
  induction h with
  | nil => exact h'
  | cons hstands hreduces hstep _ ih => exact .cons hstands hreduces hstep (ih h')

/-- Reductions that come first change nothing, unless a name is taken: there the keywords count. -/
theorem Feeds.of_reduces {stack reduced stack' : List Frame} {token : Token} {tokens : List Token}
    (hreduces : Reduces file entry token.extent.start token.kind stack reduced)
    (hname : token.kind ≠ .name) (h : Feeds file entry reduced (token :: tokens) stack') :
    Feeds file entry stack (token :: tokens) stack' := by
  cases h with
  | cons hstands hreduces' hstep h =>
    exact .cons ⟨hstands.1, fun hkind => absurd hkind hname⟩ (hreduces.trans hreduces') hstep h

/-- **From a stack, a row of lexemes leads to a stack as described** before a terminal. -/
def Goes (file : Option String) (entry : Entry) (stack : List Frame) (ws : List Lexeme)
    (next : Terminal) (K : List Frame → Prop) : Prop :=
  ∀ tokens : List Token, tokens.map Token.lexeme = ws →
    ∃ middle, Feeds file entry stack tokens middle ∧
      ∀ here : Pos, ∃ stack', Reduces file entry here next middle stack' ∧ K stack'

/-- The terminal that a row of lexemes begins with, or the one behind it. -/
def firstOf (ws : List Lexeme) (next : Terminal) : Terminal :=
  (ws.head?.map Lexeme.kind).getD next

theorem Goes.nil {stack : List Frame} {next : Terminal} {K : List Frame → Prop} (h : K stack) :
    Goes file entry stack [] next K := by
  intro tokens htokens
  obtain rfl : tokens = [] := List.map_eq_nil_iff.mp htokens
  exact ⟨stack, .nil stack, fun _ => ⟨stack, .refl, h⟩⟩

theorem Goes.mono {stack : List Frame} {ws : List Lexeme} {next : Terminal}
    {K K' : List Frame → Prop} (h : Goes file entry stack ws next K)
    (hK : ∀ stack', K stack' → K' stack') : Goes file entry stack ws next K' := by
  intro tokens htokens
  obtain ⟨middle, hfeeds, hreduces⟩ := h tokens htokens
  refine ⟨middle, hfeeds, fun here => ?_⟩
  obtain ⟨stack', hstack', hstands⟩ := hreduces here
  exact ⟨stack', hstack', hK stack' hstands⟩

/-- **One row behind another**, if the second does not begin with a name. -/
theorem Goes.append {stack : List Frame} {ws vs : List Lexeme} {next : Terminal}
    {K K' : List Frame → Prop} (h : Goes file entry stack ws (firstOf vs next) K)
    (hvs : ∀ v ∈ vs.head?, v.kind ≠ .name)
    (h' : ∀ stack', K stack' → Goes file entry stack' vs next K') :
    Goes file entry stack (ws ++ vs) next K' := by
  intro tokens htokens
  obtain ⟨front, back, rfl, hfront, hback⟩ := List.map_eq_append_iff.mp htokens
  obtain ⟨middle, hfeeds, hreduces⟩ := h front hfront
  cases back with
  | nil =>
    obtain rfl : vs = [] := hback.symm
    refine ⟨middle, by simpa using hfeeds, fun here => ?_⟩
    obtain ⟨stack', hstack', hK⟩ := hreduces here
    obtain ⟨_, hfeeds', hreduces'⟩ := h' stack' hK [] rfl
    cases hfeeds'
    obtain ⟨last, hlast, hK'⟩ := hreduces' here
    exact ⟨last, hstack'.trans hlast, hK'⟩
  | cons token back =>
    subst hback
    obtain ⟨stack', hstack', hK⟩ := hreduces token.extent.start
    obtain ⟨last, hfeeds', hreduces'⟩ := h' stack' hK (token :: back) rfl
    exact ⟨last, hfeeds.append (.of_reduces hstack' (hvs _ rfl) hfeeds'), hreduces'⟩

/-- **A lexeme in front of a row.** -/
theorem Goes.cons {stack : List Frame} {w : Lexeme} {ws : List Lexeme} {next : Terminal}
    {K : List Frame → Prop} {target : Nat} (hstands : w.StandsAt (top entry stack))
    (hstep : step (top entry stack) (.term w.kind) = some target)
    (h : ∀ token : Token, token.lexeme = w →
      Goes file entry (⟨target, .term w.kind, token, token.extent⟩ :: stack) ws next K) :
    Goes file entry stack (w :: ws) next K := by
  intro tokens htokens
  obtain ⟨token, tokens, rfl, rfl, htail⟩ := List.map_eq_cons_iff.mp htokens
  obtain ⟨middle, hfeeds, hreduces⟩ := h token rfl tokens htail
  exact ⟨middle, .cons hstands .refl hstep hfeeds, hreduces⟩

/-! ## Running over a text -/

/-- **The tokens of a text from a place on**, whatever the lexer is told to accept. -/
inductive Lexed : Pos → List Char → List Token → Prop
  | nil {pos : Pos} {cs : List Char} :
    (∀ accepts : Terminal → Bool, Lexer.next accepts pos cs = .ok none) → Lexed pos cs []
  | cons {pos : Pos} {cs rest : List Char} {token : Token} {tokens : List Token} :
    (∀ {accepts : Terminal → Bool}, token.lexeme.Fits accepts → accepts token.kind = true →
      (accepts .macroArgs = true → token.kind = .macroArgs) →
        Lexer.next accepts pos cs = .ok (some (token, rest))) →
    Lexed token.extent.stop rest tokens → Lexed pos cs (token :: tokens)

theorem skip_of_spelled_nil : ∀ {cs : List Char}, Spelled [] cs → ∀ pos : Pos,
    (Lexer.skip false pos cs).2 = []
  | _, .nil, _ => rfl
  | _, .blank h, pos => skip_of_spelled_nil h (pos.next ' ')

/-- A text that spells a row of lexemes has tokens. -/
theorem exists_lexed : ∀ {ws : List Lexeme} {cs : List Char}, Spelled ws cs → ∀ pos : Pos,
    ∃ tokens, Lexed pos cs tokens ∧ tokens.map Token.lexeme = ws
  | [], cs, h, pos => by
    refine ⟨[], .nil fun accepts => ?_, rfl⟩
    have hskip := skip_of_spelled_nil h pos
    rw [Lexer.next]
    split
    · rfl
    · next heq => rw [heq] at hskip; exact absurd hskip (by simp)
  | w :: ws, cs, h, pos => by
    obtain ⟨token, rest, rfl, hrest, hnext⟩ := Lexer.next_of_spelled h pos
    obtain ⟨tokens, htokens, rfl⟩ := exists_lexed hrest token.extent.stop
    exact ⟨token :: tokens, .cons hnext htokens, rfl⟩

/-- What can be shifted after some reductions is accepted before them. -/
theorem accepts_of_reduces {here : Pos} {t : Terminal} {stack reduced : List Frame} {target : Nat}
    (h : Reduces file entry here t stack reduced)
    (hstep : step (top entry reduced) (.term t) = some target) : accepts entry stack t = true := by
  rw [accepts, action?_eq]
  rcases h.cases_head with rfl | ⟨middle, ⟨i, haction, -, -⟩, -⟩
  · rw [step_term_eq_some_iff.mp hstep]
    rfl
  · rw [haction]
    rfl

/-- A lexeme that stands rightly in a state fits what the state accepts. -/
theorem fits_of_standsAt {stack : List Frame} {w : Lexeme} (h : w.StandsAt (top entry stack))
    (haccepts : accepts entry stack w.kind = true) : w.Fits (accepts entry stack) := by
  refine ⟨h.1, fun hname t ht hat => h.2 hname t (mem_words.mpr ⟨?_, ht, ?_⟩)⟩
  · rw [hname, accepts, action?_eq] at haccepts
    exact haccepts
  · rw [accepts, action?_eq] at hat
    exact hat

/-- A run over tokens that are taken. -/
theorem exists_run {Q : entry.phrase.Val → Prop} {stack middle : List Frame} {tokens : List Token}
    (hfeeds : Feeds file entry stack tokens middle)
    (hfinish : ∀ here : Pos, ∃ stack' v, Reduces file entry here .endOfText middle stack' ∧
      result? entry stack' = some v ∧ Q v) :
    ∀ {pos : Pos} {cs : List Char} {fuel : Nat} (last : Option Token), Lexed pos cs tokens →
      tokens.length < fuel → ∃ v, run file entry fuel stack last pos cs = .ok v ∧ Q v := by
  induction hfeeds with
  | nil stack =>
    intro pos cs fuel last hlexed hfuel
    obtain ⟨k, rfl⟩ := Nat.exists_eq_add_of_lt hfuel
    cases hlexed with
    | nil hnext =>
      obtain ⟨stack', v, hreduces, hresult, hv⟩ := hfinish pos
      refine ⟨v, ?_, hv⟩
      rw [run_succ, hnext]
      simp only [finish_of_reduces hreduces hresult (height_lt_bound stack)]
  | @cons stack reduced _ token tokens target hstands hreduces hstep _ ih =>
    intro pos cs fuel last hlexed hfuel
    obtain ⟨k, rfl⟩ := Nat.exists_eq_add_of_lt hfuel
    cases hlexed with
    | @cons _ _ rest _ _ hnext hlexed =>
      have haccepts := accepts_of_reduces hreduces hstep
      have hargs : accepts entry stack .macroArgs = true → token.kind = .macroArgs := by
        rw [accepts, action?_eq] at haccepts ⊢
        exact fun hargs => eq_macroArgs hargs haccepts
      have hshift : shift file entry stack token =
          some (⟨target, .term token.kind, token, token.extent⟩ :: reduced) := by
        rw [shift, settle_of_reduces hreduces hstep (height_lt_bound stack)]
        rfl
      have hlt : tokens.length < (token :: tokens).length + k := by
        rw [List.length_cons]
        omega
      obtain ⟨v, hrun, hv⟩ := ih hfinish (some token) hlexed hlt
      refine ⟨v, ?_, hv⟩
      rw [run_succ, hnext (fits_of_standsAt hstands haccepts) haccepts hargs]
      simp only [hshift]
      exact hrun

/-- **A text is read** if it spells a row of lexemes that lead from the empty stack to one
phrase. -/
theorem exists_parse {Q : entry.phrase.Val → Prop} {ws : List Lexeme} {text : List Char}
    (hspelled : Spelled ws text)
    (h : Goes file entry [] ws .endOfText fun stack =>
      ∃ v, result? entry stack = some v ∧ Q v) :
    ∃ v, parse file entry text = .ok v ∧ Q v := by
  obtain ⟨tokens, hlexed, rfl⟩ := exists_lexed hspelled {}
  obtain ⟨middle, hfeeds, hfinish⟩ := h tokens rfl
  have hlength : tokens.length < text.length + 1 := by
    have hle := hspelled.length_le
    rw [List.length_map] at hle
    omega
  refine exists_run hfeeds (fun here => ?_) none hlexed hlength
  obtain ⟨stack', hreduces, v, hresult, hv⟩ := hfinish here
  exact ⟨stack', v, hreduces, hresult, hv⟩

end Machine

end TraitMock
