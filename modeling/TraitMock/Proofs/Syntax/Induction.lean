import TraitMock.Proofs.Syntax.Words
import TraitMock.Proofs.Syntax.Lexeme

/-!
# Proofs/Syntax/Induction — what every rule keeps holds of everything that is read

A `Judgement` says something about a phrase: the state in which it began, its value, the terminal it
begins with and the terminal behind it.  A rule preserves a judgement if the judgement holds of what
the rule builds whenever it holds of the phrases that the rule is built from (`Rule.Preserves`).

* `Machine.holds_of_parse` — what all rules preserve holds of every text that is read.
* `Machine.all_of_parse` — so a property of values, wherever they stand, is proved rule by rule.

What reductions or tokens keep of a stack is carried through the machine once (`Machine.of_settle`,
`Machine.exists_of_finish`, `Machine.exists_of_run`).  The invariant here is `Machine.Standing`: on
every stack that the machine reaches, each frame stands in the state below it, and the judgement
holds of each phrase before what is read next.
-/

namespace TraitMock

open Table

/-- **A statement about a phrase**: the state in which it begins, its value, the terminal it begins
with, and the terminal behind it. -/
abbrev Judgement := Nat → (n : Nonterminal) → n.Val → (first next : Terminal) → Prop

/-- **A lexeme stands rightly in a state**: it spells its terminal, and a name is no keyword of the
state. -/
def Lexeme.StandsAt (s : Nat) (w : Lexeme) : Prop := w.kind.Spells w.text ∧ w.Avoids (words s)

variable {P : Judgement}

/-! ## Judgements about sequences -/

/-- A judgement about one symbol. -/
def Symbol.Holds (P : Judgement) (s : Nat) : (x : Symbol) → x.Val → (first next : Terminal) → Prop
  | .term t, token, first, _ => first = t ∧ token.kind = t ∧ token.lexeme.StandsAt s
  | .phrase n, v, first, next => P s n v first next

/-- A judgement about the symbols of a sequence, which leads to the state `stop`. -/
def Symbol.HoldsAll (P : Judgement) : (xs : List Symbol) → Nat → Symbol.Vals xs →
    (first : Terminal) → (stop : Nat) → (next : Terminal) → Prop
  | [], s, _, first, stop, next => stop = s ∧ first = next
  | x :: xs, s, (v, vs), first, stop, next => ∃ s' b, step s x = some s' ∧
    x.Holds P s v first b ∧ Symbol.HoldsAll P xs s' vs b stop next

/-- **A judgement about the parts of a rule.** -/
def Parts.Holds (P : Judgement) : (p : Parts) → Nat → p.Val → (first : Terminal) → (stop : Nat) →
    (next : Terminal) → Prop
  | .done, s, _, first, stop, next => stop = s ∧ first = next
  | .mark t rest, s, vals, first, stop, next => first = t ∧ ∃ s' b, step s (.term t) = some s' ∧
    rest.Holds P s' vals b stop next
  | .token t rest, s, (tok, vals), first, stop, next => first = t ∧ tok.kind = t ∧
    tok.lexeme.StandsAt s ∧ ∃ s' b, step s (.term t) = some s' ∧ rest.Holds P s' vals b stop next
  | .phrase n rest, s, (v, vals), first, stop, next => ∃ s' b, step s (.phrase n) = some s' ∧
    P s n v first b ∧ rest.Holds P s' vals b stop next
  | .maybe _ rest, s, (none, vals), first, stop, next => rest.Holds P s vals first stop next
  | .maybe inner rest, s, (some u, vals), first, stop, next => ∃ s' b,
    inner.Holds P s u first s' b ∧ rest.Holds P s' vals b stop next

/-- **All tokens and phrases that a rule is built from have a property**, whatever the state. -/
def Parts.All (T : Terminal → Token → Prop) (Q : (n : Nonterminal) → n.Val → Prop) :
    (p : Parts) → p.Val → Prop
  | .done, _ => True
  | .mark _ rest, vals => rest.All T Q vals
  | .token t rest, (tok, vals) => T t tok ∧ rest.All T Q vals
  | .phrase n rest, (v, vals) => Q n v ∧ rest.All T Q vals
  | .maybe inner rest, (o, vals) => (∀ u ∈ o, inner.All T Q u) ∧ rest.All T Q vals

/-- **What is known of tokens and phrases wherever they stand** is known of all that a rule is built
from. -/
theorem Parts.Holds.all {T : Terminal → Token → Prop} {Q : (n : Nonterminal) → n.Val → Prop}
    (hT : ∀ {s} {token : Token}, token.lexeme.StandsAt s → T token.kind token)
    (hQ : ∀ {s n v first next}, P s n v first next → Q n v) :
    ∀ {p : Parts} {s stop : Nat} {vals : p.Val} {first next : Terminal},
      p.Holds P s vals first stop next → p.All T Q vals
  | .done, _, _, _, _, _, _ => trivial
  | .mark _ _, _, _, _, _, _, ⟨_, _, _, _, hrest⟩ => hrest.all hT hQ
  | .token _ _, _, _, (_, _), _, _, ⟨_, hkind, hstands, _, _, _, hrest⟩ =>
    ⟨hkind ▸ hT hstands, hrest.all hT hQ⟩
  | .phrase _ _, _, _, (_, _), _, _, ⟨_, _, _, hv, hrest⟩ => ⟨hQ hv, hrest.all hT hQ⟩
  | .maybe _ rest, _, _, (none, _), _, _, hrest =>
    ⟨fun _ hu => absurd hu (Option.not_mem_none _), Parts.Holds.all (p := rest) hT hQ hrest⟩
  | .maybe _ _, _, _, (some _, _), _, _, ⟨_, _, hinner, hrest⟩ =>
    ⟨fun _ hu => Option.some.inj hu ▸ hinner.all hT hQ, hrest.all hT hQ⟩

theorem Symbol.HoldsAll.walk : ∀ {xs : List Symbol} {s stop : Nat} {vs : Symbol.Vals xs}
    {first next : Terminal}, Symbol.HoldsAll P xs s vs first stop next → Table.walk s xs = some stop
  | [], _, _, _, _, _, ⟨hstop, _⟩ => by rw [hstop, walk_nil]
  | _ :: _, _, _, (_, _), _, _, ⟨_, _, hstep, _, hrest⟩ => by
    rw [walk_cons, hstep, Option.bind_some]
    exact hrest.walk

/-- A sequence in two stretches. -/
theorem Symbol.HoldsAll.split : ∀ {xs ys : List Symbol} {s stop : Nat} {vs : Symbol.Vals (xs ++ ys)}
    {first next : Terminal}, Symbol.HoldsAll P (xs ++ ys) s vs first stop next →
      ∃ s' b, Symbol.HoldsAll P xs s (Symbol.Vals.split xs vs).1 first s' b ∧
        Symbol.HoldsAll P ys s' (Symbol.Vals.split xs vs).2 b stop next
  | [], _, s, _, _, first, _, h => ⟨s, first, ⟨rfl, rfl⟩, h⟩
  | _ :: _, _, _, _, (_, _), _, _, ⟨s', b, hstep, hx, hrest⟩ => by
    obtain ⟨s'', b', hxs, hys⟩ := hrest.split
    exact ⟨s'', b', ⟨s', b, hstep, hx, hxs⟩, hys⟩

/-- **From a choice of the options to the rule.** -/
theorem Parts.holds_of_reading : ∀ (p : Parts) (reading : Parts.Reading p.Val) {s stop : Nat}
    {vs : Symbol.Vals reading.rhs} {first next : Terminal}, reading ∈ p.readings →
      Symbol.HoldsAll P reading.rhs s vs first stop next →
        p.Holds P s (reading.value vs) first stop next
  | .done, reading, _, _, _, _, _, hmem, h => by
    obtain rfl : reading = _ := List.mem_singleton.mp hmem
    exact h
  | .mark t rest, reading, _, _, _, _, _, hmem, h => by
    obtain ⟨r, hr, rfl⟩ := List.mem_map.mp hmem
    obtain ⟨s', b, hstep, ⟨hfirst, -, -⟩, hrest⟩ := h
    exact ⟨hfirst, s', b, hstep, holds_of_reading rest r hr hrest⟩
  | .token t rest, reading, _, _, _, _, _, hmem, h => by
    obtain ⟨r, hr, rfl⟩ := List.mem_map.mp hmem
    obtain ⟨s', b, hstep, ⟨hfirst, hkind, hstands⟩, hrest⟩ := h
    exact ⟨hfirst, hkind, hstands, s', b, hstep, holds_of_reading rest r hr hrest⟩
  | .phrase n rest, reading, _, _, _, _, _, hmem, h => by
    obtain ⟨r, hr, rfl⟩ := List.mem_map.mp hmem
    obtain ⟨s', b, hstep, hv, hrest⟩ := h
    exact ⟨s', b, hstep, hv, holds_of_reading rest r hr hrest⟩
  | .maybe inner rest, reading, _, _, _, _, _, hmem, h => by
    rcases List.mem_append.mp hmem with hmem | hmem
    · obtain ⟨r, hr, rfl⟩ := List.mem_map.mp hmem
      exact holds_of_reading rest r hr h
    · obtain ⟨i, hi, hmem⟩ := List.mem_flatMap.mp hmem
      obtain ⟨r, hr, rfl⟩ := List.mem_map.mp hmem
      obtain ⟨s', b, hinner, hrest⟩ := h.split
      exact ⟨s', b, holds_of_reading inner i hi hinner, holds_of_reading rest r hr hrest⟩

/-- **A phrase can be complete before a terminal**: the terminal may follow it, and a path is never
ended before a further `::`. -/
def Table.EndsBefore (n : Nonterminal) (next : Terminal) : Prop :=
  (n ∉ itemPhrases → next ∈ follow n) ∧ (n = .path ∨ n = .qualifiedType → next ≠ .pathSep)

/-- **A rule preserves a judgement**: it holds of what the rule builds if it holds of the phrases
the rule is built from. -/
def Rule.Preserves (P : Judgement) (r : Rule) : Prop :=
  ∀ {s g stop : Nat} {first next : Terminal} (place : Place) (vals : r.parts.Val),
    step s (.phrase r.lhs) = some g → r.parts.Holds P s vals first stop next →
      EndsBefore r.lhs next → P s r.lhs (r.action place vals) first next

namespace Machine

variable {file : Option String} {entry : Entry}

theorem action?_eq (stack : List Frame) (t : Terminal) :
    action? entry stack t = Table.action? (top entry stack) t := by
  rw [action?, getElem?_states, Table.action?]

set_option maxRecDepth 4000 in
theorem settle_succ (token : Token) (fuel : Nat) (stack : List Frame) :
    settle file entry token (fuel + 1) stack =
      match action? entry stack token.kind with
      | none => none
      | some (.shift target) => some (target, stack)
      | some (.reduce i) =>
        (reduce file entry token.extent.start i stack).bind (settle file entry token fuel) := rfl

set_option maxRecDepth 4000 in
theorem finish_succ (here : Pos) (fuel : Nat) (stack : List Frame) :
    finish file entry here (fuel + 1) stack =
      match result? entry stack with
      | some value => some value
      | none =>
        match action? entry stack .endOfText with
        | some (.reduce i) => (reduce file entry here i stack).bind (finish file entry here fuel)
        | _ => none := rfl

set_option maxRecDepth 4000 in
theorem run_succ (fuel : Nat) (stack : List Frame) (last : Option Token) (pos : Pos)
    (cs : List Char) :
    run file entry (fuel + 1) stack last pos cs =
      match Lexer.next (accepts entry stack) pos cs with
      | .error e => .error e
      | .ok none =>
        match finish file entry pos (reductionBound stack) stack with
        | some value => .ok value
        | none => .error (.unexpectedToken (endToken last))
      | .ok (some (token, rest)) =>
        match shift file entry stack token with
        | some stack => run file entry fuel stack (some token) token.extent.stop rest
        | none => .error (.unexpectedToken token) := rfl

/-- **A run that ends well** takes a token and goes on, or comes to the end of its text. -/
theorem run_eq_ok {v : entry.phrase.Val} {fuel : Nat} {stack : List Frame} {last : Option Token}
    {pos : Pos} {cs : List Char} (h : run file entry (fuel + 1) stack last pos cs = .ok v) :
    (Lexer.next (accepts entry stack) pos cs = .ok none ∧
      finish file entry pos (reductionBound stack) stack = some v) ∨
    ∃ token rest stack', Lexer.next (accepts entry stack) pos cs = .ok (some (token, rest)) ∧
      shift file entry stack token = some stack' ∧
      run file entry fuel stack' (some token) token.extent.stop rest = .ok v := by
  rw [run_succ] at h
  split at h
  · cases h
  · next hnext =>
    split at h
    · next value hfinish =>
      cases h
      exact .inl ⟨hnext, hfinish⟩
    · cases h
  · next token rest hnext =>
    split at h
    · next stack' hshift => exact .inr ⟨token, rest, stack', hnext, hshift, h⟩
    · cases h

/-- **A reduction, taken apart.** -/
theorem exists_of_reduce {here : Pos} {i : Nat} {stack stack' : List Frame}
    (h : reduce file entry here i stack = some stack') :
    ∃ p frames rest g, ∃ vals : Symbol.Vals p.rhs, Grammar.productions[i]? = some p ∧
      stack = frames.reverse ++ rest ∧ values? p.rhs frames = some vals ∧
      step (top entry rest) (.phrase p.lhs) = some g ∧
      stack' = ⟨g, .phrase p.lhs, p.action ⟨file, extentOf here frames⟩ vals,
        extentOf here frames⟩ :: rest := by
  simp only [reduce, Option.bind_eq_bind, Option.bind_eq_some_iff] at h
  obtain ⟨p, hp, vals, hvals, st, hst, g, hg, hstack⟩ := h
  rw [getElem?_states] at hst
  refine ⟨p, (stack.take p.rhs.length).reverse, stack.drop p.rhs.length, g, vals, hp, ?_, hvals,
    ?_, (Option.some.inj hstack).symm⟩
  · rw [List.reverse_reverse, List.take_append_drop]
  · rw [step, hst, Option.bind_some, hg]

/-- A frame with a value of a symbol is one of this symbol and this value. -/
theorem eq_of_value? {frame : Frame} {x : Symbol} {v : x.Val} (h : frame.value? x = some v) :
    frame = ⟨frame.state, x, v, frame.extent⟩ := by
  obtain ⟨state, symbol, value, extent⟩ := frame
  rw [Frame.value?] at h
  split at h
  · next hx =>
    cases hx
    cases h
    rfl
  · simp at h

theorem eq_singleton_of_result? {stack : List Frame} {v : entry.phrase.Val}
    (h : result? entry stack = some v) :
    ∃ frame : Frame, stack = [frame] ∧ frame.value? (.phrase entry.phrase) = some v := by
  unfold result? at h
  split at h
  · next frame => exact ⟨frame, rfl, h⟩
  · exact nomatch h

/-- **What reductions before a token keep** holds of the stack that the token is shifted onto. -/
theorem of_settle {K : List Frame → Prop} {token : Token} {target fuel : Nat}
    {stack stack' : List Frame} (hkeeps : ∀ {i stack next}, K stack →
      Table.action? (top entry stack) token.kind = some (.reduce i) →
      reduce file entry token.extent.start i stack = some next → K next)
    (h : K stack) (hsettle : settle file entry token fuel stack = some (target, stack')) :
    K stack' ∧ step (top entry stack') (.term token.kind) = some target := by
  induction fuel generalizing stack with
  | zero => exact nomatch hsettle
  | succ fuel ih =>
    rw [settle_succ, action?_eq] at hsettle
    split at hsettle
    · exact nomatch hsettle
    · next haction =>
      cases hsettle
      exact ⟨h, step_term_eq_some_iff.mpr haction⟩
    · next i haction =>
      obtain ⟨next, hreduce, hsettle⟩ := Option.bind_eq_some_iff.mp hsettle
      exact ih (hkeeps h haction hreduce) hsettle

/-- **What reductions at the end of the text keep** holds of the phrase that is left of all. -/
theorem exists_of_finish {K : List Frame → Prop} {here : Pos} {fuel : Nat} {stack : List Frame}
    {v : entry.phrase.Val}
    (hkeeps : ∀ {i stack next}, K stack →
      Table.action? (top entry stack) .endOfText = some (.reduce i) →
      reduce file entry here i stack = some next → K next)
    (h : K stack) (hfinish : finish file entry here fuel stack = some v) :
    ∃ s e, K [⟨s, .phrase entry.phrase, v, e⟩] := by
  induction fuel generalizing stack with
  | zero => exact nomatch hfinish
  | succ fuel ih =>
    rw [finish_succ, action?_eq] at hfinish
    split at hfinish
    · next value hresult =>
      obtain rfl := Option.some.inj hfinish
      obtain ⟨frame, rfl, hvalue⟩ := eq_singleton_of_result? hresult
      rw [eq_of_value? hvalue] at h
      exact ⟨frame.state, frame.extent, h⟩
    · split at hfinish
      · next i haction =>
        obtain ⟨next, hreduce, hfinish⟩ := Option.bind_eq_some_iff.mp hfinish
        exact ih (hkeeps h haction hreduce) hfinish
      · exact nomatch hfinish

/-- **What every token that is taken keeps** holds of the stack at the end of the text. -/
theorem exists_of_run {K : List Frame → Pos → List Char → Prop} {v : entry.phrase.Val} {fuel : Nat}
    {stack : List Frame} {last : Option Token} {pos : Pos} {cs : List Char}
    (hkeeps : ∀ {stack pos cs token rest next}, K stack pos cs →
      Lexer.next (accepts entry stack) pos cs = .ok (some (token, rest)) →
      shift file entry stack token = some next → K next token.extent.stop rest)
    (h : K stack pos cs) (hrun : run file entry fuel stack last pos cs = .ok v) :
    ∃ stack pos cs, K stack pos cs ∧
      finish file entry pos (reductionBound stack) stack = some v := by
  induction fuel generalizing stack last pos cs with
  | zero => exact nomatch hrun
  | succ fuel ih =>
    rcases run_eq_ok hrun with ⟨-, hfinish⟩ | ⟨token, rest, next, hnext, hshift, hrun⟩
    · exact ⟨stack, pos, cs, h, hfinish⟩
    · exact ih (hkeeps h hnext hshift) hrun

/-- **Every frame of a stack stands rightly**, where `next` is read behind the stack: its state
follows on the one below, and a phrase satisfies the judgement. -/
inductive Standing (P : Judgement) (entry : Entry) : List Frame → (next : Terminal) → Prop
  | nil (next : Terminal) : Standing P entry [] next
  | cons {frame : Frame} {rest : List Frame} {first next : Terminal} : Standing P entry rest first →
    step (top entry rest) frame.symbol = some frame.state →
    frame.symbol.Holds P (top entry rest) frame.value first next →
    Standing P entry (frame :: rest) next

theorem eq_nil_of_values? : ∀ {frames : List Frame} {vals : Symbol.Vals []},
    values? [] frames = some vals → frames = []
  | [], _, _ => rfl
  | _ :: _, _, h => by cases h

/-- The frames of a right-hand side, from its front. -/
theorem exists_of_values?_cons {x : Symbol} {rhs : List Symbol} : ∀ {frames : List Frame}
    {vals : Symbol.Vals (x :: rhs)}, values? (x :: rhs) frames = some vals →
      ∃ s e rest, frames = ⟨s, x, vals.1, e⟩ :: rest ∧ values? rhs rest = some vals.2
  | [], _, h => by cases h
  | frame :: frames, vals, h => by
    simp only [values?, Option.bind_eq_bind, Option.bind_eq_some_iff] at h
    obtain ⟨v, hv, vs, hvs, heq⟩ := h
    obtain rfl : (v, vs) = vals := Option.some.inj heq
    exact ⟨frame.state, frame.extent, frames, congrArg (· :: frames) (eq_of_value? hv), hvs⟩

/-- The frames of a right-hand side satisfy the judgement together. -/
theorem Standing.holdsAll {frames : List Frame} {rhs : List Symbol} {rest : List Frame}
    {vals : Symbol.Vals rhs} {next : Terminal} (h : Standing P entry (frames.reverse ++ rest) next)
    (hvals : values? rhs frames = some vals) : ∃ first, Standing P entry rest first ∧
      Symbol.HoldsAll P rhs (top entry rest) vals first
        (top entry (frames.reverse ++ rest)) next := by
  induction rhs generalizing frames rest with
  | nil =>
    obtain rfl := eq_nil_of_values? hvals
    exact ⟨next, h, rfl, rfl⟩
  | cons x rhs ih =>
    obtain ⟨state, extent, frames', rfl, hvals'⟩ := exists_of_values?_cons hvals
    rw [List.reverse_cons, List.append_assoc, List.singleton_append] at h ⊢
    obtain ⟨b, hrest, hholds⟩ := ih h hvals'
    cases hrest with
    | @cons _ _ first _ hrest hstep hframe => exact ⟨first, hrest, state, b, hstep, hframe, hholds⟩

/-- **A reduction keeps a stack standing.** -/
theorem Standing.reduce (hrules : ∀ r ∈ Grammar.rules, r.Preserves P) {here : Pos} {i : Nat}
    {stack stack' : List Frame} {next : Terminal} (h : Standing P entry stack next)
    (haction : Table.action? (top entry stack) next = some (.reduce i))
    (hreduce : reduce file entry here i stack = some stack') : Standing P entry stack' next := by
  obtain ⟨p, frames, rest, g, vals, hp, rfl, hvals, hg, rfl⟩ := exists_of_reduce hreduce
  obtain ⟨first, hrest, hholds⟩ := h.holdsAll hvals
  have hends : EndsBefore p.lhs next := by
    refine ⟨fun hitem => mem_follow_of_reduce hp hitem haction, ?_⟩
    rintro hlhs rfl
    exact not_reduce_pathSep hlhs hp hg hholds.walk haction
  obtain ⟨r, hr, reading, hreading, rfl⟩ := Rule.of_production hp
  exact .cons hrest hg (hrules r hr _ _ hg (Parts.holds_of_reading _ reading hreading hholds) hends)

/-- After a reduction before a name, no word is a keyword that was not one before. -/
theorem words_subset_of_reduce {here : Pos} {i : Nat} {stack next : List Frame}
    (haction : Table.action? (top entry stack) .name = some (.reduce i))
    (hreduce : reduce file entry here i stack = some next) :
    words (top entry next) ⊆ words (top entry stack) := by
  obtain ⟨p, frames, rest, g, vals, hp, rfl, -, hg, rfl⟩ := exists_of_reduce hreduce
  obtain ⟨st, hst, -⟩ := Option.bind_eq_some_iff.mp haction
  exact words_subset (lt_of_state? hst) haction hp hg

/-- **What a stack is when a token is shifted onto it**: still standing, and before a name with no
keyword that was not one before. -/
theorem Standing.settle (hrules : ∀ r ∈ Grammar.rules, r.Preserves P) {token : Token}
    {target fuel : Nat} {stack stack' : List Frame} (h : Standing P entry stack token.kind)
    (hsettle : settle file entry token fuel stack = some (target, stack')) :
    Standing P entry stack' token.kind ∧ step (top entry stack') (.term token.kind) = some target ∧
      (token.kind = .name → words (top entry stack') ⊆ words (top entry stack)) := by
  have hkept := of_settle (K := fun next => Standing P entry next token.kind ∧
    (token.kind = .name → words (top entry next) ⊆ words (top entry stack)))
    (fun ⟨hstands, hwords⟩ haction hreduce => ⟨hstands.reduce hrules haction hreduce,
      fun hname => List.Subset.trans (words_subset_of_reduce (hname ▸ haction) hreduce)
        (hwords hname)⟩)
    ⟨h, fun _ => List.Subset.refl _⟩ hsettle
  exact ⟨hkept.1.1, hkept.2, hkept.1.2⟩

/-- **Shifting a token** that stands rightly, whatever is read behind it. -/
theorem Standing.shift (hrules : ∀ r ∈ Grammar.rules, r.Preserves P) {token : Token}
    {stack stack' : List Frame} (h : Standing P entry stack token.kind)
    (htoken : token.lexeme.StandsAt (top entry stack))
    (hshift : shift file entry stack token = some stack') (next : Terminal) :
    Standing P entry stack' next := by
  obtain ⟨⟨target, rest⟩, hsettle, rfl⟩ := Option.map_eq_some_iff.mp hshift
  obtain ⟨hstands, hstep, hwords⟩ := h.settle hrules hsettle
  exact .cons hstands hstep
    ⟨rfl, rfl, htoken.1, fun hname t ht => htoken.2 hname t (hwords hname ht)⟩

/-- At the end of the text the judgement holds of the whole. -/
theorem Standing.finish (hrules : ∀ r ∈ Grammar.rules, r.Preserves P) {here : Pos} {fuel : Nat}
    {stack : List Frame} {v : entry.phrase.Val} (h : Standing P entry stack .endOfText)
    (hfinish : finish file entry here fuel stack = some v) :
    ∃ first, P entry.start entry.phrase v first .endOfText := by
  obtain ⟨_, _, hwhole⟩ :=
    exists_of_finish (K := (Standing P entry · .endOfText)) (fun h => h.reduce hrules) h hfinish
  cases hwhole with
  | @cons _ _ first _ _ _ hframe => exact ⟨first, hframe⟩

/-- The tokens that the lexer reads in a state stand rightly in it. -/
theorem standsAt_of_next {stack : List Frame} {pos : Pos} {cs rest : List Char} {token : Token}
    (h : Lexer.next (accepts entry stack) pos cs = .ok (some (token, rest))) :
    token.lexeme.StandsAt (top entry stack) := by
  have hfits := Lexer.fits_of_next h
  refine ⟨hfits.spells, fun hname t ht => ?_⟩
  obtain ⟨-, hword, haccepts⟩ := mem_words.mp ht
  exact hfits.free hname t hword (by rw [accepts, action?_eq]; exact haccepts)

/-- **What all rules preserve holds of every text that is read.** -/
theorem holds_of_parse (hrules : ∀ r ∈ Grammar.rules, r.Preserves P) {v : entry.phrase.Val}
    {text : List Char} (h : parse file entry text = .ok v) :
    ∃ first, P entry.start entry.phrase v first .endOfText := by
  obtain ⟨stack, _, _, hstack, hfinish⟩ :=
    exists_of_run (K := fun stack _ _ => ∀ next, Standing P entry stack next)
      (fun h hnext hshift => (h _).shift hrules (standsAt_of_next hnext) hshift) .nil h
  exact (hstack .endOfText).finish hrules hfinish

/-- **What every rule makes of parts that have a property has it too**: then so has all that is
read. -/
theorem all_of_parse {T : Terminal → Token → Prop} {Q : (n : Nonterminal) → n.Val → Prop}
    (hT : ∀ {s} {token : Token}, token.lexeme.StandsAt s → T token.kind token)
    (hrules : ∀ r ∈ Grammar.rules, ∀ (place : Place) (vals : r.parts.Val),
      r.parts.All T Q vals → Q r.lhs (r.action place vals))
    {v : entry.phrase.Val} {text : List Char} (h : parse file entry text = .ok v) :
    Q entry.phrase v := by
  have hpreserves : ∀ r ∈ Grammar.rules, r.Preserves fun _ n v _ _ => Q n v :=
    fun r hr _ _ _ _ _ place vals _ hholds _ => hrules r hr place vals (hholds.all (Q := Q) hT id)
  obtain ⟨first, hv⟩ := holds_of_parse hpreserves h
  exact hv

end Machine

/-- The rules of some phrases, given one by one. -/
theorem Grammar.mem_of_lhs_mem {phrases : List Nonterminal} {rs : List Rule} {r : Rule}
    (hrs : rules.filter (fun r => phrases.contains r.lhs) = rs) (hr : r ∈ rules)
    (h : r.lhs ∈ phrases) : r ∈ rs :=
  hrs ▸ List.mem_filter.mpr ⟨hr, List.contains_iff_mem.mpr h⟩

end TraitMock
