import Mathlib.Data.List.Basic
import TraitMock.Proofs.Syntax.Phrase

/-!
# Proofs/Syntax/Again — phrases that can be written and read again

A `Writing` gives every phrase a text and says which values it may come back as.  A phrase that has
been read can be read again (`Again`) if its text spells lexemes which are read as the same phrase,
with a value that it may come back as, wherever no word has become a keyword and nothing else stands
behind it than may.

What has been read by a rule is written again by a `Draft`: lexemes for the parts of the rule, each
part fit for its place.  A draft of the parts whose lexemes spell the text of the whole makes the
whole readable again (`Again.of_draft`).
-/

namespace TraitMock

open Table Machine

/-- **Texts for phrases**: what is known of a phrase that has been read (`sound`), which phrases are
written at all, and what a phrase may come back as when its text is read. -/
structure Writing where
  text : (n : Nonterminal) → n.Val → String
  sound : (n : Nonterminal) → n.Val → Prop
  written : (n : Nonterminal) → n.Val → Prop
  back : (n : Nonterminal) → n.Val → n.Val → Prop

variable {W : Writing}

/-- The marks among `:`, `::` and `;` are told apart from all other ends of a text. -/
def Terminal.isLastMark (t : Terminal) : Bool := t == .colon || t == .pathSep || t == .semicolon

/-- **A phrase can be read again.**  It has been read where the words `avoid` are keywords, with
`first` as its first terminal and `next` behind it; written, it does not begin with `::` unless it
did. -/
structure Again (W : Writing) (n : Nonterminal) (avoid : List Terminal) (v : n.Val)
    (ws : List Lexeme) (first next : Terminal) : Prop where
  spelled : Spelled ws (W.text n v).toList
  head : ∃ t ∈ firsts n, ws.head?.map Lexeme.kind = some t ∧ (t = .pathSep → first = .pathSep)
  last : ∀ w ∈ ws.getLast?, w.kind.isLastMark = true → w.kind ∈ lastMarks n
  closed : n = .path ∨ n = .qualifiedType → next ≠ .pathSep
  reads : ∀ {file : Option String} {entry : Entry} {s : Nat} {behind : Terminal}, Begins s n →
    (mayBeName (.phrase n) = true → words s ⊆ avoid) → Behind s n behind →
      (n = .pathIdent ∨ (behind = .pathSep → next = .pathSep)) →
        Reads file entry s n ws (W.back n v) behind

/-! ## Drafts -/

section Draft

variable (n : Nonterminal) (s₀ : Nat)

/-- **The keywords of a place** behind `front` in a phrase `n` are among `avoid`, wherever the
phrase begins with no more keywords than in the state `s₀`. -/
def Place.Avoids (front : List Symbol) (x : Symbol) (avoid : List Terminal) : Prop :=
  ∀ {s s' : Nat}, Begins s n → (mayBeName (.phrase n) = true → words s ⊆ words s₀) →
    walk s front = some s' → (step s' x).isSome = true → words s' ⊆ avoid

/-- A token that can be written again at a place. -/
def Token.Drafted (front : List Symbol) (t : Terminal) (token : Token) : Prop :=
  token.kind = t ∧ t.Spells token.text ∧ (t = .name →
    ∃ avoid, token.lexeme.Avoids avoid ∧ Place.Avoids n s₀ front (.term t) avoid)

/-- A phrase that can be written again at a place, with `behind` behind it. -/
def Phrase.Drafted (W : Writing) (front : List Symbol) (m : Nonterminal) (v : m.Val)
    (ws : List Lexeme) (behind : Terminal) : Prop :=
  ∃ avoid first next, Again W m avoid v ws first next ∧
    (mayBeName (.phrase m) = true → Place.Avoids n s₀ front (.phrase m) avoid) ∧
      (m = .pathIdent ∨ (behind = .pathSep → next = .pathSep))

/-- A draft of a sequence of symbols behind `front`. -/
def Symbol.DraftAll (W : Writing) : (front xs : List Symbol) → Symbol.Vals xs → List Lexeme →
    (next : Terminal) → Prop
  | _, [], _, ws, _ => ws = []
  | front, .term t :: xs, (token, vals), ws, next => ∃ vs, ws = token.lexeme :: vs ∧
    token.Drafted n s₀ front t ∧ DraftAll W (front ++ [.term t]) xs vals vs next
  | front, .phrase m :: xs, (v, vals), ws, next => ∃ us vs, ws = us ++ vs ∧
    Phrase.Drafted n s₀ W front m v us (firstOf vs next) ∧
      DraftAll W (front ++ [.phrase m]) xs vals vs next

end Draft

namespace Parts

/-- The symbols that a value of the parts of a rule has been read from. -/
@[simp] def symbols : (p : Parts) → p.Val → List Symbol
  | .done, _ => []
  | .mark t rest, vals => .term t :: rest.symbols vals
  | .token t rest, (_, vals) => .term t :: rest.symbols vals
  | .phrase n rest, (_, vals) => .phrase n :: rest.symbols vals
  | .maybe _ rest, (none, vals) => rest.symbols vals
  | .maybe inner rest, (some u, vals) => inner.symbols u ++ rest.symbols vals

/-- **A draft of the parts of a rule** behind `front`: lexemes that write their values again. -/
def Draft (W : Writing) (n : Nonterminal) (s₀ : Nat) : (p : Parts) → (front : List Symbol) → p.Val →
    List Lexeme → (next : Terminal) → Prop
  | .done, _, _, ws, _ => ws = []
  | .mark t rest, front, vals, ws, next => ∃ vs, ws = .ofKind t :: vs ∧
    rest.Draft W n s₀ (front ++ [.term t]) vals vs next
  | .token t rest, front, (tok, vals), ws, next => ∃ vs, ws = tok.lexeme :: vs ∧
    tok.Drafted n s₀ front t ∧ rest.Draft W n s₀ (front ++ [.term t]) vals vs next
  | .phrase m rest, front, (v, vals), ws, next => ∃ us vs, ws = us ++ vs ∧
    Phrase.Drafted n s₀ W front m v us (firstOf vs next) ∧
      rest.Draft W n s₀ (front ++ [.phrase m]) vals vs next
  | .maybe _ rest, front, (none, vals), ws, next => rest.Draft W n s₀ front vals ws next
  | .maybe inner rest, front, (some u, vals), ws, next => ∃ us vs, ws = us ++ vs ∧
    inner.Draft W n s₀ front u us (firstOf vs next) ∧
      rest.Draft W n s₀ (front ++ inner.symbols u) vals vs next

/-- Whether all marks of the parts of a rule have a spelling. -/
def marked : Parts → Bool
  | .done => true
  | .mark t rest => t.spelling?.isSome && rest.marked
  | .token _ rest => rest.marked
  | .phrase _ rest => rest.marked
  | .maybe inner rest => inner.marked && rest.marked

/-- What the values of the parts of a rule may come back as. -/
def BackAs (W : Writing) : (p : Parts) → p.Val → p.Val → Prop
  | .done, _, _ => True
  | .mark _ rest, vals, vals' => rest.BackAs W vals vals'
  | .token _ rest, (tok, vals), (tok', vals') =>
    tok'.text = tok.text ∧ rest.BackAs W vals vals'
  | .phrase n rest, (v, vals), (v', vals') => W.back n v v' ∧ rest.BackAs W vals vals'
  | .maybe _ rest, (none, vals), (none, vals') => rest.BackAs W vals vals'
  | .maybe inner rest, (some u, vals), (some u', vals') =>
    inner.BackAs W u u' ∧ rest.BackAs W vals vals'
  | .maybe _ _, _, _ => False

end Parts

/-- An option comes back if it is there and comes back, or if it is not there. -/
theorem Parts.backAs_maybe {p q : Parts} {o o' : Option p.Val} {vals vals' : q.Val} :
    (Parts.maybe p q).BackAs W (o, vals) (o', vals') ↔
      Option.Rel (p.BackAs W) o o' ∧ q.BackAs W vals vals' := by
  cases o <;> cases o' <;> simp [Parts.BackAs]

/-! ## From a draft of parts to one of symbols -/

/-- Values of a sequence that may come back as others. -/
def Symbol.BackAll (W : Writing) : (xs : List Symbol) → Symbol.Vals xs → Symbol.Vals xs → Prop
  | [], _, _ => True
  | .term _ :: xs, (token, vals), (token', vals') =>
    token'.text = token.text ∧ Symbol.BackAll W xs vals vals'
  | .phrase n :: xs, (v, vals), (v', vals') => W.back n v v' ∧ Symbol.BackAll W xs vals vals'

theorem Symbol.BackAll.split : ∀ {xs ys : List Symbol} {vals vals' : Symbol.Vals (xs ++ ys)},
    Symbol.BackAll W (xs ++ ys) vals vals' →
      Symbol.BackAll W xs (Symbol.Vals.split xs vals).1 (Symbol.Vals.split xs vals').1 ∧
        Symbol.BackAll W ys (Symbol.Vals.split xs vals).2 (Symbol.Vals.split xs vals').2
  | [], _, _, _, h => ⟨trivial, h⟩
  | .term _ :: _, _, (_, _), (_, _), ⟨htoken, h⟩ => ⟨⟨htoken, h.split.1⟩, h.split.2⟩
  | .phrase _ :: _, _, (_, _), (_, _), ⟨hv, h⟩ => ⟨⟨hv, h.split.1⟩, h.split.2⟩

/-- From the symbols of a choice of the options to the parts. -/
theorem Parts.backAs_of_backAll : ∀ (p : Parts) (reading : Parts.Reading p.Val)
    {vals vals' : Symbol.Vals reading.rhs}, reading ∈ p.readings →
      Symbol.BackAll W reading.rhs vals vals' →
        p.BackAs W (reading.value vals) (reading.value vals')
  | .done, _, _, _, _, _ => trivial
  | .mark _ rest, _, _, _, hmem, h => by
    obtain ⟨r, hr, rfl⟩ := List.mem_map.mp hmem
    exact backAs_of_backAll rest r hr h.2
  | .token _ rest, _, _, _, hmem, h => by
    obtain ⟨r, hr, rfl⟩ := List.mem_map.mp hmem
    exact ⟨h.1, backAs_of_backAll rest r hr h.2⟩
  | .phrase _ rest, _, _, _, hmem, h => by
    obtain ⟨r, hr, rfl⟩ := List.mem_map.mp hmem
    exact ⟨h.1, backAs_of_backAll rest r hr h.2⟩
  | .maybe inner rest, _, _, _, hmem, h => by
    rcases List.mem_append.mp hmem with hmem | hmem
    · obtain ⟨r, hr, rfl⟩ := List.mem_map.mp hmem
      exact backAs_of_backAll rest r hr h
    · obtain ⟨i, hi, hmem⟩ := List.mem_flatMap.mp hmem
      obtain ⟨r, hr, rfl⟩ := List.mem_map.mp hmem
      exact ⟨backAs_of_backAll inner i hi h.split.1, backAs_of_backAll rest r hr h.split.2⟩

theorem firstOf_append (us vs : List Lexeme) (next : Terminal) :
    firstOf (us ++ vs) next = firstOf us (firstOf vs next) := by
  cases us <;> simp [firstOf]

variable {n : Nonterminal} {s₀ : Nat}

/-- Two drafts one behind the other. -/
theorem Symbol.DraftAll.append : ∀ {front xs ys : List Symbol} {us : Symbol.Vals xs}
    {vs : Symbol.Vals ys} {ws ws' : List Lexeme} {next : Terminal},
    Symbol.DraftAll n s₀ W front xs us ws (firstOf ws' next) →
      Symbol.DraftAll n s₀ W (front ++ xs) ys vs ws' next →
        ∃ vals, Symbol.Vals.split xs vals = (us, vs) ∧
          Symbol.DraftAll n s₀ W front (xs ++ ys) vals (ws ++ ws') next
  | front, [], ys, _, vs, ws, ws', _, h, h' => by
    obtain rfl : ws = [] := h
    exact ⟨vs, rfl, by rwa [List.append_nil] at h'⟩
  | front, .term t :: xs, ys, (token, us), vs, ws, ws', _, ⟨tail, hws, htoken, h⟩, h' => by
    rw [← List.singleton_append, ← List.append_assoc] at h'
    obtain ⟨vals, hsplit, hdraft⟩ := DraftAll.append h h'
    refine ⟨(token, vals), by simp [Symbol.Vals.split, hsplit], tail ++ ws', by simp [hws], htoken,
      hdraft⟩
  | front, .phrase m :: xs, ys, (v, us), vs, ws, ws', _, ⟨head, tail, hws, hv, h⟩, h' => by
    rw [← List.singleton_append, ← List.append_assoc] at h'
    obtain ⟨vals, hsplit, hdraft⟩ := DraftAll.append h h'
    refine ⟨(v, vals), by simp [Symbol.Vals.split, hsplit], head, tail ++ ws', by simp [hws], ?_,
      hdraft⟩
    rwa [firstOf_append]

/-- **A draft of parts is one of a choice of their options.** -/
theorem Parts.Draft.exists_reading : ∀ (p : Parts) {front : List Symbol} {vals : p.Val}
    {ws : List Lexeme} {next : Terminal}, p.marked = true → p.Draft W n s₀ front vals ws next →
      ∃ reading ∈ p.readings, ∃ raw, reading.value raw = vals ∧ reading.rhs = p.symbols vals ∧
        Symbol.DraftAll n s₀ W front reading.rhs raw ws next
  | .done, front, _, ws, _, _, h => ⟨_, List.mem_singleton.mpr rfl, (), rfl, rfl, h⟩
  | .mark t rest, front, vals, ws, next, hmarked, ⟨vs, hws, h⟩ => by
    rw [Parts.marked, Bool.and_eq_true] at hmarked
    obtain ⟨mark, hmark⟩ := Option.isSome_iff_exists.mp hmarked.1
    obtain ⟨r, hr, raw, rfl, hrhs, hdraft⟩ := exists_reading rest hmarked.2 h
    refine ⟨_, List.mem_map.mpr ⟨r, hr, rfl⟩, (⟨t, mark, default⟩, raw), rfl,
      by simp [Parts.symbols, hrhs], vs, by
        simp [hws, Token.lexeme, Lexeme.ofKind, hmark], ?_, hdraft⟩
    refine ⟨rfl, ?_, fun hname => absurd hmark (by rw [hname]; simp [Terminal.spelling?])⟩
    rw [Terminal.Spells, Terminal.scan_of_spelling hmark, Terminal.scanSpelling_eq_some_iff]
    simp
  | .token t rest, front, (tok, vals), ws, next, hmarked, ⟨vs, hws, htok, h⟩ => by
    obtain ⟨r, hr, raw, rfl, hrhs, hdraft⟩ := exists_reading rest hmarked h
    exact ⟨_, List.mem_map.mpr ⟨r, hr, rfl⟩, (tok, raw),
      rfl, by simp [Parts.symbols, hrhs], vs, hws, htok, hdraft⟩
  | .phrase m rest, front, (v, vals), ws, next, hmarked, ⟨us, vs, hws, hv, h⟩ => by
    obtain ⟨r, hr, raw, rfl, hrhs, hdraft⟩ := exists_reading rest hmarked h
    exact ⟨_, List.mem_map.mpr ⟨r, hr, rfl⟩, (v, raw), rfl, by simp [Parts.symbols, hrhs], us, vs,
      hws, hv, hdraft⟩
  | .maybe inner rest, front, (none, vals), ws, next, hmarked, h => by
    rw [Parts.marked, Bool.and_eq_true] at hmarked
    obtain ⟨r, hr, raw, rfl, hrhs, hdraft⟩ := exists_reading rest hmarked.2 h
    exact ⟨_, List.mem_append_left _ (List.mem_map.mpr ⟨r, hr, rfl⟩), raw, rfl,
      by simp [Parts.symbols, hrhs], hdraft⟩
  | .maybe inner rest, front, (some u, vals), ws, next, hmarked, ⟨us, vs, hws, hinner, h⟩ => by
    rw [Parts.marked, Bool.and_eq_true] at hmarked
    obtain ⟨i, hi, raw, rfl, hirhs, hidraft⟩ := exists_reading inner hmarked.1 hinner
    obtain ⟨r, hr, raw', rfl, hrhs, hdraft⟩ := exists_reading rest hmarked.2 h
    rw [← hirhs] at hdraft
    obtain ⟨all, hsplit, hall⟩ := hidraft.append hdraft
    refine ⟨_, List.mem_append_right _ (List.mem_flatMap.mpr
      ⟨i, hi, List.mem_map.mpr ⟨r, hr, rfl⟩⟩), all, ?_, ?_, ?_⟩
    · simp [hsplit]
    · simp [Parts.symbols, hirhs, hrhs]
    · rw [hws]
      exact hall

/-! ## What a draft of symbols begins and ends with -/

theorem not_mem_itemPhrases_of_firsts {m : Nonterminal} {t : Terminal} (h : t ∈ firsts m) :
    m ∉ itemPhrases := by
  cases m <;> first | decide | exact absurd h (by simp [firsts])

namespace Symbol.DraftAll

variable {front : List Symbol} {ws : List Lexeme} {next : Terminal}

/-- A draft begins with what its first symbol begins with. -/
theorem exists_head : ∀ {xs : List Symbol} {vals : Symbol.Vals xs},
    Symbol.DraftAll n s₀ W front xs vals ws next → ∀ x ∈ xs.head?,
      ∃ first ∈ firstsOf x, ws.head?.map Lexeme.kind = some first
  | .term t :: _, (token, _), ⟨vs, hws, hdrafted, _⟩, x, hx => by
    obtain rfl : .term t = x := by simpa using hx
    exact ⟨t, List.mem_singleton.mpr rfl, by rw [hws]; exact congrArg some hdrafted.1⟩
  | .phrase m :: _, (v, _), ⟨us, vs, hws, ⟨avoid, first, _, hagain, _⟩, _⟩, x, hx => by
    obtain rfl : .phrase m = x := by simpa using hx
    obtain ⟨t, ht, hhead, -⟩ := hagain.head
    obtain ⟨w, hw, -⟩ := Option.map_eq_some_iff.mp hhead
    exact ⟨t, ht, by rw [hws, List.head?_append, hw, Option.some_or, ← hw, hhead]⟩

/-- A draft of at least one symbol has lexemes. -/
theorem ne_nil {x : Symbol} {xs : List Symbol} {vals : Symbol.Vals (x :: xs)}
    (h : Symbol.DraftAll n s₀ W front (x :: xs) vals ws next) : ws ≠ [] := by
  rintro rfl
  obtain ⟨first, -, hhead⟩ := h.exists_head x rfl
  cases hhead

/-- A draft ends with what its last symbol ends with, and before a `::` no path is last. -/
theorem of_getLast : ∀ {xs front : List Symbol} {vals : Symbol.Vals xs} {ws : List Lexeme},
    Symbol.DraftAll n s₀ W front xs vals ws next → ∀ x ∈ xs.getLast?,
      (∀ w ∈ ws.getLast?, w.kind.isLastMark = true → w.kind ∈ lastMarksOf x) ∧
        (next = .pathSep → x ≠ .phrase .path ∧ x ≠ .phrase .qualifiedType)
  | [.term t], _, (token, _), _, ⟨vs, hws, hdrafted, hvs⟩, x, hx => by
    obtain rfl : vs = [] := hvs
    obtain rfl : .term t = x := by simpa using hx
    subst hws
    refine ⟨fun w hw hmark => ?_, fun _ => by simp⟩
    obtain rfl : token.lexeme = w := by simpa using hw
    have hkind : token.lexeme.kind = t := hdrafted.1
    rw [hkind] at hmark ⊢
    simp only [Terminal.isLastMark, Bool.or_eq_true, beq_iff_eq] at hmark
    simp only [lastMarksOf]
    rw [if_pos (or_assoc.mp hmark)]
    exact List.mem_singleton.mpr rfl
  | [.phrase m], _, (v, _), _, ⟨us, vs, hws, ⟨avoid, first, next', hagain, _, hsep⟩, hvs⟩,
    x, hx => by
    obtain rfl : vs = [] := hvs
    obtain rfl : .phrase m = x := by simpa using hx
    rw [List.append_nil] at hws
    subst hws
    refine ⟨hagain.last, fun hnext => ?_⟩
    have hclosed := hagain.closed
    constructor <;> (intro heq; cases heq; simp_all [firstOf])
  | .term _ :: y :: ys, _, (_, vals), _, ⟨vs, hws, _, hrest⟩, x, hx => by
    rw [List.getLast?_cons_cons] at hx
    rw [hws, ← List.singleton_append, List.getLast?_append_of_ne_nil _ hrest.ne_nil]
    exact hrest.of_getLast x hx
  | .phrase _ :: y :: ys, _, (_, vals), _, ⟨us, vs, hws, _, hrest⟩, x, hx => by
    rw [List.getLast?_cons_cons] at hx
    rw [hws, List.getLast?_append_of_ne_nil _ hrest.ne_nil]
    exact hrest.of_getLast x hx

end Symbol.DraftAll

/-! ## Reading a draft -/

/-- Whether a symbol is a terminal. -/
def Symbol.isTerm : Symbol → Bool
  | .term _ => true
  | .phrase _ => false

theorem not_mem_numbered_pathIdent {i : Nat} {front rest : List Symbol} {m : Nonterminal} :
    (i, front ++ .phrase m :: rest) ∉ numbered .pathIdent := by
  intro h
  have hall :
      (numbered .pathIdent).all (fun production => production.2.all Symbol.isTerm) = true := by
    decide
  simpa [Symbol.isTerm] using List.all_eq_true.mp hall _ h

theorem isSome_step_of_mem {s s' i : Nat} {front rest : List Symbol} {x : Symbol} (hs : Begins s n)
    (hmem : (i, front ++ x :: rest) ∈ numbered n) (hwalk : walk s front = some s') :
    (step s' x).isSome = true := by
  obtain ⟨e, he⟩ := exists_walk hs hmem
  rw [walk_append_of_walk hwalk, walk_cons] at he
  obtain ⟨g, hg, -⟩ := Option.bind_eq_some_iff.mp he
  rw [hg]
  rfl

section Reads

variable {file : Option String} {entry : Entry} {s : Nat} {next behind : Terminal}

/-- **The machine reads a draft of symbols**, where the phrase around them begins with no more
keywords than it did. -/
theorem Symbol.DraftAll.reads (hs : Begins s n)
    (hwords : mayBeName (.phrase n) = true → words s ⊆ words s₀) (hbehind : Behind s n behind)
    (hopen : n = .pathIdent ∨ (behind = .pathSep → next = .pathSep)) :
    ∀ {xs front : List Symbol} {raw : Symbol.Vals xs} {ws : List Lexeme} {i s' : Nat},
      (i, front ++ xs) ∈ numbered n → walk s front = some s' →
        Symbol.DraftAll n s₀ W front xs raw ws next →
          ReadsAll file entry s' xs ws (Symbol.BackAll W xs raw) behind
  | [], _, _, ws, _, _, _, _, h => by
    obtain rfl : ws = [] := h
    exact .nil trivial
  | .term t :: xs, front, (token, vals), ws, i, s', hmem, hwalk, ⟨vs, hws, hdrafted, hrest⟩ => by
    obtain ⟨hkind, hspells, hname⟩ := hdrafted
    subst hws
    have hstands : token.lexeme.StandsAt s' := by
      refine ⟨by rwa [← hkind] at hspells, fun hk u hu => ?_⟩
      obtain ⟨avoid, havoids, hplace⟩ := hname (hkind.symm.trans hk)
      exact havoids hk u (hplace hs hwords hwalk (isSome_step_of_mem hs hmem hwalk) hu)
    refine ReadsAll.term hkind hstands fun s'' token' hstep' htoken' => ?_
    have hreads := hrest.reads hs hwords hbehind hopen (by rwa [List.append_assoc])
      (walk_concat hwalk hstep')
    intro stack e hstack he
    refine (hreads stack e hstack he).mono ?_
    rintro stack' ⟨vals', frames, hback, hframes⟩
    exact ⟨vals', frames, ⟨congrArg Lexeme.text htoken', hback⟩, hframes⟩
  | .phrase m :: xs, front, (v, vals), ws, i, s', hmem, hwalk,
      ⟨us, vs, hws, ⟨avoid, first, next', hagain, hplace, hsep⟩, hrest⟩ => by
    subst hws
    obtain ⟨t, ht, -⟩ := hagain.head
    have hitem := not_mem_itemPhrases_of_firsts ht
    -- What stands behind the phrase is the beginning of the next symbol, or stands behind the
    -- whole.
    have hpath : n ≠ .pathIdent := by
      rintro rfl
      exact not_mem_numbered_pathIdent hmem
    have hbehind' : Behind s' m (firstOf vs behind) ∧ (∀ w ∈ vs.head?, w.kind ≠ .name) ∧
        (firstOf vs behind = .pathSep → firstOf vs next = .pathSep) := by
      cases xs with
      | nil =>
        obtain rfl : vs = [] := hrest
        exact ⟨behind_of_last hs hmem hwalk hbehind, by simp, fun h => hopen.resolve_left hpath h⟩
      | cons x xs =>
        obtain ⟨t, ht, hhead⟩ := hrest.exists_head _ rfl
        have hfirst : ∀ b, firstOf vs b = t := fun b => by rw [firstOf, hhead, Option.getD_some]
        rw [hfirst, hfirst]
        refine ⟨behind_of_firsts hs hmem hwalk ht, fun w hw => ?_, id⟩
        rw [Option.mem_def.mp hw] at hhead
        rw [Option.some.inj hhead]
        exact (follow_of_firsts hs.1 hmem ht).2
    refine ReadsAll.phrase (R := W.back m v) hbehind'.2.1 (fun hstep => ?_) fun g v' hstep hv' => ?_
    · exact hagain.reads ⟨hitem, hstep⟩ (fun hm => hplace hm hs hwords hwalk hstep) hbehind'.1
        (hsep.imp_right fun h hnext => h (hbehind'.2.2 hnext))
    · have hreads := hrest.reads hs hwords hbehind hopen (by rwa [List.append_assoc])
        (walk_concat hwalk hstep)
      intro stack e hstack he
      refine (hreads stack e hstack he).mono ?_
      rintro stack' ⟨vals', frames, hback, hframes⟩
      exact ⟨vals', frames, ⟨hv', hback⟩, hframes⟩

end Reads

/-! ## From a draft of a rule to its phrase -/

theorem Rule.marked {r : Rule} (hr : r ∈ Grammar.rules) : r.parts.marked = true := by
  have hall : Grammar.rules.all (fun r => r.parts.marked) = true := by decide
  exact List.all_eq_true.mp hall r hr

theorem endsInPath_eq_false {rhs : List Symbol} (hn : n ≠ .path ∧ n ≠ .qualifiedType)
    (h : ∀ x ∈ rhs.getLast?, x ≠ .phrase .path ∧ x ≠ .phrase .qualifiedType) :
    endsInPath n rhs = false := by
  cases hx : rhs.getLast? with
  | none => simp [endsInPath, hn, hx]
  | some x => simp [endsInPath, hn, hx, h x hx]

/-- **A draft of the parts of a rule makes the phrase readable again**, if its lexemes spell the
text of the whole and what is read is built into what the whole may come back as. -/
theorem Again.of_draft {r : Rule} (hr : r ∈ Grammar.rules) (hitem : r.lhs ∉ itemPhrases) {s : Nat}
    {vals : r.parts.Val} {v : r.lhs.Val} {ws : List Lexeme} {first next : Terminal}
    (hends : EndsBefore r.lhs next) (hdraft : r.parts.Draft W r.lhs s [] vals ws next)
    (hfirst : firstOf ws next = .pathSep → first = .pathSep)
    (hspelled : Spelled ws (W.text r.lhs v).toList)
    (hback : ∀ place vals', r.parts.BackAs W vals vals' → W.back r.lhs v (r.action place vals')) :
    Again W r.lhs (words s) v ws first next := by
  obtain ⟨reading, hreading, raw, rfl, -, hall⟩ := hdraft.exists_reading r.parts (Rule.marked hr)
  obtain ⟨i, hi⟩ := Rule.exists_production hr hreading
  have hmem : (i, reading.rhs) ∈ numbered r.lhs := mem_numbered hi
  have hne := rhs_ne_nil hitem hmem
  obtain ⟨x, xs, hrhs⟩ := List.exists_cons_of_ne_nil hne
  obtain ⟨t, ht, hhead⟩ := hall.exists_head x (by rw [hrhs]; rfl)
  have hlast := hall.of_getLast
  refine ⟨hspelled, ⟨t, firsts_of_head hitem (hrhs ▸ hmem) ht, hhead, fun hsep => hfirst ?_⟩,
    fun w hw hmark => ?_, hends.2, ?_⟩
  · rw [firstOf, hhead, Option.getD_some, hsep]
  · rw [← List.dropLast_concat_getLast hne] at hmem
    exact lastMarks_of_getLast hitem hmem
      ((hlast _ (List.getLast?_eq_some_getLast hne)).1 w hw hmark)
  · intro file entry s' behind hs hwords hbehind hopen
    refine .of_reading hr hs hreading hbehind (fun hsep => ?_) ?_
    · rcases hopen with hident | hopen
      · refine endsInPath_eq_false (by rw [hident]; decide) fun x hx => ?_
        obtain ⟨front, hfront⟩ := List.getLast?_eq_some_iff.mp hx
        rw [hident, hfront] at hmem
        constructor <;> (rintro rfl; exact not_mem_numbered_pathIdent hmem)
      · have hnext := hopen hsep
        exact endsInPath_eq_false
          ⟨fun h => hends.2 (.inl h) hnext, fun h => hends.2 (.inr h) hnext⟩
          fun x hx => (hlast x hx).2 hnext
    · have hreads : ReadsAll file entry s' reading.rhs ws _ behind :=
        hall.reads hs hwords hbehind hopen (i := i) (by simpa using hmem) rfl
      intro stack e hstack he
      refine (hreads stack e hstack he).mono ?_
      rintro stack' ⟨raw', frames, hraw', hframes⟩
      exact ⟨raw', frames, fun place =>
        hback place _ (Parts.backAs_of_backAll r.parts reading hreading hraw'), hframes⟩

end TraitMock
