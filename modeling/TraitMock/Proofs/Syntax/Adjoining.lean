import TraitMock.Proofs.Syntax.Nesting

/-!
# Proofs/Syntax/Adjoining — tokens that stand next to each other

Tokens that lie one on the other on a stack stand one behind the other in the text, with layout
alone between them (`Machine.Adjoins`).  So a rule whose right-hand side is a row of tokens knows
what the text holds from the first of them to the last.  A rule joins what it is built from if it
keeps a property of phrases, given that its tokens adjoin (`Rule.Joins`).

* `Machine.joined_of_parse` — what all rules keep in this way holds of every text that is read.
-/

namespace TraitMock

namespace Machine

variable {Q : (n : Nonterminal) → n.Val → Prop} {file : Option String} {entry : Entry}
  {stack : List Frame} {front : List Char} {here : Pos}

/-- **A token ends the front of a text**, behind a place that is reached before and layout. -/
structure Ends (before : List Char) (token : Token) (front : List Char) : Prop where
  spells : token.kind.Spells token.text
  exists_gap : ∃ gap, Filling gap ∧ front = before ++ (gap ++ token.text.toList) ∧
    token.extent = ⟨({} : Pos).after (before ++ gap), ({} : Pos).after front⟩

/-- **The tokens on a stack adjoin** up to the front of a text: the topmost frame, if it is a token,
ends the front, and so does every token below up to the token on it.  Of every phrase a property
holds. -/
inductive Adjoins (Q : (n : Nonterminal) → n.Val → Prop) : List Frame → (front : List Char) → Prop
  | nil (front : List Char) : Adjoins Q [] front
  | phrase {state : Nat} {n : Nonterminal} {v : n.Val} {extent : Extent} {rest : List Frame}
    {before : List Char} (front : List Char) : Adjoins Q rest before → Q n v →
    Adjoins Q (⟨state, .phrase n, v, extent⟩ :: rest) front
  | token {state : Nat} {t : Terminal} {token : Token} {extent : Extent} {rest : List Frame}
    {before front : List Char} : Adjoins Q rest before → token.kind = t → token.extent = extent →
    Ends before token front → Adjoins Q (⟨state, .term t, token, extent⟩ :: rest) front

end Machine

/-- **A rule joins what it is built from**: the property holds of what it builds from the frames on
top of a stack whose tokens adjoin, up to a place in the text. -/
def Rule.Joins (Q : (n : Nonterminal) → n.Val → Prop) (file : Option String) (text : List Char)
    (r : Rule) : Prop :=
  ∀ (reading : Parts.Reading r.parts.Val) (frames rest : List Frame)
    (vals : Symbol.Vals reading.rhs) (front behind : List Char) (here : Pos),
    reading ∈ r.parts.readings → text = front ++ behind →
    Machine.Adjoins Q (frames.reverse ++ rest) front →
    Machine.values? reading.rhs frames = some vals →
    Q r.lhs (r.action ⟨file, Machine.extentOf here frames⟩ (reading.value vals))

namespace Machine.Adjoins

/-- What is below the frames on top of a stack, and what is known of these. -/
theorem split {frames rest : List Frame} (h : Adjoins Q (frames ++ rest) front) :
    (∃ before, Adjoins Q rest before) ∧
      ∀ frame ∈ frames, frame.symbol.Satisfies (fun _ _ => True) Q frame.value := by
  induction frames generalizing front with
  | nil => exact ⟨⟨front, h⟩, List.forall_mem_nil _⟩
  | cons frame frames ih =>
    cases h with
    | phrase _ hrest hv =>
      obtain ⟨hbelow, hall⟩ := ih hrest
      exact ⟨hbelow, List.forall_mem_cons.mpr ⟨hv, hall⟩⟩
    | token hrest _ _ _ =>
      obtain ⟨hbelow, hall⟩ := ih hrest
      exact ⟨hbelow, List.forall_mem_cons.mpr ⟨trivial, hall⟩⟩

/-- **A reduction** puts a phrase in the place of what it is built from. -/
theorem reduce {text behind : List Char}
    (hrules : ∀ r ∈ Grammar.rules, r.Joins Q file text) {i : Nat} {stack' : List Frame}
    (h : Adjoins Q stack front) (htext : text = front ++ behind)
    (hreduce : Machine.reduce file entry here i stack = some stack') : Adjoins Q stack' front := by
  obtain ⟨p, frames, rest, g, vals, hp, rfl, hvals, -, rfl⟩ := exists_of_reduce hreduce
  obtain ⟨r, hr, reading, hreading, rfl⟩ := Rule.of_production hp
  obtain ⟨⟨before, hbelow⟩, -⟩ := h.split
  exact .phrase front hbelow
    (hrules r hr reading frames rest vals front behind here hreading htext h hvals)

theorem settle {text behind : List Char} (hrules : ∀ r ∈ Grammar.rules, r.Joins Q file text)
    {token : Token} {fuel target : Nat} {stack' : List Frame} (h : Adjoins Q stack front)
    (htext : text = front ++ behind)
    (hsettle : Machine.settle file entry token fuel stack = some (target, stack')) :
    Adjoins Q stack' front :=
  (of_settle (K := (Adjoins Q · front)) (fun h _ => h.reduce hrules htext) h hsettle).1

/-- **A token that is shifted** ends a further front of the text. -/
theorem shift {text behind front' : List Char} (hrules : ∀ r ∈ Grammar.rules, r.Joins Q file text)
    {token : Token} {stack' : List Frame} (h : Adjoins Q stack front)
    (htext : text = front ++ behind) (htoken : Ends front token front')
    (hshift : Machine.shift file entry stack token = some stack') : Adjoins Q stack' front' := by
  obtain ⟨⟨target, rest⟩, hsettle, rfl⟩ := Option.map_eq_some_iff.mp hshift
  exact .token (h.settle hrules htext hsettle) rfl rfl htoken

/-- At the end of the text the property holds of the whole. -/
theorem finish {text behind : List Char} (hrules : ∀ r ∈ Grammar.rules, r.Joins Q file text)
    {fuel : Nat} {v : entry.phrase.Val} (h : Adjoins Q stack front) (htext : text = front ++ behind)
    (hfinish : Machine.finish file entry here fuel stack = some v) : Q entry.phrase v := by
  obtain ⟨s, e, hwhole⟩ :=
    exists_of_finish (K := (Adjoins Q · front)) (fun h _ => h.reduce hrules htext) h hfinish
  have hwhole : Adjoins Q ([⟨s, .phrase entry.phrase, v, e⟩] ++ []) front := hwhole
  exact hwhole.split.2 _ (List.mem_singleton_self _)

end Machine.Adjoins

/-- **A rule joins what it is built from** if it keeps the property whatever its tokens are. -/
theorem Rule.joins_of_all {Q : (n : Nonterminal) → n.Val → Prop} {file : Option String}
    {text : List Char} {r : Rule}
    (h : ∀ (place : Place) (vals : r.parts.Val), r.parts.All (fun _ _ => True) Q vals →
      Q r.lhs (r.action place vals)) : r.Joins Q file text := by
  intro reading frames rest vals front behind here hreading _ hadjoins hvals
  have hall := hadjoins.split.2
  refine h _ _ (Parts.all_of_reading _ reading hreading ?_)
  exact Machine.allSatisfy_of_values?
    (fun frame hframe => hall frame (List.mem_reverse.mpr hframe)) hvals

namespace Machine

variable {Q : (n : Nonterminal) → n.Val → Prop} {file : Option String} {entry : Entry}

/-- A token that is read ends a further front of the text. -/
theorem ends_of_next {accepts : Terminal → Bool} {front cs rest : List Char} {token : Token}
    (h : Lexer.next accepts (({} : Pos).after front) cs = .ok (some (token, rest))) :
    ∃ front', Ends front token front' ∧ front ++ cs = front' ++ rest ∧
      token.extent.stop = ({} : Pos).after front' := by
  obtain ⟨layout, hlayout, rfl, hextent⟩ := Lexer.exists_filling_of_next h
  rw [← Pos.after_append, ← Pos.after_append] at hextent
  refine ⟨front ++ (layout ++ token.text.toList),
    ⟨(Lexer.fits_of_next h).spells, layout, hlayout, rfl, hextent⟩, ?_, by rw [hextent]⟩
  simp only [List.append_assoc]

/-- **What all rules keep, given that their tokens adjoin,** holds of every text that is read. -/
theorem joined_of_parse {text : List Char} (hrules : ∀ r ∈ Grammar.rules, r.Joins Q file text)
    {v : entry.phrase.Val} (h : parse file entry text = .ok v) : Q entry.phrase v := by
  -- What has been read is the front of the text, and the stack adjoins it.
  obtain ⟨stack, _, _, ⟨front, htext, -, hadjoins⟩, hfinish⟩ :=
    exists_of_run (K := fun stack pos cs =>
        ∃ front, text = front ++ cs ∧ pos = ({} : Pos).after front ∧ Adjoins Q stack front) (by
        rintro stack _ cs token rest next ⟨front, htext, rfl, hadjoins⟩ hnext hshift
        obtain ⟨front', hends, hfront, hstop⟩ := ends_of_next hnext
        exact ⟨front', htext.trans hfront, hstop, hadjoins.shift hrules htext hends hshift⟩)
      ⟨[], rfl, rfl, .nil []⟩ h
  exact hadjoins.finish hrules htext hfinish

end Machine

end TraitMock
