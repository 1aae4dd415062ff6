import Mathlib.Order.Defs.PartialOrder
import TraitMock.Proofs.Syntax.Taken

/-!
# Proofs/Syntax/Nesting — phrases stand inside the phrases that they are parts of

A `Placing` says something about the value of a phrase and the extent in which it stands; what holds
in an extent holds in every wider one.  A rule keeps a placing if it holds in an extent of what the
rule builds there whenever it holds in it of the phrases that the rule is built from, and the tokens
that it is built from stand there (`Rule.Places`).  Of these it may be known besides that the text
spells them where they stand (`Token.ReadFrom`).

* `Machine.placed_of_parse` — what all rules keep holds of every text that is read, in some extent.

The invariant is `Machine.Nested`: the frames of a stack stand one behind the other, and all of them
in front of what is read next.  So a phrase that is put together from some of them stands between
them and takes up all of theirs (`Machine.Nested.split`).
-/

namespace TraitMock

/-! ## Positions in order -/

namespace Pos

/-- **The order of places in a text**: by their lines, and by their columns within a line. -/
instance : LE Pos := ⟨fun p q => p.line < q.line ∨ p.line = q.line ∧ p.column ≤ q.column⟩

theorem le_iff {p q : Pos} : p ≤ q ↔ p.line < q.line ∨ p.line = q.line ∧ p.column ≤ q.column :=
  Iff.rfl

instance : Preorder Pos where
  le_refl p := .inr ⟨rfl, Nat.le_refl _⟩
  le_trans p q r h h' := by
    rw [le_iff] at *
    omega

theorem le_next (p : Pos) (c : Char) : p ≤ p.next c := by
  rw [next]
  split
  · exact .inl (Nat.lt_succ_self _)
  · exact .inr ⟨rfl, Nat.le_succ _⟩

/-- Characters lead forward. -/
theorem le_after (p : Pos) (cs : List Char) : p ≤ p.after cs := by
  induction cs generalizing p with
  | nil => exact le_rfl
  | cons c cs ih => exact (p.le_next c).trans (ih (p.next c))

end Pos

/-- **An extent lies inside another**: it begins no earlier, ends no later, and does not end before
it begins. -/
structure Extent.Inside (e e' : Extent) : Prop where
  start : e'.start ≤ e.start
  ordered : e.start ≤ e.stop
  stop : e.stop ≤ e'.stop

namespace Extent.Inside

variable {e e' e'' : Extent}

theorem refl (h : e.start ≤ e.stop) : e.Inside e := ⟨le_rfl, h, le_rfl⟩

theorem trans (h : e.Inside e') (h' : e'.Inside e'') : e.Inside e'' :=
  ⟨h'.start.trans h.start, h.ordered, h.stop.trans h'.stop⟩

end Extent.Inside

/-- A token stands behind the place from which it is read. -/
theorem Lexer.ordered_of_next {accepts : Terminal → Bool} {pos : Pos} {cs rest : List Char}
    {token : Token} (h : next accepts pos cs = .ok (some (token, rest))) :
    pos ≤ token.extent.start ∧ token.extent.start ≤ token.extent.stop := by
  obtain ⟨layout, -, -, hextent⟩ := exists_filling_of_next h
  rw [hextent, Pos.after_append]
  exact ⟨pos.le_after layout, Pos.le_after _ _⟩

/-! ## Tokens of a text -/

/-- **A token as it was read** from a text: the text spells it between its two ends. -/
def Token.ReadFrom (text : List Char) (t : Token) : Prop :=
  t.kind.Spells t.text ∧ ∃ front rest, text = front ++ (t.text.toList ++ rest) ∧
    t.extent = ⟨({} : Pos).after front, ({} : Pos).after (front ++ t.text.toList)⟩

/-- What is read behind the front of a text is read from the text, and reading goes on behind it. -/
theorem Lexer.readFrom_of_next {accepts : Terminal → Bool} {front cs rest : List Char}
    {token : Token} (h : next accepts (({} : Pos).after front) cs = .ok (some (token, rest))) :
    token.ReadFrom (front ++ cs) ∧ ∃ front', front ++ cs = front' ++ rest ∧
      token.extent.stop = ({} : Pos).after front' := by
  obtain ⟨layout, -, rfl, hextent⟩ := exists_filling_of_next h
  rw [← Pos.after_append, ← Pos.after_append, ← List.append_assoc] at hextent
  refine ⟨⟨(fits_of_next h).spells, front ++ layout, rest, by rw [List.append_assoc], hextent⟩,
    front ++ layout ++ token.text.toList, ?_, by rw [hextent]⟩
  simp only [List.append_assoc]

/-! ## Placings -/

/-- **A statement about a phrase and the extent in which it stands.** -/
structure Placing where
  /-- What is said of a token. -/
  Reads : Token → Prop
  /-- What is said of the value of a phrase in an extent. -/
  Holds : (n : Nonterminal) → n.Val → Extent → Prop
  /-- It holds in every wider extent. -/
  mono : ∀ {n v} {e e' : Extent}, e.Inside e' → Holds n v e → Holds n v e'

/-- **A token of a kind stands inside an extent.** -/
structure Placing.Takes (S : Placing) (e : Extent) (kind : Terminal) (t : Token) : Prop where
  kind : t.kind = kind
  reads : S.Reads t
  inside : t.extent.Inside e

/-- **A rule keeps a placing.** -/
def Rule.Places (S : Placing) (file : Option String) (r : Rule) : Prop :=
  ∀ (e : Extent) (vals : r.parts.Val), e.start ≤ e.stop →
    r.parts.All (S.Takes e) (S.Holds · · e) vals → S.Holds r.lhs (r.action ⟨file, e⟩ vals) e

theorem Parts.All.mono {T T' : Terminal → Token → Prop} {Q Q' : (n : Nonterminal) → n.Val → Prop}
    (hT : ∀ t v, T t v → T' t v) (hQ : ∀ n v, Q n v → Q' n v) :
    ∀ {p : Parts} {vals : p.Val}, p.All T Q vals → p.All T' Q' vals
  | .done, _, _ => trivial
  | .mark _ rest, _, h => All.mono (p := rest) hT hQ h
  | .token _ _, _, h => ⟨hT _ _ h.1, h.2.mono hT hQ⟩
  | .phrase _ _, _, h => ⟨hQ _ _ h.1, h.2.mono hT hQ⟩
  | .maybe _ _, _, h => ⟨fun u hu => (h.1 u hu).mono hT hQ, h.2.mono hT hQ⟩

/-- What is said of a symbol. -/
def Symbol.Satisfies (T : Terminal → Token → Prop) (Q : (n : Nonterminal) → n.Val → Prop) :
    (x : Symbol) → x.Val → Prop
  | .term t, v => T t v
  | .phrase n, v => Q n v

theorem Symbol.Satisfies.mono {T T' : Terminal → Token → Prop}
    {Q Q' : (n : Nonterminal) → n.Val → Prop} (hT : ∀ t v, T t v → T' t v)
    (hQ : ∀ n v, Q n v → Q' n v) :
    ∀ {x : Symbol} {v : x.Val}, x.Satisfies T Q v → x.Satisfies T' Q' v
  | .term t, v, h => hT t v h
  | .phrase n, v, h => hQ n v h

/-- What is said of the symbols of a sequence. -/
def Symbol.AllSatisfy (T : Terminal → Token → Prop) (Q : (n : Nonterminal) → n.Val → Prop) :
    (xs : List Symbol) → Symbol.Vals xs → Prop
  | [], _ => True
  | x :: xs, (v, vs) => x.Satisfies T Q v ∧ AllSatisfy T Q xs vs

variable {T : Terminal → Token → Prop} {Q : (n : Nonterminal) → n.Val → Prop}

theorem Symbol.AllSatisfy.split : ∀ {xs ys : List Symbol} {vs : Symbol.Vals (xs ++ ys)},
    Symbol.AllSatisfy T Q (xs ++ ys) vs → Symbol.AllSatisfy T Q xs (Symbol.Vals.split xs vs).1 ∧
      Symbol.AllSatisfy T Q ys (Symbol.Vals.split xs vs).2
  | [], _, _, h => ⟨trivial, h⟩
  | _ :: _, _, (_, _), ⟨hx, hrest⟩ => ⟨⟨hx, hrest.split.1⟩, hrest.split.2⟩

/-- **From a choice of the options to the rule.** -/
theorem Parts.all_of_reading : ∀ (p : Parts) (reading : Parts.Reading p.Val)
    {vs : Symbol.Vals reading.rhs}, reading ∈ p.readings → Symbol.AllSatisfy T Q reading.rhs vs →
      p.All T Q (reading.value vs)
  | .done, _, _, _, _ => trivial
  | .mark _ rest, _, _, hmem, h => by
    obtain ⟨r, hr, rfl⟩ := List.mem_map.mp hmem
    exact all_of_reading rest r hr h.2
  | .token _ rest, _, _, hmem, h => by
    obtain ⟨r, hr, rfl⟩ := List.mem_map.mp hmem
    exact ⟨h.1, all_of_reading rest r hr h.2⟩
  | .phrase _ rest, _, _, hmem, h => by
    obtain ⟨r, hr, rfl⟩ := List.mem_map.mp hmem
    exact ⟨h.1, all_of_reading rest r hr h.2⟩
  | .maybe inner rest, _, _, hmem, h => by
    rcases List.mem_append.mp hmem with hmem | hmem
    · obtain ⟨r, hr, rfl⟩ := List.mem_map.mp hmem
      exact ⟨nofun, all_of_reading rest r hr h⟩
    · obtain ⟨i, hi, hmem⟩ := List.mem_flatMap.mp hmem
      obtain ⟨r, hr, rfl⟩ := List.mem_map.mp hmem
      exact ⟨fun _ hu => Option.some.inj hu ▸ all_of_reading inner i hi h.split.1,
        all_of_reading rest r hr h.split.2⟩

namespace Machine

variable {S : Placing} {file : Option String} {entry : Entry} {stack : List Frame} {here pos : Pos}

/-- Frames of which something is said have such values. -/
theorem allSatisfy_of_values? {rhs : List Symbol} {frames : List Frame} {vals : Symbol.Vals rhs}
    (h : ∀ frame ∈ frames, frame.symbol.Satisfies T Q frame.value)
    (hvals : values? rhs frames = some vals) : Symbol.AllSatisfy T Q rhs vals := by
  induction rhs generalizing frames with
  | nil => trivial
  | cons x rhs ih =>
    obtain ⟨state, extent, frames', rfl, hrest⟩ := exists_of_values?_cons hvals
    obtain ⟨hframe, hframes⟩ := List.forall_mem_cons.mp h
    exact ⟨hframe, ih hframes hrest⟩

/-! ## Stacks in order -/

/-- **The frames of a stack stand one behind the other**, in front of a place, and the placing holds
of each phrase, and of each token, in its own extent. -/
inductive Nested (S : Placing) : List Frame → Pos → Prop
  | nil (pos : Pos) : Nested S [] pos
  | cons {frame : Frame} {rest : List Frame} {pos : Pos} : Nested S rest frame.extent.start →
    frame.extent.start ≤ frame.extent.stop → frame.extent.stop ≤ pos →
    frame.symbol.Satisfies (S.Takes frame.extent) (S.Holds · · frame.extent) frame.value →
    Nested S (frame :: rest) pos

namespace Nested

theorem mono {pos' : Pos} (h : Nested S stack pos) (hpos : pos ≤ pos') : Nested S stack pos' := by
  cases h with
  | nil => exact .nil pos'
  | cons hrest hordered hstop hvalue => exact .cons hrest hordered (hstop.trans hpos) hvalue

/-- **The frames on top of a stack** all stand inside the extent of their sequence, and the others
in front of it. -/
theorem split {frames rest : List Frame} (h : Nested S (frames.reverse ++ rest) here) :
    Nested S rest (extentOf here frames).start ∧
      (extentOf here frames).start ≤ (extentOf here frames).stop ∧
      (extentOf here frames).stop ≤ here ∧
      ∀ frame ∈ frames, frame.extent.Inside (extentOf here frames) ∧
        frame.symbol.Satisfies (S.Takes frame.extent) (S.Holds · · frame.extent) frame.value := by
  induction frames generalizing rest with
  | nil => exact ⟨h, le_rfl, le_rfl, List.forall_mem_nil _⟩
  | cons frame frames ih =>
    rw [List.reverse_cons, List.append_assoc, List.singleton_append] at h
    obtain ⟨hfront, hordered, hhere, hall⟩ := ih h
    cases hfront with
    | cons hrest hframe hstop hvalue =>
      cases frames with
      | nil =>
        exact ⟨hrest, hframe, hstop,
          List.forall_mem_singleton.mpr ⟨.refl hframe, hvalue⟩⟩
      | cons second frames =>
        have hstart : frame.extent.start ≤ (extentOf here (second :: frames)).start :=
          hframe.trans hstop
        have hwider : (extentOf here (second :: frames)).Inside
            (extentOf here (frame :: second :: frames)) := ⟨hstart, hordered, le_rfl⟩
        refine ⟨hrest, hstart.trans hordered, hhere, List.forall_mem_cons.mpr ⟨⟨?_, hvalue⟩, ?_⟩⟩
        · exact ⟨le_rfl, hframe, hstop.trans hordered⟩
        · exact fun other hother => ⟨(hall other hother).1.trans hwider, (hall other hother).2⟩

/-- **A reduction keeps a stack in order.** -/
theorem reduce (hrules : ∀ r ∈ Grammar.rules, r.Places S file) {i : Nat} {stack' : List Frame}
    (h : Nested S stack here) (hreduce : reduce file entry here i stack = some stack') :
    Nested S stack' here := by
  obtain ⟨p, frames, rest, g, vals, hp, rfl, hvals, -, rfl⟩ := exists_of_reduce hreduce
  obtain ⟨hrest, hordered, hstop, hall⟩ := h.split
  let e := extentOf here frames
  have hvalues : Symbol.AllSatisfy (S.Takes e) (S.Holds · · e) p.rhs vals := by
    refine allSatisfy_of_values? (fun frame hframe => ?_) hvals
    obtain ⟨hinside, hvalue⟩ := hall frame hframe
    exact hvalue.mono (fun _ _ ht => ⟨ht.kind, ht.reads, ht.inside.trans hinside⟩) fun _ _ =>
      S.mono hinside
  obtain ⟨r, hr, reading, hreading, rfl⟩ := Rule.of_production hp
  exact .cons hrest hordered hstop
    (hrules r hr _ _ hordered (Parts.all_of_reading _ reading hreading hvalues))

/-- Reductions before a token keep a stack in order. -/
theorem settle (hrules : ∀ r ∈ Grammar.rules, r.Places S file) {token : Token} {fuel target : Nat}
    {stack' : List Frame} (h : Nested S stack token.extent.start)
    (hsettle : settle file entry token fuel stack = some (target, stack')) :
    Nested S stack' token.extent.start :=
  (of_settle (K := (Nested S · token.extent.start)) (fun h _ => h.reduce hrules) h hsettle).1

/-- **A token that is shifted** stands behind the stack. -/
theorem shift (hrules : ∀ r ∈ Grammar.rules, r.Places S file) {token : Token} {stack' : List Frame}
    (h : Nested S stack token.extent.start) (htoken : token.extent.start ≤ token.extent.stop)
    (hreads : S.Reads token) (hshift : shift file entry stack token = some stack') :
    Nested S stack' token.extent.stop := by
  obtain ⟨⟨target, rest⟩, hsettle, rfl⟩ := Option.map_eq_some_iff.mp hshift
  exact .cons (h.settle hrules hsettle) htoken le_rfl ⟨rfl, hreads, .refl htoken⟩

/-- At the end of the text the placing holds of the whole. -/
theorem finish (hrules : ∀ r ∈ Grammar.rules, r.Places S file) {fuel : Nat} {v : entry.phrase.Val}
    (h : Nested S stack here) (hfinish : finish file entry here fuel stack = some v) :
    ∃ e, S.Holds entry.phrase v e := by
  obtain ⟨_, e, hwhole⟩ :=
    exists_of_finish (K := (Nested S · here)) (fun h _ => h.reduce hrules) h hfinish
  cases hwhole with
  | cons _ _ _ hframe => exact ⟨e, hframe⟩

end Nested

/-- **What all rules keep holds of every text that is read**, in some extent. -/
theorem placed_of_parse (hrules : ∀ r ∈ Grammar.rules, r.Places S file) {v : entry.phrase.Val}
    {text : List Char} (hreads : ∀ t : Token, t.ReadFrom text → S.Reads t)
    (h : parse file entry text = .ok v) : ∃ e, S.Holds entry.phrase v e := by
  -- The stack is in order up to the place behind what has been read.
  obtain ⟨stack, _, _, ⟨-, -, -, hnested⟩, hfinish⟩ :=
    exists_of_run (K := fun stack pos cs =>
        ∃ front, text = front ++ cs ∧ pos = ({} : Pos).after front ∧ Nested S stack pos) (by
        rintro stack _ cs token rest next ⟨front, rfl, rfl, hnested⟩ hnext hshift
        obtain ⟨hstart, hstop⟩ := Lexer.ordered_of_next hnext
        obtain ⟨hread, front', htext, hplace⟩ := Lexer.readFrom_of_next hnext
        exact ⟨front', htext, hplace,
          (hnested.mono hstart).shift hrules hstop (hreads token hread) hshift⟩)
      ⟨[], rfl, rfl, .nil {}⟩ h
  exact hnested.finish hrules hfinish

end Machine

end TraitMock
