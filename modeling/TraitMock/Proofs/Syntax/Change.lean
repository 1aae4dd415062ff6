import TraitMock.Proofs.Syntax.Layout

/-!
# Proofs/Syntax/Change — phrases read again with other values

What a phrase stands for can be changed after it has been read.  Two ways lead from what is known of
the parts of a rule to the changed whole:

* Where the rule carries the change over from its parts (`Rule.Carries`), the changed parts stand
  where the parts stood, so what the rule preserves holds of the changed whole
  (`Rule.Carries.holds`).
* Where it does not, the new value is built from others by the rules of the grammar.  The table has
  a way through every right-hand side, so it is enough to say what holds of the parts wherever they
  are reached (`Rule.Preserves.constructs`).
-/

namespace TraitMock

open Table Machine

variable {W : Writing} {P Q : Judgement}

/-! ## Changes -/

/-- **A change of what phrases stand for.** -/
abbrev Change := (n : Nonterminal) → n.Val → n.Val

namespace Parts

/-- The values of parts, with what their phrases stand for changed. -/
@[simp] def change (f : Change) : (p : Parts) → p.Val → p.Val
  | .done, _ => ()
  | .mark _ rest, vals => rest.change f vals
  | .token _ rest, (tok, vals) => (tok, rest.change f vals)
  | .phrase n rest, (v, vals) => (f n v, rest.change f vals)
  | .maybe inner rest, (o, vals) => (o.map (inner.change f), rest.change f vals)

/-- Whether a predicate holds of all phrases among the values of parts. -/
abbrev AllPhrases (kept : (n : Nonterminal) → n.Val → Prop) (p : Parts) : p.Val → Prop :=
  p.All (fun _ _ => True) kept

/-- **Changed parts stand where the parts stood.** -/
theorem Holds.change {f : Change} {kept : (n : Nonterminal) → n.Val → Prop}
    (h : ∀ {s n v first next}, P s n v first next → kept n v → Q s n (f n v) first next) :
    ∀ {p : Parts} {s stop : Nat} {vals : p.Val} {first next : Terminal},
      p.Holds P s vals first stop next → p.AllPhrases kept vals →
        p.Holds Q s (p.change f vals) first stop next
  | .done, _, _, _, _, _, hholds, _ => hholds
  | .mark _ _, _, _, _, _, _, ⟨hfirst, s', b, hstep, hrest⟩, hkept =>
    ⟨hfirst, s', b, hstep, hrest.change h hkept⟩
  | .token _ _, _, _, (_, _), _, _, ⟨hfirst, hkind, hstands, s', b, hstep, hrest⟩, hkept =>
    ⟨hfirst, hkind, hstands, s', b, hstep, hrest.change h hkept.2⟩
  | .phrase _ _, _, _, (_, _), _, _, ⟨s', b, hstep, hv, hrest⟩, hkept =>
    ⟨s', b, hstep, h hv hkept.1, hrest.change h hkept.2⟩
  | .maybe _ rest, _, _, (none, _), _, _, hholds, hkept => Holds.change (p := rest) h hholds hkept.2
  | .maybe _ _, _, _, (some _, _), _, _, ⟨s', b, hinner, hrest⟩, hkept =>
    ⟨s', b, hinner.change h (hkept.1 _ rfl), hrest.change h hkept.2⟩

end Parts

/-- **A rule carries a change over**: the changed whole is built from the changed parts, and of
these the change is known. -/
structure Rule.Carries (f : Change) (kept : (n : Nonterminal) → n.Val → Prop) (r : Rule)
    (place : Place) (vals : r.parts.Val) : Prop where
  change : f r.lhs (r.action place vals) = r.action place (r.parts.change f vals)
  kept : r.parts.AllPhrases kept vals

/-- What a rule preserves holds of a changed whole, if the rule carries the change over. -/
theorem Rule.Carries.holds {f : Change} {kept : (n : Nonterminal) → n.Val → Prop} {r : Rule}
    {place : Place} {vals : r.parts.Val} (hcarries : r.Carries f kept place vals)
    (hQ : r.Preserves Q)
    (h : ∀ {s n v first next}, P s n v first next → kept n v → Q s n (f n v) first next)
    {s g stop : Nat} {first next : Terminal} (hg : step s (.phrase r.lhs) = some g)
    (hholds : r.parts.Holds P s vals first stop next) (hends : EndsBefore r.lhs next) :
    Q s r.lhs (f r.lhs (r.action place vals)) first next :=
  hcarries.change ▸ hQ place _ hg (hholds.change h hcarries.kept) hends

/-! ## Other places, other values -/

section Elsewhere

variable {n : Nonterminal} {v v' : n.Val} {first first' next next' : Terminal}

/-- A phrase can be read again in another place that has no more keywords. -/
theorem Again.elsewhere {avoid avoid' : List Terminal} {ws : List Lexeme}
    (h : Again W n avoid v ws first next) (havoid : mayBeName (.phrase n) = true → avoid' ⊆ avoid)
    (hfirst : first = .pathSep → first' = .pathSep) (hnext : next' = .pathSep → next = .pathSep) :
    Again W n avoid' v ws first' next' where
  spelled := h.spelled
  head := by
    obtain ⟨t, ht, hhead, hsep⟩ := h.head
    exact ⟨t, ht, hhead, hfirst ∘ hsep⟩
  last := h.last
  closed hn hsep := h.closed hn (hnext hsep)
  reads hs hwords hbehind hopen :=
    h.reads hs (fun hn => List.Subset.trans (hwords hn) (havoid hn)) hbehind
      (hopen.imp_right fun himp hsep => hnext (himp hsep))

theorem Rereads.elsewhere {s s' : Nat} (h : Rereads W s n v first next)
    (hwords : mayBeName (.phrase n) = true → words s' ⊆ words s)
    (hfirst : first = .pathSep → first' = .pathSep) (hnext : next' = .pathSep → next = .pathSep) :
    Rereads W s' n v first' next' := fun hitem =>
  ⟨(h hitem).1, fun hwritten =>
    ((h hitem).2 hwritten).imp fun _ hagain => hagain.elsewhere hwords hfirst hnext⟩

/-- What a phrase begins with only matters if it is `::`. -/
theorem Rereads.beginning {s : Nat} (h : Rereads W s n v first next) (hn : .pathSep ∉ firsts n) :
    Rereads W s n v first' next := fun hitem => by
  refine ⟨(h hitem).1, fun hwritten => ?_⟩
  obtain ⟨ws, hagain⟩ := (h hitem).2 hwritten
  obtain ⟨t, ht, hhead, -⟩ := hagain.head
  exact ⟨ws, hagain.spelled, ⟨t, ht, hhead, fun hsep => absurd (hsep ▸ ht) hn⟩, hagain.last,
    hagain.closed, hagain.reads⟩

/-- **What begins neither with a name nor with `::`** can be read again in every place. -/
theorem Rereads.anywhere {s s' : Nat} (h : Rereads W s n v first next)
    (hname : mayBeName (.phrase n) = false) (hsep : .pathSep ∉ firsts n)
    (hnext : next' = .pathSep → next = .pathSep) : Rereads W s' n v first' next' :=
  Rereads.elsewhere (h.beginning hsep)
    (fun h => absurd h (by rw [hname]; exact Bool.false_ne_true)) id hnext

/-- **Two values that are written the same** and come back as the same. -/
structure Writing.Same (W : Writing) (n : Nonterminal) (v v' : n.Val) : Prop where
  sound : W.sound n v → W.sound n v'
  written : W.written n v' → W.written n v
  text : W.text n v = W.text n v'
  back : ∀ w, W.back n v w → W.back n v' w

theorem Rereads.same {s : Nat} (h : Rereads W s n v first next) (hsame : W.Same n v v') :
    Rereads W s n v' first next := fun hitem => by
  refine ⟨hsame.sound (h hitem).1, fun hwritten => ?_⟩
  obtain ⟨ws, hagain⟩ := (h hitem).2 (hsame.written hwritten)
  refine ⟨ws, hsame.text ▸ hagain.spelled, hagain.head, hagain.last, hagain.closed, ?_⟩
  intro file entry s' behind hs hwords hbehind hopen stack g hstack hg
  refine (hagain.reads hs hwords hbehind hopen stack g hstack hg).mono ?_
  rintro _ ⟨w, extent, hback, rfl⟩
  exact ⟨w, extent, hsame.back w hback, rfl⟩

end Elsewhere

/-! ## Building a phrase by a rule -/

/-- The next symbol of a right-hand side can be walked from where what stands before it leads. -/
theorem Within.exists_step {n : Nonterminal} {s₀ s : Nat} {front xs : List Symbol} {x : Symbol}
    (hs : Begins s₀ n) (h : Within n front (x :: xs)) (hwalk : walk s₀ front = some s) :
    ∃ s', step s x = some s' ∧ walk s₀ (front ++ [x]) = some s' := by
  obtain ⟨i, rest, hmem⟩ := h
  obtain ⟨e, he⟩ := exists_walk hs hmem
  rw [walk_append_of_walk hwalk, List.cons_append, walk_cons] at he
  obtain ⟨s', hstep, -⟩ := Option.bind_eq_some_iff.mp he
  exact ⟨s', hstep, walk_concat hwalk hstep⟩

namespace Parts

/-- **A judgement about the parts of a rule, wherever they are reached** from a state: each of them
behind what stands before it. -/
def HoldsBehind (P : Judgement) (s₀ : Nat) : (p : Parts) → (front : List Symbol) → p.Val →
    (first next : Terminal) → Prop
  | .done, _, _, first, next => first = next
  | .mark t rest, front, vals, first, next => first = t ∧
    ∃ b, rest.HoldsBehind P s₀ (front ++ [.term t]) vals b next
  | .token t rest, front, (tok, vals), first, next => first = t ∧ tok.kind = t ∧
    (∀ s, Table.walk s₀ front = some s → tok.lexeme.StandsAt s) ∧
      ∃ b, rest.HoldsBehind P s₀ (front ++ [.term t]) vals b next
  | .phrase n rest, front, (v, vals), first, next => ∃ b,
    (∀ s, Table.walk s₀ front = some s → Begins s n → P s n v first b) ∧
      rest.HoldsBehind P s₀ (front ++ [.phrase n]) vals b next
  | .maybe _ rest, front, (none, vals), first, next => rest.HoldsBehind P s₀ front vals first next
  | .maybe inner rest, front, (some u, vals), first, next => ∃ b,
    inner.HoldsBehind P s₀ front u first b ∧
      rest.HoldsBehind P s₀ (front ++ inner.symbols u) vals b next

/-- A first phrase is reached where the parts begin. -/
theorem HoldsBehind.head {n : Nonterminal} {rest : Parts} {s₀ : Nat} {v : n.Val} {vals : rest.Val}
    {first b next : Terminal} (hv : Begins s₀ n → P s₀ n v first b)
    (hrest : rest.HoldsBehind P s₀ [.phrase n] vals b next) :
    (Parts.phrase n rest).HoldsBehind P s₀ [] (v, vals) first next := by
  refine ⟨b, ?_, hrest⟩
  rintro _ ⟨⟩
  exact hv

/-- What holds wherever the parts are reached holds of them where they are. -/
theorem HoldsBehind.holds {n : Nonterminal} {s₀ : Nat} (hs : Begins s₀ n) : ∀ {p : Parts}
    {front : List Symbol} {s : Nat} {vals : p.Val} {first next : Terminal},
    Within n front (p.symbols vals) → Table.walk s₀ front = some s →
      p.HoldsBehind P s₀ front vals first next →
        ∃ stop, Table.walk s₀ (front ++ p.symbols vals) = some stop ∧
          p.Holds P s vals first stop next
  | .done, front, s, _, first, _, _, hwalk, h => ⟨s, by rwa [symbols, List.append_nil], rfl, h⟩
  | .mark t rest, front, s, vals, _, _, hwithin, hwalk, ⟨hfirst, b, h⟩ => by
    obtain ⟨s', hstep, hwalk'⟩ := hwithin.exists_step hs hwalk
    obtain ⟨stop, hstop, hholds⟩ := h.holds hs (Within.next hwithin) hwalk'
    exact ⟨stop, by rwa [List.append_assoc] at hstop, hfirst, s', b, hstep, hholds⟩
  | .token t rest, front, s, (tok, vals), _, _, hwithin, hwalk, ⟨hfirst, hkind, hstands, b, h⟩ => by
    obtain ⟨s', hstep, hwalk'⟩ := hwithin.exists_step hs hwalk
    obtain ⟨stop, hstop, hholds⟩ := h.holds hs (Within.next hwithin) hwalk'
    exact ⟨stop, by rwa [List.append_assoc] at hstop, hfirst, hkind, hstands s hwalk, s', b, hstep,
      hholds⟩
  | .phrase m rest, front, s, (v, vals), _, _, hwithin, hwalk, ⟨b, hv, h⟩ => by
    obtain ⟨s', hstep, hwalk'⟩ := hwithin.exists_step hs hwalk
    obtain ⟨stop, hstop, hholds⟩ := h.holds hs (Within.next hwithin) hwalk'
    have hbegins : Begins s m := ⟨hwithin.not_mem_itemPhrases hs.1, by rw [hstep]; rfl⟩
    exact ⟨stop, by rwa [List.append_assoc] at hstop, s', b, hstep, hv s hwalk hbegins, hholds⟩
  | .maybe inner rest, front, s, (none, vals), _, _, hwithin, hwalk, h =>
    HoldsBehind.holds (p := rest) hs hwithin hwalk h
  | .maybe inner rest, front, s, (some u, vals), _, _, hwithin, hwalk, ⟨b, hinner, h⟩ => by
    obtain ⟨s', hwalk', hholds⟩ := hinner.holds hs (Within.head hwithin) hwalk
    obtain ⟨stop, hstop, hholds'⟩ := h.holds hs (Within.tail hwithin) hwalk'
    exact ⟨stop, by rwa [List.append_assoc] at hstop, s', b, hholds, hholds'⟩

end Parts

/-- **A rule builds what a judgement holds of**, where a phrase of its kind begins, from what the
judgement holds of wherever the parts are reached. -/
structure Rule.Constructs (P : Judgement) (r : Rule) : Prop where
  build : ∀ {s : Nat} {first next : Terminal} (place : Place) (vals : r.parts.Val), Begins s r.lhs →
    r.parts.HoldsBehind P s [] vals first next → EndsBefore r.lhs next →
      P s r.lhs (r.action place vals) first next

theorem Rule.Preserves.constructs {r : Rule} (h : r.Preserves P) (hr : r ∈ Grammar.rules) :
    r.Constructs P where
  build place vals hs hparts hends := by
    obtain ⟨g, hg⟩ := Option.isSome_iff_exists.mp hs.2
    obtain ⟨stop, -, hholds⟩ := hparts.holds hs (Rule.within hr vals) rfl
    exact h place vals hg hholds hends

end TraitMock
