import TraitMock.Proofs.Syntax.Reading

/-!
# Proofs/Syntax/Phrase — reading a phrase by one of its rules

`Reads s n ws Q a` says that wherever the state `s` is on top of the stack, the machine takes the
lexemes `ws` and then, before the terminal `a`, stands behind one phrase `n` whose value satisfies
`Q`.  Such a statement is put together symbol by symbol (`ReadsAll`), and the table is complete
enough for every choice of the options of every rule (`Reads.of_reading`).
-/

namespace TraitMock

open Table Machine

variable {file : Option String} {entry : Entry}

/-- **A row of lexemes is read as a phrase** before a terminal, wherever a state is on top. -/
def Reads (file : Option String) (entry : Entry) (s : Nat) (n : Nonterminal) (ws : List Lexeme)
    (Q : n.Val → Prop) (next : Terminal) : Prop :=
  ∀ (stack : List Frame) (g : Nat), top entry stack = s → step s (.phrase n) = some g →
    Goes file entry stack ws next fun stack' =>
      ∃ v extent, Q v ∧ stack' = ⟨g, .phrase n, v, extent⟩ :: stack

/-- **A row of lexemes is read as a sequence of symbols** that can be walked from a state. -/
def ReadsAll (file : Option String) (entry : Entry) (s : Nat) (xs : List Symbol) (ws : List Lexeme)
    (Q : Symbol.Vals xs → Prop) (next : Terminal) : Prop :=
  ∀ (stack : List Frame) (e : Nat), top entry stack = s → walk s xs = some e →
    Goes file entry stack ws next fun stack' => ∃ vals frames, Q vals ∧
      stack' = frames.reverse ++ stack ∧ values? xs frames = some vals ∧ top entry stack' = e

@[simp] theorem Frame.value?_mk (s : Nat) (x : Symbol) (v : x.Val) (extent : Extent) :
    Frame.value? ⟨s, x, v, extent⟩ x = some v := by
  simp [Frame.value?]

namespace ReadsAll

variable {s : Nat} {xs : List Symbol} {ws vs : List Lexeme} {next : Terminal}

theorem nil {Q : Unit → Prop} (h : Q ()) : ReadsAll file entry s [] [] Q next := by
  intro stack e hstack hwalk
  cases hwalk
  exact .nil ⟨(), [], h, rfl, rfl, hstack⟩

theorem term {w : Lexeme} {t : Terminal} {Q : Token × Symbol.Vals xs → Prop} (hkind : w.kind = t)
    (hstands : w.StandsAt s)
    (h : ∀ (s' : Nat) (token : Token), step s (.term t) = some s' → token.lexeme = w →
      ReadsAll file entry s' xs ws (fun vals => Q (token, vals)) next) :
    ReadsAll file entry s (.term t :: xs) (w :: ws) Q next := by
  intro stack e hstack hwalk
  subst hstack hkind
  rw [walk_cons] at hwalk
  obtain ⟨s', hstep, hwalk⟩ := Option.bind_eq_some_iff.mp hwalk
  refine .cons hstands hstep fun token htoken => ?_
  refine (h s' token hstep htoken (⟨s', .term w.kind, token, token.extent⟩ :: stack) e rfl
    hwalk).mono ?_
  rintro stack' ⟨vals, frames, hQ, hstack', hvals, htop⟩
  exact ⟨(token, vals), ⟨s', .term w.kind, token, token.extent⟩ :: frames, hQ, by simp [hstack'],
    by simp [values?, hvals], htop⟩

theorem phrase {n : Nonterminal} {R : n.Val → Prop} {Q : n.Val × Symbol.Vals xs → Prop}
    (hvs : ∀ v ∈ vs.head?, v.kind ≠ .name)
    (hphrase : (step s (.phrase n)).isSome = true → Reads file entry s n ws R (firstOf vs next))
    (h : ∀ (g : Nat) (v : n.Val), step s (.phrase n) = some g → R v →
      ReadsAll file entry g xs vs (fun vals => Q (v, vals)) next) :
    ReadsAll file entry s (.phrase n :: xs) (ws ++ vs) Q next := by
  intro stack e hstack hwalk
  rw [walk_cons] at hwalk
  obtain ⟨g, hstep, hwalk⟩ := Option.bind_eq_some_iff.mp hwalk
  have hfront := hphrase (by rw [hstep]; rfl) stack g hstack hstep
  refine hfront.append hvs ?_
  rintro _ ⟨v, extent, hv, rfl⟩
  refine (h g v hstep hv (⟨g, .phrase n, v, extent⟩ :: stack) e rfl hwalk).mono ?_
  rintro stack' ⟨vals, frames, hQ, hstack', hvals, htop⟩
  exact ⟨(v, vals), ⟨g, .phrase n, v, extent⟩ :: frames, hQ, by simp [hstack'],
    by simp [values?, hvals], htop⟩

end ReadsAll

/-- **A reduction that goes through.** -/
theorem Machine.reduce_eq_some {here : Pos} {i g : Nat} {p : Production} {frames rest : List Frame}
    {vals : Symbol.Vals p.rhs} (hp : Grammar.productions[i]? = some p)
    (hvals : values? p.rhs frames = some vals)
    (hg : step (top entry rest) (.phrase p.lhs) = some g) :
    reduce file entry here i (frames.reverse ++ rest) =
      some (⟨g, .phrase p.lhs, p.action ⟨file, extentOf here frames⟩ vals, extentOf here frames⟩ ::
        rest) := by
  obtain ⟨st, hst, hgoto⟩ := Option.bind_eq_some_iff.mp hg
  have hlength : p.rhs.length = frames.reverse.length := by
    rw [List.length_reverse, length_of_values? hvals]
  simp only [reduce, hp, hlength, List.take_left, List.drop_left, List.reverse_reverse, hvals,
    getElem?_states, hst, hgoto, Option.bind_eq_bind, Option.bind_some]
  rfl

/-- **Reading a phrase by one choice of the options of a rule**, before whatever may stand behind
the phrase; but a path is not ended before a further `::`. -/
theorem Reads.of_reading {r : Rule} (hr : r ∈ Grammar.rules) {s : Nat} (hs : Begins s r.lhs)
    {reading : Parts.Reading r.parts.Val} (hreading : reading ∈ r.parts.readings)
    {ws : List Lexeme} {Q : r.lhs.Val → Prop} {next : Terminal} (hnext : Behind s r.lhs next)
    (hopen : next = .pathSep → endsInPath r.lhs reading.rhs = false)
    (h : ReadsAll file entry s reading.rhs ws
      (fun raw => ∀ place, Q (r.action place (reading.value raw))) next) :
    Reads file entry s r.lhs ws Q next := by
  intro stack g hstack hg
  subst hstack
  obtain ⟨i, hi⟩ := Rule.exists_production hr hreading
  have hmem : (i, reading.rhs) ∈ numbered r.lhs := mem_numbered hi
  obtain ⟨e, hwalk⟩ := exists_walk hs hmem
  have haction := action?_of_walk hs hmem hwalk hnext hopen
  intro tokens htokens
  obtain ⟨middle, hfeeds, hreduces⟩ := h stack e rfl hwalk tokens htokens
  refine ⟨middle, hfeeds, fun here => ?_⟩
  obtain ⟨full, hfull, vals, frames, hQ, rfl, hvals, rfl⟩ := hreduces here
  have hlast : ReducesTo file entry here next (frames.reverse ++ stack) _ :=
    ⟨i, haction, by simpa [hi, Rule.production] using rhs_ne_nil hs.1 hmem,
      reduce_eq_some hi hvals hg⟩
  exact ⟨_, hfull.tail hlast, _, _, hQ _, rfl⟩

end TraitMock
