import TraitMock.Proofs.Syntax.Again

/-!
# Proofs/Syntax/Draft — what has been read can be drafted again

The judgement `Rereads` says of a phrase that it can be read again, if it is written at all.  Where
it holds of the parts of a rule there is a draft of them (`Parts.Holds.exists_draft`), also when
some optional parts are left out.  What is left out moves the parts behind it to other places
(`Parts.Thins`), so these must be places of one kind.
-/

namespace TraitMock

open Table Machine

variable {W : Writing}

/-- **The judgement that is proved of all phrases**: what is written can be read again. -/
def Rereads (W : Writing) : Judgement := fun s n v first next =>
  n ∉ itemPhrases → W.sound n v ∧ (W.written n v → ∃ ws, Again W n (words s) v ws first next)

/-! ## Places of one kind -/

/-- Whether a symbol finds the same keywords behind two ways into a phrase. -/
def samePlace (n : Nonterminal) (front front' : List Symbol) (x : Symbol) : Bool :=
  front == front' || !mayBeName x || contexts.any fun (m, before, listed) =>
    (before == [] && x == .phrase m) ||
      (m == n && before == front && contexts.contains (n, front', listed))

@[simp] theorem samePlace_self (n : Nonterminal) (front : List Symbol) (x : Symbol) :
    samePlace n front front x = true := by
  simp [samePlace]

/-- The keywords of a place of a phrase are among those of the place where the symbol was read. -/
theorem Place.avoids_of_samePlace {n : Nonterminal} {s₀ s i : Nat} {front front' rest : List Symbol}
    {x : Symbol} (hs : Begins s₀ n) (hmem : (i, front ++ x :: rest) ∈ numbered n)
    (hx : mayBeName x = true) (hwalk : walk s₀ front = some s) (hstep : (step s x).isSome = true)
    (hplace : samePlace n front front' x = true) : Place.Avoids n s₀ front' x (words s) := by
  intro s₁ s' hs₁ hwords hwalk' hstep'
  obtain ⟨g, hg⟩ := Option.isSome_iff_exists.mp hs.2
  obtain ⟨g', hg'⟩ := Option.isSome_iff_exists.mp hs₁.2
  simp only [samePlace, hx, Bool.not_true, Bool.or_false, Bool.or_eq_true, beq_iff_eq,
    List.any_eq_true, Bool.and_eq_true, List.contains_iff_mem, Prod.exists] at hplace
  rcases hplace with rfl | ⟨m, before, listed, hcontext, ⟨rfl, rfl⟩ | ⟨⟨rfl, rfl⟩, hcontext'⟩⟩
  · exact words_inside_subset hs.1 hmem hx hg hg' hwords hwalk hwalk' hstep hstep'
  · obtain ⟨k, hk⟩ := Option.isSome_iff_exists.mp hstep
    obtain ⟨k', hk'⟩ := Option.isSome_iff_exists.mp hstep'
    rw [words_eq hcontext hk rfl, words_eq hcontext hk' rfl]
    exact List.Subset.refl _
  · rw [words_eq hcontext hg hwalk, words_eq hcontext' hg' hwalk']
    exact List.Subset.refl _

/-! ## Parts within a production -/

/-- **Symbols stand within a phrase** behind `front`: they are a stretch of one of its
productions. -/
def Within (n : Nonterminal) (front xs : List Symbol) : Prop :=
  ∃ i rest, (i, front ++ (xs ++ rest)) ∈ numbered n

theorem Within.tail {n : Nonterminal} {front xs ys : List Symbol} (h : Within n front (xs ++ ys)) :
    Within n (front ++ xs) ys := by
  obtain ⟨i, rest, hmem⟩ := h
  exact ⟨i, rest, by simpa using hmem⟩

theorem Within.next {n : Nonterminal} {front ys : List Symbol} {x : Symbol}
    (h : Within n front (x :: ys)) : Within n (front ++ [x]) ys := by
  rw [← List.singleton_append] at h
  exact h.tail

theorem Within.head {n : Nonterminal} {front xs ys : List Symbol} (h : Within n front (xs ++ ys)) :
    Within n front xs := by
  obtain ⟨i, rest, hmem⟩ := h
  exact ⟨i, ys ++ rest, by simpa using hmem⟩

/-- Whether a symbol is no phrase of a whole item. -/
def Symbol.isInner : Symbol → Bool
  | .term _ => true
  | .phrase m => !itemPhrases.contains m

/-- No phrase of a whole item stands within another phrase. -/
theorem Within.not_mem_itemPhrases {n m : Nonterminal} {front xs : List Symbol}
    (hn : n ∉ itemPhrases) (h : Within n front (.phrase m :: xs)) : m ∉ itemPhrases := by
  have hall : (Grammar.rules.flatMap Rule.productions).all (fun p =>
      itemPhrases.contains p.lhs || p.rhs.all Symbol.isInner) = true := by
    decide +kernel
  obtain ⟨i, rest, hmem⟩ := h
  obtain ⟨p, hp, rfl, hrhs⟩ := mem_of_mem_numbered hmem
  have hplace := List.all_eq_true.mp hall p hp
  simp only [Bool.or_eq_true, List.contains_iff_mem, hn, false_or, hrhs, List.all_eq_true] at hplace
  simpa [Symbol.isInner] using hplace (.phrase m) (by simp)

namespace Parts

/-- A choice of the options for each value. -/
theorem exists_reading : ∀ (p : Parts) (vals : p.Val), ∃ r ∈ p.readings, r.rhs = p.symbols vals
  | .done, _ => ⟨_, List.mem_singleton.mpr rfl, rfl⟩
  | .mark t rest, vals => by
    obtain ⟨r, hr, hrhs⟩ := exists_reading rest vals
    exact ⟨_, List.mem_map.mpr ⟨r, hr, rfl⟩, by simp [symbols, hrhs]⟩
  | .token t rest, (_, vals) => by
    obtain ⟨r, hr, hrhs⟩ := exists_reading rest vals
    exact ⟨_, List.mem_map.mpr ⟨r, hr, rfl⟩, by simp [symbols, hrhs]⟩
  | .phrase n rest, (_, vals) => by
    obtain ⟨r, hr, hrhs⟩ := exists_reading rest vals
    exact ⟨_, List.mem_map.mpr ⟨r, hr, rfl⟩, by simp [symbols, hrhs]⟩
  | .maybe inner rest, (none, vals) => by
    obtain ⟨r, hr, hrhs⟩ := exists_reading rest vals
    exact ⟨_, List.mem_append_left _ (List.mem_map.mpr ⟨r, hr, rfl⟩), by simp [symbols, hrhs]⟩
  | .maybe inner rest, (some u, vals) => by
    obtain ⟨i, hi, hirhs⟩ := exists_reading inner u
    obtain ⟨r, hr, hrhs⟩ := exists_reading rest vals
    exact ⟨_, List.mem_append_right _ (List.mem_flatMap.mpr ⟨i, hi, List.mem_map.mpr ⟨r, hr, rfl⟩⟩),
      by simp [symbols, hirhs, hrhs]⟩

end Parts

/-- The parts of a rule stand within its phrase. -/
theorem Rule.within {r : Rule} (hr : r ∈ Grammar.rules) (vals : r.parts.Val) :
    Within r.lhs [] (r.parts.symbols vals) := by
  obtain ⟨reading, hreading, hrhs⟩ := r.parts.exists_reading vals
  obtain ⟨i, hi⟩ := Rule.exists_production hr hreading
  exact ⟨i, [], by simpa [Rule.production, hrhs] using mem_numbered hi⟩

namespace Parts

/-- The state behind the parts of a rule. -/
theorem Holds.walk {P : Judgement} : ∀ {p : Parts} {s stop : Nat} {vals : p.Val}
    {first next : Terminal}, p.Holds P s vals first stop next →
      Table.walk s (p.symbols vals) = some stop
  | .done, _, _, _, _, _, ⟨hstop, _⟩ => by rw [hstop, symbols, walk_nil]
  | .mark _ _, _, _, _, _, _, ⟨_, _, _, hstep, h⟩ => by
    rw [symbols, walk_cons, hstep, Option.bind_some, h.walk]
  | .token _ _, _, _, (_, _), _, _, ⟨_, _, _, _, _, hstep, h⟩ => by
    rw [symbols, walk_cons, hstep, Option.bind_some, h.walk]
  | .phrase _ _, _, _, (_, _), _, _, ⟨_, _, hstep, _, h⟩ => by
    rw [symbols, walk_cons, hstep, Option.bind_some, h.walk]
  | .maybe _ rest, _, _, (none, _), _, _, h => Holds.walk (p := rest) h
  | .maybe _ _, _, _, (some _, _), _, _, ⟨_, _, hinner, h⟩ => by
    rw [symbols, walk_append_of_walk hinner.walk, h.walk]

/-- **What is known of values that have been read**: tokens spell their terminals, and phrases are
sound. -/
def Sound (W : Writing) : (p : Parts) → p.Val → Prop
  | .done, _ => True
  | .mark _ rest, vals => rest.Sound W vals
  | .token t rest, (tok, vals) => t.Spells tok.text ∧ rest.Sound W vals
  | .phrase n rest, (v, vals) => W.sound n v ∧ rest.Sound W vals
  | .maybe _ rest, (none, vals) => rest.Sound W vals
  | .maybe inner rest, (some u, vals) => inner.Sound W u ∧ rest.Sound W vals

theorem Holds.sound {n : Nonterminal} (hn : n ∉ itemPhrases) : ∀ {p : Parts} {front : List Symbol}
    {s stop : Nat} {vals : p.Val} {first next : Terminal}, Within n front (p.symbols vals) →
      p.Holds (Rereads W) s vals first stop next → p.Sound W vals
  | .done, _, _, _, _, _, _, _, _ => trivial
  | .mark _ rest, _, _, _, _, _, _, hwithin, ⟨_, _, _, _, h⟩ =>
    Holds.sound hn (p := rest) (Within.next hwithin) h
  | .token _ rest, _, _, _, (_, _), _, _, hwithin, ⟨_, hkind, hstands, _, _, _, h⟩ =>
    ⟨hkind ▸ hstands.1, Holds.sound hn (p := rest) (Within.next hwithin) h⟩
  | .phrase _ rest, _, _, _, (_, _), _, _, hwithin, ⟨_, _, _, hv, h⟩ =>
    ⟨(hv (Within.not_mem_itemPhrases hn hwithin)).1,
      Holds.sound hn (p := rest) (Within.next hwithin) h⟩
  | .maybe _ rest, _, _, _, (none, _), _, _, hwithin, h => Holds.sound hn (p := rest) hwithin h
  | .maybe inner rest, _, _, _, (some _, _), _, _, hwithin, ⟨_, _, hinner, h⟩ =>
    ⟨Holds.sound hn (p := inner) (Within.head hwithin) hinner,
      Holds.sound hn (p := rest) (Within.tail hwithin) h⟩

/-! ## Leaving options out -/

/-- Whether parts may begin with `::`, or with nothing where `::` may stand behind them. -/
def mayOpen : (p : Parts) → p.Val → (behind : Bool) → Bool
  | .done, _, behind => behind
  | .mark t _, _, _ => t == .pathSep
  | .token t _, _, _ => t == .pathSep
  | .phrase n _, _, _ => (firsts n).contains .pathSep
  | .maybe _ rest, (none, vals), behind => rest.mayOpen vals behind
  | .maybe inner rest, (some u, vals), behind => inner.mayOpen u (rest.mayOpen vals behind)

/-- **Values of parts without some of the options**, where they then stand behind `front'`.  Names
stay in places of one kind, and what is left out is not replaced by a `::`, unless nothing in front
of it ends there in earnest (`free`). -/
def Thins (n : Nonterminal) : (p : Parts) → (free : Bool) → (front front' : List Symbol) →
    (behind : Bool) → p.Val → p.Val → Prop
  | .done, _, _, _, _, _, _ => True
  | .mark t rest, _, front, front', behind, vals, vals' =>
    rest.Thins n true (front ++ [.term t]) (front' ++ [.term t]) behind vals vals'
  | .token t rest, _, front, front', behind, (tok, vals), (tok', vals') =>
    tok' = tok ∧ samePlace n front front' (.term t) = true ∧
      rest.Thins n true (front ++ [.term t]) (front' ++ [.term t]) behind vals vals'
  | .phrase m rest, _, front, front', behind, (v, vals), (v', vals') =>
    v' = v ∧ samePlace n front front' (.phrase m) = true ∧
      rest.Thins n (m == .pathIdent) (front ++ [.phrase m])
        (front' ++ [.phrase m]) behind vals vals'
  | .maybe _ rest, free, front, front', behind, (none, vals), (none, vals') =>
    rest.Thins n free front front' behind vals vals'
  | .maybe inner rest, free, front, front', behind, (some u, vals), (some u', vals') =>
    inner.Thins n free front front' (rest.mayOpen vals' behind) u u' ∧
      rest.Thins n false (front ++ inner.symbols u) (front' ++ inner.symbols u') behind vals vals'
  | .maybe inner rest, free, front, front', behind, (some u, vals), (none, vals') =>
    (free = true ∨ rest.mayOpen vals' behind = false) ∧
      rest.Thins n free (front ++ inner.symbols u) front' behind vals vals'
  | .maybe _ _, _, _, _, _, (none, _), (some _, _) => False

/-- Leaving nothing out. -/
theorem Thins.refl (n : Nonterminal) : ∀ (p : Parts) (free : Bool) (front : List Symbol)
    (behind : Bool) (vals : p.Val), p.Thins n free front front behind vals vals
  | .done, _, _, _, _ => trivial
  | .mark _ rest, _, _, _, vals => Thins.refl n rest _ _ _ vals
  | .token _ rest, _, _, _, (_, vals) => ⟨rfl, samePlace_self .., Thins.refl n rest _ _ _ vals⟩
  | .phrase _ rest, _, _, _, (_, vals) => ⟨rfl, samePlace_self .., Thins.refl n rest _ _ _ vals⟩
  | .maybe _ rest, _, _, _, (none, vals) => Thins.refl n rest _ _ _ vals
  | .maybe inner rest, _, _, _, (some u, vals) =>
    ⟨Thins.refl n inner _ _ _ u, Thins.refl n rest _ _ _ vals⟩

/-- Whether all phrases among the values of parts are written. -/
def Written (W : Writing) : (p : Parts) → p.Val → Prop
  | .done, _ => True
  | .mark _ rest, vals => rest.Written W vals
  | .token _ rest, (_, vals) => rest.Written W vals
  | .phrase n rest, (v, vals) => W.written n v ∧ rest.Written W vals
  | .maybe _ rest, (none, vals) => rest.Written W vals
  | .maybe inner rest, (some u, vals) => inner.Written W u ∧ rest.Written W vals

/-- **What can be read again part by part can be drafted**, also with some options left out. -/
theorem Holds.exists_draft {n : Nonterminal} {s₀ : Nat} (hs : Begins s₀ n) {p : Parts}
    {front front' : List Symbol} {s stop : Nat} {vals vals' : p.Val} {first next next' : Terminal}
    {free behind : Bool} (hwithin : Within n front (p.symbols vals))
    (hwalk : Table.walk s₀ front = some s) (hholds : p.Holds (Rereads W) s vals first stop next)
    (hthins : p.Thins n free front front' behind vals vals') (hwritten : p.Written W vals')
    (hnext : next' = .pathSep → next = .pathSep ∧ behind = true) :
    ∃ ws, p.Draft W n s₀ front' vals' ws next' ∧ (free = false →
      firstOf ws next' = .pathSep → first = .pathSep ∧ p.mayOpen vals' behind = true) := by
  induction p generalizing front front' s stop first next next' free behind with
  | done =>
    obtain ⟨-, rfl⟩ := hholds
    exact ⟨[], rfl, fun _ => hnext⟩
  | mark t rest ih =>
    obtain ⟨rfl, s', b, hstep, hrest⟩ := hholds
    obtain ⟨vs, hdraft, -⟩ :=
      ih (Within.next hwithin) (walk_concat hwalk hstep) hrest hthins hwritten hnext
    refine ⟨.ofKind first :: vs, ⟨vs, rfl, hdraft⟩, fun _ hsep => ?_⟩
    obtain rfl : first = .pathSep := hsep
    exact ⟨rfl, rfl⟩
  | token t rest ih =>
    obtain ⟨tok, vals⟩ := vals
    obtain ⟨tok', vals'⟩ := vals'
    obtain ⟨rfl, hkind, hstands, s', b, hstep, hrest⟩ := hholds
    obtain ⟨rfl, hplace, hthins⟩ := hthins
    obtain ⟨vs, hdraft, -⟩ :=
      ih (Within.next hwithin) (walk_concat hwalk hstep) hrest hthins hwritten hnext
    obtain ⟨i, after, hmem⟩ := hwithin
    refine ⟨tok'.lexeme :: vs, ⟨vs, rfl, ⟨hkind, hkind ▸ hstands.1, fun hname => ?_⟩, hdraft⟩,
      fun _ hsep => ?_⟩
    · exact ⟨words s, hstands.2, Place.avoids_of_samePlace hs hmem (by rw [hname]; decide) hwalk
        (by rw [hstep]; rfl) hplace⟩
    · obtain rfl : first = .pathSep := hkind.symm.trans hsep
      exact ⟨rfl, rfl⟩
  | phrase m rest ih =>
    obtain ⟨v, vals⟩ := vals
    obtain ⟨v', vals'⟩ := vals'
    obtain ⟨s', b, hstep, hv, hrest⟩ := hholds
    obtain ⟨rfl, hplace, hthins⟩ := hthins
    obtain ⟨vs, hdraft, hopen⟩ :=
      ih (Within.next hwithin) (walk_concat hwalk hstep) hrest hthins hwritten.2 hnext
    obtain ⟨us, hagain⟩ := (hv (Within.not_mem_itemPhrases hs.1 hwithin)).2 hwritten.1
    obtain ⟨i, after, hmem⟩ := hwithin
    refine ⟨us ++ vs, ⟨us, vs, rfl, ⟨words s, first, b, hagain, fun hm => ?_, ?_⟩, hdraft⟩,
      fun _ hsep => ?_⟩
    · exact Place.avoids_of_samePlace hs hmem hm hwalk (by rw [hstep]; rfl) hplace
    · by_cases hident : m = .pathIdent
      · exact .inl hident
      · exact .inr fun hsep => (hopen (by simpa using hident) hsep).1
    · obtain ⟨t, ht, hhead, hfirst⟩ := hagain.head
      rw [firstOf_append, firstOf, hhead, Option.getD_some] at hsep
      exact ⟨hfirst hsep, by rw [mayOpen, List.contains_iff_mem, ← hsep]; exact ht⟩
  | maybe inner rest ihinner ihrest =>
    obtain ⟨u | u, vals⟩ := vals <;> obtain ⟨u' | u', vals'⟩ := vals'
    · exact ihrest hwithin hwalk hholds hthins hwritten hnext
    · exact hthins.elim
    · obtain ⟨s', b, hinner, hrest⟩ := hholds
      obtain ⟨hclosed, hthins⟩ := hthins
      have hwalk' := (walk_append_of_walk hwalk _).trans hinner.walk
      obtain ⟨vs, hdraft, hopen⟩ := ihrest (Within.tail hwithin) hwalk' hrest hthins hwritten hnext
      refine ⟨vs, hdraft, fun hfree hsep => absurd (hopen hfree hsep).2 ?_⟩
      rw [hclosed.resolve_left (by rw [hfree]; decide)]
      decide
    · obtain ⟨s', b, hinner, hrest⟩ := hholds
      obtain ⟨hthins, hthins'⟩ := hthins
      have hwalk' := (walk_append_of_walk hwalk _).trans hinner.walk
      obtain ⟨vs, hdraft', hopen⟩ :=
        ihrest (Within.tail hwithin) hwalk' hrest hthins' hwritten.2 hnext
      obtain ⟨us, hdraft, hopen'⟩ :=
        ihinner (Within.head hwithin) hwalk hinner hthins hwritten.1 (hopen rfl)
      exact ⟨us ++ vs, ⟨us, vs, rfl, hdraft, hdraft'⟩,
        fun hfree hsep => hopen' hfree (firstOf_append us vs _ ▸ hsep)⟩

end Parts

end TraitMock
