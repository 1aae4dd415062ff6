import TraitMock.Proofs.Syntax.Follow

/-!
# Proofs/Syntax/Words — which words are keywords where

A word is a keyword only where the context accepts it, so the same word is a name in one place and a
keyword in another.  `Table.words` lists the keywords of a state.  At every place of the grammar
where a name may stand they are known without the table (`words_eq`): `contexts` says, for each
phrase and each way into it, which words are taken.
-/

namespace TraitMock

namespace Terminal

/-- The keywords, the underscore among them. -/
def keywords : List Terminal :=
  [.constKw, .crateKw, .traitKw, .whereKw, .implKw, .selfKw, .dynKw, .forKw, .mutKw, .pubKw,
    .refKw, .asKw, .fnKw, .inKw, .underscore]

theorem isWord_iff_mem {t : Terminal} : t.isWord = true ↔ t ∈ keywords := by
  cases t <;> decide

end Terminal

namespace Table

open Terminal

/-- **The keywords of a state** in which a name may stand. -/
def words (s : Nat) : List Terminal :=
  if (action? s .name).isSome then keywords.filter fun t => (action? s t).isSome else []

theorem mem_words {s : Nat} {t : Terminal} : t ∈ words s ↔
    (action? s .name).isSome = true ∧ t.isWord = true ∧ (action? s t).isSome = true := by
  rw [words]
  split
  · next h => rw [List.mem_filter, isWord_iff_mem, h, eq_self, true_and]
  · next h => simp [h]

/-! ## The keywords of each place -/

/-- The keywords where a type begins. -/
def typeWords : List Terminal := [.crateKw, .implKw, .selfKw, .dynKw, .fnKw, .underscore]

/-- The keywords where a type without bounds begins. -/
def bareWords : List Terminal := [.crateKw, .selfKw, .fnKw, .underscore]

/-- The keywords where the target of a reference begins; `mut` is one until it has been read. -/
def targetWords : (isMut : Bool) → List Terminal
  | false => [.crateKw, .selfKw, .dynKw, .mutKw, .fnKw, .underscore]
  | true => [.crateKw, .selfKw, .dynKw, .fnKw, .underscore]

/-- The keywords where a path begins, and behind `::`. -/
def pathWords : List Terminal := [.crateKw, .selfKw]

/-- The keywords where a pattern begins; `self` is one only where a receiver may stand. -/
def patternWords : (isParam : Bool) → List Terminal
  | false => [.mutKw, .refKw, .underscore]
  | true => [.selfKw, .mutKw, .refKw, .underscore]

/-- The symbols of a list of types in parentheses: no type, one or more, each with or without a
comma behind the last one. -/
def typeLists : List (List Symbol) :=
  [[], [.phrase .type], [.phrase .type, .term .comma], [.phrase .type, .phrase .moreTypes],
    [.phrase .type, .phrase .moreTypes, .term .comma]]

/-- The symbols of a call signature up to its result. -/
def callPrefixes : List (List Symbol) :=
  typeLists.map fun types => .term .lparen :: types ++ [.term .rparen, .term .arrow]

/-- **The places where a name may stand**: the phrase that has begun, what has been read of it, and
the words that are keywords there. -/
def contexts : List (Nonterminal × List Symbol × List Terminal) :=
  [(.type, [], typeWords),
    (.genericArg, [], typeWords),
    (.typeNoBounds, [.term .star, .term .constKw], bareWords),
    (.typeNoBounds, [.term .star, .term .mutKw], bareWords),
    (.typeNoBounds, [.term .amp], targetWords false),
    (.typeNoBounds, [.term .amp, .term .lifetime], targetWords false),
    (.typeNoBounds, [.term .amp, .term .mutKw], targetWords true),
    (.typeNoBounds, [.term .amp, .term .lifetime, .term .mutKw], targetWords true),
    (.refTarget, [.term .dynKw], pathWords),
    (.bound, [], pathWords),
    (.bound, [.term .question], pathWords),
    (.moreSegments, [.term .pathSep], pathWords),
    (.moreSegments, [.phrase .moreSegments, .term .pathSep], pathWords),
    (.qualifiedType, [.term .less, .phrase .type, .term .asKw], pathWords),
    (.qualifiedType,
      [.term .less, .phrase .type, .term .asKw, .phrase .path, .term .greater, .term .pathSep],
      pathWords),
    (.visibility, [.term .pubKw, .term .lparen], [.crateKw, .selfKw, .inKw]),
    (.visibility, [.term .pubKw, .term .lparen, .term .inKw], pathWords),
    (.predicate, [], typeWords),
    (.bounds, [], pathWords),
    (.method, [.term .fnKw], []),
    (.method, [.phrase .visibility, .term .fnKw], []),
    (.genericParam, [], [.constKw]),
    (.genericParam, [.term .constKw], []),
    (.arrayLength, [], []),
    (.params, [], patternWords true),
    (.param, [], patternWords true),
    (.param, [.term .mutKw], [.selfKw]),
    (.pattern, [.term .refKw], [.mutKw]),
    (.pattern, [.term .refKw, .term .mutKw], []),
    (.pattern, [.term .lparen], patternWords false),
    (.pattern, [.term .name, .term .atMark], patternWords false),
    (.pattern, [.term .mutKw, .term .name, .term .atMark], patternWords false),
    (.pattern, [.term .refKw, .term .name, .term .atMark], patternWords false),
    (.pattern, [.term .refKw, .term .mutKw, .term .name, .term .atMark], patternWords false),
    (.morePatterns, [.term .comma], patternWords false),
    (.morePatterns, [.phrase .morePatterns, .term .comma], patternWords false),
    (.implItem, [.term .implKw], pathWords),
    (.implItem, [.term .implKw, .phrase .generics], pathWords)] ++
  callPrefixes.map (fun front => (.segmentArgs, front, bareWords)) ++
  callPrefixes.map fun front => (.typeNoBounds, .term .fnKw :: front, bareWords)

/-- Whether the words of the places that begin in a state are the listed ones. -/
def wordsAt (s : Nat) : Bool :=
  match state? s with
  | none => true
  | some st => st.gotos.all fun (n, _) => contexts.all fun (m, front, listed) =>
    n != m || (walk s front).all fun s' => words s' == listed

theorem wordsAt_of_lt {s : Nat} (h : s < 481) : wordsAt s = true := by
  have hall : allStates wordsAt = true := by decide +kernel
  exact of_allStates hall h

/-- **The keywords of a place** are those of the grammar. -/
theorem words_eq {s g s' : Nat} {n : Nonterminal} {front : List Symbol} {listed : List Terminal}
    (hcontext : (n, front, listed) ∈ contexts) (hs : step s (.phrase n) = some g)
    (hwalk : walk s front = some s') : words s' = listed := by
  obtain ⟨st, hlt, hst, hgoto⟩ := mem_gotos_of_step hs
  have hwords := wordsAt_of_lt hlt
  simp only [wordsAt, hst, List.all_eq_true] at hwords
  have hplace := hwords (n, g) hgoto _ hcontext
  simpa [hwalk] using hplace

/-- Behind `mut` in a pattern `self` is a keyword only where a receiver may stand. -/
theorem words_behind_mut {s g s' : Nat} (hs : step s (.phrase .pattern) = some g)
    (hmut : step s (.term .mutKw) = some s') :
    words s' = if .selfKw ∈ words s then [.selfKw] else [] := by
  have hall : allStates (fun s =>
      (step s (.phrase .pattern)).isNone || (step s (.term .mutKw)).all fun s' =>
        words s' == if .selfKw ∈ words s then [.selfKw] else []) = true := by
    decide +kernel
  have hwords := of_allStates_of_step hall hs
  simpa [hmut] using hwords

/-! ### Keywords in two places of one kind -/

/-- Whether the keywords of each place inside a right-hand side are listed: where the symbol at the
place can begin with a name, either what stands before it is one of the `contexts` or the symbol is.
Behind the `mut` of a pattern they depend on the pattern. -/
def listsWords (n : Nonterminal) (rhs : List Symbol) : Bool :=
  (List.range rhs.length).all fun k => (rhs.drop k).head?.all fun x =>
    !mayBeName x ||
      if k = 0 then mayBeName (.phrase n)
      else contexts.any (fun (m, front, _) =>
          (m == n && front == rhs.take k) || (front == [] && x == .phrase m)) ||
        (n == .pattern && rhs.take k == [.term .mutKw])

theorem listsWords_of_mem {n : Nonterminal} (hn : n ∉ itemPhrases) {i : Nat} {rhs : List Symbol}
    (h : (i, rhs) ∈ numbered n) : listsWords n rhs = true := by
  have hall : (Grammar.rules.flatMap Rule.productions).all (fun p =>
      itemPhrases.contains p.lhs || listsWords p.lhs p.rhs) = true := by
    decide +kernel
  obtain ⟨p, hp, rfl, rfl⟩ := mem_of_mem_numbered h
  simpa [hn] using List.all_eq_true.mp hall p hp

/-- **Keywords in two places of one kind**: if one place where a phrase begins has no keyword that
the other has not, then the same holds inside the phrase, wherever a name may stand. -/
theorem words_inside_subset {s s' g g' e e' : Nat} {n : Nonterminal} {i : Nat}
    {front rest : List Symbol} {x : Symbol} (hn : n ∉ itemPhrases)
    (hmem : (i, front ++ x :: rest) ∈ numbered n) (hx : mayBeName x = true)
    (hs : step s (.phrase n) = some g) (hs' : step s' (.phrase n) = some g')
    (hwords : mayBeName (.phrase n) = true → words s' ⊆ words s) (hwalk : walk s front = some e)
    (hwalk' : walk s' front = some e') (he : (step e x).isSome = true)
    (he' : (step e' x).isSome = true) : words e' ⊆ words e := by
  have hlists := listsWords_of_mem hn hmem
  simp only [listsWords, List.all_eq_true, List.mem_range] at hlists
  have hplace := hlists front.length (by simp)
  simp only [List.drop_left, List.head?_cons, Option.all_some, hx, Bool.not_true, Bool.false_or,
    List.length_eq_zero_iff, List.take_left] at hplace
  split at hplace
  · next hfront =>
    rw [hfront] at hwalk hwalk'
    cases hwalk
    cases hwalk'
    exact hwords hplace
  · simp only [Bool.or_eq_true, List.any_eq_true, Bool.and_eq_true, beq_iff_eq,
      Prod.exists] at hplace
    rcases hplace with ⟨m, before, listed, hcontext, ⟨rfl, rfl⟩ | ⟨rfl, rfl⟩⟩ | ⟨rfl, rfl⟩
    · rw [words_eq hcontext hs hwalk, words_eq hcontext hs' hwalk']
      exact List.Subset.refl _
    · obtain ⟨k, hk⟩ := Option.isSome_iff_exists.mp he
      obtain ⟨k', hk'⟩ := Option.isSome_iff_exists.mp he'
      rw [words_eq hcontext hk rfl, words_eq hcontext hk' rfl]
      exact List.Subset.refl _
    · have hstep : step s (.term .mutKw) = some e := by
        cases h : step s (.term .mutKw) <;> simp_all [walk_cons]
      have hstep' : step s' (.term .mutKw) = some e' := by
        cases h : step s' (.term .mutKw) <;> simp_all [walk_cons]
      rw [words_behind_mut hs hstep, words_behind_mut hs' hstep']
      by_cases hself : .selfKw ∈ words s'
      · simp [hself, hwords (by decide) hself]
      · simp [hself]

/-! ## Names behind a phrase

The next token is read while the last phrase is not yet complete, so it is read with the keywords of
the state before the reductions.  For a name they include those of the state behind them. -/

/-- Whether a reduction before a name keeps the keywords, wherever the phrase began. -/
def keepsWordsAt (s : Nat) : Bool :=
  match action? s .name with
  | some (.reduce i) => (List.range 481).all fun s₀ =>
    ((lhs? i).bind fun n => step s₀ (.phrase n)).all fun g => (words g).all (words s).contains
  | _ => true

/-- **A reduction before a name loses no keyword.** -/
theorem words_subset {s s₀ g i : Nat} {p : Production} (hs : s < 481)
    (haction : action? s .name = some (.reduce i)) (hp : Grammar.productions[i]? = some p)
    (hgoto : step s₀ (.phrase p.lhs) = some g) : words g ⊆ words s := by
  have hall : allStates keepsWordsAt = true := by decide +kernel
  have hkeeps := of_allStates hall hs
  simp only [keepsWordsAt, haction, List.all_eq_true] at hkeeps
  have hg := hkeeps s₀ (List.mem_range.mpr (lt_of_step hgoto))
  simp only [lhs?_eq hp, Option.bind_some, hgoto, Option.all_some, List.all_eq_true,
    List.contains_iff_mem] at hg
  exact fun t ht => hg t ht

/-! ## Two marks that stand alone -/

theorem mem_all_or_eq (t : Terminal) : t ∈ Terminal.all ∨ t = .endOfText := by
  cases t <;> decide

/-- **Where the arguments of a macro are accepted, nothing else is.** -/
theorem eq_macroArgs {s : Nat} {a : Terminal} (hargs : (action? s .macroArgs).isSome = true)
    (ha : (action? s a).isSome = true) : a = .macroArgs := by
  have hall : allStates (fun s => (action? s .macroArgs).isNone ||
      (Terminal.all ++ [Terminal.endOfText]).all fun a => (action? s a).isNone || a == .macroArgs) =
        true := by
    decide +kernel
  obtain ⟨action, haction⟩ := Option.isSome_iff_exists.mp ha
  have halone := of_allStates hall (lt_of_action? haction)
  simp only [Option.isNone_eq_false_iff.mpr hargs, Bool.false_or, List.all_eq_true] at halone
  have hmem : a ∈ Terminal.all ++ [Terminal.endOfText] := by simpa using mem_all_or_eq a
  simpa [Option.isNone_eq_false_iff.mpr ha] using halone a hmem

/-- Whether no path that begins in a state is ended before a further `::`. -/
def lengthensAt (s : Nat) : Bool :=
  [Nonterminal.path, .qualifiedType].all fun n => (step s (.phrase n)).isNone ||
    (numbered n).all fun (_, rhs) => (walk s rhs).all fun e =>
      match action? e .pathSep with
      | some (.reduce _) => false
      | _ => true

/-- **A path goes on with every `::` behind it.** -/
theorem not_reduce_pathSep {s g e i j : Nat} {p : Production}
    (hlhs : p.lhs = .path ∨ p.lhs = .qualifiedType) (hp : Grammar.productions[i]? = some p)
    (hs : step s (.phrase p.lhs) = some g) (hwalk : walk s p.rhs = some e) :
    action? e .pathSep ≠ some (.reduce j) := by
  have hall : allStates lengthensAt = true := by decide +kernel
  have hpath := of_allStates hall (lt_of_step hs)
  simp only [lengthensAt, List.all_eq_true] at hpath
  have hn := hpath p.lhs (by rcases hlhs with h | h <;> simp [h])
  simp only [hs, Option.isNone_some, Bool.false_or, List.all_eq_true] at hn
  have hend := hn _ (mem_numbered hp)
  intro haction
  simp [hwalk, haction] at hend

end Table

end TraitMock
