import TraitMock.Proofs.Syntax.Automaton

/-!
# Proofs/Syntax/Follow — what phrases begin with, end with, and stand before

`firsts` lists what a phrase can begin with and `Table.follow` what can stand behind it.  Inside a
right-hand side the two agree: what a symbol begins with may stand behind the phrase in front of it
(`behind_of_firsts`), and what may stand behind a whole phrase may stand behind the last phrase in
it (`behind_of_last`).
-/

namespace TraitMock

namespace Table

/-! ## What a phrase begins with -/

/-- What a path begins with. -/
def pathFirsts : List Terminal := [.name, .selfKw, .crateKw]

/-- What a type without bounds begins with. -/
def bareFirsts : List Terminal :=
  pathFirsts ++ [.less, .amp, .star, .lbracket, .lparen, .bang, .underscore, .fnKw]

/-- What a type begins with. -/
def typeFirsts : List Terminal := bareFirsts ++ [.implKw, .dynKw]

/-- What a pattern begins with. -/
def patternFirsts : List Terminal := [.name, .refKw, .mutKw, .underscore, .lparen]

/-- What a receiver begins with. -/
def receiverFirsts : List Terminal := [.amp, .mutKw, .selfKw]

/-- **What a phrase begins with**; the phrases of whole items are left out. -/
def firsts : Nonterminal → List Terminal
  | .moreParams | .morePatterns | .moreGenericParams | .morePredicates | .moreTypes
  | .moreGenericArgs => [.comma]
  | .moreLifetimes | .moreBounds => [.plus]
  | .moreSegments => [.pathSep]
  | .type | .typeOnly => typeFirsts
  | .typeNoBounds => bareFirsts
  | .refTarget => bareFirsts ++ [.dynKw]
  | .qualifiedType | .generics => [.less]
  | .method => [.fnKw, .pubKw, .crateKw]
  | .params | .param => receiverFirsts ++ patternFirsts
  | .receiver => receiverFirsts
  | .pattern => patternFirsts
  | .visibility => [.pubKw, .crateKw]
  | .visTarget | .path | .segment | .pathIdent => pathFirsts
  | .genericParam => [.name, .lifetime, .constKw]
  | .lifetimeBounds => [.lifetime]
  | .whereClause => [.whereKw]
  | .predicate => .lifetime :: typeFirsts
  | .bounds | .bound => pathFirsts ++ [.question, .lifetime]
  | .arrayLength => [.int, .name]
  | .segmentArgs => [.less, .lparen]
  | .genericArg => typeFirsts ++ [.lifetime, .int]
  | .items | .methods | .declFile | .item | .traitItem | .implItem => []

/-- What a symbol begins with. -/
def firstsOf : Symbol → List Terminal
  | .term t => [t]
  | .phrase n => firsts n

/-- Whether a symbol can begin with a name. -/
def mayBeName (x : Symbol) : Bool := (firstsOf x).contains .name

/-! ## What a phrase ends with -/

/-- The marks among `:`, `::` and `;` that a phrase can end with. -/
def lastMarks : Nonterminal → List Terminal
  | .genericParam | .moreGenericParams | .predicate | .morePredicates | .whereClause => [.colon]
  | .method => [.semicolon]
  | _ => []

/-- The marks among `:`, `::` and `;` that a symbol can end with. -/
def lastMarksOf : Symbol → List Terminal
  | .term t => if t = .colon ∨ t = .pathSep ∨ t = .semicolon then [t] else []
  | .phrase n => lastMarks n

/-! ## One check of the whole grammar -/

/-- Whether what stands next to each other in a right-hand side fits together: the first symbol with
the phrase, the last symbol with the phrase, and each symbol with the phrase in front of it, behind
which no name stands. -/
def coherent (n : Nonterminal) (rhs : List Symbol) : Bool :=
  rhs.head?.all (fun x => (firstsOf x).all (firsts n).contains) &&
    rhs.getLast?.all (fun x => (lastMarksOf x).all (lastMarks n).contains) &&
    (List.range rhs.length).all fun k =>
      match rhs.drop k with
      | .phrase m :: x :: _ => (firstsOf x).all (follow m).contains && !mayBeName x
      | [.phrase m] => (follow n).all (follow m).contains
      | _ => true

theorem coherent_of_mem {n : Nonterminal} (hn : n ∉ itemPhrases) {i : Nat} {rhs : List Symbol}
    (h : (i, rhs) ∈ numbered n) : coherent n rhs = true := by
  have hall : (Grammar.rules.flatMap Rule.productions).all (fun p =>
      itemPhrases.contains p.lhs || coherent p.lhs p.rhs) = true := by
    decide +kernel
  obtain ⟨p, hp, rfl, rfl⟩ := mem_of_mem_numbered h
  simpa [hn] using List.all_eq_true.mp hall p hp

/-- No rule but that of a whole file can be read from nothing. -/
theorem rhs_ne_nil {n : Nonterminal} (hn : n ∉ itemPhrases) {i : Nat} {rhs : List Symbol}
    (h : (i, rhs) ∈ numbered n) : rhs ≠ [] := by
  have hall : (Grammar.rules.flatMap Rule.productions).all (fun p =>
      itemPhrases.contains p.lhs || p.rhs != []) = true := by
    decide +kernel
  obtain ⟨p, hp, rfl, rfl⟩ := mem_of_mem_numbered h
  simpa [hn] using List.all_eq_true.mp hall p hp

variable {n m : Nonterminal} {i : Nat} {front rest : List Symbol} {x : Symbol} {t : Terminal}

/-- A phrase begins with what its first symbol begins with. -/
theorem firsts_of_head (hn : n ∉ itemPhrases) (h : (i, x :: rest) ∈ numbered n)
    (ht : t ∈ firstsOf x) : t ∈ firsts n := by
  have hcoherent := coherent_of_mem hn h
  simp only [coherent, Bool.and_eq_true] at hcoherent
  have hhead := hcoherent.1.1
  simp only [List.head?_cons, Option.all_some, List.all_eq_true, List.contains_iff_mem] at hhead
  exact hhead t ht

/-- A phrase ends with what its last symbol ends with. -/
theorem lastMarks_of_getLast (hn : n ∉ itemPhrases) (h : (i, front ++ [x]) ∈ numbered n)
    (ht : t ∈ lastMarksOf x) : t ∈ lastMarks n := by
  have hcoherent := coherent_of_mem hn h
  simp only [coherent, Bool.and_eq_true] at hcoherent
  have hlast := hcoherent.1.2
  simp only [List.getLast?_concat, Option.all_some, List.all_eq_true,
    List.contains_iff_mem] at hlast
  exact hlast t ht

/-- What a symbol begins with follows on the phrase in front of it, and is no name. -/
theorem follow_of_firsts (hn : n ∉ itemPhrases)
    (h : (i, front ++ .phrase m :: x :: rest) ∈ numbered n) (ht : t ∈ firstsOf x) :
    t ∈ follow m ∧ t ≠ .name := by
  have hcoherent := coherent_of_mem hn h
  simp only [coherent, Bool.and_eq_true, List.all_eq_true, List.mem_range] at hcoherent
  have hplace := hcoherent.2 front.length (by simp)
  simp only [List.drop_left, Bool.and_eq_true, List.all_eq_true, List.contains_iff_mem,
    Bool.not_eq_true', mayBeName] at hplace
  have hname : .name ∉ firstsOf x := by simpa using hplace.2
  exact ⟨hplace.1 t ht, fun heq => hname (heq ▸ ht)⟩

/-- What follows on a phrase follows on the last phrase in it. -/
theorem follow_of_last (hn : n ∉ itemPhrases) (h : (i, front ++ [.phrase m]) ∈ numbered n)
    (ht : t ∈ follow n) : t ∈ follow m := by
  have hcoherent := coherent_of_mem hn h
  simp only [coherent, Bool.and_eq_true, List.all_eq_true, List.mem_range] at hcoherent
  have hplace := hcoherent.2 front.length (by simp)
  simp only [List.drop_left, List.all_eq_true, List.contains_iff_mem] at hplace
  exact hplace t ht

/-! ## Behind the members of an argument list -/

/-- Whether little enough stands behind each phrase that begins where a generic argument can. -/
def narrowAt (s : Nat) : Bool :=
  match state? s with
  | none => true
  | some st => st.gotos.all fun (n, _) => itemPhrases.contains n ||
    (numbered n).all fun (_, rhs) => (List.range rhs.length).all fun k =>
      match rhs.drop k with
      | .phrase _ :: x :: _ =>
        (walk s (rhs.take k)).all fun s' => !argStart s' || (firstsOf x).all behindArgName.contains
      | [.phrase _] => k == 0 ||
        (walk s (rhs.take k)).all fun s' => !argStart s' || (follow n).all behindArgName.contains
      | _ => true

/-- What stands behind a phrase that begins where a generic argument can. -/
theorem narrow_of_mem {s s' : Nat} (hs : Begins s n)
    (h : (i, front ++ .phrase m :: rest) ∈ numbered n) (hwalk : walk s front = some s')
    (harg : argStart s' = true) : match rest with
    | x :: _ => ∀ t ∈ firstsOf x, t ∈ behindArgName
    | [] => front = [] ∨ ∀ t ∈ follow n, t ∈ behindArgName := by
  have hall : allStates narrowAt = true := by decide +kernel
  obtain ⟨g, hg⟩ := Option.isSome_iff_exists.mp hs.2
  obtain ⟨st, hlt, hst, hgoto⟩ := mem_gotos_of_step hg
  have hnarrow := of_allStates hall hlt
  simp only [narrowAt, hst, List.all_eq_true] at hnarrow
  have hn := hnarrow (n, g) hgoto
  simp only [Bool.or_eq_true, List.contains_iff_mem, hs.1, false_or, List.all_eq_true] at hn
  have hplace := hn _ h front.length (List.mem_range.mpr (by simp))
  cases rest with
  | nil =>
    simpa only [List.drop_left, List.take_left, hwalk, Option.all_some, harg, Bool.not_true,
      Bool.false_or, Bool.or_eq_true, beq_iff_eq, List.length_eq_zero_iff, List.all_eq_true,
      List.contains_iff_mem] using hplace
  | cons x rest =>
    simpa only [List.drop_left, List.take_left, hwalk, Option.all_some, harg, Bool.not_true,
      Bool.false_or, List.all_eq_true, List.contains_iff_mem] using hplace

/-- **Inside a phrase, what a symbol begins with may stand behind the phrase in front of it.** -/
theorem behind_of_firsts {s s' : Nat} (hs : Begins s n)
    (h : (i, front ++ .phrase m :: x :: rest) ∈ numbered n) (hwalk : walk s front = some s')
    (ht : t ∈ firstsOf x) : Behind s' m t :=
  ⟨(follow_of_firsts hs.1 h ht).1, fun harg => narrow_of_mem hs h hwalk harg t ht⟩

/-- **What may stand behind a phrase may stand behind the last phrase in it.** -/
theorem behind_of_last {s s' : Nat} (hs : Begins s n)
    (h : (i, front ++ [.phrase m]) ∈ numbered n) (hwalk : walk s front = some s')
    (ht : Behind s n t) : Behind s' m t := by
  refine ⟨follow_of_last hs.1 h ht.1, fun harg => ?_⟩
  rcases narrow_of_mem hs h hwalk harg with rfl | hfollow
  · -- The phrase begins where the last phrase in it does.
    cases hwalk
    exact ht.2 harg
  · exact hfollow t ht.1

/-! ## What the table reduces before -/

/-- **A phrase is only reduced before what may follow it.** -/
theorem mem_follow_of_reduce {s : Nat} {p : Production} (hp : Grammar.productions[i]? = some p)
    (hitem : p.lhs ∉ itemPhrases) (h : action? s t = some (.reduce i)) : t ∈ follow p.lhs := by
  have hall : allStates (fun s => (state? s).all fun st => st.reductions.all fun r =>
      (lhs? r.1).all fun n => itemPhrases.contains n || r.2.all (follow n).contains) = true := by
    decide +kernel
  obtain ⟨st, hst, haction⟩ := Option.bind_eq_some_iff.mp h
  rw [State.action?] at haction
  split at haction
  · simp at haction
  · obtain ⟨⟨j, ts⟩, hfind, heq⟩ := Option.map_eq_some_iff.mp haction
    obtain rfl : j = i := by simpa using heq
    have hr := of_allStates hall (lt_of_state? hst)
    simp only [hst, Option.all_some, List.all_eq_true] at hr
    have hfollow := hr _ (List.mem_of_find?_eq_some hfind)
    simp only [lhs?_eq hp, Option.all_some, Bool.or_eq_true, List.contains_iff_mem, hitem,
      false_or, List.all_eq_true] at hfollow
    exact hfollow t (by simpa using List.find?_some hfind)

end Table

end TraitMock
