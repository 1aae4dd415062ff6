import TraitMock.Proofs.Syntax.Onward
import TraitMock.Proofs.Syntax.Phrase

/-!
# Proofs/Syntax/ItemEnd — where a declaration file ends, a further item can begin

Before the end of a text the machine reduces what it has read to items and these to the file.
Before the first word of a further item it takes the same reductions, and stops at the items
(`Machine.reduces_of_finish`): what ends an item at the end of the text ends it in front of every
terminal with which a text can begin, and in front of no other (`Table.action?_of_endsItem`).
-/

namespace TraitMock

namespace Table

/-! ## The states behind items -/

/-- The phrases that end where an item ends. -/
def endingPhrases : List Nonterminal := [.items, .item, .traitItem, .implItem]

/-- The state behind the items at the front of a file. -/
def behindItems : Nat := 6

/-- The state behind the first item of a file. -/
def behindFirst : Nat := 7

/-- The state behind a further item. -/
def behindNext : Nat := 41

/-- The state behind a whole file. -/
def behindFile : Nat := 5

/-- Whether a state completes such a phrase before the end of the text. -/
def endsItem (s : Nat) : Bool :=
  match action? s .endOfText with
  | some (.reduce i) => (lhs? i).any endingPhrases.contains
  | _ => false

/-- **Whether a state ends items rightly**: where it ends one, then in front of all terminals with
which a text can begin, and of no others; it goes to a state that ends one only over such a phrase;
and it makes a file of items only behind the items. -/
def endsRightly (s : Nat) : Bool :=
  (!endsItem s || (.endOfText :: Terminal.all).all fun t =>
    action? s t == if (action? 0 t).isSome then action? s .endOfText else none) &&
  (((state? s).map State.gotos).getD []).all
    (fun (n, g) => !endsItem g || endingPhrases.contains n) &&
  (action? s .endOfText != some (.reduce 23) || s == behindItems)

theorem endsRightly_of_lt {s : Nat} (h : s < 481) : endsRightly s = true := by
  have hall : allStates endsRightly = true := by decide +kernel
  exact of_allStates hall h

theorem exists_of_endsItem {s : Nat} (h : endsItem s = true) :
    ∃ i n, action? s .endOfText = some (.reduce i) ∧ lhs? i = some n ∧ n ∈ endingPhrases := by
  unfold endsItem at h
  split at h
  next i haction =>
    cases hn : lhs? i with
    | none => simp [hn] at h
    | some n => exact ⟨i, n, haction, hn, by simpa [hn] using h⟩
  next => cases h

theorem endsItem_of_action? {s i : Nat} {n : Nonterminal}
    (h : action? s .endOfText = some (.reduce i)) (hn : lhs? i = some n)
    (hmem : n ∈ endingPhrases) : endsItem s = true := by
  simpa [endsItem, h, hn] using hmem

/-- **What ends an item does so before every terminal with which a text can begin**, and before no
other. -/
theorem action?_of_endsItem {s : Nat} (h : endsItem s = true) (t : Terminal) :
    action? s t = if (action? 0 t).isSome then action? s .endOfText else none := by
  obtain ⟨i, n, haction, -, -⟩ := exists_of_endsItem h
  have hs := endsRightly_of_lt (lt_of_action? haction)
  simp only [endsRightly, Bool.and_eq_true, h, Bool.not_true, Bool.false_or, List.all_eq_true] at hs
  refine eq_of_beq (hs.1.1 t ?_)
  exact List.mem_cons.mpr ((mem_all_or_eq t).symm)

/-- A state that ends an item stands behind a phrase that ends there. -/
theorem mem_endingPhrases_of_step {s g : Nat} {n : Nonterminal} (h : step s (.phrase n) = some g)
    (hg : endsItem g = true) : n ∈ endingPhrases := by
  obtain ⟨st, hlt, hst, hgoto⟩ := mem_gotos_of_step h
  have hs := endsRightly_of_lt hlt
  simp only [endsRightly, Bool.and_eq_true, hst, Option.map_some, Option.getD_some,
    List.all_eq_true] at hs
  simpa [hg] using hs.1.2 (n, g) hgoto

/-- A file is made of items behind the items only. -/
theorem eq_behindItems {s : Nat} (h : action? s .endOfText = some (.reduce 23)) :
    s = behindItems := by
  have hs := endsRightly_of_lt (lt_of_action? h)
  simpa [endsRightly, h] using (Bool.and_eq_true _ _ |>.mp hs).2

end Table

/-! ## The productions of a file -/

namespace Grammar

theorem productions_zero :
    productions[0]? = some ⟨.items, [.phrase .item], fun _ vals => [vals.1]⟩ := by
  rw [productions, List.getElem?_toArray]
  rfl

theorem productions_one : productions[1]? =
    some ⟨.items, [.phrase .items, .phrase .item], fun _ vals => vals.1 ++ [vals.2.1]⟩ := by
  rw [productions, List.getElem?_toArray]
  rfl

set_option maxRecDepth 4000 in
theorem productions_empty : productions[22]? = some ⟨.declFile, [], fun _ _ => []⟩ := by
  rw [productions, List.getElem?_toArray]
  rfl

set_option maxRecDepth 4000 in
theorem productions_file :
    productions[23]? = some ⟨.declFile, [.phrase .items], fun _ vals => vals.1⟩ := by
  rw [productions, List.getElem?_toArray]
  rfl

/-- **The productions for items and files**, by their numbers. -/
def fileProductions : List (Nat × Nonterminal × List Symbol) :=
  [(0, .items, [.phrase .item]), (1, .items, [.phrase .items, .phrase .item]), (22, .declFile, []),
    (23, .declFile, [.phrase .items])]

/-- No other production is for items or for a file, is empty, or has items at its front. -/
theorem mem_fileProductions {i : Nat} {p : Production} (h : productions[i]? = some p)
    (hfile : p.lhs = .items ∨ p.lhs = .declFile ∨ p.rhs = [] ∨
      p.rhs.head? = some (.phrase .items)) :
    (i, p.lhs, p.rhs) ∈ fileProductions := by
  have hall : (rules.flatMap Rule.productions).zipIdx.all (fun (p, i) =>
      !(p.lhs == .items || p.lhs == .declFile || p.rhs == [] ||
          p.rhs.head? == some (.phrase .items)) ||
        fileProductions.contains (i, p.lhs, p.rhs)) = true := by
    decide +kernel
  rw [productions, List.getElem?_toArray] at h
  have hp := List.all_eq_true.mp hall (p, i) (List.mem_zipIdx_iff_getElem?.mpr h)
  simp only [Bool.or_eq_true, Bool.not_eq_true', List.contains_iff_mem] at hp
  refine hp.resolve_left fun hnone => ?_
  simp only [Bool.or_eq_false_iff, beq_eq_false_iff_ne] at hnone
  obtain ⟨⟨⟨hitems, hdecls⟩, hempty⟩, hhead⟩ := hnone
  rcases hfile with h | h | h | h
  exacts [hitems h, hdecls h, hempty h, hhead h]

variable {i : Nat} {p : Production}

theorem eq_of_rhs_nil (h : productions[i]? = some p) (hnil : p.rhs = []) :
    i = 22 ∧ p.lhs = .declFile := by
  have hmem := mem_fileProductions h (.inr (.inr (.inl hnil)))
  rw [hnil] at hmem
  simpa [fileProductions] using hmem

theorem eq_of_lhs_declFile (h : productions[i]? = some p) (hlhs : p.lhs = .declFile) :
    i = 22 ∨ i = 23 := by
  have hmem := mem_fileProductions h (.inr (.inl hlhs))
  rw [hlhs] at hmem
  have hnumber : i = 22 ∧ p.rhs = [] ∨ i = 23 ∧ p.rhs = [.phrase .items] := by
    simpa [fileProductions] using hmem
  exact hnumber.imp And.left And.left

theorem eq_of_head_items (h : productions[i]? = some p)
    (hhead : p.rhs.head? = some (.phrase .items)) : i = 1 ∨ i = 23 := by
  have hmem := mem_fileProductions h (.inr (.inr (.inr hhead)))
  obtain ⟨lhs, rhs, action⟩ := p
  have hnumber : i = 1 ∧ lhs = .items ∧ rhs = [.phrase .items, .phrase .item] ∨
      i = 23 ∧ lhs = .declFile ∧ rhs = [.phrase .items] := by
    cases rhs <;> simp_all [fileProductions]
  exact hnumber.imp And.left And.left

end Grammar

/-! ## Reading the end of a file -/

namespace Machine

open Table

variable {file : Option String} {here here' : Pos} {stack stack' : List Frame}

/-- Where something is reduced, it does not matter what stands behind it. -/
theorem reduce_anywhere {entry : Entry} {i : Nat} {p : Production}
    (hp : Grammar.productions[i]? = some p) (hne : p.rhs ≠ [])
    (h : reduce file entry here i stack = some stack') :
    reduce file entry here' i stack = some stack' := by
  obtain ⟨p', frames, rest, g, vals, hp', rfl, hvals, hg, rfl⟩ := exists_of_reduce h
  obtain rfl := Option.some.inj (hp.symm.trans hp')
  have hextent : extentOf here frames = extentOf here' frames := by
    cases frames with
    | nil => exact absurd (List.eq_nil_of_length_eq_zero (length_of_values? hvals).symm) hne
    | cons => rfl
  rw [hextent]
  exact reduce_eq_some hp hvals hg

/-- **Items stand on a stack alone**, with nothing behind them. -/
def OnlyItems (items : List Item) (stack : List Frame) : Prop :=
  ∃ e, stack = [⟨behindItems, .phrase .items, items, e⟩]

/-- Before whatever a text can begin with, a stack is reduced to items. -/
def ReducesToItems (file : Option String) (items : List Item) (stack : List Frame) : Prop :=
  ∀ (here : Pos) (t : Terminal), (Table.action? 0 t).isSome = true →
    ∃ stack', Reduces file .declFile here t stack stack' ∧ OnlyItems items stack'

/-- Reductions that end items at the end of the text go before other terminals too. -/
theorem reducesToItems_of_reduce {items : List Item} {i : Nat} {p : Production}
    (hp : Grammar.productions[i]? = some p) (hlhs : p.lhs ∈ endingPhrases)
    (haction : Table.action? (top .declFile stack) .endOfText = some (.reduce i))
    (hreduce : reduce file .declFile here i stack = some stack')
    (h : ReducesToItems file items stack') :
    endsItem (top .declFile stack) = true ∧ ReducesToItems file items stack := by
  have hends : endsItem (top .declFile stack) = true :=
    endsItem_of_action? haction (lhs?_eq hp) hlhs
  have hne : p.rhs ≠ [] := fun hnil => by
    rw [(Grammar.eq_of_rhs_nil hp hnil).2] at hlhs
    exact absurd hlhs (by decide)
  refine ⟨hends, fun here' t ht => ?_⟩
  obtain ⟨reduced, hchain, hitems⟩ := h here' t ht
  refine ⟨reduced, .head ⟨i, ?_, ?_, reduce_anywhere hp hne hreduce⟩ hchain, hitems⟩
  · rw [action?_of_endsItem hends, if_pos ht, haction]
  · simpa [hp] using hne

/-- **What a file is made of at the end of the text**: nothing, a file, items, or something that is
reduced to items before a further item too. -/
theorem cases_of_finish {items : List Item} {fuel : Nat}
    (h : finish file .declFile here fuel stack = some items) :
    (stack = [] ∧ items = []) ∨ (∃ s e, stack = [⟨s, .phrase .declFile, items, e⟩]) ∨
      OnlyItems items stack ∨
      endsItem (top .declFile stack) = true ∧ ReducesToItems file items stack := by
  induction fuel generalizing stack with
  | zero => cases h
  | succ fuel ih =>
    rw [finish_succ] at h
    split at h
    next value hresult =>
      obtain rfl := Option.some.inj h
      obtain ⟨frame, rfl, hvalue⟩ := eq_singleton_of_result? hresult
      exact .inr (.inl ⟨frame.state, frame.extent, congrArg (· :: []) (eq_of_value? hvalue)⟩)
    next =>
      split at h
      next i haction =>
        rw [action?_eq] at haction
        obtain ⟨middle, hreduce, h⟩ := Option.bind_eq_some_iff.mp h
        obtain ⟨p, frames, rest, g, vals, hp, hstack, hvals, hg, rfl⟩ := exists_of_reduce hreduce
        rcases ih h with ⟨hnil, -⟩ | ⟨s, e, hfile⟩ | ⟨e, hitems⟩ | ⟨hends, hreduces⟩
        · cases hnil
        · -- The file is made of nothing or of the items.
          injection hfile with hframe hrest
          subst hrest
          have hlhs := Symbol.phrase.inj (congrArg Frame.symbol hframe)
          rcases Grammar.eq_of_lhs_declFile hp hlhs with rfl | rfl
          · obtain rfl := Option.some.inj (Grammar.productions_empty.symm.trans hp)
            cases hframe
            obtain rfl := eq_nil_of_values? hvals
            exact .inl ⟨hstack, rfl⟩
          · obtain rfl := Option.some.inj (Grammar.productions_file.symm.trans hp)
            cases hframe
            obtain ⟨s, e, rest, rfl, hrest⟩ := exists_of_values?_cons hvals
            obtain rfl := eq_nil_of_values? hrest
            rw [hstack] at haction
            obtain rfl : s = behindItems := eq_behindItems haction
            exact .inr (.inr (.inl ⟨e, hstack⟩))
        · injection hitems with hframe hrest
          have hlhs : p.lhs = .items := Symbol.phrase.inj (congrArg Frame.symbol hframe)
          refine .inr (.inr (.inr
            (reducesToItems_of_reduce hp (hlhs ▸ by decide) haction hreduce ?_)))
          exact fun _ _ _ => ⟨_, .refl, e, congrArg₂ List.cons hframe hrest⟩
        · exact .inr (.inr (.inr (reducesToItems_of_reduce hp (mem_endingPhrases_of_step hg hends)
            haction hreduce hreduces)))
      next => cases h

/-- Behind a token that is the last one of a file, an item ends. -/
theorem reducesToItems_of_finish {items : List Item} {fuel : Nat} (htop : OnToken stack)
    (h : finish file .declFile here fuel stack = some items) :
    endsItem (top .declFile stack) = true ∧ ReducesToItems file items stack := by
  rcases cases_of_finish h with ⟨rfl, -⟩ | ⟨s, e, rfl⟩ | ⟨e, rfl⟩ | hends
  · exact htop.elim
  · obtain ⟨t, ht⟩ := htop
    cases ht
  · obtain ⟨t, ht⟩ := htop
    cases ht
  · exact hends

/-- Where nothing has been taken, there are no items. -/
theorem eq_nil_of_finish {items : List Item} {fuel : Nat}
    (h : finish file .declFile here fuel [] = some items) : items = [] := by
  rcases cases_of_finish h with ⟨-, hitems⟩ | ⟨s, e, hnil⟩ | ⟨e, hnil⟩ | ⟨hends, -⟩
  · exact hitems
  · cases hnil
  · cases hnil
  · exact absurd hends (by decide)

/-- **Where an item ends, the same is accepted as at the front of a text.** -/
theorem accepts_of_endsItem (h : endsItem (top .declFile stack) = true) :
    accepts .declFile stack = accepts .declFile [] := by
  obtain ⟨i, n, haction, -, -⟩ := exists_of_endsItem h
  funext t
  rw [accepts, accepts, action?_eq, action?_eq, action?_of_endsItem h, haction]
  change _ = (Table.action? 0 t).isSome
  split
  next ht => exact ht.symm
  next ht => exact (Bool.not_eq_true _ |>.mp ht).symm

end Machine

end TraitMock
