import TraitMock.Proofs.Syntax.ItemEnd
import TraitMock.Proofs.Syntax.Likeness

/-!
# Proofs/Syntax/Beneath — a stack over earlier items

A text of items is read in the same way behind earlier items.  `Machine.Under` says that one stack
is another one over earlier items: these stand below the parts of the first item, and behind it all
items are listed behind them.  Before every terminal the two stacks act alike, and what they become
is one over the other again (`Machine.Under.acts`).
-/

namespace TraitMock

/-- The phrases of files and their items. -/
def filePhrases : List Nonterminal := [.items, .item, .declFile]

namespace Table

/-! ## The state behind items, and the start -/

/-- Behind items the parts of an item lead where they lead at the start. -/
theorem step_behindItems {n : Nonterminal} (hn : n ∉ filePhrases) :
    step behindItems (.phrase n) = step 0 (.phrase n) := by
  cases n <;> first | rfl | exact absurd (by decide) hn

theorem isSome_step_start {n : Nonterminal} (h : (step behindItems (.phrase n)).isSome = true) :
    (step 0 (.phrase n)).isSome = true := by
  cases n <;> first | exact h | rfl

theorem step_start_items : step 0 (.phrase .items) = some behindItems := rfl

theorem step_start_item : step 0 (.phrase .item) = some behindFirst := rfl

theorem step_behindItems_item : step behindItems (.phrase .item) = some behindNext := rfl

theorem step_start_declFile : step 0 (.phrase .declFile) = some behindFile := rfl

/-- Behind a file nothing is done. -/
theorem action?_behindFile (t : Terminal) : action? behindFile t = none := by
  cases t <;> rfl

/-- Behind items the same is taken as at the start. -/
theorem step_behindItems_term (t : Terminal) : step behindItems (.term t) = step 0 (.term t) := by
  cases t <;> rfl

/-- At the start a word is taken or nothing is done. -/
theorem action?_start {t : Terminal} (ht : t ≠ .endOfText) :
    action? 0 t = (step 0 (.term t)).map .shift := by
  cases t <;> first | rfl | exact absurd rfl ht

/-- Whether a state never leads back to the start, and makes nothing a file but there. -/
def leavesStart (s : Nat) : Bool :=
  ((state? s).map fun st => st.shifts.all (·.2 != 0) && st.gotos.all (·.2 != 0) &&
    (s == 0 || st.reductions.all (·.1 != 22))).getD true

theorem leavesStart_of_lt {s : Nat} (h : s < 481) : leavesStart s = true := by
  have hall : allStates leavesStart = true := by decide +kernel
  exact of_allStates hall h

/-- No step leads to the start. -/
theorem ne_zero_of_step {s g : Nat} {x : Symbol} (h : step s x = some g) : g ≠ 0 := by
  have hs := leavesStart_of_lt (lt_of_step h)
  cases x with
  | term t =>
    obtain ⟨st, hst, hlookup⟩ := Option.bind_eq_some_iff.mp h
    obtain ⟨before, after, hsplit, -⟩ := List.lookup_eq_some_iff.mp hlookup
    simp only [leavesStart, hst, Option.map_some, Option.getD_some, Bool.and_eq_true,
      List.all_eq_true] at hs
    simpa using hs.1.1 (t, g) (by simp [hsplit])
  | phrase n =>
    obtain ⟨st, -, hst, hgoto⟩ := mem_gotos_of_step h
    simp only [leavesStart, hst, Option.map_some, Option.getD_some, Bool.and_eq_true,
      List.all_eq_true] at hs
    simpa using hs.1.2 (n, g) hgoto

/-- Nothing is made a file at the start only. -/
theorem eq_zero_of_reduce {s : Nat} {t : Terminal} (h : action? s t = some (.reduce 22)) :
    s = 0 := by
  have hs := leavesStart_of_lt (lt_of_action? h)
  obtain ⟨st, hst, haction⟩ := Option.bind_eq_some_iff.mp h
  simp only [leavesStart, hst, Option.map_some, Option.getD_some, Bool.and_eq_true, Bool.or_eq_true,
    beq_iff_eq, List.all_eq_true] at hs
  refine hs.2.resolve_right fun hnone => ?_
  unfold State.action? at haction
  split at haction
  · cases haction
  · obtain ⟨r, hr, heq⟩ := Option.map_eq_some_iff.mp haction
    have hne := hnone r (List.mem_of_find?_eq_some hr)
    rw [Action.reduce.inj heq] at hne
    cases hne

end Table

namespace Machine

open Table Grammar

variable {file : Option String} {here : Pos} {stack stack' : List Frame}
  {earlier : List Item} {i : Nat}

/-! ## Stacks over earlier items -/

/-- **A stack, and the same one over earlier items.** -/
inductive Under (earlier : List Item) : List Frame → List Frame → Prop
  /-- In the first item, the earlier items stand below its parts. -/
  | within (up : List Frame) {bottom : Frame} {e : Extent} :
    (∀ n ∈ filePhrases, bottom.symbol ≠ .phrase n) →
    Under earlier (up ++ [bottom]) (up ++ [bottom, ⟨behindItems, .phrase .items, earlier, e⟩])
  /-- The first item is a further one over the earlier items. -/
  | first {item : Item} {e e' : Extent} :
    Under earlier [⟨behindFirst, .phrase .item, item, e⟩]
      [⟨behindNext, .phrase .item, item, e⟩, ⟨behindItems, .phrase .items, earlier, e'⟩]
  /-- Behind it, the items stand behind the earlier ones. -/
  | later (up : List Frame) {items : List Item} {e e' : Extent} :
    Under earlier (up ++ [⟨behindItems, .phrase .items, items, e⟩])
      (up ++ [⟨behindItems, .phrase .items, earlier ++ items, e'⟩])
  /-- So do they in the end. -/
  | file {items : List Item} {e e' : Extent} :
    Under earlier [⟨behindFile, .phrase .declFile, items, e⟩]
      [⟨behindFile, .phrase .declFile, earlier ++ items, e'⟩]

/-- **A whole stack is reduced** to a frame at the start. -/
theorem reduce_whole {p : Production} {frames : List Frame} {vals : Symbol.Vals p.rhs} {g : Nat}
    (hp : productions[i]? = some p) (hvals : values? p.rhs frames = some vals)
    (hg : step 0 (.phrase p.lhs) = some g) :
    reduce file .declFile here i frames.reverse =
      some [⟨g, .phrase p.lhs, p.action ⟨file, extentOf here frames⟩ vals,
        extentOf here frames⟩] := by
  have hreduce := @reduce_eq_some file .declFile here i g p frames [] vals hp hvals hg
  rwa [List.append_nil] at hreduce

theorem rhs_of_values? : ∀ {rhs : List Symbol} {frames : List Frame} {vals : Symbol.Vals rhs},
    values? rhs frames = some vals → rhs = frames.map Frame.symbol
  | [], _, _, h => by rw [eq_nil_of_values? h]; rfl
  | _ :: _, _, _, h => by
    obtain ⟨s, e, rest, rfl, hrest⟩ := exists_of_values?_cons h
    rw [List.map_cons, ← rhs_of_values? hrest]

/-- A production over a part of an item is none for items or a file. -/
theorem not_mem_of_bottom {p : Production} {bottom : Frame} {up : List Frame}
    (hbottom : ∀ n ∈ filePhrases, bottom.symbol ≠ .phrase n) (hp : productions[i]? = some p)
    (hrhs : p.rhs = bottom.symbol :: up.map Frame.symbol) (hlhs : p.lhs ≠ .item) :
    p.lhs ∉ filePhrases := by
  intro hmem
  have hfile : p.lhs = .items ∨ p.lhs = .declFile := by
    simpa [filePhrases, hlhs] using hmem
  have hmem := mem_fileProductions hp (hfile.imp_right .inl)
  rw [hrhs] at hmem
  simp only [fileProductions, List.mem_cons, Prod.mk.injEq, List.cons.injEq, reduceCtorEq,
    and_false, List.not_mem_nil, or_false, false_or] at hmem
  rcases hmem with ⟨-, -, h, -⟩ | ⟨-, -, h, -⟩ | ⟨-, -, h, -⟩
  · exact hbottom .item (by decide) h
  · exact hbottom .items (by decide) h
  · exact hbottom .items (by decide) h

/-- **A reduction within the first item** is the same one over earlier items. -/
theorem exists_under_of_reduce {up next : List Frame} {bottom : Frame} {e : Extent}
    (hbottom : ∀ n ∈ filePhrases, bottom.symbol ≠ .phrase n)
    (h : reduce file .declFile here i (up ++ [bottom]) = some next) :
    ∃ next', reduce file .declFile here i
      (up ++ [bottom, ⟨behindItems, .phrase .items, earlier, e⟩]) = some next' ∧
        Under earlier next next' := by
  obtain ⟨p, frames, rest, g, vals, hp, hstack, hvals, hg, rfl⟩ := exists_of_reduce h
  rcases List.eq_nil_or_concat rest with rfl | ⟨rest, last, rfl⟩
  · -- All of the item is reduced.
    obtain rfl : frames = bottom :: up.reverse := by
      simpa using (congrArg List.reverse hstack).symm
    have hwhole : up ++ [bottom, ⟨behindItems, .phrase .items, earlier, e⟩] =
        (bottom :: up.reverse).reverse ++ [⟨behindItems, .phrase .items, earlier, e⟩] := by simp
    rw [hwhole]
    obtain ⟨lhs, rhs, action⟩ := p
    by_cases hitem : lhs = .item
    · subst hitem
      obtain rfl := Option.some.inj (step_start_item.symm.trans hg)
      exact ⟨_, reduce_eq_some hp hvals step_behindItems_item, .first⟩
    · have hlhs := not_mem_of_bottom hbottom hp (rhs_of_values? hvals) hitem
      refine ⟨_, reduce_eq_some hp hvals ((step_behindItems hlhs).trans hg), .within [] ?_⟩
      rintro n hn ⟨⟩
      exact hlhs hn
  · rw [List.concat_eq_append, ← List.append_assoc] at hstack
    obtain ⟨rfl, hlast⟩ := List.append_inj' hstack rfl
    obtain rfl := List.singleton_inj.mp hlast
    rw [List.concat_eq_append, List.append_assoc]
    refine ⟨_, reduce_eq_some hp hvals (g := g) ?_, .within (_ :: rest) hbottom⟩
    cases rest <;> exact hg

/-- What is not reduced within the first item is not over earlier items either. -/
theorem reduce_eq_none_of_within {up : List Frame} {bottom : Frame} {e : Extent}
    (hbottom : ∀ n ∈ filePhrases, bottom.symbol ≠ .phrase n)
    (h : reduce file .declFile here i (up ++ [bottom]) = none) :
    reduce file .declFile here i (up ++ [bottom, ⟨behindItems, .phrase .items, earlier, e⟩]) =
      none := by
  by_contra hsome
  obtain ⟨next, hnext⟩ := Option.ne_none_iff_exists'.mp hsome
  obtain ⟨p, frames, rest, g, vals, hp, hstack, hvals, hg, rfl⟩ := exists_of_reduce hnext
  rcases List.eq_nil_or_concat rest with rfl | ⟨rest, last, rfl⟩
  · -- No production begins with items and a part of an item.
    obtain rfl : frames = ⟨behindItems, .phrase .items, earlier, e⟩ :: bottom :: up.reverse := by
      simpa using (congrArg List.reverse hstack).symm
    have hrhs : p.rhs = .phrase .items :: bottom.symbol :: up.reverse.map Frame.symbol :=
      rhs_of_values? hvals
    have hmem := mem_fileProductions hp (.inr (.inr (.inr (by rw [hrhs]; rfl))))
    rw [hrhs] at hmem
    simp only [fileProductions, List.mem_cons, Prod.mk.injEq, List.cons.injEq, reduceCtorEq,
      and_false, List.not_mem_nil, or_false, false_or, true_and] at hmem
    exact hbottom .item (by decide) hmem.2.2.1
  · have hsplit : up ++ [bottom] ++ [⟨behindItems, .phrase .items, earlier, e⟩] =
        frames.reverse ++ rest ++ [last] := by
      simpa using hstack
    obtain ⟨hup, hlast⟩ := List.append_inj' hsplit rfl
    obtain rfl := List.singleton_inj.mp hlast
    have hstart : ∃ g', step (top .declFile rest) (.phrase p.lhs) = some g' := by
      cases rest with
      | nil => exact Option.isSome_iff_exists.mp (isSome_step_start (Option.isSome_of_eq_some hg))
      | cons frame rest => exact ⟨g, hg⟩
    obtain ⟨g', hg'⟩ := hstart
    rw [hup, reduce_eq_some hp hvals hg'] at h
    cases h

/-- **A reduction behind the first item** is the same one over earlier items. -/
theorem exists_later_of_reduce {up next : List Frame} {items : List Item} {e e' : Extent}
    (h : reduce file .declFile here i (up ++ [⟨behindItems, .phrase .items, items, e⟩]) =
      some next) :
    ∃ next', reduce file .declFile here i
      (up ++ [⟨behindItems, .phrase .items, earlier ++ items, e'⟩]) = some next' ∧
        Under earlier next next' := by
  obtain ⟨p, frames, rest, g, vals, hp, hstack, hvals, hg, rfl⟩ := exists_of_reduce h
  rcases List.eq_nil_or_concat rest with rfl | ⟨rest, last, rfl⟩
  · -- The items are reduced too, with a further one or to the file.
    obtain rfl : frames = ⟨behindItems, .phrase .items, items, e⟩ :: up.reverse := by
      simpa using (congrArg List.reverse hstack).symm
    have hhead : p.rhs.head? = some (.phrase .items) := by rw [rhs_of_values? hvals]; rfl
    rcases eq_of_head_items hp hhead with rfl | rfl
    · obtain rfl := Option.some.inj (productions_one.symm.trans hp)
      obtain rfl := Option.some.inj (step_start_items.symm.trans hg)
      obtain ⟨s, _, rest, hitems, hrest⟩ := exists_of_values?_cons hvals
      obtain ⟨s', e'', rest', rfl, hrest'⟩ := exists_of_values?_cons hrest
      obtain rfl := eq_nil_of_values? hrest'
      injection hitems with hframe hup
      cases hframe
      obtain rfl := List.reverse_eq_cons_iff.mp hup
      have hvals' : values? [.phrase .items, .phrase .item]
          [⟨behindItems, .phrase .items, earlier ++ vals.1, e'⟩,
            ⟨s', .phrase .item, vals.2.1, e''⟩] =
          some (earlier ++ vals.1, vals.2.1, ()) := by simp [values?]
      have hreduce := @reduce_whole file here _ _ _ _ _ productions_one hvals' step_start_items
      simp only [List.reverse_cons, List.reverse_nil, List.nil_append] at hreduce ⊢
      refine ⟨_, hreduce, ?_⟩
      rw [List.append_assoc]
      exact .later []
    · obtain rfl := Option.some.inj (productions_file.symm.trans hp)
      obtain rfl := Option.some.inj (step_start_declFile.symm.trans hg)
      obtain ⟨s, _, rest, hitems, hrest⟩ := exists_of_values?_cons hvals
      obtain rfl := eq_nil_of_values? hrest
      injection hitems with hframe hup
      cases hframe
      obtain rfl := List.reverse_eq_nil_iff.mp hup
      have hvals' : values? [.phrase .items]
          [⟨behindItems, .phrase .items, earlier ++ vals.1, e'⟩] =
          some (earlier ++ vals.1, ()) := by simp [values?]
      have hreduce := @reduce_whole file here _ _ _ _ _ productions_file hvals' step_start_declFile
      exact ⟨_, hreduce, .file⟩
  · rw [List.concat_eq_append, ← List.append_assoc] at hstack
    obtain ⟨rfl, hlast⟩ := List.append_inj' hstack rfl
    obtain rfl := List.singleton_inj.mp hlast
    rw [List.concat_eq_append, List.append_assoc]
    refine ⟨_, reduce_eq_some hp hvals (g := g) ?_, .later (_ :: rest)⟩
    cases rest <;> exact hg

/-- What is not reduced behind the first item is not over earlier items either. -/
theorem reduce_eq_none_of_later {up : List Frame} {items items' : List Item} {e e' : Extent}
    (h : reduce file .declFile here i (up ++ [⟨behindItems, .phrase .items, items, e⟩]) = none) :
    reduce file .declFile here i (up ++ [⟨behindItems, .phrase .items, items', e'⟩]) = none := by
  by_contra hsome
  obtain ⟨next', hnext'⟩ := Option.ne_none_iff_exists'.mp hsome
  -- Whether a stack is reduced does not depend on its values and extents.
  have hframe : ∀ frame : Frame, frame.Alike (fun _ _ => True) (fun _ _ _ => True) frame := by
    rintro ⟨s, t | n, v, e⟩
    · exact .mk ⟨rfl, rfl, trivial⟩ trivial
    · exact .mk trivial trivial
  have hstacks : StacksAlike (fun _ _ => True) (fun _ _ _ => True)
      (up ++ [⟨behindItems, .phrase .items, items', e'⟩])
      (up ++ [⟨behindItems, .phrase .items, items, e⟩]) :=
    List.rel_append (List.forall₂_same.mpr fun frame _ => hframe frame)
      (.cons (.mk trivial trivial) .nil)
  have halike : ∃ next, reduce file .declFile here i
        (up ++ [⟨behindItems, .phrase .items, items, e⟩]) = some next ∧
      StacksAlike (fun _ _ => True) (fun _ _ _ => True) next' next :=
    reduce_alike ⟨fun _ _ => trivial, fun _ => trivial⟩
      (fun _ _ _ _ _ _ _ _ => trivial) trivial hstacks hnext'
  obtain ⟨next, hnext, -⟩ := halike
  cases h.symm.trans hnext

/-! ## Actions side by side -/

/-- **What two stacks do before a terminal**: neither does anything, or both shift and are one over
the other again, or both reduce, to stacks of which one is over the other, if at all. -/
inductive ActAlike (file : Option String) (earlier : List Item) (t : Terminal)
    (stack stack' : List Frame) : Prop
  | idle : action? .declFile stack t = none → action? .declFile stack' t = none →
    ActAlike file earlier t stack stack'
  | shifts {s : Nat} : action? .declFile stack t = some (.shift s) →
    action? .declFile stack' t = some (.shift s) →
    (∀ frame, Under earlier (frame :: stack) (frame :: stack')) →
      ActAlike file earlier t stack stack'
  | reduces {i i' : Nat} : action? .declFile stack t = some (.reduce i) →
    action? .declFile stack' t = some (.reduce i') →
    (∀ here, Option.Rel (Under earlier) (reduce file .declFile here i stack)
      (reduce file .declFile here i' stack')) → ActAlike file earlier t stack stack'

theorem optionRel_of {α β : Type} {r : α → β → Prop} {a : Option α} {b : Option β}
    (hsome : ∀ x, a = some x → ∃ y, b = some y ∧ r x y) (hnone : a = none → b = none) :
    Option.Rel r a b := by
  cases ha : a with
  | none =>
    rw [hnone ha]
    exact .none
  | some x =>
    obtain ⟨y, rfl, hr⟩ := hsome x ha
    exact .some hr

/-- Two stacks with one state on top that reduce alike act alike. -/
theorem ActAlike.of_top {t : Terminal} (htop : top .declFile stack' = top .declFile stack)
    (hshift : ∀ frame, Under earlier (frame :: stack) (frame :: stack'))
    (hreduce : ∀ here i, Option.Rel (Under earlier) (reduce file .declFile here i stack)
      (reduce file .declFile here i stack')) : ActAlike file earlier t stack stack' := by
  have hsame : action? .declFile stack' t = action? .declFile stack t := by
    rw [action?, action?, htop]
  rcases haction : action? .declFile stack t with _ | s | i
  · exact .idle haction (hsame.trans haction)
  · exact .shifts haction (hsame.trans haction) hshift
  · exact .reduces haction (hsame.trans haction) (hreduce · i)

namespace Under

/-- **A stack and the same one over earlier items act alike.** -/
theorem acts (h : Under earlier stack stack') (file : Option String) (t : Terminal) :
    ActAlike file earlier t stack stack' := by
  cases h with
  | @within up bottom e hbottom =>
    refine .of_top (by cases up <;> rfl) (fun frame => .within (frame :: up) hbottom)
      fun here i => ?_
    exact optionRel_of (fun _ => exists_under_of_reduce hbottom) (reduce_eq_none_of_within hbottom)
  | @first item e e' =>
    have hfirst : action? .declFile [⟨behindFirst, .phrase .item, item, e⟩] t =
        if (Table.action? 0 t).isSome then some (.reduce 0) else none := by
      rw [action?_eq]
      exact action?_of_endsItem (s := behindFirst) (by decide) t
    have hnext : action? .declFile [⟨behindNext, .phrase .item, item, e⟩,
        ⟨behindItems, .phrase .items, earlier, e'⟩] t =
          if (Table.action? 0 t).isSome then some (.reduce 1) else none := by
      rw [action?_eq]
      exact action?_of_endsItem (s := behindNext) (by decide) t
    split at hfirst
    · next ht =>
      rw [if_pos ht] at hnext
      refine .reduces hfirst hnext fun here => ?_
      have hvals : values? [.phrase .item] [⟨behindFirst, .phrase .item, item, e⟩] =
          some (item, ()) := by simp [values?]
      have hvals' : values? [.phrase .items, .phrase .item]
          [⟨behindItems, .phrase .items, earlier, e'⟩, ⟨behindNext, .phrase .item, item, e⟩] =
            some (earlier, item, ()) := by simp [values?]
      have halone := @reduce_whole file here _ _ _ _ _ productions_zero hvals step_start_items
      have hover := @reduce_whole file here _ _ _ _ _ productions_one hvals' step_start_items
      simp only [List.reverse_cons, List.reverse_nil, List.nil_append,
        List.singleton_append] at halone hover
      rw [halone, hover]
      exact .some (.later [])
    · next ht =>
      rw [if_neg ht] at hnext
      exact .idle hfirst hnext
  | @later up items e e' =>
    refine .of_top (by cases up <;> rfl) (fun frame => .later (frame :: up)) fun here i => ?_
    exact optionRel_of (fun _ => exists_later_of_reduce) reduce_eq_none_of_later
  | file =>
    exact .idle ((action?_eq _ t).trans (action?_behindFile t))
      ((action?_eq _ t).trans (action?_behindFile t))

end Under

end Machine

end TraitMock
