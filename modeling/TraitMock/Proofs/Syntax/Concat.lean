import TraitMock.Proofs.Syntax.Beneath
import TraitMock.Proofs.Syntax.Onward

/-!
# Proofs/Syntax/Concat — a text of items in front of another text

A run and the same one over earlier items read the same text side by side: both take the same tokens
and stop at the same one, and what is read in the end has the earlier items in front
(`Machine.Under.readFrom_eq`).  So a text of items, a new line and a second text are read as the
second one alone from where it stands, behind the items of the first (`Machine.parse_line`).
-/

namespace TraitMock

namespace Machine

open Table Grammar

variable {file : Option String} {here : Pos} {stack stack' : List Frame}
  {earlier : List Item} {i : Nat}

namespace Under

theorem accepts_eq (h : Under earlier stack stack') :
    accepts .declFile stack' = accepts .declFile stack := by
  funext t
  rcases h.acts none t with ⟨ha, ha'⟩ | ⟨ha, ha', -⟩ | ⟨ha, ha', -⟩ <;>
    simp [accepts, ha, ha']

theorem length_le (h : Under earlier stack stack') : stack.length ≤ stack'.length := by
  cases h <;> simp

theorem result?_eq (h : Under earlier stack stack') :
    result? .declFile stack' =
      (result? .declFile stack).map fun items : List Item => earlier ++ items := by
  cases h with
  | @within up bottom e hbottom =>
    have hnone : bottom.value? (.phrase .declFile) = none := dif_neg (hbottom .declFile (by decide))
    cases up with
    | nil => exact (congrArg (Option.map _) hnone).symm
    | cons frame up => cases up <;> rfl
  | first => rfl
  | @later up items e e' =>
    cases up with
    | nil => rfl
    | cons frame up => cases up <;> rfl
  | file => simp [result?, Entry.phrase]

/-- **Reducing at the end of the text.** -/
theorem finish_eq (h : Under earlier stack stack') (fuel : Nat) :
    finish file .declFile here fuel stack' =
      (finish file .declFile here fuel stack).map fun items : List Item => earlier ++ items := by
  induction fuel generalizing stack stack' with
  | zero => rfl
  | succ fuel ih =>
    rw [finish_succ, finish_succ, h.result?_eq]
    cases result? .declFile stack with
    | some items => rfl
    | none =>
      dsimp only [Option.map_none]
      rcases h.acts file .endOfText with ⟨ha, ha'⟩ | ⟨ha, ha', -⟩ | @⟨i, i', ha, ha', hreduce⟩
      · rw [ha, ha']
        rfl
      · rw [ha, ha']
        rfl
      · have hnext := hreduce here
        simp only [ha, ha']
        generalize reduce file .declFile here i stack = next,
          reduce file .declFile here i' stack' = next' at hnext ⊢
        cases hnext with
        | some hnext => exact ih hnext
        | none => rfl

/-- **Reducing before a token.** -/
theorem settle_rel (h : Under earlier stack stack') (file : Option String) (token : Token)
    (fuel : Nat) :
    Option.Rel (fun found found' => found'.1 = found.1 ∧
        ∀ frame, Under earlier (frame :: found.2) (frame :: found'.2))
      (settle file .declFile token fuel stack) (settle file .declFile token fuel stack') := by
  induction fuel generalizing stack stack' with
  | zero => exact .none
  | succ fuel ih =>
    rw [settle_succ, settle_succ]
    rcases h.acts file token.kind with ⟨ha, ha'⟩ | ⟨ha, ha', hunder⟩ | @⟨i, i', ha, ha', hreduce⟩
    · rw [ha, ha']
      exact .none
    · rw [ha, ha']
      exact .some ⟨rfl, hunder⟩
    · have hnext := hreduce token.extent.start
      simp only [ha, ha']
      generalize reduce file .declFile token.extent.start i stack = next,
        reduce file .declFile token.extent.start i' stack' = next' at hnext ⊢
      cases hnext with
      | some hnext => exact ih hnext
      | none => exact .none

end Under

/-! ## Fuel -/

/-- **Something has been taken**, and the start is left for good. -/
structure Underway (stack : List Frame) : Prop where
  nonempty : stack ≠ []
  left : ∀ frame ∈ stack, frame.state ≠ 0

namespace Underway

/-- Behind whatever stands on nothing or on a stack that is underway, a stack is underway. -/
theorem cons {frame : Frame} {x : Symbol} (hstep : step (top .declFile stack) x = some frame.state)
    (h : ∀ frame ∈ stack, frame.state ≠ 0) : Underway (frame :: stack) :=
  ⟨List.cons_ne_nil _ _, List.forall_mem_cons.mpr ⟨ne_zero_of_step hstep, h⟩⟩

theorem reduce {next : List Frame} (h : Underway stack)
    (hreduce : reduce file .declFile here i stack = some next) : Underway next := by
  obtain ⟨p, frames, rest, g, vals, -, rfl, -, hg, rfl⟩ := exists_of_reduce hreduce
  exact .cons hg fun frame hframe => h.left frame (List.mem_append_right _ hframe)

/-- A reduction lowers the height of a stack that is underway. -/
theorem height_lt {next : List Frame} {t : Terminal} (h : Underway stack)
    (haction : action? .declFile stack t = some (.reduce i))
    (hreduce : Machine.reduce file .declFile here i stack = some next) :
    height next < height stack := by
  rw [action?_eq] at haction
  refine @ReducesTo.height_lt file .declFile here t stack next ⟨i, haction, ?_, hreduce⟩
  obtain ⟨p, -, -, -, -, hp, -⟩ := exists_of_reduce hreduce
  rw [hp, Option.all_some, Bool.not_eq_true', List.isEmpty_eq_false_iff]
  intro hnil
  obtain ⟨rfl, -⟩ := eq_of_rhs_nil hp hnil
  have hzero := eq_zero_of_reduce haction
  cases stack with
  | nil => exact h.nonempty rfl
  | cons frame rest => exact h.left frame List.mem_cons_self hzero

/-- **More fuel than the height** makes no difference before a token. -/
theorem settle_eq (h : Underway stack) {token : Token} {fuel fuel' : Nat}
    (hfuel : height stack < fuel) (hfuel' : height stack < fuel') :
    settle file .declFile token fuel stack = settle file .declFile token fuel' stack := by
  induction fuel generalizing fuel' stack with
  | zero => exact absurd hfuel (Nat.not_lt_zero _)
  | succ fuel ih =>
    obtain ⟨fuel', rfl⟩ := Nat.exists_eq_add_of_le' (Nat.zero_lt_of_lt hfuel')
    rw [settle_succ, settle_succ]
    split
    · rfl
    · rfl
    · next i haction =>
      cases hnext : Machine.reduce file .declFile token.extent.start i stack with
      | none => rfl
      | some next =>
        have hlt := h.height_lt haction hnext
        exact ih (h.reduce hnext) (by omega) (by omega)

/-- More fuel than the height makes no difference at the end of the text. -/
theorem finish_eq (h : Underway stack) {fuel fuel' : Nat} (hfuel : height stack < fuel)
    (hfuel' : height stack < fuel') :
    finish file .declFile here fuel stack = finish file .declFile here fuel' stack := by
  induction fuel generalizing fuel' stack with
  | zero => exact absurd hfuel (Nat.not_lt_zero _)
  | succ fuel ih =>
    obtain ⟨fuel', rfl⟩ := Nat.exists_eq_add_of_le' (Nat.zero_lt_of_lt hfuel')
    rw [finish_succ, finish_succ]
    split
    · rfl
    · split
      · next i haction =>
        cases hnext : Machine.reduce file .declFile here i stack with
        | none => rfl
        | some next =>
          have hlt := h.height_lt haction hnext
          exact ih (h.reduce hnext) (by omega) (by omega)
      · rfl

/-- Reductions before a token keep a stack underway. -/
theorem settle {token : Token} {fuel target : Nat} {rest : List Frame} (h : Underway stack)
    (hsettle : settle file .declFile token fuel stack = some (target, rest)) :
    Underway rest ∧ step (top .declFile rest) (.term token.kind) = some target :=
  of_settle (K := Underway) (fun h _ => h.reduce) h hsettle

/-- **A token that is taken** leaves a stack underway. -/
theorem shift {token : Token} {next : List Frame} (h : Underway stack)
    (hshift : shift file .declFile stack token = some next) : Underway next := by
  obtain ⟨⟨target, rest⟩, hsettle, rfl⟩ := Option.map_eq_some_iff.mp hshift
  obtain ⟨hrest, hstep⟩ := h.settle hsettle
  exact .cons hstep hrest.left

end Underway

/-! ## Reading side by side -/

namespace Under

/-- **A token is taken onto both stacks or onto neither.** -/
theorem shift_rel (h : Under earlier stack stack') (hunderway : Underway stack)
    (file : Option String) (token : Token) :
    Option.Rel (Under earlier) (shift file .declFile stack token)
      (shift file .declFile stack' token) := by
  have hlength := h.length_le
  have hfuel : settle file .declFile token (reductionBound stack) stack =
      settle file .declFile token (reductionBound stack') stack :=
    hunderway.settle_eq (height_lt_bound stack)
      ((height_lt_bound stack).trans_le (Nat.mul_le_mul_left 12 (Nat.succ_le_succ hlength)))
  have hsettle := h.settle_rel file token (reductionBound stack')
  rw [shift, shift, hfuel]
  generalize settle file .declFile token (reductionBound stack') stack = found,
    settle file .declFile token (reductionBound stack') stack' = found' at hsettle ⊢
  cases hsettle with
  | none => exact .none
  | @some found found' hfound =>
    obtain ⟨htarget, hunder⟩ := hfound
    simp only [Option.map_some, htarget]
    exact .some (hunder _)

/-- **Over earlier items the same is read**, behind them, and refused where it is refused alone. -/
theorem readFrom_eq (h : Under earlier stack stack') (hunderway : Underway stack)
    {last : Option Token} {pos : Pos} {cs : List Char} :
    readFrom file .declFile stack' last pos cs =
      (readFrom file .declFile stack last pos cs).map
        fun items : List Item => earlier ++ items := by
  induction hn : cs.length using Nat.strong_induction_on generalizing stack stack' last pos cs with
  | _ n ih =>
    subst hn
    rw [Machine.readFrom_eq stack, Machine.readFrom_eq stack', h.accepts_eq]
    rcases hnext : Lexer.next (accepts .declFile stack) pos cs with e | _ | ⟨token, rest⟩
    · rfl
    · have hfuel : finish file .declFile pos (reductionBound stack) stack =
          finish file .declFile pos (reductionBound stack') stack :=
        hunderway.finish_eq (height_lt_bound stack)
          ((height_lt_bound stack).trans_le (Nat.mul_le_mul_left 12 (Nat.succ_le_succ h.length_le)))
      simp only [h.finish_eq, hfuel]
      cases finish file .declFile pos (reductionBound stack') stack <;> rfl
    · have hshift := h.shift_rel hunderway file token
      dsimp only
      cases hstack : shift file .declFile stack token with
      | none =>
        rw [hstack] at hshift
        generalize shift file .declFile stack' token = next' at hshift ⊢
        cases hshift
        rfl
      | some next =>
        rw [hstack] at hshift
        generalize shift file .declFile stack' token = next' at hshift ⊢
        cases hshift with
        | some hunder =>
          exact ih _ (Lexer.length_lt_of_next hnext) hunder (hunderway.shift hstack) rfl

end Under

/-! ## A second text -/

/-- A text without a word is a file without items. -/
theorem finish_nil : finish file .declFile here (reductionBound []) [] = some ([] : List Item) := by
  have hreduce :
      reduce file .declFile here 22 [] = some [⟨behindFile, .phrase .declFile, [], ⟨here, here⟩⟩] :=
    @reduce_whole file here _ _ [] _ _ productions_empty rfl step_start_declFile
  have haction : action? .declFile [] .endOfText = some (.reduce 22) := (action?_eq _ _).trans rfl
  rw [show reductionBound [] = 10 + 1 + 1 from rfl, finish_succ, haction]
  simp only [result?, hreduce, Option.bind_some, finish_succ, Frame.value?]
  rfl

/-- **The first word of a second text** is taken onto the items of the first as it is taken
alone. -/
theorem shift_rel_start {items : List Item} {token : Token} (htop : OnToken stack)
    (hfinish : finish file .declFile here (reductionBound stack) stack = some items)
    (haccepts : accepts .declFile [] token.kind = true) (hend : token.kind ≠ .endOfText) :
    ∃ next next', shift file .declFile [] token = some next ∧ Underway next ∧
      shift file .declFile stack token = some next' ∧ Under items next next' := by
  obtain ⟨-, hreduces⟩ := reducesToItems_of_finish htop hfinish
  rw [accepts, action?_eq] at haccepts
  obtain ⟨stack', hchain, e, rfl⟩ := hreduces token.extent.start token.kind haccepts
  change (Table.action? 0 token.kind).isSome = true at haccepts
  rw [action?_start hend, Option.isSome_map] at haccepts
  obtain ⟨s, hs⟩ := Option.isSome_iff_exists.mp haccepts
  have hstart : step (top .declFile []) (.term token.kind) = some s := hs
  have halone : settle file .declFile token (reductionBound []) [] = some (s, []) :=
    settle_of_reduces .refl hstart (height_lt_bound [])
  have hover :=
    settle_of_reduces hchain ((step_behindItems_term _).trans hs) (height_lt_bound stack)
  refine ⟨[⟨s, .term token.kind, token, token.extent⟩], _, ?_,
    .cons hstart (List.forall_mem_nil _), ?_, .within [] (e := e) ?_⟩
  · rw [shift, halone]
    rfl
  · rw [shift, hover]
    rfl
  · intro n _ hphrase
    cases hphrase

/-- **A text of items, a new line and a second text** are read as the second one alone from where it
stands, behind the items of the first. -/
theorem parse_line {text text' : List Char} {items : List Item}
    (h : parse file .declFile text = .ok items) :
    parse file .declFile (text ++ '\n' :: text') =
      (readFrom file .declFile [] none (({} : Pos).after (text ++ ['\n'])) text').map
        fun items' : List Item => items ++ items' := by
  obtain ⟨stack, last, pos, cs, hend, hfinish, htop, hafter, hread⟩ := exists_end_of_readFrom h
  have haccepts : accepts .declFile stack = accepts .declFile [] := by
    rcases htop with rfl | htop
    · rfl
    · exact accepts_of_endsItem (reducesToItems_of_finish htop hfinish).1
  have hpos : pos.after (cs ++ ['\n']) = ({} : Pos).after (text ++ ['\n']) := by
    rw [Pos.after_append, hafter, Pos.after_append]
  change readFrom file .declFile [] none {} (text ++ '\n' :: text') = _
  rw [hread, readFrom_eq stack, readFrom_eq [] none, Lexer.next_append_line hend, hpos, haccepts]
  rcases hnext : Lexer.next (accepts .declFile []) (({} : Pos).after (text ++ ['\n'])) text' with
    e | _ | ⟨token, rest⟩
  · rfl
  · simp only [hfinish, finish_nil]
    exact congrArg Except.ok (List.append_nil items).symm
  · dsimp only
    rcases htop with rfl | htop
    · obtain rfl := eq_nil_of_finish hfinish
      cases shift file .declFile [] token with
      | none => rfl
      | some next =>
        dsimp only
        cases readFrom file .declFile next (some token) token.extent.stop rest <;> rfl
    · obtain ⟨-, -, hlexeme⟩ := Lexer.exists_lexeme_of_next hnext
      have hend : token.kind ≠ .endOfText := fun hkind => by
        have hspells : token.kind.Spells token.text := (Lexer.fits_of_next hnext).spells
        rw [hkind] at hspells
        cases hspells
      obtain ⟨next, next', hshift, hunderway, hshift', hunder⟩ :=
        shift_rel_start htop hfinish (Lexer.accepts_of_lexeme hlexeme) hend
      rw [hshift, hshift']
      exact hunder.readFrom_eq hunderway

end Machine

end TraitMock
