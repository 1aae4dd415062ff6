import TraitMock.Proofs.Decl.Constraints
import TraitMock.Proofs.Method.StandIns

/-!
# Proofs/Method/Applied — expectation types apply every parameter in scope once

The parameters in scope of a method are those of the item around it, and behind them those of its
own that are new: of another kind, or under another name.  A merge of generics declares exactly
these (`Generics.keys_merged`), and the type of one expectation applies them, one argument for each
(`Method.expectation_applies`).  Empty brackets and where clauses have no part in it.
-/

namespace TraitMock

/-! ## The parameters in scope -/

/-- Where the members of a list have different keys, it adds those to another that are not there. -/
theorem newBy_of_pairwise {α : Type} {same : α → α → Bool} (xs : List α) {ys : List α}
    (h : ys.Pairwise fun a b => same a b = false) :
    newBy same xs ys = ys.filter fun y => !hasKey same xs y := by
  induction ys using List.reverseRecOn with
  | nil => rfl
  | append_singleton ys y ih =>
    obtain ⟨hys, -, hy⟩ := List.pairwise_append.mp h
    have hnew : hasKey same ys y = false :=
      List.any_eq_false.mpr fun z hz => Bool.eq_false_iff.mp (hy z hz y (List.mem_singleton_self y))
    rw [newBy_concat, ih hys, hnew, Bool.or_false, List.filter_append, List.filter_singleton]
    cases hasKey same xs y <;> rfl

namespace Generics

/-- What the parameters are told apart by, in order. -/
def keys (g : Generics) : List (ParamKind × String) := g.params.map GenericParam.key

/-- **The parameters in scope** where some are declared inside others: those around, and behind them
those inside that are new. -/
def keysInScope (outer inner : Generics) : List (ParamKind × String) :=
  outer.keys ++ inner.keys.filter (· ∉ outer.keys)

variable {x y : Generics}

/-- **Nothing is in scope twice** if nothing is declared twice in one place. -/
theorem nodup_keysInScope (hx : x.keys.Nodup) (hy : y.keys.Nodup) : (x.keysInScope y).Nodup := by
  refine List.nodup_append.mpr ⟨hx, hy.filter _, ?_⟩
  rintro key hkey _ hnew rfl
  exact of_decide_eq_true (List.mem_filter.mp hnew).2 hkey

theorem hasKey_params (g : Generics) (p : GenericParam) :
    hasKey GenericParam.sameKey g.params p = decide (p.key ∈ g.keys) := by
  rw [Bool.eq_iff_iff, decide_eq_true_iff, hasKey, List.any_eq_true, keys, List.mem_map]
  exact exists_congr fun q => and_congr_right fun _ => beq_iff_eq

/-- **A merge declares the parameters in scope**, if no parameter is declared without brackets and
none of the inner ones twice. -/
theorem keys_merged (hx : x.Bracketed) (hy : y.Bracketed) (hdistinct : y.keys.Nodup) :
    (x.merge y).keys = x.keysInScope y := by
  cases hxb : x.hasBrackets with
  | false => simp [merge_of_bare_left hxb, keysInScope, keys, hx hxb]
  | true =>
    cases hyb : y.hasBrackets with
    | false => simp [merge_of_bare_right hxb hyb, keysInScope, keys, hy hyb]
    | true =>
      have hpairwise : y.params.Pairwise fun a b => a.sameKey b = false :=
        (List.pairwise_map.mp hdistinct).imp beq_false_of_ne
      have hfilter : (fun p => !hasKey GenericParam.sameKey x.params p) =
          (fun key => decide (key ∉ x.keys)) ∘ GenericParam.key := by
        funext p
        rw [hasKey_params, Function.comp_apply, decide_not]
      rw [merge_of_hasBrackets hxb hyb, keys, unionBy_eq GenericParam.equivalence_sameKey,
        newBy_of_pairwise _ hpairwise, List.map_append, hfilter, ← List.filter_map]
      rfl

end Generics

/-! ## What is applied -/

/-- The arguments that are applied to a segment, of whatever form. -/
def SegmentArgs.arguments : SegmentArgs → List GenericArg
  | .none => []
  | .angle args => args
  | .call inputs output => (inputs ++ output.toList).map .type

/-- **A path `outer::inner<..>`, taken apart**: its two names, and what is applied to the second. -/
def Ty.nested? : Ty → Option (String × String × List GenericArg)
  | .path ⟨[⟨outer, .none⟩, ⟨inner, args⟩], false⟩ _ =>
    some (outer.name, inner.name, args.arguments)
  | _ => none

/-- **The parameter that an argument applies**: a type that is a name alone, a lifetime, a
constant. -/
def GenericArg.applied? : GenericArg → Option (ParamKind × String)
  | .type (.path ⟨[⟨ident, .none⟩], false⟩ _) => some (.type, ident.name)
  | .lifetime name => some (.lifetime, name)
  | .const name => some (.const, name)
  | _ => none

/-- The argument that is made for a parameter applies it. -/
theorem GenericParam.applied?_toArg (p : GenericParam) : p.toArg.applied? = some p.key := by
  cases p <;> rfl

theorem Generics.applied?_typeArgs (g : Generics) :
    g.typeArgs.map GenericArg.applied? = g.keys.map some := by
  rw [typeArgs, keys, List.map_map, List.map_map]
  exact List.map_congr_left fun p _ => p.applied?_toArg

theorem nested?_expectationPath (method : Ident) (name : String) (args : List GenericArg) :
    (expectationPath method name args).nested? = some (method.name, name, args) := by
  cases args <;> rfl

/-! ## Expectation types -/

/-- **The expectation types of a method apply what is in scope**, by some arguments: the type of one
expectation has one for each parameter in scope, in order; the type of all of them has none; and the
type that a mock holds for the method has those of one expectation, unless the method has parameters
of its own. -/
structure MethodFacts.Applies (facts : MethodFacts) (m : Method) (outer : Generics)
    (args : List GenericArg) : Prop where
  scope : args.map GenericArg.applied? = (outer.keysInScope m.generics).map some
  isGeneric : facts.isGeneric ↔ m.generics.params ≠ []
  expectation : facts.expectation.nested? = some (m.ident.name, "Expectation", args)
  expectations : facts.expectations.nested? =
    some (m.ident.name, if facts.isGeneric then "GenericExpectations" else "Expectations", [])
  plain : m.generics.params = [] →
    facts.expectObj.nested? = some (m.ident.name, "Expectations", args)
  generic : m.generics.params ≠ [] → facts.expectObj = facts.expectations

/-- Whatever facts there are of a method, under whatever policy, their types apply what is in
scope. -/
theorem Method.applies_of_facts {m : Method} {outer : Generics} (houter : outer.Bracketed)
    (hinner : m.generics.Bracketed) (hdistinct : m.generics.keys.Nodup) {policy : Policy}
    {facts : MethodFacts} (h : ((m.facts (some outer)).run policy).result = .ok facts) :
    facts.Applies m outer (outer.merge m.generics).typeArgs := by
  rw [Method.facts, Checked.result_bind_eq_ok] at h
  obtain ⟨params, -, h⟩ := h
  obtain ⟨dispatch, -, h⟩ := Checked.result_bind_eq_ok.mp h
  obtain rfl := Except.ok.inj h
  constructor
  · rw [Generics.applied?_typeArgs, Generics.keys_merged houter hinner hdistinct]
  · simp
  · exact nested?_expectationPath _ _ _
  · exact nested?_expectationPath _ _ _
  · intro hnone
    simp [hnone, nested?_expectationPath]
  · intro hsome
    simp [hsome]

/-- **Expectation types apply every parameter in scope exactly once.**  Let an item and a method
have been read, neither of which declares two parameters of one kind and name.  Then nothing is in
scope twice; the method is classified where problems are collected; and whatever facts there are,
their types apply what is in scope. -/
theorem Method.expectation_applies {item : Item} {m : Method} (hitem : item.IsRead) (hm : m.IsRead)
    (houter : item.generics.keys.Nodup) (hinner : m.generics.keys.Nodup) :
    (item.generics.keysInScope m.generics).Nodup ∧
      (∃ facts reports, (m.facts (some item.generics)).run .collect = ⟨.ok facts, reports⟩) ∧
      ∀ policy facts, ((m.facts (some item.generics)).run policy).result = .ok facts →
        ∃ args, facts.Applies m item.generics args := by
  refine ⟨Generics.nodup_keysInScope houter hinner, ?_, fun policy facts h => ?_⟩
  · obtain ⟨facts, reports, hrun, -⟩ := m.exists_facts (some item.generics)
    exact ⟨facts, reports, hrun⟩
  · exact ⟨_, applies_of_facts hitem.bracketed.1 hm.bracketed hinner h⟩

/-- A type, a lifetime and a constant of one name are three parameters, and what is declared again
inside is applied where it was declared first. -/
theorem namesakes_applied :
    ∃ (item : Item) (m : Method), item.IsRead ∧ m.IsRead ∧ item.generics.keys.Nodup ∧
      m.generics.keys.Nodup ∧
      ∃ facts reports args, (m.facts (some item.generics)).run .collect = ⟨.ok facts, reports⟩ ∧
        facts.expectation.nested? = some ("f", "Expectation", args) ∧
        args.map GenericArg.applied? =
          [some (.lifetime, "a"), some (.type, "a"), some (.type, "U"), some (.const, "a")] ∧
        facts.isGeneric = true ∧ facts.expectObj = facts.expectations := by
  obtain ⟨decls, item, m, hparse, hitem, hm, hread⟩ := exists_method_of_parse
    "trait Foo<'a, a> where a: Clone { fn f<U, a, const a: usize>(&self) where U: Debug; }"
    (f := fun item m =>
      (decide (m.ident.name = "f" ∧ item.generics.keys.Nodup ∧ m.generics.keys.Nodup ∧
        m.generics.keys ≠ []), item.generics.keysInScope m.generics))
    (b := (true, [(.lifetime, "a"), (.type, "a"), (.type, "U"), (.const, "a")])) (by decide +kernel)
  obtain ⟨hdeclared, hscope⟩ := Prod.mk.inj hread
  obtain ⟨hname, houter, hinner, hkeys⟩ := of_decide_eq_true hdeclared
  have hitemRead : item.IsRead := ⟨none, _, decls, hparse, hitem⟩
  have hmRead : m.IsRead := .inr ⟨item, hitemRead, hm⟩
  have hsome : m.generics.params ≠ [] := (hkeys <| congrArg (List.map GenericParam.key) ·)
  obtain ⟨-, ⟨facts, reports, hrun⟩, happlies⟩ :=
    Method.expectation_applies hitemRead hmRead houter hinner
  obtain ⟨args, happlies⟩ := happlies .collect facts (by rw [hrun])
  refine ⟨item, m, hitemRead, hmRead, houter, hinner, facts, reports, args, hrun, ?_, ?_,
    happlies.isGeneric.mpr hsome, happlies.generic hsome⟩
  · rw [happlies.expectation, hname]
  · rw [happlies.scope, hscope]
    rfl

end TraitMock
