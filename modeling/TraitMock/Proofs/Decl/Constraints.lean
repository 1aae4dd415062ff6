import TraitMock.Proofs.Decl.Merge
import TraitMock.Proofs.Decl.ReadParts
import TraitMock.Proofs.Decl.RoundTrip
import TraitMock.Proofs.Syntax.Change

/-!
# Proofs/Decl/Constraints — what a merge keeps of an item and a method

What has been read declares its parameters in brackets (`Machine.bracketed_of_parse`), so no
parameter is lost when the generics of a method are merged into those of its item.  Predicates can
be written without brackets, behind the head of a declaration, and generics without brackets add
nothing to a merge: the predicates of a side are kept if it has brackets, or if it is the right one
and the left has none (`Item.keys_merge`).  In `trait Foo<T> { fn f(&self) where T: Copy; }` one is
lost.
-/

namespace TraitMock

open Machine

/-! ## Parameters are declared in brackets -/

/-- **Generics without brackets declare no parameters.** -/
def Generics.Bracketed (g : Generics) : Prop := g.hasBrackets = false → g.params = []

/-- The generics of an item, and those of its methods, declare no parameters without brackets. -/
def Item.Bracketed (item : Item) : Prop :=
  item.generics.Bracketed ∧ ∀ m ∈ item.methods, m.generics.Bracketed

/-- **All generics of what a phrase stands for** declare no parameters without brackets; a list of
parameters has them. -/
def Nonterminal.Bracketed : (n : Nonterminal) → n.Val → Prop
  | .items, xs | .declFile, xs => ∀ x ∈ xs, Item.Bracketed x
  | .item, x | .traitItem, x | .implItem, x => Item.Bracketed x
  | .methods, xs => ∀ x ∈ xs, (Method.generics x).Bracketed
  | .method, x => (Method.generics x).Bracketed
  | .generics, x => Generics.hasBrackets x = true
  | _, _ => True

/-- The phrases that have generics. -/
def genericPhrases : List Nonterminal :=
  [.items, .declFile, .item, .traitItem, .implItem, .methods, .method, .generics]

theorem Nonterminal.bracketed_of_not_mem {n : Nonterminal} (hn : n ∉ genericPhrases) (v : n.Val) :
    n.Bracketed v := by
  cases n <;> first | exact True.intro | exact absurd (by decide) hn

/-- What is declared in front of the members of an item or a method. -/
theorem Generics.bracketed_declared {generics : Option (Generics × Unit)}
    (h : ∀ u ∈ generics, u.1.hasBrackets = true) (clause : Option (List Predicate)) :
    (((Grammar.only generics).getD {}).withWhere clause).Bracketed := by
  intro hbare
  cases generics with
  | none => cases clause <;> rfl
  | some u =>
    have hbrackets : u.1.hasBrackets = false := by cases clause <;> exact hbare
    rw [h u rfl] at hbrackets
    cases hbrackets

/-- The rules of the phrases that have generics. -/
theorem genericPhrases_bracket : ∀ r ∈ Grammar.items ++ Grammar.methods ++ Grammar.declFile ++
    Grammar.item ++ Grammar.traitItem ++ Grammar.implItem ++ Grammar.method ++ Grammar.generics,
      ∀ (place : Place) (vals : r.parts.Val), r.parts.AllPhrases Nonterminal.Bracketed vals →
        r.lhs.Bracketed (r.action place vals) := by
  refine List.forall_iff_forall_mem.mp ⟨?_, ?_, ?_, ?_, ?_, ?_, ?_, ?_, ?_, ?_, ?_⟩
  · exact fun _ _ h => List.forall_mem_singleton.mpr h.1
  · exact fun _ _ h => List.forall_mem_append.mpr ⟨h.1, List.forall_mem_singleton.mpr h.2.1⟩
  · exact fun _ _ h => List.forall_mem_singleton.mpr h.1
  · exact fun _ _ h => List.forall_mem_append.mpr ⟨h.1, List.forall_mem_singleton.mpr h.2.1⟩
  · exact fun _ _ h => Grammar.forall_mem_orNil.mpr fun u hu => (h.1 u hu).1
  · exact fun _ _ h => h.1
  · exact fun _ _ h => h.1
  · rintro place vals ⟨-, -, hgenerics, -, -, hmethods, -⟩
    exact ⟨Generics.bracketed_declared (fun u hu => (hgenerics u hu).1) _,
      Grammar.forall_mem_orNil.mpr fun u hu => (hmethods u hu).1⟩
  · rintro place vals ⟨hgenerics, -, -, -, hmethods, -⟩
    exact ⟨Generics.bracketed_declared (fun u hu => (hgenerics u hu).1) _,
      Grammar.forall_mem_orNil.mpr fun u hu => (hmethods u hu).1⟩
  · rintro place vals ⟨-, -, hgenerics, -⟩
    exact Generics.bracketed_declared (fun u hu => (hgenerics u hu).1) _
  · exact fun _ _ _ => rfl

/-- **Every rule declares parameters in brackets.** -/
theorem rules_bracket : ∀ r ∈ Grammar.rules, ∀ (place : Place) (vals : r.parts.Val),
    r.parts.AllPhrases Nonterminal.Bracketed vals → r.lhs.Bracketed (r.action place vals) := by
  intro r hr
  by_cases hlhs : r.lhs ∈ genericPhrases
  · exact genericPhrases_bracket r (Grammar.mem_of_lhs_mem rfl hr hlhs)
  · exact fun place vals _ => Nonterminal.bracketed_of_not_mem hlhs _

/-- **What has been read declares its parameters in brackets.** -/
theorem Machine.bracketed_of_parse (entry : Entry) {file : Option String} {text : List Char}
    {v : entry.phrase.Val} (h : parse file entry text = .ok v) : entry.phrase.Bracketed v :=
  all_of_parse (Q := Nonterminal.Bracketed) (fun _ => trivial) rules_bracket h

/-! ## Items and methods that have been read -/

/-- **An item of a declaration file that has been read.** -/
def Item.IsRead (item : Item) : Prop :=
  ∃ file text decls, DeclFile.parse file text = .ok decls ∧ item ∈ decls.items

/-- **A method that has been read**, on its own or in an item. -/
def Method.IsRead (m : Method) : Prop :=
  (∃ text, Method.parse text = .ok m) ∨ ∃ item : Item, item.IsRead ∧ m ∈ item.methods

theorem Item.IsRead.bracketed {item : Item} (h : item.IsRead) : item.Bracketed := by
  obtain ⟨file, text, decls, hparse, hitem⟩ := h
  exact Machine.bracketed_of_parse .declFile (DeclFile.parse_eq_ok_iff.mp hparse).1 item hitem

theorem Method.IsRead.bracketed {m : Method} (h : m.IsRead) : m.generics.Bracketed := by
  rcases h with ⟨text, hparse⟩ | ⟨item, hitem, hm⟩
  · exact Machine.bracketed_of_parse .method hparse
  · exact hitem.bracketed.2 m hm

/-- The one method of the one item of a text, where it can be seen what there is to know of it. -/
theorem exists_method_of_parse (text : String) {α : Type} {f : Item → Method → α} {b : α}
    (h : (DeclFile.parse none text).toOption.map
      (fun decls => decls.items.map fun item => item.methods.map (f item)) = some [[b]]) :
    ∃ (decls : DeclFile) (item : Item) (m : Method), DeclFile.parse none text = .ok decls ∧
      item ∈ decls.items ∧ m ∈ item.methods ∧ f item m = b := by
  obtain ⟨decls, hparse, hread⟩ := exists_of_toOption h
  obtain ⟨item, hitems, hmethods⟩ := List.map_eq_singleton_iff.mp hread
  obtain ⟨m, hms, hm⟩ := List.map_eq_singleton_iff.mp hmethods
  exact ⟨decls, item, m, hparse, hitems ▸ List.mem_singleton_self item,
    hms ▸ List.mem_singleton_self m, hm⟩

/-! ## The keys of a merge -/

namespace Generics

/-- The predicates of generics, where no where clause has none. -/
def predicates (g : Generics) : List Predicate := g.whereClause.getD []

/-- **No parameter is lost** in a merge of generics that declare them in brackets. -/
theorem hasKey_params_merge {x y : Generics} (hx : x.Bracketed) (hy : y.Bracketed)
    (p : GenericParam) : hasKey GenericParam.sameKey (x.merge y).params p =
      (hasKey GenericParam.sameKey x.params p || hasKey GenericParam.sameKey y.params p) := by
  cases hxb : x.hasBrackets with
  | false => rw [merge_of_bare_left hxb, hx hxb, hasKey_nil, Bool.false_or]
  | true =>
    cases hyb : y.hasBrackets with
    | false => rw [merge_of_bare_right hxb hyb, hy hyb, hasKey_nil, Bool.or_false]
    | true =>
      rw [merge_of_hasBrackets hxb hyb]
      exact hasKey_unionBy GenericParam.equivalence_sameKey _ _ p

/-- **No predicate is lost** in a merge of generics in brackets. -/
theorem hasKey_predicates_merge {x y : Generics} (hx : x.hasBrackets = true)
    (hy : y.hasBrackets = true) (p : Predicate) :
    hasKey Predicate.sameKey (x.merge y).predicates p =
      (hasKey Predicate.sameKey x.predicates p || hasKey Predicate.sameKey y.predicates p) := by
  rw [merge_of_hasBrackets hx hy, predicates, predicates, predicates]
  rcases x.whereClause with _ | ps
  · rfl
  · rcases y.whereClause with _ | qs
    · exact (Bool.or_false _).symm
    · exact hasKey_unionBy Predicate.equivalence_sameKey ps qs p

end Generics

/-- **A merge keeps all parameters, and the predicates of what has brackets**: of the generics of a
method that has been read, merged into those of an item that has been read, every parameter is kept,
and every predicate of a side with brackets.  Where the item has none, the predicates of the method
are kept too. -/
theorem Item.keys_merge {item : Item} {m : Method} (hitem : item.IsRead) (hm : m.IsRead) :
    (∀ p ∈ item.generics.params ++ m.generics.params,
      hasKey GenericParam.sameKey (item.generics.merge m.generics).params p = true) ∧
    (item.generics.hasBrackets = true → ∀ c ∈ item.generics.predicates,
      hasKey Predicate.sameKey (item.generics.merge m.generics).predicates c = true) ∧
    (m.generics.hasBrackets = true ∨ item.generics.hasBrackets = false →
      ∀ c ∈ m.generics.predicates,
        hasKey Predicate.sameKey (item.generics.merge m.generics).predicates c = true) := by
  have hself {g : Generics} {c : Predicate} (hc : c ∈ g.predicates) :
      hasKey Predicate.sameKey g.predicates c = true :=
    hasKey_of_mem Predicate.equivalence_sameKey hc
  refine ⟨fun p hp => ?_, fun hx c hc => ?_, fun hy c hc => ?_⟩
  · rw [Generics.hasKey_params_merge hitem.bracketed.1 hm.bracketed, ← hasKey_append]
    exact hasKey_of_mem GenericParam.equivalence_sameKey hp
  · cases hy : m.generics.hasBrackets with
    | false => rw [Generics.merge_of_bare_right hx hy, hself hc]
    | true => rw [Generics.hasKey_predicates_merge hx hy, hself hc, Bool.true_or]
  · cases hx : item.generics.hasBrackets with
    | false => rw [Generics.merge_of_bare_left hx, hself hc]
    | true =>
      have hy : m.generics.hasBrackets = true := hy.resolve_right (by rw [hx]; decide)
      rw [Generics.hasKey_predicates_merge hx hy, hself hc, Bool.or_true]

/-- Both where clauses of `trait Foo<T> where T: Clone { fn f<U>(&self) where U: Debug; }` are
kept. -/
theorem cloneDebug_merged :
    ∃ (item : Item) (m : Method), item.IsRead ∧ m.IsRead ∧ item.generics.hasBrackets = true ∧
      m.generics.hasBrackets = true ∧
      (item.generics.merge m.generics).renderWhere = "where T: Clone, U: Debug" ∧
      (∀ p ∈ item.generics.params ++ m.generics.params,
        hasKey GenericParam.sameKey (item.generics.merge m.generics).params p = true) ∧
      (∀ c ∈ item.generics.predicates,
        hasKey Predicate.sameKey (item.generics.merge m.generics).predicates c = true) ∧
      ∀ c ∈ m.generics.predicates,
        hasKey Predicate.sameKey (item.generics.merge m.generics).predicates c = true := by
  obtain ⟨decls, item, m, hparse, hitem, hm, hread⟩ := exists_method_of_parse
    "trait Foo<T> where T: Clone { fn f<U>(&self) where U: Debug; }"
    (f := fun item m => (item.generics.hasBrackets, m.generics.hasBrackets,
      (item.generics.merge m.generics).renderWhere))
    (b := (true, true, "where T: Clone, U: Debug")) (by decide +kernel)
  obtain ⟨hx, hread⟩ := Prod.mk.inj hread
  obtain ⟨hy, hwhere⟩ := Prod.mk.inj hread
  have hitemRead : item.IsRead := ⟨none, _, decls, hparse, hitem⟩
  have hmRead : m.IsRead := .inr ⟨item, hitemRead, hm⟩
  obtain ⟨hparams, hleft, hright⟩ := Item.keys_merge hitemRead hmRead
  exact ⟨item, m, hitemRead, hmRead, hx, hy, hwhere, hparams, hleft hx, hright (.inl hy)⟩

/-- The method of `trait Foo<T> { fn f(&self) where T: Copy; }` has no brackets, and its predicate
is lost. -/
theorem bareConstraint_lost :
    ∃ (decls : DeclFile) (item : Item) (m : Method),
      DeclFile.parse none "trait Foo<T> { fn f(&self) where T: Copy; }" = .ok decls ∧
      item ∈ decls.items ∧ m ∈ item.methods ∧ m.generics.renderWhere = "where T: Copy" ∧
      ∃ c ∈ m.generics.predicates,
        hasKey Predicate.sameKey (item.generics.merge m.generics).predicates c = false := by
  obtain ⟨decls, item, m, hparse, hitem, hm, hread⟩ := exists_method_of_parse
    "trait Foo<T> { fn f(&self) where T: Copy; }"
    (f := fun item m => (m.generics.renderWhere, m.generics.predicates.any fun c =>
      !hasKey Predicate.sameKey (item.generics.merge m.generics).predicates c))
    (b := ("where T: Copy", true)) (by decide +kernel)
  obtain ⟨hwhere, hlost⟩ := Prod.mk.inj hread
  obtain ⟨c, hc, hkey⟩ := List.any_eq_true.mp hlost
  exact ⟨decls, item, m, hparse, hitem, hm, hwhere, c, hc, (Bool.not_eq_true' _).mp hkey⟩

end TraitMock
