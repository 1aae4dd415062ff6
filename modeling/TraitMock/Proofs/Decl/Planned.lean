import TraitMock.Proofs.Decl.Lowered
import TraitMock.Proofs.Decl.Unmuted

/-!
# Proofs/Decl/Planned — the planned signature is source again

The signature that a plan shows is the declared one with two changes: arguments lose their `mut`,
and the result is erased, gets the name of the mock and is lifted.  The rule of methods carries both
changes over (`method_carries`), so every method of a file that has been read can be read again when
it is planned (`DeclFile.readsPlanned_of_parse`).
-/

namespace TraitMock

open Table Machine Parts

/-! ## Planned methods -/

section Planned

variable (actual : Ident) (interface : Option String)

/-- **A method as its plan shows it.** -/
def Method.planned (m : Method) : Method :=
  { m with
    params := m.params.map Param.withoutMut
    output := m.output.map fun ty => lowering actual interface .type ty.erased }

/-- **A method that can be planned**: its arguments can be handed on, and its result can be
lowered. -/
structure Method.Plannable (m : Method) : Prop where
  params : ∀ p ∈ m.params, p.Handed
  output : ∀ ty ∈ m.output, Lowers actual interface .type ty.erased

/-- **A method can be read as its plan shows it.** -/
def Method.ReadsPlanned (m : Method) : Prop :=
  m.Plannable actual interface → ∃ m', Method.parse (m.planned actual interface).render = .ok m' ∧
    (m.planned actual interface).BackAs m'

/-- What phrases right inside a method stand for, as its plan shows them. -/
def planning : Change
  | .params, ps => List.map Param.withoutMut ps
  | .type, ty => lowering actual interface .type (Ty.erased ty)
  | _, v => v

/-- A phrase right inside a method can be planned. -/
def Plannable : (n : Nonterminal) → n.Val → Prop
  | .params, ps => ∀ p ∈ ps, Param.Handed p
  | .type, ty => Lowers actual interface .type (Ty.erased ty)
  | _, _ => True

end Planned

/-- **All methods of what a phrase stands for** have a property. -/
def Nonterminal.EachMethod (K : Method → Prop) : (n : Nonterminal) → n.Val → Prop
  | .items, xs | .declFile, xs => ∀ item ∈ xs, ∀ m ∈ Item.methods item, K m
  | .item, x | .traitItem, x | .implItem, x => ∀ m ∈ Item.methods x, K m
  | .methods, xs => ∀ m ∈ xs, K m
  | .method, x => K x
  | _, _ => True

/-- The rules of items have the methods of their parts. -/
theorem items_eachMethod {K : Method → Prop} : ∀ r ∈ Grammar.items ++ Grammar.methods ++
    Grammar.declFile ++ Grammar.item ++ Grammar.traitItem ++ Grammar.implItem,
      ∀ (place : Place) (vals : r.parts.Val), r.parts.AllPhrases (Nonterminal.EachMethod K) vals →
        r.lhs.EachMethod K (r.action place vals) := by
  refine List.forall_iff_forall_mem.mp ⟨?_, ?_, ?_, ?_, ?_, ?_, ?_, ?_, ?_⟩
  · exact fun _ _ h => List.forall_mem_singleton.mpr h.1
  · exact fun _ _ h => List.forall_mem_append.mpr ⟨h.1, List.forall_mem_singleton.mpr h.2.1⟩
  · exact fun _ _ h => List.forall_mem_singleton.mpr h.1
  · exact fun _ _ h => List.forall_mem_append.mpr ⟨h.1, List.forall_mem_singleton.mpr h.2.1⟩
  · exact fun _ _ h => Grammar.forall_mem_orNil.mpr fun u hu => (h.1 u hu).1
  · exact fun _ _ h => h.1
  · exact fun _ _ h => h.1
  · rintro place vals ⟨-, -, -, -, -, hmethods, -⟩
    exact Grammar.forall_mem_orNil.mpr fun u hu => (hmethods u hu).1
  · rintro place vals ⟨-, -, -, -, hmethods, -⟩
    exact Grammar.forall_mem_orNil.mpr fun u hu => (hmethods u hu).1

variable {actual : Ident} {interface : Option String}

/-- Of each phrase inside a method it is known that it can be read as the plan shows it. -/
theorem rereads_planning {s : Nat} {n : Nonterminal} {v : n.Val} {first next : Terminal}
    (h : ((lowered actual interface).and unmuting) s n v first next)
    (hplan : Plannable actual interface n v) :
    Rereads declared s n (planning actual interface n v) first next := by
  obtain ⟨⟨-, hlowered⟩, ⟨hsame, -⟩, hunmuted⟩ := h
  by_cases hparams : n = .params
  · subst hparams
    exact hunmuted hplan
  by_cases htype : n = .type
  · subst htype
    exact hlowered.beside hplan
  have hkept : planning actual interface n v = v := by
    cases n <;> first | rfl | contradiction
  exact hkept.symm ▸ hsame

/-- A rule makes methods that can be read as their plans show them. -/
def Rule.KeepsPlanned (actual : Ident) (interface : Option String) (r : Rule) : Prop :=
  ∀ {s g stop : Nat} {first next : Terminal} (place : Place) (vals : r.parts.Val),
    step s (.phrase r.lhs) = some g →
      r.parts.Holds ((lowered actual interface).and unmuting) s vals first stop next →
        EndsBefore r.lhs next →
          r.lhs.EachMethod (·.ReadsPlanned actual interface) (r.action place vals)

/-- **A method that can be read again somewhere** is read from its own text. -/
theorem Method.exists_parse_of_rereads {s : Nat} {m : Method} {first next : Terminal}
    (h : Rereads declared s .method m first next) :
    ∃ m', Method.parse m.render = .ok m' ∧ m.BackAs m' := by
  obtain ⟨-, hagain⟩ := h (by decide)
  obtain ⟨ws, hagain⟩ := hagain trivial
  exact Method.exists_parse_of_again
    (hagain.elsewhere (fun h => absurd h (by decide)) id fun h => absurd h (by decide))

/-- **A method can be read as its plan shows it**: what is changed inside it can be read in its
place. -/
theorem method_keepsPlanned : ∀ r ∈ Grammar.method, r.KeepsPlanned actual interface := by
  have hr := List.forall_mem_singleton.mp fun r (h : r ∈ Grammar.method) =>
    Grammar.mem_rules (n := .method) h
  refine List.forall_mem_singleton.mpr ?_
  rintro s g stop first next place ⟨vis, name, generics, params, output, clause, ⟨⟩⟩ hg h hends
  rintro ⟨hparams, houtput⟩
  have hparams := Grammar.forall_mem_orNil.mp hparams
  have houtput := Grammar.forall_mem_only.mp houtput
  have hplanned := h.change rereads_planning
    ⟨fun _ _ => ⟨trivial, trivial⟩, trivial, fun _ _ => ⟨trivial, trivial⟩,
      fun u hu => ⟨hparams u hu, trivial⟩, fun u hu => ⟨houtput u hu, trivial⟩,
      fun _ _ => ⟨trivial, trivial⟩, trivial⟩
  have hagain := (rules_rewrite _ hr).preserves hr place _ hg hplanned hends
  rcases vis with _ | ⟨vis, ⟨⟩⟩ <;> rcases generics with _ | ⟨generics, ⟨⟩⟩ <;>
    rcases clause with _ | ⟨clause, ⟨⟩⟩ <;> rcases params with _ | ⟨params, ⟨⟩⟩ <;>
    rcases output with _ | ⟨output, ⟨⟩⟩ <;> exact Method.exists_parse_of_rereads hagain

/-- The phrases around methods. -/
def itemLists : List Nonterminal := [.items, .methods, .declFile, .item, .traitItem, .implItem]

theorem Nonterminal.eachMethod_of_not_mem {K : Method → Prop} {n : Nonterminal}
    (hmethod : n ≠ .method) (hn : n ∉ itemLists) (v : n.Val) : n.EachMethod K v := by
  cases n <;> first | exact True.intro | contradiction

section Judgement

variable (actual : Ident) (interface : Option String)

/-- Every method of what a phrase stands for can be read as its plan shows it. -/
def readsPlanned : Judgement := fun _ n v _ _ => n.EachMethod (·.ReadsPlanned actual interface) v

/-- **What is known of the phrases of a file**: of those inside methods what is needed to plan
these, and of all methods that they can be read as their plans show them. -/
abbrev planned : Judgement :=
  ((lowered actual interface).and unmuting).and (readsPlanned actual interface)

end Judgement

section Rules

variable (hfree : ∀ span, Ident.Free ⟨actual.name, span⟩) (hactual : actual.name ≠ superName)

include hfree hactual

/-- **Every rule keeps what is known of the phrases of a file.** -/
theorem rules_plan : ∀ r ∈ Grammar.rules, r.Preserves (planned actual interface) := by
  intro r hr
  have hinside : r.Preserves ((lowered actual interface).and unmuting) :=
    Rule.Preserves.and (Rule.preserves_lowered hfree hactual hr) fun place vals hg hholds hends =>
      rules_unmute r hr place vals hg (hholds.mono fun h => h.2) hends
  refine @Rule.Preserves.and _ _ _ hinside fun place vals hg hholds hends => ?_
  by_cases hmethod : r.lhs = .method
  · exact method_keepsPlanned r (Grammar.mem_of_lhs hr hmethod) place vals hg
      (hholds.mono fun h => h.1) hends
  by_cases hlist : r.lhs ∈ itemLists
  · exact items_eachMethod r (Grammar.mem_of_lhs_mem rfl hr hlist) place vals
      (hholds.all (fun _ => trivial) fun h => h.2)
  · exact Nonterminal.eachMethod_of_not_mem hmethod hlist _

/-- **Every method of a file that has been read can be read as its plan shows it.** -/
theorem DeclFile.readsPlanned_of_parse {file : Option String} {text : String} {decls : DeclFile}
    (h : DeclFile.parse file text = .ok decls) :
    ∀ item ∈ decls.items, ∀ m ∈ item.methods, m.ReadsPlanned actual interface := by
  have hrules : ∀ r ∈ Grammar.rules, r.Preserves (planned actual interface) :=
    rules_plan hfree hactual
  obtain ⟨first, -, hmethods⟩ := Machine.holds_of_parse hrules (DeclFile.parse_eq_ok_iff.mp h).1
  exact hmethods

end Rules

end TraitMock
