import TraitMock.Proofs.Mock.Faults
import TraitMock.Proofs.Walk.Forms

/-!
# Proofs/Mock/Forms — planning finds everything that it looks up

What is read is well formed throughout, and the passes keep it so (`formed_of_reading`).  While an
item is planned, its methods hand their types to the passes one after the other (`Method.Hands`),
and each of these is what has been read, or what an earlier pass has made of it.  So a path of which
the last segment is looked up has one, and a trait object of which the first bound is looked up has
one.
-/

namespace TraitMock

open Checked

/-! ## What is looked up -/

/-- **A part has what is looked up in it**: a path its first and its last segment, and a trait
object or an unnamed type its first bound. -/
def Part.Complete : Part → Prop
  | .path p => (∃ first, p.segments.head? = some first) ∧ ∃ last, p.segments.getLast? = some last
  | .type (.traitObject bounds _) | .type (.implTrait bounds _) =>
    ∃ first, bounds.head? = some first
  | .type _ => True

theorem exists_head? {α : Type} {xs : List α} (h : xs ≠ []) : ∃ x, xs.head? = some x :=
  ⟨xs.head h, List.head?_eq_some_head h⟩

theorem Part.Solid.complete {part : Part} (h : part.Solid) : part.Complete := by
  cases part with
  | path path =>
    exact ⟨exists_head? h.1, path.segments.getLast h.1, List.getLast?_eq_some_getLast h.1⟩
  | type ty =>
    cases ty with
    | traitObject bounds s | implTrait bounds s => exact exists_head? h
    | _ => trivial

/-- The paths whose last segments give a mock its names. -/
def Item.namePaths : Item → List Path
  | .traitDecl _ => []
  | .implDecl d => d.traitPath.toList ++ match d.selfTy with
    | .path path _ => [path]
    | _ => []

/-- **The types that the planning of a method hands to its passes**: those of its arguments, its
result without an unnamed type, and what the replacement of `Self` makes of this. -/
inductive Method.Hands (m : Method) (head : MockHead) (generics : Generics) : Ty → Prop
  | arg {facts : MethodFacts} {ty : Ty} (classified : (m.facts (some generics)).Gives facts)
      (mem : ty ∈ facts.argTypes) : Hands m head generics ty
  | output {facts : MethodFacts} {ty : Ty} (classified : (m.facts (some generics)).Gives facts)
      (mem : ty ∈ facts.output) : Hands m head generics ty
  | replaced {ty : Ty} {e : Edit Ty} (hands : Hands m head generics ty)
      (gives : (ty.substSelf (mockIdent head.struct) head.interface).Gives e) :
      Hands m head generics (e.apply ty)

/-- **Nothing is missing that the planning of an item looks up**: not in the paths that give the
mock its names, nor in a type that is handed to a pass, which is well formed. -/
structure Item.Complete (item : Item) : Prop where
  names : ∀ path ∈ item.namePaths, (Part.path path).Complete
  types : ∀ head, item.mockHead? = some head → ∀ m ∈ item.methods, ∀ ty,
    m.Hands head item.generics ty → ∀ part ∈ ty.parts, part.WellFormed ∧ part.Complete

/-! ## What is well formed is complete -/

/-- The name of the mock of something that is called by an identifier is one. -/
theorem isIdentifier_mockIdent {struct : Ident} (h : isIdentifier struct.name) :
    isIdentifier (mockIdent struct).name := by
  have hchars : struct.name.toList.all Terminal.isNameChar := by
    unfold isIdentifier at h
    split at h
    next => exact absurd h Bool.false_ne_true
    next c cs hname =>
      rw [Bool.and_eq_true] at h
      rw [hname, List.all_cons, Bool.and_eq_true]
      exact ⟨by simp [Terminal.isNameChar, h.1], h.2⟩
  have hmock : (mockIdent struct).name.toList = 'M' :: ("ock".toList ++ struct.name.toList) :=
    String.toList_append
  rw [isIdentifier, hmock]
  dsimp only
  rw [List.all_append, hchars]
  decide

variable {item : Item} {m : Method} {head : MockHead}

theorem Item.namePaths_formed (h : AllFormed item.parts) :
    ∀ path ∈ item.namePaths, (Part.path path).WellFormed := by
  intro path hpath
  cases item with
  | traitDecl d => cases hpath
  | implDecl d =>
    obtain ⟨selfTy, traitPath, generics, methods, span⟩ := d
    simp only [Item.parts, allParts_append] at h
    obtain ⟨⟨-, htrait, hself⟩, -⟩ := h
    rcases List.mem_append.mp hpath with hpath | hpath
    · rw [Option.mem_toList] at hpath
      obtain rfl := hpath
      exact htrait _ path.mem_parts
    · cases selfTy with
      | path path' s =>
        obtain rfl := List.mem_singleton.mp hpath
        exact hself _ (List.mem_cons_of_mem _ path.mem_parts)
      | _ => cases hpath

/-- What the mock of an implementation is named after is the last segment of the path of its
target. -/
theorem ImplDecl.exists_namePath {d : ImplDecl} (h : d.mockHead? = some head) :
    ∃ path ∈ Item.namePaths (.implDecl d), ∃ args, ⟨head.struct, args⟩ ∈ path.segments := by
  obtain ⟨selfTy, traitPath, generics, methods, span⟩ := d
  cases selfTy with
  | path path s =>
    refine ⟨path, List.mem_append_right _ (List.mem_singleton_self _), ?_⟩
    simp only [mockHead?, bind, Option.bind_eq_some_iff] at h
    obtain ⟨⟨ident, args⟩, hlast, h⟩ := h
    refine ⟨args, List.mem_of_getLast? ?_⟩
    cases traitPath with
    | none =>
      obtain rfl := Option.some.inj h
      exact hlast
    | some traitPath =>
      simp only [Option.bind_eq_some_iff] at h
      obtain ⟨interface, -, h⟩ := h
      obtain rfl := Option.some.inj h
      exact hlast
  | _ => cases h

/-- What a mock is named after is called by an identifier. -/
theorem Item.isIdentifier_struct (hparts : AllFormed item.parts) (hitem : item.Formed)
    (h : item.mockHead? = some head) : isIdentifier head.struct.name := by
  cases item with
  | traitDecl d =>
    obtain rfl := Option.some.inj h
    exact hitem.1
  | implDecl d =>
    obtain ⟨path, hpath, args, hmem⟩ := ImplDecl.exists_namePath h
    exact ((Item.namePaths_formed hparts path hpath).2 _ hmem).1

/-- Every type that is handed to a pass is well formed. -/
theorem Method.Hands.allFormed {generics : Generics} {ty : Ty} (h : m.Hands head generics ty)
    (hm : AllFormed m.parts) (hstruct : isIdentifier head.struct.name) : AllFormed ty.parts := by
  have hfacts : ∀ facts, (m.facts (some generics)).Gives facts → m.FactsRead facts := by
    intro facts hgives
    obtain ⟨facts', reports, hrun, hread⟩ := m.exists_facts (some generics)
    exact Gives.unique ⟨reports, hrun⟩ hgives ▸ hread
  induction h with
  | arg classified mem =>
    rw [(hfacts _ classified).argTypes] at mem
    exact fun part hpart => hm part (argTypeParts_subset mem hpart)
  | output classified mem =>
    rw [(hfacts _ classified).output] at mem
    obtain ⟨ty, hty, rfl⟩ := Option.map_eq_some_iff.mp mem
    exact AllFormed.eraseImpl fun part hpart => hm part (outputParts_subset hty hpart)
  | replaced _ gives ih =>
    obtain ⟨reports, hrun⟩ := gives
    exact ih.substSelf (isIdentifier_mockIdent hstruct) hrun

theorem Item.complete_of_formed (hparts : AllFormed item.parts) (hitem : item.Formed) :
    item.Complete where
  names path hpath := (Item.namePaths_formed hparts path hpath).1.complete
  types head hhead m hm ty hty part hpart := by
    have hmethod : AllFormed m.parts := fun part hpart => hparts part (methodParts_subset hm hpart)
    have hformed := hty.allFormed hmethod (isIdentifier_struct hparts hitem hhead) part hpart
    exact ⟨hformed, hformed.1.complete⟩

/-! ## Reading and planning -/

/-- **What is read is well formed, stays so, and lacks nothing that is looked up.**

* Whatever is read, as a type, a method, generics, a visibility or a declaration file, is well
  formed throughout: so are all its types and paths, and all that stands beside them.
* The passes leave paths, bounds and positions in order wherever they give a type back, under
  whatever policy and by whatever name; and they leave all of it well formed if that name is an
  identifier.
* Planning an item of a declaration file that has been read finds everything that it looks up. -/
theorem formed_of_reading :
    (∀ {text ty}, Ty.parse text = .ok ty → AllFormed ty.parts) ∧
    (∀ {text m}, Method.parse text = .ok m → AllFormed m.parts ∧ m.Formed) ∧
    (∀ {text g}, Generics.parse text = .ok g → AllFormed g.parts ∧ g.Formed) ∧
    (∀ {text vis}, Visibility.parse text = .ok vis → AllFormed vis.parts ∧ vis.Formed) ∧
    (∀ {file text decls}, DeclFile.parse file text = .ok decls →
      ∀ item ∈ decls.items, (AllFormed item.parts ∧ item.Formed) ∧ item.Complete) ∧
    (∀ {ty : Ty}, AllSolid ty.parts → AllSolid (ty.eraseImpl.apply ty).parts ∧
      ∀ {policy e reports},
        (∀ {actual interface}, (ty.substSelf actual interface).run policy = ⟨.ok e, reports⟩ →
          AllSolid (e.apply ty).parts) ∧
        (ty.liftSuper.run policy = ⟨.ok e, reports⟩ → AllSolid (e.apply ty).parts)) ∧
    (∀ {ty : Ty}, AllFormed ty.parts → AllFormed (ty.eraseImpl.apply ty).parts ∧
      ∀ {policy e reports},
        (∀ {actual interface}, isIdentifier actual.name →
          (ty.substSelf actual interface).run policy = ⟨.ok e, reports⟩ →
          AllFormed (e.apply ty).parts) ∧
        (ty.liftSuper.run policy = ⟨.ok e, reports⟩ → AllFormed (e.apply ty).parts)) := by
  refine ⟨fun h => ?_, fun h => ?_, fun h => ?_, fun {text vis} h => ?_, fun h item hitem => ?_,
    fun h => ⟨h.eraseImpl, fun {_ _ _} => ⟨h.substSelf, h.liftSuper⟩⟩,
    fun h => ⟨h.eraseImpl, fun {_ _ _} => ⟨fun hactual => h.substSelf hactual, h.liftSuper⟩⟩⟩
  · exact (Machine.wellFormed_of_parse .type h).1
  · exact Machine.wellFormed_of_parse .method h
  · exact Machine.wellFormed_of_parse .generics h
  · by_cases hblank : text.toList.all Text.isBlank = true
    · have hinherited : Visibility.parse text = .ok .inherited := if_pos hblank
      obtain rfl : Visibility.inherited = vis := Except.ok.inj (hinherited.symm.trans h)
      exact ⟨allParts_nil, trivial⟩
    · have hparse : Visibility.parse text = Machine.parse none .visibility text.toList :=
        if_neg hblank
      exact Machine.wellFormed_of_parse .visibility (hparse.symm.trans h)
  · have hformed := DeclFile.wellFormed_of_parse h item hitem
    exact ⟨hformed, item.complete_of_formed hformed.1 hformed.2⟩

/-- A run that can be seen to give a value gives one. -/
theorem Checked.exists_run_of_toOption {α β : Type} {c : Checked α} {policy : Policy}
    {f : α → β} {b : β} (h : (c.run policy).result.toOption.map f = some b) :
    ∃ a reports, c.run policy = ⟨.ok a, reports⟩ ∧ f a = b := by
  obtain ⟨a, ha, hb⟩ := exists_of_toOption h
  exact ⟨a, (c.run policy).reports, congrArg (Outcome.mk · _) ha, hb⟩

/-- The four small entry points at texts with something to look up, a qualified path that is rid of
`Self` and one that is lifted, and an implementation that is named after two paths. -/
theorem formed_of_reading_qualified :
    (∃ ty, Ty.parse "<Self as super::T>::X" = .ok ty ∧ AllSolid (ty.eraseImpl.apply ty).parts ∧
      isIdentifier "MockT" ∧
      (∃ e reports, (ty.substSelf ⟨"MockT", {}⟩ (some "T")).run .collect = ⟨.ok e, reports⟩ ∧
        AllFormed (e.apply ty).parts) ∧
      ∃ e reports, ty.liftSuper.run .collect = ⟨.ok e, reports⟩ ∧
        (e.apply ty).render = "<Self as super::super::super::T>::X" ∧ AllSolid (e.apply ty).parts) ∧
    (∃ m, Method.parse "fn f(a: &dyn A) -> impl B" = .ok m ∧ AllFormed m.parts ∧ m.Formed) ∧
    (∃ g, Generics.parse "<'a, T: ?Sized>" = .ok g ∧ AllFormed g.parts ∧ g.Formed) ∧
    (∃ vis, Visibility.parse "pub(super)" = .ok vis ∧ AllFormed vis.parts ∧ vis.Formed) ∧
    ∃ decls item, DeclFile.parse none "impl a::T for b::S { fn f() -> Box<dyn T>; }" = .ok decls ∧
      item ∈ decls.items ∧ (item.namePaths.map Path.render) = ["a::T", "b::S"] ∧ item.Complete := by
  obtain ⟨htype, hmethod, hgenerics, hvis, hdecls, hsolid, hformed⟩ := formed_of_reading
  refine ⟨?_, ?_, ?_, ?_, ?_⟩
  · obtain ⟨ty, hty, hruns⟩ := exists_of_toOption (e := Ty.parse "<Self as super::T>::X")
      (f := fun ty => (((ty.substSelf ⟨"MockT", {}⟩ (some "T")).run .collect).result.toOption.map
          fun _ => (),
        (ty.liftSuper.run .collect).result.toOption.map fun e => (e.apply ty).render))
      (b := (some (), some "<Self as super::super::super::T>::X")) (by decide +kernel)
    obtain ⟨hsubst, hlift⟩ := Prod.mk.inj hruns
    obtain ⟨e, reports, hrun, -⟩ := exists_run_of_toOption hsubst
    obtain ⟨e', reports', hrun', hrender⟩ := exists_run_of_toOption hlift
    have hparts := htype hty
    have hactual : isIdentifier "MockT" := by decide
    exact ⟨ty, hty, (hsolid hparts.allSolid).1, hactual,
      ⟨e, reports, hrun, (hformed hparts).2.1 hactual hrun⟩,
      e', reports', hrun', hrender, (hsolid hparts.allSolid).2.2 hrun'⟩
  · obtain ⟨m, hm, -⟩ := exists_of_toOption (e := Method.parse "fn f(a: &dyn A) -> impl B")
      (f := fun _ => ()) (b := ()) (by decide +kernel)
    exact ⟨m, hm, hmethod hm⟩
  · obtain ⟨g, hg, -⟩ := exists_of_toOption (e := Generics.parse "<'a, T: ?Sized>")
      (f := fun _ => ()) (b := ()) (by decide +kernel)
    exact ⟨g, hg, hgenerics hg⟩
  · obtain ⟨vis, hread, -⟩ := exists_of_toOption (e := Visibility.parse "pub(super)")
      (f := fun _ => ()) (b := ()) (by decide +kernel)
    exact ⟨vis, hread, hvis hread⟩
  · obtain ⟨decls, hread, hpaths⟩ := exists_of_toOption
      (e := DeclFile.parse none "impl a::T for b::S { fn f() -> Box<dyn T>; }")
      (f := fun decls => decls.items.map fun item => item.namePaths.map Path.render)
      (b := [["a::T", "b::S"]]) (by decide +kernel)
    obtain ⟨item, hitems, hitem⟩ := List.map_eq_singleton_iff.mp hpaths
    have hmem : item ∈ decls.items := by
      rw [hitems]
      exact List.mem_singleton_self item
    exact ⟨decls, item, hread, hmem, hitem, (hdecls hread item hmem).2⟩

end TraitMock
