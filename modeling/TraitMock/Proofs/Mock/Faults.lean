import TraitMock.Mock.Plan
import TraitMock.Proofs.Decl.ReadForms
import TraitMock.Proofs.Decl.RoundTrip
import TraitMock.Proofs.Method.StandIns
import TraitMock.Proofs.Walk.Faults
import TraitMock.Proofs.Walk.Image

/-!
# Proofs/Mock/Faults — where the planning of a file that has been read ends

Planning ends only in a type that the passes do not know how to walk over, and these are function
pointers and unnamed types.  `Item.faults` lists them for a whole item, in the order in which the
passes come to them; planning ends by the first of them, and gives a plan if there is none
(`Item.plan_ends`).

* A result is walked over to replace `Self` in it.  What comes out of this can always be lifted
  (`Ty.exists_gives_liftSuper`).
* An argument with an unnamed type in it is not walked over at all.  So none ends planning by being
  one; what ends it in an argument is a function pointer (`Ty.eq_functionPointer_of_mem`).
-/

namespace TraitMock

open Checked

/-! ## What has been read is known -/

theorem AllRead.known {parts : List Part} (h : AllRead parts) : Known parts :=
  fun _ hmem => Bool.false_ne_true (h _ hmem)

/-- Erasing an unnamed type makes a written form of it. -/
theorem AllRead.eraseImpl {ty : Ty} (h : AllRead ty.parts) :
    AllRead (ty.eraseImpl.apply ty).parts := by
  unfold Ty.eraseImpl
  split
  · rw [AllRead, Ty.parts, allParts_cons] at h
    simpa [AllRead, Ty.parts, Path.parts, segmentsParts, Segment.parts, SegmentArgs.parts,
      argsParts, GenericArg.parts, Part.isRead] using h.2
  · exact h

/-- A path that has been read has a last segment. -/
theorem AllRead.exists_getLast? {path : Path} (h : AllRead path.parts) :
    ∃ segment, path.segments.getLast? = some segment := by
  obtain ⟨segments, leadingColon⟩ := path
  rw [AllRead, Path.parts, allParts_cons] at h
  cases hlast : segments.getLast? with
  | some segment => exact ⟨segment, rfl⟩
  | none =>
    obtain rfl := List.getLast?_eq_none_iff.mp hlast
    exact absurd h.1 Bool.false_ne_true

/-! ## Results -/

theorem faultsAt_eq_nil_iff {places : List Part} : faultsAt places = [] ↔ Walkable places :=
  List.filterMap_eq_nil_iff

/-- **What `Self` has been replaced in can be lifted.** -/
theorem Ty.exists_gives_liftSuper {ty : Ty} {actual : Ident} {interface : Option String}
    {e : Edit Ty} (h : (ty.substSelf actual interface).Gives e) :
    ∃ e', (e.apply ty).liftSuper.Gives e' := by
  obtain ⟨reports, hrun⟩ := h
  have horderly := Pass.orderly_selfType actual interface
  obtain ⟨hwalkable, happly⟩ := Ty.run_walk_inv horderly hrun
  have hafter : Walkable ((ty.after (.selfType actual interface)).places .superPath) :=
    hwalkable.after (horderly.clears fun _ => rfl)
  have hends := Ty.endsBy_walk Pass.orderly_superPath (e.apply ty)
  rwa [happly, faultsAt_eq_nil_iff.mpr hafter, ← happly] at hends

/-- **What ends the planning of a result**: where the pass that replaces `Self` comes to. -/
def outputFaults (head : MockHead) : Option Ty → List Fault
  | none => []
  | some ty =>
    faultsAt ((ty.eraseImpl.apply ty).places (.selfType (mockIdent head.struct) head.interface))

theorem endsBy_lowerOutput (head : MockHead) (output : Option Ty) :
    (lowerOutput (mockIdent head.struct) head.interface
      (output.map fun ty => ty.eraseImpl.apply ty)).EndsBy (outputFaults head output) := by
  cases output with
  | none => exact endsBy_of_gives (gives_pure none)
  | some ty =>
    refine (Ty.endsBy_walk (Pass.orderly_selfType (mockIdent head.struct) head.interface)
      (ty.eraseImpl.apply ty)).bind_of_gives fun e he => ?_
    obtain ⟨e', he'⟩ := Ty.exists_gives_liftSuper he
    exact (endsBy_of_gives he').map fun e' => some (e'.apply (e.apply (ty.eraseImpl.apply ty)))

/-! ## Arguments -/

/-- **What ends the planning of an argument**: what is outside the types of qualified paths, if
there is no unnamed type among it. -/
def Ty.argFaults (ty : Ty) : List Fault :=
  match ty.hasImplTrait with
  | .ok false => faultsAt (ty.places .plain)
  | _ => []

/-- **No argument ends planning by being an unnamed type.** -/
theorem Ty.eq_functionPointer_of_mem {ty : Ty} (h : Known ty.parts) {fault : Fault}
    (hfault : fault ∈ ty.argFaults) : fault = .functionPointer := by
  unfold argFaults at hfault
  split at hfault
  next hfound =>
    refine ((h.places .plain).fault hfault).resolve_right ?_
    rintro rfl
    obtain ⟨part, hpart, hunnamed⟩ := List.mem_filterMap.mp hfault
    have hnone := Except.ok.inj ((Ty.finds_hasImplTrait ty (h.places .plain)).symm.trans hfound)
    exact List.any_eq_false.mp hnone part hpart (Part.isUnnamed_of_fault? hunnamed)
  next => exact absurd hfault List.not_mem_nil

theorem Ty.endsBy_liftArgType {ty : Ty} (h : Known ty.parts) :
    (liftArgType ty).EndsBy ty.argFaults := by
  have hfound := Ty.finds_hasImplTrait ty (h.places .plain)
  rw [liftArgType, argFaults, hfound]
  refine (endsBy_of_gives (gives_ofExcept _)).bind fun found hgives => ?_
  obtain rfl := (gives_ofExcept _).unique hgives
  cases (ty.places .plain).any Part.isUnnamed with
  | true => exact endsBy_of_gives ⟨_, rfl⟩
  | false =>
    have hends := (Ty.endsBy_walk Pass.orderly_superPath ty).map fun e => e.apply ty
    rwa [Ty.places_superPath] at hends

theorem endsBy_liftArgTypes {tys : List Ty} (h : ∀ ty ∈ tys, Known ty.parts) :
    (liftArgTypes tys).EndsBy (tys.flatMap Ty.argFaults) := by
  induction tys with
  | nil => exact endsBy_of_gives (gives_pure [])
  | cons ty rest ih =>
    obtain ⟨hty, hrest⟩ := List.forall_mem_cons.mp h
    rw [liftArgTypes, List.flatMap_cons]
    exact (Ty.endsBy_liftArgType hty).bind fun _ _ => (ih hrest).map _

/-! ## Methods and items -/

/-- **What ends the planning of a method**: its result first, and then its arguments in their
order. -/
def Method.faults (m : Method) (head : MockHead) : List Fault :=
  outputFaults head m.output ++ (m.params.filterMap Param.ty?).flatMap Ty.argFaults

/-- What ends the planning of an item, one method after the other. -/
def Item.faults (item : Item) (head : MockHead) : List Fault := item.methods.flatMap (·.faults head)

variable {m : Method} {item : Item} {head : MockHead} {levels : Int}

/-- The parts of the type of an argument are parts of its method. -/
theorem Method.argTypeParts_subset {ty : Ty} (h : ty ∈ m.params.filterMap Param.ty?) :
    ty.parts ⊆ m.parts := by
  obtain ⟨p, hp, hpty⟩ := List.mem_filterMap.mp h
  cases p with
  | receiver => cases hpty
  | typed pat ty' span =>
    obtain rfl := Option.some.inj hpty
    exact argParts_subset hp

theorem Method.known_args (h : AllRead m.parts) :
    ∀ ty ∈ m.params.filterMap Param.ty?, Known ty.parts :=
  fun _ hty => AllRead.known fun part hpart => h part (argTypeParts_subset hty hpart)

theorem Method.known_output (h : AllRead m.parts) {ty : Ty} (hty : m.output = some ty) :
    Known (ty.eraseImpl.apply ty).parts :=
  (AllRead.eraseImpl fun part hpart => h part (outputParts_subset hty hpart)).known

/-- **The planning of a method that has been read** ends by the first of its faults. -/
theorem Method.endsBy_plan (h : AllRead m.parts) (head : MockHead) (generics : Generics)
    (hlevels : 1 ≤ levels) : (m.plan head generics levels).EndsBy (m.faults head) := by
  obtain ⟨facts, reports, hrun, hfacts⟩ := m.exists_facts (some generics)
  have hgives : (m.facts (some generics)).Gives facts := ⟨reports, hrun⟩
  refine (endsBy_of_gives hgives).bind fun facts' hfacts' => ?_
  obtain rfl := hgives.unique hfacts'
  rw [hfacts.output, hfacts.argTypes]
  refine (endsBy_lowerOutput head m.output).bind fun output _ => ?_
  refine (endsBy_liftArgTypes (Method.known_args h)).bind_of_gives fun argTypes _ => ?_
  have hreroot : ∀ vis : Visibility, vis.reroot levels = .ok (vis.rerootBy levels.toNat) :=
    fun vis => if_neg (Int.not_lt.mpr hlevels)
  simp only [hreroot]
  exact ⟨_, [], rfl⟩

theorem endsBy_planMethods {methods : List Method} (h : ∀ m ∈ methods, AllRead m.parts)
    (head : MockHead) (generics : Generics) (hlevels : 1 ≤ levels) :
    (planMethods head generics levels methods).EndsBy (methods.flatMap (·.faults head)) := by
  induction methods with
  | nil => exact endsBy_of_gives (gives_pure [])
  | cons m rest ih =>
    obtain ⟨hm, hrest⟩ := List.forall_mem_cons.mp h
    rw [planMethods, List.flatMap_cons]
    exact (Method.endsBy_plan hm head generics hlevels).bind fun _ _ => (ih hrest).map _

/-- Whether a type is a plain path. -/
def Ty.isPlainPath : Ty → Bool
  | .path _ _ => true
  | _ => false

/-- **Whether there is a name for the mock of an item**: it is a trait, or an implementation for a
plain path. -/
def Item.isNamed : Item → Bool
  | .traitDecl _ => true
  | .implDecl d => d.selfTy.isPlainPath

/-- What has been read and is named has a head. -/
theorem Item.exists_mockHead (h : AllRead item.parts) (hnamed : item.isNamed) :
    ∃ head, item.mockHead? = some head := by
  cases item with
  | traitDecl d => exact ⟨d.mockHead, rfl⟩
  | implDecl d =>
    obtain ⟨selfTy, traitPath, generics, methods, span⟩ := d
    simp only [Item.parts, allParts_append] at h
    obtain ⟨⟨-, htrait, hself⟩, -⟩ := h
    cases selfTy with
    | path path s =>
      rw [Ty.parts, allParts_cons] at hself
      obtain ⟨struct, hstruct⟩ := AllRead.exists_getLast? hself.2
      cases traitPath with
      | none => simp [mockHead?, ImplDecl.mockHead?, hstruct]
      | some traitPath =>
        obtain ⟨interface, hinterface⟩ := AllRead.exists_getLast? htrait
        simp [mockHead?, ImplDecl.mockHead?, hstruct, hinterface]
    | _ => cases hnamed

/-- What is not named has no head. -/
theorem Item.mockHead?_eq_none (hnamed : ¬ item.isNamed) : item.mockHead? = none := by
  cases item with
  | traitDecl d => exact absurd rfl hnamed
  | implDecl d =>
    obtain ⟨selfTy, traitPath, generics, methods, span⟩ := d
    cases selfTy with
    | path path s => exact absurd rfl hnamed
    | _ => rfl

theorem Item.allRead_methods (h : AllRead item.parts) : ∀ m ∈ item.methods, AllRead m.parts :=
  fun _ hm part hpart => h part (methodParts_subset hm hpart)

/-- **The planning of an item that has been read** ends only by the faults of its types.

* An implementation for something that is no plain path is reported and gets no plan.
* Any other item is planned unless one of its methods has a fault: a function pointer or an unnamed
  type where the pass that replaces `Self` comes to in the result, `impl Trait` erased, or, in an
  argument without unnamed types, a function pointer outside the types of qualified paths.  Planning
  ends by the first of these, the methods taken in their order, and the result before the arguments.
* What `Self` has been replaced in can always be lifted. -/
theorem Item.plan_ends {file : Option String} {text : String} {decls : DeclFile}
    (h : DeclFile.parse file text = .ok decls) (hitem : item ∈ decls.items) (hlevels : 1 ≤ levels) :
    (¬ item.isNamed → (item.plan levels).run .collect =
      ⟨.ok none, [.ofProblem .unnamedTarget item.targetSpan]⟩) ∧
    (item.isNamed → ∃ head, item.mockHead? = some head ∧
      (∀ fault, (item.plan levels).FailsBy fault ↔ (item.faults head).head? = some fault) ∧
      (item.faults head = [] → ∃ plan, (item.plan levels).Gives (some plan)) ∧
      ∀ m ∈ item.methods,
        (∀ fault ∈ outputFaults head m.output, fault = .functionPointer ∨ fault = .implTrait) ∧
        (∀ ty ∈ m.params.filterMap Param.ty?, ∀ fault ∈ ty.argFaults, fault = .functionPointer) ∧
        ∀ ty ∈ m.output.map fun ty => ty.eraseImpl.apply ty, ∀ e,
          (ty.substSelf (mockIdent head.struct) head.interface).Gives e →
            ∃ e', (e.apply ty).liftSuper.Gives e') := by
  have hread := DeclFile.allRead_of_parse h item hitem
  have hmethods := Item.allRead_methods hread
  refine ⟨fun hnamed => ?_, fun hnamed => ?_⟩
  · rw [Item.plan, Item.mockHead?_eq_none hnamed]
    rfl
  · obtain ⟨head, hhead⟩ := Item.exists_mockHead hread hnamed
    have hplans : (planMethods head item.generics levels item.methods).EndsBy (item.faults head) :=
      endsBy_planMethods hmethods head item.generics hlevels
    have hends : (item.plan levels).EndsBy (item.faults head) := by
      rw [Item.plan, hhead]
      exact hplans.map _
    refine ⟨head, hhead, hends.failsBy_iff, fun hnone => ?_, fun m hm => ⟨?_, ?_, ?_⟩⟩
    · rw [hnone] at hplans
      obtain ⟨plans, reports, hrun⟩ := hplans
      rw [Item.plan, hhead]
      exact ⟨_, _, run_bind_ok hrun _⟩
    · intro fault hfault
      cases houtput : m.output with
      | none =>
        rw [houtput] at hfault
        cases hfault
      | some ty =>
        rw [houtput] at hfault
        exact ((Method.known_output (hmethods m hm) houtput).places _).fault hfault
    · intro ty hty fault hfault
      exact Ty.eq_functionPointer_of_mem (Method.known_args (hmethods m hm) ty hty) hfault
    · intro ty _ e he
      exact Ty.exists_gives_liftSuper he

/-- A result with an unnamed type inside it and an argument that is a function pointer: planning
ends by the result, which comes first. -/
theorem nestedUnnamed_ends :
    ∃ decls item, DeclFile.parse none "trait T { fn f(g: fn()) -> (impl A,); }" = .ok decls ∧
      item ∈ decls.items ∧ (1 : Int) ≤ 2 ∧ item.isNamed ∧ (item.plan 2).FailsBy .implTrait := by
  obtain ⟨decls, hparse, hfaults⟩ := exists_of_toOption
    (e := DeclFile.parse none "trait T { fn f(g: fn()) -> (impl A,); }")
    (f := fun decls => decls.items.map fun item => (item.isNamed, item.mockHead?.map item.faults))
    (b := [(true, some [.implTrait, .functionPointer])]) (by decide +kernel)
  obtain ⟨item, hitems, hitem⟩ := List.map_eq_singleton_iff.mp hfaults
  obtain ⟨hnamed, hfaults⟩ := Prod.mk.inj hitem
  have hmem : item ∈ decls.items := by
    rw [hitems]
    exact List.mem_singleton_self item
  have hlevels : (1 : Int) ≤ 2 := by decide
  obtain ⟨head, hhead, hends, -⟩ := (Item.plan_ends hparse hmem hlevels).2 hnamed
  rw [hhead] at hfaults
  have hfirst : item.faults head = [.implTrait, .functionPointer] := Option.some.inj hfaults
  refine ⟨decls, item, hparse, hmem, hlevels, hnamed, (hends _).mpr ?_⟩
  rw [hfirst]
  rfl

end TraitMock
