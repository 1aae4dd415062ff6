import TraitMock.Proofs.Decl.ReadForms
import TraitMock.Proofs.Walk.Passes
import TraitMock.Proofs.Walk.Stems
import TraitMock.Walk.ImplTrait

/-!
# Proofs/Walk/Forms — what is well formed stays so

The passes throw segments away, put some in front of a path, and let trait objects give way to
names.  None of this leaves a path without segments, a trait object without bounds, or a qualified
path whose trait is not where its position says (`Pass.keeps_solid`): what comes in front of such a
path belongs to the trait, and the position moves with it.

Names stay identifiers if those that a pass puts in are (`Pass.Literate`); and a type that stands
where another would need brackets keeps its form, or becomes a name.
-/

namespace TraitMock

variable {p : Pass} {policy : Policy}

/-! ## Paths, bounds and positions -/

/-- **Parts at all of which paths, bounds and positions are in order.** -/
abbrev AllSolid (parts : List Part) : Prop := AllParts Part.Solid parts

/-- What is well formed has its segments, bounds and positions in order. -/
theorem AllFormed.allSolid {parts : List Part} (h : AllFormed parts) : AllSolid parts :=
  fun part hpart => (h part hpart).1

/-- A walk takes no segment away from a path. -/
theorem Path.length_segments_after (p : Pass) (path : Path) :
    path.segments.length ≤ (path.after p).segments.length := by
  obtain ⟨segments, leadingColon⟩ := path
  rw [Path.after, led, List.length_append, length_segmentsAfter]
  exact Nat.le_add_left _ _

/-- **A pass leaves a part in order**: no path runs out of segments, and no position too far. -/
theorem Part.Solid.after (p : Pass) {part : Part} (h : part.Solid) : (part.after p).Solid := by
  cases part with
  | path path =>
    obtain ⟨hne, hcolon⟩ := h
    refine ⟨fun hnil => hne (List.length_eq_zero_iff.mp ?_), path.leadingColon_after p ▸ hcolon⟩
    have hlength := path.length_segments_after p
    rwa [hnil, List.length_nil, Nat.le_zero] at hlength
  | type ty =>
    cases ty with
    | traitObject bounds s =>
      simp only [Part.after, Ty.after]
      split
      · split
        · trivial
        · exact h
      · exact boundsAfter_eq_map p bounds ▸ mt List.map_eq_nil_iff.mp h
    | qualified self position path s =>
      have hlength := path.length_segments_after p
      obtain ⟨hfirst, hrest⟩ := h
      simp only [Part.after, Ty.after, Solid]
      omega
    | _ => exact h

/-- A path of one segment is in order. -/
theorem Pass.solid_sole (name : String) (span : Span) (args : SegmentArgs) :
    (Part.path (Pass.sole name span args)).Solid := ⟨List.cons_ne_nil _ _, rfl⟩

/-- **Every pass keeps paths, bounds and positions in order.** -/
theorem Pass.keeps_solid (hp : p.Orderly) : p.Keeps Part.Solid :=
  { hp with
    after := fun _ h => h.after p
    sole := fun _ _ _ => solid_sole _ _ _ }

/-! ## Names and brackets -/

/-- **A pass all names of which are identifiers.** -/
structure Pass.Literate (p : Pass) : Prop where
  rename : ∀ {old new}, p.rename old = some new → isIdentifier new
  lead : ∀ {path segment}, segment ∈ p.lead path → segment.Formed
  collapse : ∀ {name}, p.Collapses name → isIdentifier name

/-- Where there are no bounds, none appear. -/
theorem Ty.isBare_after {ty : Ty} (h : ty.isBare) : (ty.after p).isBare := by
  cases ty <;> first | exact h | cases h

/-- What can be referred to without brackets still can after a pass. -/
theorem Ty.isTarget_after {ty : Ty} (h : ty.isTarget) : (ty.after p).isTarget := by
  unfold isTarget at h
  split at h
  · simp only [Ty.after]
    split
    · split <;> rfl
    · rfl
  · exact isTarget_of_isBare (isBare_after h)

/-- A name is an identifier after a pass that puts in identifiers only. -/
theorem isIdentifier_after (hp : p.Literate) {ident : Ident} (h : isIdentifier ident.name) :
    isIdentifier (ident.after p).name := by
  unfold Ident.after
  split
  next hname => exact hp.rename hname
  next => exact h

/-- The form of a generic argument is its kind's, and a pass does not change kinds. -/
theorem GenericArg.Formed.after {arg : GenericArg} (h : arg.Formed) : (arg.after p).Formed := by
  cases arg <;> exact h

/-- Arguments stay in brackets or in parentheses, each formed as before. -/
theorem SegmentArgs.Formed.after {args : SegmentArgs} (h : args.Formed) :
    (args.after p).Formed := by
  cases args with
  | none => trivial
  | angle args =>
    rw [SegmentArgs.after, argsAfter_eq_map]
    exact List.forall_mem_map.mpr fun arg harg => (h arg harg).after
  | call inputs output =>
    cases output with
    | none => nofun
    | some ty => exact fun _ hty => Option.some.inj hty ▸ Ty.isBare_after (h ty rfl)

/-- A segment has an identifier for a name, before and after. -/
theorem Segment.Formed.after (hp : p.Literate) {segment : Segment} (h : segment.Formed) :
    (segment.after p).Formed := by
  obtain ⟨ident, args⟩ := segment
  exact ⟨isIdentifier_after hp h.1, h.2.after⟩

/-- The form of a bound stays what it is. -/
theorem Bound.Formed.after {bound : Bound} (h : bound.Formed) : (bound.after p).Formed := by
  cases bound <;> exact h

/-- **A pass that puts in identifiers only leaves a part its form.** -/
theorem Part.Formed.after (hp : p.Literate) {part : Part} (h : part.Formed) :
    (part.after p).Formed := by
  cases part with
  | path path =>
    obtain ⟨segments, leadingColon⟩ := path
    rw [Part.after, Path.after, segmentsAfter_eq_map]
    exact List.forall_mem_append.mpr
      ⟨fun _ => hp.lead, List.forall_mem_map.mpr fun segment hsegment =>
        (h segment hsegment).after hp⟩
  | type ty =>
    cases ty with
    | pointer elem isMut s => exact Ty.isBare_after h
    | reference elem lifetime isMut s => exact ⟨Ty.isTarget_after h.1, h.2⟩
    | traitObject bounds s =>
      simp only [Part.after, Ty.after]
      split
      · split
        · trivial
        · exact h
      · rw [boundsAfter_eq_map]
        exact List.forall_mem_map.mpr fun bound hbound => (h bound hbound).after
    | _ => exact h

/-- **A pass all names of which are identifiers** keeps everything well formed. -/
theorem Pass.keeps_wellFormed (hp : p.Orderly) (hnames : p.Literate) : p.Keeps Part.WellFormed :=
  { hp with
    after := fun _ h => ⟨h.1.after p, h.2.after hnames⟩
    sole := fun hc hpath hlast => ⟨solid_sole _ _ _, List.forall_mem_singleton.mpr
      ⟨hnames.collapse hc, (hpath.2 _ (List.mem_of_getLast? hlast)).2.after⟩⟩ }

/-! ## The passes -/

/-- The pass that puts in the mock puts in identifiers only, if the mock's name is one. -/
theorem Pass.literate_selfType {actual : Ident} (hactual : isIdentifier actual.name)
    (interface : Option String) : (Pass.selfType actual interface).Literate where
  rename h := by
    simp only [selfType] at h
    split at h
    · exact Option.some.inj h ▸ hactual
    · cases h
  lead h := absurd h List.not_mem_nil
  collapse h := name_of_collapses h ▸ hactual

theorem isIdentifier_superName : isIdentifier superName := by decide

/-- The pass that lifts paths puts in `super` only, which is one. -/
theorem Pass.literate_superPath : Pass.superPath.Literate where
  rename h := nomatch h
  lead {path segment} h := by
    simp only [superPath, Path.climb] at h
    split at h
    · split at h
      · obtain rfl := List.eq_of_mem_replicate h
        exact ⟨isIdentifier_superName, trivial⟩
      · cases h
    · cases h
  collapse h := absurd h (not_collapses_superPath _)

/-- Erasing an unnamed type leaves the parts of its bounds, and adds those of a boxed trait
object. -/
theorem Ty.forall_mem_parts_eraseImpl {P : Part → Prop} {ty : Ty} (h : ∀ part ∈ ty.parts, P part)
    (hbox : ∀ bounds s, P (.type (.implTrait bounds s)) →
      let path : Path := ⟨[⟨⟨"Box", s⟩, .angle [.type (.traitObject bounds s)]⟩], false⟩
      P (.type (.path path s)) ∧ P (.path path) ∧ P (.type (.traitObject bounds s))) :
    ∀ part ∈ (ty.eraseImpl.apply ty).parts, P part := by
  unfold eraseImpl
  split
  next bounds s =>
    obtain ⟨himpl, hbounds⟩ := List.forall_mem_cons.mp h
    obtain ⟨htype, hpath, hobject⟩ := hbox bounds s himpl
    simp only [Edit.apply_replace, Ty.parts, Path.parts, segmentsParts, Segment.parts,
      SegmentArgs.parts, argsParts, GenericArg.parts, List.append_nil]
    exact List.forall_mem_cons.mpr ⟨htype, List.forall_mem_cons.mpr
      ⟨hpath, List.forall_mem_cons.mpr ⟨hobject, hbounds⟩⟩⟩
  next => exact h

/-- Boxing an unnamed type leaves all parts in order. -/
theorem AllSolid.eraseImpl {ty : Ty} (h : AllSolid ty.parts) :
    AllSolid (ty.eraseImpl.apply ty).parts :=
  Ty.forall_mem_parts_eraseImpl h fun _ _ himpl => ⟨trivial, ⟨List.cons_ne_nil _ _, rfl⟩, himpl⟩

/-- Boxing an unnamed type leaves all parts well formed: `Box` is an identifier. -/
theorem AllFormed.eraseImpl {ty : Ty} (h : AllFormed ty.parts) :
    AllFormed (ty.eraseImpl.apply ty).parts := by
  refine Ty.forall_mem_parts_eraseImpl h fun bounds s himpl => ⟨⟨trivial, trivial⟩,
    ⟨⟨List.cons_ne_nil _ _, rfl⟩, List.forall_mem_singleton.mpr ⟨?_, ?_⟩⟩, himpl⟩
  · exact (by decide : isIdentifier "Box")
  · exact List.forall_mem_singleton.mpr trivial

variable {ty : Ty} {e : Edit Ty} {reports : List Diagnostic} {actual : Ident}
  {interface : Option String}

/-- Putting in the mock leaves all parts in order. -/
theorem AllSolid.substSelf (h : AllSolid ty.parts)
    (hrun : (ty.substSelf actual interface).run policy = ⟨.ok e, reports⟩) :
    AllSolid (e.apply ty).parts :=
  (Pass.keeps_solid (Pass.orderly_selfType actual interface)).run_walk hrun h

/-- Putting in the mock leaves all parts well formed, if its name is an identifier. -/
theorem AllFormed.substSelf (hactual : isIdentifier actual.name) (h : AllFormed ty.parts)
    (hrun : (ty.substSelf actual interface).run policy = ⟨.ok e, reports⟩) :
    AllFormed (e.apply ty).parts :=
  (Pass.keeps_wellFormed (Pass.orderly_selfType actual interface)
    (Pass.literate_selfType hactual interface)).run_walk hrun h

/-- Lifting paths leaves all parts in order. -/
theorem AllSolid.liftSuper (h : AllSolid ty.parts)
    (hrun : ty.liftSuper.run policy = ⟨.ok e, reports⟩) : AllSolid (e.apply ty).parts :=
  (Pass.keeps_solid Pass.orderly_superPath).run_walk hrun h

/-- Lifting paths leaves all parts well formed. -/
theorem AllFormed.liftSuper (h : AllFormed ty.parts)
    (hrun : ty.liftSuper.run policy = ⟨.ok e, reports⟩) : AllFormed (e.apply ty).parts :=
  (Pass.keeps_wellFormed Pass.orderly_superPath Pass.literate_superPath).run_walk hrun h

end TraitMock
