import TraitMock.Proofs.Walk.Image
import TraitMock.Proofs.Walk.Passes

/-!
# Proofs/Walk/SelfType — the replacement of `Self` is complete, and done once and for all

* `Ty.selfless_substSelf` — in what comes of a type, no path outside the types of qualified paths
  has a segment named `Self`, and no trait object is left that stands for the mock.
* `Ty.substSelf_idempotent` — replacing `Self` again leaves the type alone, and has the same to
  complain of, but for bounds that spoke of `Self`.

Both rest on what the replacement leaves at a single place: `Ty.places_after` carries it to the
whole type.  A name that the replacement brings in can be that of the interface, but it never ends a
sole bound: where a sole bound ended in `Self`, its trait object has given way.
-/

namespace TraitMock

variable {policy : Policy} {actual : Ident} {interface : Option String}

/-! ## Trait objects that stand for the mock -/

/-- **Bounds that stand for the mock**: a trait alone, not relaxed, whose path ends in `Self` or in
the interface. -/
def StandForMock (interface : Option String) (bounds : List Bound) : Prop :=
  ∃ path name, bounds = [.trait path false] ∧ path.lastName? = some name ∧
    (name = selfName ∨ some name = interface)

namespace Pass

/-- A trait object gives way exactly if its bounds stand for the mock. -/
theorem collapse_selfType_eq_none_iff {bounds : List Bound} :
    (selfType actual interface).collapse bounds = none ↔ ¬ StandForMock interface bounds := by
  match bounds with
  | [.trait path false] =>
    cases hlast : path.lastName? with
    | none => simp [selfType, Bound.namesMock, StandForMock, hlast]
    | some name => simp [selfType, Bound.namesMock, StandForMock, hlast]
  | [] | [.trait _ true] | [.outlives _] | _ :: _ :: _ =>
    simp [selfType, Bound.namesMock, StandForMock]

theorem called_selfType (name : String) :
    (selfType actual interface).called name = if name = selfName then actual.name else name := by
  simp only [called, selfType]
  split <;> rfl

theorem names_after_selfType (path : Path) :
    (path.after (selfType actual interface)).names =
      path.names.map (selfType actual interface).called :=
  Path.names_after _ _

/-- No path speaks of `Self` after the walk. -/
theorem self_not_mem_names_after (hactual : actual.name ≠ selfName) (path : Path) :
    selfName ∉ (path.after (selfType actual interface)).names := by
  rw [names_after_selfType]
  intro hself
  obtain ⟨name, -, hname⟩ := List.mem_map.mp hself
  exact called_selfType_ne hactual interface name hname

/-- Bounds that stand for the mock after the walk have done so before. -/
theorem standForMock_of_after {bounds : List Bound}
    (h : StandForMock interface (boundsAfter (selfType actual interface) bounds)) :
    StandForMock interface bounds := by
  obtain ⟨path, name, hbounds, hlast, hname⟩ := h
  match bounds with
  | [.trait old relaxed] =>
    simp only [boundsAfter, Bound.after, List.cons.injEq, Bound.trait.injEq, and_true] at hbounds
    obtain ⟨rfl, rfl⟩ := hbounds
    rw [← Path.getLast?_names, names_after_selfType, List.getLast?_map, Path.getLast?_names,
      Option.map_eq_some_iff] at hlast
    obtain ⟨oldName, hold, hcalled⟩ := hlast
    refine ⟨old, oldName, rfl, hold, ?_⟩
    rw [called_selfType] at hcalled
    split at hcalled
    next hself => exact .inl hself
    next => exact hcalled ▸ hname
  | [] | [.outlives _] | _ :: _ :: _ => simp [boundsAfter, Bound.after] at hbounds

/-- **The replacement of `Self` clears its own way.** -/
theorem clears_selfType (actual : Ident) (interface : Option String) :
    (selfType actual interface).Clears (selfType actual interface) where
  toOrderly := orderly_selfType actual interface
  collapse_after h := collapse_selfType_eq_none_iff.mpr
    (mt standForMock_of_after (collapse_selfType_eq_none_iff.mp h))

/-- The name of the mock is not replaced, unless it is `Self`. -/
theorem spares_name_selfType (hactual : actual.name ≠ selfName) {name : String}
    (h : (selfType actual interface).Collapses name) :
    (selfType actual interface).rename name = none ∧
      ∀ span args, (selfType actual interface).lead (sole name span args) = [] :=
  ⟨by rw [name_of_collapses h]; exact if_neg hactual, fun _ _ => rfl⟩

end Pass

/-! ## Completeness -/

/-- A type is a trait object after the walk only if it was one that did not give way. -/
theorem Ty.eq_traitObject_of_after {p : Pass} (hp : p.Orderly) {ty : Ty} {bounds : List Bound}
    {s : Span} (h : ty.after p = .traitObject bounds s) :
    ∃ olds, ty = .traitObject olds s ∧ p.collapse olds = none ∧ bounds = boundsAfter p olds := by
  cases ty with
  | traitObject olds s' =>
    cases hc : p.collapse olds with
    | none =>
      simp only [Ty.after, hc, Ty.traitObject.injEq] at h
      exact ⟨olds, by rw [h.2], hc, h.1.symm⟩
    | some name =>
      obtain ⟨⟨segments, leadingColon⟩, relaxed, rfl, hne⟩ := hp.collapse_sole hc
      obtain ⟨ident, args, -, hafter, -⟩ := walks_last hp name segments hne
      simp [Ty.after, hc, soleAfter, hafter] at h
  | _ => simp [Ty.after] at h

/-- **The replacement of `Self` is complete**: in what comes of a type, under whatever policy, no
path outside the types of qualified paths has a segment named `Self`, and the bounds of no trait
object stand for the mock. -/
theorem Ty.selfless_substSelf {ty : Ty} {e : Edit Ty} {reports : List Diagnostic}
    (hactual : actual.name ≠ selfName)
    (h : (ty.substSelf actual interface).run policy = ⟨.ok e, reports⟩) :
    (∀ path, .path path ∈ (e.apply ty).places .plain → selfName ∉ path.names) ∧
    (∀ bounds s, .type (.traitObject bounds s) ∈ (e.apply ty).places .plain →
      ¬ StandForMock interface bounds) := by
  have hclears := Pass.clears_selfType actual interface
  obtain ⟨hwalkable, happly⟩ := Ty.run_walk_inv hclears.toOrderly h
  rw [happly, Ty.places_after (hclears.toOrderly.clears fun _ => rfl)
    (Pass.spares_name_selfType hactual) hwalkable]
  constructor
  · intro path hpath
    obtain ⟨old | old, -, hold⟩ := List.mem_map.mp hpath
    · cases hold
    · obtain rfl := Part.path.inj hold
      exact Pass.self_not_mem_names_after hactual old
  · intro bounds s hobject
    obtain ⟨old | old, -, hold⟩ := List.mem_map.mp hobject
    · obtain ⟨olds, -, hnone, rfl⟩ :=
        Ty.eq_traitObject_of_after hclears.toOrderly (Part.type.inj hold)
      exact Pass.collapse_selfType_eq_none_iff.mp (hclears.collapse_after hnone)
    · cases hold

/-- `Box<dyn Foo<Self>>` -/
def boxedFoo : Ty :=
  let foo : Path := ⟨[⟨⟨"Foo", {}⟩, .angle [.type (.path (.ofIdents [⟨selfName, {}⟩]) {})]⟩], false⟩
  .path ⟨[⟨⟨"Box", {}⟩, .angle [.type (.traitObject [.trait foo false] {})]⟩], false⟩ {}

/-- In the trait `Foo` it becomes `Box<MockFoo<MockFoo>>`. -/
theorem boxedFoo_selfless :
    ∃ e, (boxedFoo.substSelf ⟨"MockFoo", {}⟩ (some "Foo")).run .collect = ⟨.ok e, []⟩ ∧
      (∀ path, .path path ∈ (e.apply boxedFoo).places .plain → selfName ∉ path.names) ∧
      (∀ bounds s, .type (.traitObject bounds s) ∈ (e.apply boxedFoo).places .plain →
        ¬ StandForMock (some "Foo") bounds) := by
  have hrun : (boxedFoo.substSelf ⟨"MockFoo", {}⟩ (some "Foo")).run .collect = ⟨.ok _, []⟩ := rfl
  exact ⟨_, hrun, Ty.selfless_substSelf (by decide) hrun⟩

/-! ## Idempotence -/

theorem Path.mentionsSelf_iff (path : Path) : path.mentionsSelf = true ↔ selfName ∈ path.names := by
  simp [mentionsSelf, names, List.any_eq_true, List.mem_map]

namespace Problem

/-- What is said of an opaque type is not what is said of bounds that speak of `Self`. -/
theorem message_opaqueReturn_ne (text : String) :
    (opaqueReturn text).message ≠ selfAmongBounds.message := by
  intro h
  have h : "type `" ++ text ++ "` is not supported as a return type" = selfAmongBounds.message := h
  have hchars := congrArg (·.toList[1]?) h
  simp only [String.toList_append] at hchars
  rw [List.append_assoc, List.getElem?_append_left (by decide)] at hchars
  exact absurd hchars (by decide)

theorem message_qualifiedPath_ne : qualifiedPath.message ≠ selfAmongBounds.message := by decide

end Problem

namespace Pass

/-- After the walk there is nothing to object to in any bounds. -/
theorem objection_after_selfType (hactual : actual.name ≠ selfName) (bounds : List Bound) :
    (selfType actual interface).objection (boundsAfter (selfType actual interface) bounds) =
      none := by
  have hbounds : ∀ olds : List Bound,
      (boundsAfter (selfType actual interface) olds).any Bound.mentionsSelf = false := by
    intro olds
    induction olds with
    | nil => rfl
    | cons bound olds ih =>
      rw [boundsAfter, List.any_cons, ih, Bool.or_false, ← Bool.not_eq_true]
      cases bound with
      | trait path relaxed =>
        rw [Bound.after, Bound.mentionsSelf, Path.mentionsSelf_iff]
        exact self_not_mem_names_after hactual path
      | outlives lifetime => exact Bool.false_ne_true
  have hnone := hbounds bounds
  simp only [selfType] at hnone ⊢
  rw [hnone, Bool.and_false]
  rfl

/-- Only bounds that speak of `Self` are objected to. -/
theorem eq_of_mem_objection_selfType {bounds : List Bound} {problem : Problem}
    (h : problem ∈ (selfType actual interface).objection bounds) : problem = .selfAmongBounds := by
  simp only [selfType, Option.mem_def, Option.ite_none_right_eq_some] at h
  exact (Option.some.inj h.2).symm

/-- Of a trait object nothing is complained of after the walk: either it has given way, or its
bounds do not speak of `Self` any more. -/
theorem complaint?_object_after_selfType (hactual : actual.name ≠ selfName) (bounds : List Bound)
    (s : Span) : (selfType actual interface).complaint?
      (.type ((Ty.traitObject bounds s).after (selfType actual interface))) = none := by
  have hclears := clears_selfType actual interface
  cases hc : (selfType actual interface).collapse bounds with
  | none =>
    simp only [Ty.after, complaint?, hc, hclears.collapse_after hc,
      objection_after_selfType hactual, Option.map_none]
  | some name =>
    obtain ⟨⟨segments, leadingColon⟩, relaxed, rfl, hne⟩ := hclears.collapse_sole hc
    obtain ⟨ident, args, -, hafter, -⟩ := walks_last hclears.toOrderly name segments hne
    simp [Ty.after, complaint?, hc, soleAfter, hafter]

/-- Of a trait object nothing is complained of before the walk but that its bounds speak of
`Self`. -/
theorem filter_complaint?_object (bounds : List Bound) (s : Span) :
    ((selfType actual interface).complaint? (.type (.traitObject bounds s))).filter
      (·.message != Problem.selfAmongBounds.message) = none := by
  rw [complaint?]
  split
  next => rfl
  next =>
    rw [Option.filter_eq_none_iff]
    intro complaint hcomplaint
    obtain ⟨problem, hproblem, rfl⟩ := Option.map_eq_some_iff.mp hcomplaint
    rw [eq_of_mem_objection_selfType hproblem]
    simp [Diagnostic.ofProblem]

/-- **What is complained of after the walk** is what was complained of before, but for bounds that
spoke of `Self`. -/
theorem complaint?_after_selfType (hactual : actual.name ≠ selfName) {place : Part}
    (h : place.fault? = none) :
    (selfType actual interface).complaint? (place.after (selfType actual interface)) =
      ((selfType actual interface).complaint? place).filter
        (·.message != Problem.selfAmongBounds.message) := by
  rcases place with ty | path
  · cases ty with
    | function | implTrait | unknown => cases h
    | macroCall text s | verbatim text s =>
      rw [Part.after, Ty.after, complaint?, Option.filter_some]
      exact (if_pos (bne_iff_ne.mpr (Problem.message_opaqueReturn_ne text))).symm
    | qualified self position path s =>
      rw [Part.after, Ty.after, complaint?, complaint?, Option.filter_some]
      exact (if_pos (bne_iff_ne.mpr Problem.message_qualifiedPath_ne)).symm
    | traitObject bounds s =>
      rw [filter_complaint?_object, Part.after, complaint?_object_after_selfType hactual]
    | _ => simp [Part.after, Ty.after, complaint?]
  · rfl

/-- **After the walk every place is spared.** -/
theorem spares_after_selfType (hactual : actual.name ≠ selfName) (place : Part) :
    (selfType actual interface).spares (place.after (selfType actual interface)) = true := by
  rcases place with ty | path
  · rw [Part.after]
    cases hty : ty.after (selfType actual interface) with
    | traitObject bounds s =>
      obtain ⟨olds, -, hnone, rfl⟩ := Ty.eq_traitObject_of_after (orderly_selfType ..) hty
      rw [spares, (clears_selfType actual interface).collapse_after hnone]
      rfl
    | _ => rfl
  · have hself : selfName ∉ (path.after (selfType actual interface)).names :=
      self_not_mem_names_after hactual path
    rw [Part.after, spares, Bool.and_eq_true, List.all_eq_true]
    refine ⟨fun segment hsegment => ?_, rfl⟩
    have hname : segment.ident.name ≠ selfName := fun h =>
      hself (List.mem_map.mpr ⟨segment, hsegment, h⟩)
    simp [selfType, hname]

/-- All complaints after the walk. -/
theorem complaints_after_selfType (hactual : actual.name ≠ selfName) {places : List Part}
    (h : Walkable places) :
    (selfType actual interface).complaints (places.map (Part.after (selfType actual interface))) =
      ((selfType actual interface).complaints places).filter
        (·.message != Problem.selfAmongBounds.message) := by
  induction places with
  | nil => rfl
  | cons place rest ih =>
    obtain ⟨hplace, hrest⟩ := walkable_cons.mp h
    have ih := ih hrest
    simp only [complaints] at ih ⊢
    rw [List.map_cons, List.filterMap_cons, List.filterMap_cons,
      complaint?_after_selfType hactual hplace, ih]
    cases (selfType actual interface).complaint? place with
    | none => rfl
    | some complaint =>
      rw [Option.filter_some]
      by_cases hother : (complaint.message != Problem.selfAmongBounds.message) = true
      · simp only [hother, if_true, List.filter_cons_of_pos]
      · simp only [hother, Bool.false_eq_true, if_false, List.filter_cons_of_neg, not_false_eq_true]

end Pass

/-- **Replacing `Self` again changes nothing**: what comes of a type is left alone, and complained
of as before, but not of bounds that spoke of `Self`. -/
theorem Ty.substSelf_idempotent {ty : Ty} {e : Edit Ty} {reports : List Diagnostic}
    (hactual : actual.name ≠ selfName)
    (h : (ty.substSelf actual interface).run .collect = ⟨.ok e, reports⟩) :
    ((e.apply ty).substSelf actual interface).run .collect =
      ⟨.ok .keep, reports.filter (·.message != Problem.selfAmongBounds.message)⟩ := by
  have hclears := Pass.clears_selfType actual interface
  obtain ⟨hwalkable, happly⟩ := Ty.run_walk_inv hclears.toOrderly h
  have hplaces := Ty.places_after hclears (Pass.spares_name_selfType hactual) hwalkable
  have hreports : reports =
      (Pass.selfType actual interface).complaints (ty.places (Pass.selfType actual interface)) := by
    obtain ⟨e', hrun, -⟩ := Ty.run_walk hclears.toOrderly hwalkable
    exact (Outcome.mk.inj (h.symm.trans hrun)).2
  obtain ⟨e', hrun, -, hkeep⟩ := Ty.run_walk hclears.toOrderly (hwalkable.after hclears)
  rw [hplaces, Pass.complaints_after_selfType hactual hwalkable, ← hreports] at hrun
  have hspared : e'.isKeep = true := by
    rw [hkeep, hplaces, List.all_map, List.all_eq_true]
    exact fun place _ => Pass.spares_after_selfType hactual place
  cases e' with
  | replace new => cases hspared
  | keep => exact happly ▸ hrun

/-- `(dyn Self + Send, m!())` -/
def objectAndCall : Ty :=
  let bound (name : String) : Bound := .trait (.ofIdents [⟨name, {}⟩]) false
  .tuple [.traitObject [bound selfName, bound "Send"] {}, .macroCall "m!()" {}] {}

/-- It is complained of the bounds and of the call, and of the call once more. -/
theorem objectAndCall_again :
    ∃ e, (objectAndCall.substSelf ⟨"MockFoo", {}⟩ none).run .collect =
        ⟨.ok e, [.ofProblem .selfAmongBounds {}, .ofProblem (.opaqueReturn "m!()") {}]⟩ ∧
      ((e.apply objectAndCall).substSelf ⟨"MockFoo", {}⟩ none).run .collect =
        ⟨.ok .keep, [.ofProblem (.opaqueReturn "m!()") {}]⟩ := by
  have hactual : (⟨"MockFoo", {}⟩ : Ident).name ≠ selfName := by decide
  have hrun : (objectAndCall.substSelf ⟨"MockFoo", {}⟩ none).run .collect =
      ⟨.ok _, [.ofProblem .selfAmongBounds {}, .ofProblem (.opaqueReturn "m!()") {}]⟩ := rfl
  have hrest :
      [Diagnostic.ofProblem .selfAmongBounds {}, .ofProblem (.opaqueReturn "m!()") {}].filter
          (·.message != Problem.selfAmongBounds.message) =
        [.ofProblem (.opaqueReturn "m!()") {}] := by
    decide
  exact ⟨_, hrun, hrest ▸ Ty.substSelf_idempotent hactual hrun⟩

end TraitMock
