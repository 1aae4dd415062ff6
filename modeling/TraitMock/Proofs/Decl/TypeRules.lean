import TraitMock.Proofs.Decl.ListRules

/-!
# Proofs/Decl/TypeRules — types and paths are written again

One theorem for each group of rules.  A comma behind the last member of a list is left out, and so
are empty angle brackets; everything else is written as it was read.
-/

namespace TraitMock

open Text Parts

/-! ## Paths -/

/-- A name along a path is written as it was read, a keyword among them. -/
theorem pathIdent_rewrites : ∀ r ∈ Grammar.pathIdent, r.Rewrites declared := by
  have h : ∀ t : Terminal,
      Rule.Rewrites declared ⟨.pathIdent, token t done, fun place (x, _) => place.ident x⟩ := by
    rintro t - place ⟨x, ⟨⟩⟩ -
    refine ⟨trivial, fun _ => ⟨(x, ()), .of_text trivial [] rfl (by simp [Place.ident]) ?_⟩⟩
    rintro - ⟨y, ⟨⟩⟩ ⟨hxy, -⟩
    exact hxy
  exact List.forall_iff_forall_mem.mp ⟨h _, h _, h _⟩

/-- A segment comes back part by part. -/
theorem segment_back {ident ident' : Ident} {args args' : SegmentArgs}
    (hname : ident'.name = ident.name) (hargs : SegmentArgs.BackAs args args') :
    Segment.BackAs ⟨ident, args⟩ ⟨ident', args'⟩ := by
  simp [Segment.BackAs, Segment.render, Segment.alike, Segment.plain, Ident.alike, hname, hargs.1,
    hargs.2]

/-- Empty angle brackets come back as nothing, as nothing does. -/
theorem emptyArgs_back : SegmentArgs.BackAs .none .none ∧ SegmentArgs.BackAs (.angle []) .none := by
  simp [SegmentArgs.BackAs, SegmentArgs.alike, SegmentArgs.plain, SegmentArgs.render]

/-- A segment is written with its arguments, but without empty brackets. -/
theorem segment_rewrites : ∀ r ∈ Grammar.segment, r.Rewrites declared := by
  refine List.forall_mem_singleton.mpr ?_
  rintro - place ⟨x, _ | ⟨args, ⟨⟩⟩, ⟨⟩⟩ -
  · refine ⟨trivial, fun _ => ⟨(x, none, ()), .of_text ⟨trivial, trivial⟩ [] rfl ?_ ?_⟩⟩
    · simp [Segment.render, SegmentArgs.render]
    · rintro - ⟨y, _ | _, ⟨⟩⟩ ⟨hxy, h⟩
      · exact segment_back hxy emptyArgs_back.1
      · exact h.elim
  · refine ⟨trivial, fun _ => ?_⟩
    by_cases hargs : args = .angle []
    · subst hargs
      refine ⟨(x, none, ()), ⟨⟨rfl, rfl, .inl rfl, trivial⟩, ⟨trivial, trivial⟩, ⟨[], rfl, ?_⟩, ?_⟩⟩
      · simp [Segment.render, SegmentArgs.render]
      · rintro - ⟨y, _ | _, ⟨⟩⟩ ⟨hxy, h⟩
        · exact segment_back hxy emptyArgs_back.2
        · exact h.elim
    · refine ⟨(x, some (args, ()), ()), .of_text ⟨trivial, ⟨hargs, trivial⟩, trivial⟩ [] rfl ?_ ?_⟩
      · simp [Segment.render]
      · rintro - ⟨y, _ | ⟨args', ⟨⟩⟩, ⟨⟩⟩ ⟨hxy, h⟩
        · exact h.elim
        · exact segment_back hxy h.1.1

/-- A path is written segment by segment. -/
theorem path_rewrites : ∀ r ∈ Grammar.path, r.Rewrites declared := by
  refine List.forall_mem_singleton.mpr ?_
  rintro - place ⟨x, _ | ⟨xs, ⟨⟩⟩, ⟨⟩⟩ -
  · refine ⟨by simp, fun _ => ⟨(x, none, ()), .of_text ⟨trivial, trivial⟩ [] rfl ?_ ?_⟩⟩
    · simp [Path.render, renderSegments_eq_map]
    · rintro - ⟨y, _ | _, ⟨⟩⟩ ⟨hxy, h⟩
      · exact ⟨rfl, rfl, .cons hxy .nil⟩
      · exact h.elim
  · refine ⟨by simp, fun _ => ⟨(x, some (xs, ()), ()),
      .of_text ⟨trivial, ⟨trivial, trivial⟩, trivial⟩ [] rfl ?_ ?_⟩⟩
    · simp [Path.render, renderSegments_eq_map, joined_cons_eq]
    · rintro - ⟨y, _ | ⟨ys, ⟨⟩⟩, ⟨⟩⟩ ⟨hxy, h⟩
      · exact h.elim
      · exact ⟨rfl, rfl, .cons hxy h.1.1⟩

/-! ## Argument lists -/

/-- The members of an optional list without the comma behind the last one. -/
def withoutComma {α : Type} : Option (α × Option (List α × Unit) × Option Unit × Unit) →
    Option (α × Option (List α × Unit) × Option Unit × Unit)
  | none => none
  | some (first, more, _, _) => some (first, more, none, ())

/-- The members of a list come back member by member, also without the comma behind the last one. -/
theorem orEmpty_back {α : Type} {R : α → α → Prop}
    {S : α × Option (List α × Unit) × Option Unit × Unit →
      α × Option (List α × Unit) × Option Unit × Unit → Prop}
    {o o' : Option (α × Option (List α × Unit) × Option Unit × Unit)}
    (h : Option.Rel S (withoutComma o) o')
    (hS : ∀ {x y more more' comma}, S (x, more, none, ()) (y, more', comma, ()) →
      R x y ∧ Option.Rel (fun a b => List.Forall₂ R a.1 b.1 ∧ True) more more') :
    List.Forall₂ R (Grammar.orEmpty o) (Grammar.orEmpty o') := by
  rcases o with _ | ⟨x, more, comma, ⟨⟩⟩
  · cases h
    exact .nil
  · cases h with
    | some h =>
      obtain ⟨hx, hmore⟩ := hS h
      exact .cons hx (orNil_back hmore)

/-- The parts of a call signature: the types in parentheses and the result. -/
def callParts : Parts :=
  mark .lparen <|
    maybe (phrase .type <| maybe (phrase .moreTypes done) <| maybe (mark .comma done) done) <|
    mark .rparen <| maybe (mark .arrow <| phrase .typeNoBounds done) done

section Call

variable (inputs : Option (Ty × Option (List Ty × Unit) × Option Unit × Unit))
  (output : Option (Ty × Unit))

/-- What is in the parentheses of a call, and its result, is written without a last comma. -/
theorem call_written : callParts.Written declared (withoutComma inputs, output, ()) := by
  rcases inputs with _ | ⟨x, _ | ⟨xs, ⟨⟩⟩, c, ⟨⟩⟩ <;> rcases output with _ | ⟨ty, ⟨⟩⟩ <;>
    simp [callParts, Parts.Written, withoutComma]

/-- **How a call signature is laid out**: with blanks about the arrow. -/
theorem call_text : ∃ gaps, gaps.headD false = false ∧
    fits gaps (callParts.symbols (withoutComma inputs, output, ())) = true ∧
      spaced gaps ((callParts.pieces declared (withoutComma inputs, output, ())).map Prod.snd) =
        (callText (renderTypes (Grammar.orEmpty inputs))
          (renderOutput (Grammar.only output))).toList := by
  rcases inputs with _ | ⟨x, _ | ⟨xs, ⟨⟩⟩, c, ⟨⟩⟩ <;> rcases output with _ | ⟨ty, ⟨⟩⟩
  · exact ⟨[], rfl, rfl, by simp [callParts, callText, withoutComma, renderTypes, renderOutput]⟩
  · exact ⟨[false, false, true, true], rfl, rfl,
      by simp [callParts, callText, withoutComma, renderTypes, renderOutput]⟩
  · exact ⟨[], rfl, rfl, by simp [callParts, callText, withoutComma, renderTypes, renderOutput]⟩
  · exact ⟨[false, false, false, true, true], rfl, rfl,
      by simp [callParts, callText, withoutComma, renderTypes, renderOutput]⟩
  · exact ⟨[], rfl, rfl, by
      simp [callParts, callText, withoutComma, renderTypes_eq_map, renderOutput, joined_cons_eq]⟩
  · exact ⟨[false, false, false, false, true, true], rfl, rfl, by
      simp [callParts, callText, withoutComma, renderTypes_eq_map, renderOutput, joined_cons_eq]⟩

/-- A call signature comes back part by part. -/
theorem call_back {vals : callParts.Val}
    (h : callParts.BackAs declared (withoutComma inputs, output, ()) vals) :
    List.Forall₂ Ty.BackAs (Grammar.orEmpty inputs) (Grammar.orEmpty vals.1) ∧
      Option.Rel Ty.BackAs (Grammar.only output) (Grammar.only vals.2.1) := by
  obtain ⟨inputs', output', ⟨⟩⟩ := vals
  obtain ⟨hinputs, h⟩ := Parts.backAs_maybe.mp h
  obtain ⟨houtput, -⟩ := Parts.backAs_maybe.mp h
  exact ⟨orEmpty_back hinputs fun h => ⟨h.1, (Parts.backAs_maybe.mp h.2).1⟩, only_back houtput⟩

end Call

/-- The text of a list of generic arguments. -/
theorem render_angle {args : List GenericArg} (hne : args ≠ []) :
    SegmentArgs.render (.angle args) = "<" ++ joined ", " (args.map GenericArg.render) ++ ">" := by
  cases args with
  | nil => exact absurd rfl hne
  | cons arg rest => rw [SegmentArgs.render, renderGenericArgs_eq_map, List.map_cons]

/-- Arguments are written in the brackets or parentheses in which they were read. -/
theorem segmentArgs_rewrites : ∀ r ∈ Grammar.segmentArgs, r.Rewrites declared := by
  refine .pair ?_ ?_
  · rintro - place ⟨args, ⟨⟩⟩ -
    refine ⟨trivial, fun hwritten => ⟨(withoutComma args, ()), ?_, ?_, ?_, ?_⟩⟩
    · rcases args with _ | ⟨x, _ | ⟨xs, ⟨⟩⟩, _ | _, ⟨⟩⟩ <;> simp [Thins, withoutComma, mayOpen]
    · rcases args with _ | ⟨x, _ | ⟨xs, ⟨⟩⟩, c, ⟨⟩⟩ <;> simp [Parts.Written, withoutComma]
    · refine ⟨[], by rcases args with _ | ⟨x, _ | ⟨xs, ⟨⟩⟩, c, ⟨⟩⟩ <;> rfl, fun h => ?_⟩
      rw [declared_text, Nonterminal.text, render_angle fun hnil => hwritten (congrArg _ hnil)]
      rcases args with _ | ⟨x, _ | ⟨xs, ⟨⟩⟩, c, ⟨⟩⟩
      · exact absurd rfl hwritten
      · simpa [withoutComma] using h
      · simpa [withoutComma, joined_cons_eq] using h
    · rintro - ⟨args', ⟨⟩⟩ h
      exact angle_back (fun hnil => hwritten (congrArg _ hnil)) <|
        orEmpty_back (Parts.backAs_maybe.mp h).1 fun h => ⟨h.1, (Parts.backAs_maybe.mp h.2).1⟩
  · rintro - place ⟨inputs, output, ⟨⟩⟩ -
    obtain ⟨gaps, -, hfits, htext⟩ := call_text inputs output
    refine ⟨trivial, fun _ => ⟨(withoutComma inputs, output, ()), ?_, call_written inputs output,
      ⟨gaps, hfits, fun h => ?_⟩, ?_⟩⟩
    · rcases inputs with _ | ⟨x, _ | ⟨xs, ⟨⟩⟩, _ | _, ⟨⟩⟩ <;> rcases output with _ | ⟨ty, ⟨⟩⟩ <;>
        simp [Thins, withoutComma, mayOpen] <;> rfl
    · rw [declared_text, Nonterminal.text, SegmentArgs.render, ← htext]
      exact h
    · rintro - ⟨inputs', output', ⟨⟩⟩ h
      obtain ⟨hinputs, houtput⟩ := call_back inputs output h
      exact callArgs_back hinputs houtput

/-- A generic argument is written as its kind is. -/
theorem genericArg_rewrites : ∀ r ∈ Grammar.genericArg, r.Rewrites declared := by
  refine List.forall_iff_forall_mem.mp ⟨?_, ?_, ?_, ?_⟩
  · rintro - place ⟨ty, ⟨⟩⟩ -
    refine ⟨trivial, fun _ => ⟨(ty, ()), .of_text ⟨trivial, trivial⟩ [] rfl ?_ ?_⟩⟩
    · simp [GenericArg.render]
    · rintro - ⟨ty', ⟨⟩⟩ ⟨⟨halike, hrender⟩, -⟩
      simp [GenericArg.BackAs, GenericArg.alike, GenericArg.plain, GenericArg.render,
        halike, hrender]
  · rintro - place ⟨t, ⟨⟩⟩ ⟨ht, -⟩
    refine ⟨trivial, fun _ => ⟨(t, ()), .of_text trivial [] rfl ?_ ?_⟩⟩
    · simp [GenericArg.render, renderLifetime_lifetime ht]
    · rintro - ⟨u, ⟨⟩⟩ ⟨htu, -⟩
      simp [GenericArg.BackAs, GenericArg.alike, GenericArg.plain, Token.lifetime_eq htu]
  · rintro - place ⟨t, ty, ⟨⟩⟩ -
    refine ⟨trivial,
      fun _ => ⟨(t, ty, ()), .of_text ⟨trivial, trivial⟩ [false, true, true] rfl ?_ ?_⟩⟩
    · simp [GenericArg.render, Place.ident]
    · rintro - ⟨u, ty', ⟨⟩⟩ ⟨htu, ⟨halike, hrender⟩, -⟩
      simp [GenericArg.BackAs, GenericArg.alike, GenericArg.plain, GenericArg.render, Ident.alike,
        Place.ident, htu, halike, hrender]
  · rintro - place ⟨t, ⟨⟩⟩ -
    refine ⟨trivial, fun _ => ⟨(t, ()), .of_text trivial [] rfl ?_ ?_⟩⟩
    · simp [GenericArg.render]
    · rintro - ⟨u, ⟨⟩⟩ ⟨htu, -⟩
      simp [GenericArg.BackAs, GenericArg.alike, GenericArg.plain, htu]

/-! ## Bounds -/

/-- A bound is written with its `?` if there was one. -/
theorem bound_rewrites : ∀ r ∈ Grammar.bound, r.Rewrites declared := by
  refine List.forall_iff_forall_mem.mp ⟨?_, ?_, ?_⟩
  · rintro - place ⟨path, ⟨⟩⟩ -
    refine ⟨trivial, fun _ => ⟨(path, ()), .of_text ⟨trivial, trivial⟩ [] rfl ?_ ?_⟩⟩
    · simp [Bound.render]
    · rintro - ⟨path', ⟨⟩⟩ ⟨hpath, -⟩
      simp [Bound.BackAs, Bound.alike, Bound.plain, Bound.render, hpath.back]
  · rintro - place ⟨path, ⟨⟩⟩ -
    refine ⟨trivial, fun _ => ⟨(path, ()), .of_text ⟨trivial, trivial⟩ [] rfl ?_ ?_⟩⟩
    · simp [Bound.render]
    · rintro - ⟨path', ⟨⟩⟩ ⟨hpath, -⟩
      simp [Bound.BackAs, Bound.alike, Bound.plain, Bound.render, hpath.back]
  · rintro - place ⟨t, ⟨⟩⟩ ⟨ht, -⟩
    refine ⟨trivial, fun _ => ⟨(t, ()), .of_text trivial [] rfl ?_ ?_⟩⟩
    · simp [Bound.render, renderLifetime_lifetime ht]
    · rintro - ⟨u, ⟨⟩⟩ ⟨htu, -⟩
      simp [Bound.BackAs, Bound.alike, Bound.plain, Token.lifetime_eq htu]

/-! ## Types -/

/-- A rule that only gives a phrase a second name writes it again. -/
theorem unit_rewrites {n m : Nonterminal} (as : m.Val → n.Val)
    (hsound : ∀ x, n.Sound (as x)) (hwritten : ∀ x, m.Written x)
    (htext : ∀ x, n.text (as x) = m.text x) (hback : ∀ x y, m.BackAs x y → n.BackAs (as x) (as y)) :
    Rule.Rewrites declared ⟨n, phrase m done, fun _ (x, _) => as x⟩ := by
  rintro - place ⟨x, ⟨⟩⟩ -
  refine ⟨hsound x, fun _ => ⟨(x, ()), .of_text ⟨hwritten x, trivial⟩ [] rfl ?_ ?_⟩⟩
  · simp [-Nonterminal.text, htext]
  · rintro - ⟨y, ⟨⟩⟩ ⟨hxy, -⟩
    exact hback x y hxy

theorem typeOnly_rewrites : ∀ r ∈ Grammar.typeOnly, r.Rewrites declared :=
  List.forall_mem_singleton.mpr <| unit_rewrites (n := .typeOnly) (m := .type) id (fun _ => trivial)
    (fun _ => trivial) (fun _ => rfl) fun _ _ => id

/-- A type with bounds of its own is written with them, and one without as it was read. -/
theorem type_rewrites : ∀ r ∈ Grammar.type, r.Rewrites declared := by
  refine List.forall_iff_forall_mem.mp ⟨?_, ?_, ?_⟩
  · exact unit_rewrites (n := .type) (m := .typeNoBounds) id (fun _ => trivial) (fun _ => trivial)
      (fun _ => rfl) fun _ _ => id
  · rintro - place ⟨bounds, ⟨⟩⟩ -
    refine ⟨trivial, fun _ => ⟨(bounds, ()), .of_text ⟨trivial, trivial⟩ [false, true] rfl ?_ ?_⟩⟩
    · simp [Ty.render, renderBounds]
    · rintro - ⟨bounds', ⟨⟩⟩ ⟨hbounds, -⟩
      exact (boundsType_back _ _ hbounds).1
  · rintro - place ⟨bounds, ⟨⟩⟩ -
    refine ⟨trivial, fun _ => ⟨(bounds, ()), .of_text ⟨trivial, trivial⟩ [false, true] rfl ?_ ?_⟩⟩
    · simp [Ty.render, renderBounds]
    · rintro - ⟨bounds', ⟨⟩⟩ ⟨hbounds, -⟩
      exact (boundsType_back _ _ hbounds).2

/-- What is referred to is written as it was read, an object by one trait without brackets. -/
theorem refTarget_rewrites : ∀ r ∈ Grammar.refTarget, r.Rewrites declared := by
  refine .pair ?_ ?_
  · exact unit_rewrites (n := .refTarget) (m := .typeNoBounds) id (fun _ => trivial)
      (fun _ => trivial) (fun _ => rfl) fun _ _ => id
  · rintro - place ⟨path, ⟨⟩⟩ -
    refine ⟨trivial, fun _ => ⟨(path, ()), .of_text ⟨trivial, trivial⟩ [false, true] rfl ?_ ?_⟩⟩
    · simp [Ty.render, renderBoundList, Bound.render]
    · rintro - ⟨path', ⟨⟩⟩ ⟨hpath, -⟩
      refine (boundsType_back _ _ (.cons ?_ .nil)).2
      simp [Bound.BackAs, Bound.alike, Bound.plain, Bound.render, hpath.back]

/-- The length of an array is written as it was read. -/
theorem arrayLength_rewrites : ∀ r ∈ Grammar.arrayLength, r.Rewrites declared := by
  have h : ∀ t : Terminal,
      Rule.Rewrites declared ⟨.arrayLength, token t done, fun _ (x, _) => x.text⟩ := by
    rintro t - place ⟨x, ⟨⟩⟩ -
    refine ⟨trivial, fun _ => ⟨(x, ()), .of_text trivial [] rfl (by simp) ?_⟩⟩
    rintro - ⟨y, ⟨⟩⟩ ⟨hxy, -⟩
    exact hxy
  exact .pair (h _) (h _)

/-- A reference is written with its lifetime and its `mut`, which stand before the type. -/
theorem reference_rewrites : Rule.Rewrites declared ⟨.typeNoBounds,
    mark .amp <| maybe (token .lifetime done) <| maybe (mark .mutKw done) <| phrase .refTarget done,
    fun place (lifetime, isMut, elem, _) =>
      .reference elem ((Grammar.only lifetime).map (·.lifetime)) isMut.isSome place.span⟩ := by
  rintro - place ⟨lifetime, isMut, elem, ⟨⟩⟩ hsound
  refine ⟨trivial, fun _ => ⟨(lifetime, isMut, elem, ()), .refl .., ?_, ?_, ?_⟩⟩
  · rcases lifetime with _ | ⟨t, ⟨⟩⟩ <;> rcases isMut with _ | ⟨⟨⟩⟩ <;> simp [Parts.Written]
  · rcases lifetime with _ | ⟨t, ⟨⟩⟩ <;> rcases isMut with _ | ⟨⟨⟩⟩
    · exact ⟨[], rfl, by simp [Ty.render, renderAmp]⟩
    · exact ⟨[false, false, true], rfl, by simp [Ty.render, renderAmp]⟩
    · refine ⟨[false, false, true], rfl, ?_⟩
      simp [Ty.render, renderAmp, renderLifetime_lifetime hsound.1.1]
    · refine ⟨[false, false, true, true], rfl, ?_⟩
      simp [Ty.render, renderAmp, renderLifetime_lifetime hsound.1.1]
  · rintro place' ⟨lifetime', isMut', elem', ⟨⟩⟩ h
    obtain ⟨hlifetime, h⟩ := Parts.backAs_maybe.mp h
    obtain ⟨hisMut, helem, -⟩ := Parts.backAs_maybe.mp h
    have hback := (elem_back place.span place'.span helem).2.2.2.2
      ((Grammar.only lifetime).map Token.lifetime) isMut.isSome
    simp only [declared_back, Nonterminal.BackAs, lifetime_back hlifetime, isSome_back hisMut]
    exact hback

/-- A type without bounds of its own is written as it was read. -/
theorem typeNoBounds_rewrites : ∀ r ∈ Grammar.typeNoBounds, r.Rewrites declared := by
  refine List.forall_iff_forall_mem.mp ⟨?_, ?_, ?_, ?_, ?_, ?_, ?_⟩
  · rintro - place ⟨path, ⟨⟩⟩ -
    refine ⟨trivial, fun _ => ⟨(path, ()), .of_text ⟨trivial, trivial⟩ [] rfl ?_ ?_⟩⟩
    · simp [Ty.render]
    · rintro - ⟨path', ⟨⟩⟩ ⟨hpath, -⟩
      simp [Ty.BackAs, Ty.alike, Ty.plain, Ty.render, hpath.back]
  · exact unit_rewrites (n := .typeNoBounds) (m := .qualifiedType) id (fun _ => trivial)
      (fun _ => trivial) (fun _ => rfl) fun _ _ => id
  · exact reference_rewrites
  · rintro - place ⟨elem, ⟨⟩⟩ -
    refine ⟨trivial,
      fun _ => ⟨(elem, ()), .of_text ⟨trivial, trivial⟩ [false, false, true] rfl ?_ ?_⟩⟩
    · simp [Ty.render]
    · rintro - ⟨elem', ⟨⟩⟩ ⟨helem, -⟩
      exact (elem_back _ _ helem).2.2.2.1 _
  · rintro - place ⟨elem, ⟨⟩⟩ -
    refine ⟨trivial,
      fun _ => ⟨(elem, ()), .of_text ⟨trivial, trivial⟩ [false, false, true] rfl ?_ ?_⟩⟩
    · simp [Ty.render]
    · rintro - ⟨elem', ⟨⟩⟩ ⟨helem, -⟩
      exact (elem_back _ _ helem).2.2.2.1 _
  · rintro - place ⟨elem, ⟨⟩⟩ -
    refine ⟨trivial, fun _ => ⟨(elem, ()), .of_text ⟨trivial, trivial⟩ [] rfl ?_ ?_⟩⟩
    · simp [Ty.render]
    · rintro - ⟨elem', ⟨⟩⟩ ⟨helem, -⟩
      exact (elem_back _ _ helem).1
  · rintro - place ⟨elem, length, ⟨⟩⟩ -
    refine ⟨trivial, fun _ => ⟨(elem, length, ()),
      .of_text ⟨trivial, trivial, trivial⟩ [false, false, false, true] rfl ?_ ?_⟩⟩
    · simp [Ty.render]
    · rintro - ⟨elem', _, ⟨⟩⟩ ⟨helem, rfl, -⟩
      exact (elem_back _ _ helem).2.2.1 _

/-- A single member of a tuple is written with its comma, and a type in parentheses without. -/
theorem groupedType_rewrites : ∀ r ∈ Grammar.groupedType, r.Rewrites declared := by
  refine List.forall_iff_forall_mem.mp ⟨?_, ?_, ?_, ?_⟩
  · rintro - place ⟨⟩ -
    refine ⟨trivial, fun _ => ⟨(), .of_text trivial [] rfl ?_ ?_⟩⟩
    · simp [Ty.render, renderTypes, tupleText]
    · rintro - ⟨⟩ -
      exact tuple_back _ _ .nil
  · rintro - place ⟨elem, ⟨⟩⟩ -
    refine ⟨trivial, fun _ => ⟨(elem, ()), .of_text ⟨trivial, trivial⟩ [] rfl ?_ ?_⟩⟩
    · simp [Ty.render, renderTypes, tupleText]
    · rintro - ⟨elem', ⟨⟩⟩ ⟨helem, -⟩
      exact tuple_back _ _ (.cons helem .nil)
  · rintro - place ⟨first, more, comma, ⟨⟩⟩ ⟨-, hmore, -⟩
    refine ⟨trivial, fun _ => ⟨(first, more, none, ()), ?_, ⟨trivial, trivial, trivial⟩,
      ⟨[], rfl, fun h => ?_⟩, ?_⟩⟩
    · rcases comma with _ | ⟨⟨⟩⟩ <;> simp [Thins, mayOpen]
    · -- There is a second element, so no comma is written behind the first.
      obtain ⟨second, rest, rfl⟩ := List.exists_cons_of_ne_nil hmore
      simpa [Ty.render, renderTypes_eq_map, tupleText, joined_cons_eq, followed] using h
    · rintro - ⟨first', more', _ | _, ⟨⟩⟩ ⟨hfirst, hmore', h⟩
      · exact tuple_back _ _ (.cons hfirst hmore')
      · exact h.elim
  · rintro - place ⟨elem, ⟨⟩⟩ -
    refine ⟨trivial, fun _ => ⟨(elem, ()), .of_text ⟨trivial, trivial⟩ [] rfl ?_ ?_⟩⟩
    · simp [Ty.render]
    · rintro - ⟨elem', ⟨⟩⟩ ⟨helem, -⟩
      exact (elem_back _ _ helem).2.1

/-- The remaining types are written as they were read, a macro by its text. -/
theorem atomicType_rewrites : ∀ r ∈ Grammar.atomicType, r.Rewrites declared := by
  refine List.forall_iff_forall_mem.mp ⟨?_, ?_, ?_, ?_⟩
  · rintro - place ⟨⟩ -
    refine ⟨trivial, fun _ => ⟨(), .of_text trivial [] rfl (by simp [Ty.render]) ?_⟩⟩
    rintro - ⟨⟩ -
    simp [Ty.BackAs, Ty.alike, Ty.plain, Ty.render]
  · rintro - place ⟨⟩ -
    refine ⟨trivial, fun _ => ⟨(), .of_text trivial [] rfl (by simp [Ty.render]) ?_⟩⟩
    rintro - ⟨⟩ -
    simp [Ty.BackAs, Ty.alike, Ty.plain, Ty.render]
  · rintro - place ⟨inputs, output, ⟨⟩⟩ -
    obtain ⟨gaps, hhead, hfits, htext⟩ := call_text inputs output
    refine ⟨trivial, fun _ => ⟨(withoutComma inputs, output, ()), ?_, call_written inputs output,
      ⟨false :: gaps, ?_, fun h => ?_⟩, ?_⟩⟩
    · rcases inputs with _ | ⟨x, _ | ⟨xs, ⟨⟩⟩, _ | _, ⟨⟩⟩ <;> rcases output with _ | ⟨ty, ⟨⟩⟩ <;>
        simp [Thins, withoutComma, mayOpen] <;> rfl
    · have htouches : touches (.term .fnKw) (.term .lparen) = true := rfl
      rw [symbols, symbols, fits, Bool.and_eq_true]
      exact ⟨by rw [htouches, Bool.or_true], hfits⟩
    · rw [declared_text, Nonterminal.text, Ty.render, String.toList_append, ← htext]
      exact h
    · rintro - ⟨inputs', output', ⟨⟩⟩ h
      obtain ⟨hinputs, houtput⟩ := call_back inputs output h
      exact function_back _ _ hinputs houtput
  · rintro - place ⟨name, args, ⟨⟩⟩ -
    refine ⟨trivial, fun _ => ⟨(name, args, ()), .of_text trivial [] rfl (by simp [Ty.render]) ?_⟩⟩
    rintro - ⟨name', args', ⟨⟩⟩ ⟨hname, hargs, -⟩
    simp [Ty.BackAs, Ty.alike, Ty.plain, Ty.render, hname, hargs]

/-! ## Qualified paths -/

/-- The text of a qualified path whose first segments spell a trait. -/
theorem qualifiedText_append {self : String} {front back : List String} (hfront : front ≠ []) :
    qualifiedText self front.length (front ++ back) =
      "<" ++ self ++ " as " ++ joined "::" front ++ ">::" ++ joined "::" back := by
  have hpos := List.length_pos_iff.mpr hfront
  have hcut : cutIndex front.length (front ++ back).length = front.length := by
    rw [cutIndex, if_neg (by omega), Int.toNat_natCast]
  rw [qualifiedText, hcut, List.drop_left, List.take_left, if_neg (by omega)]

/-- A qualified path is written with its trait up to the position, and the rest behind it. -/
theorem qualifiedType_rewrites : ∀ r ∈ Grammar.qualifiedType, r.Rewrites declared := by
  refine List.forall_mem_singleton.mpr ?_
  rintro - place ⟨ty, path, first, more, ⟨⟩⟩ ⟨-, ⟨hne, hcolon⟩, -⟩
  have htext : ∀ rest : List Segment,
      Ty.render (.qualified ty path.segments.length ⟨path.segments ++ rest, false⟩ place.span) =
        "<" ++ ty.render ++ " as " ++ Path.render path ++ ">::" ++
          joined "::" (rest.map Segment.render) := by
    intro rest
    obtain ⟨segments, colon⟩ := path
    obtain rfl : colon = false := hcolon
    have hmap : segments.map Segment.render ≠ [] := by simpa using hne
    rw [Ty.render, renderSegments_eq_map, List.map_append, ← List.length_map Segment.render,
      qualifiedText_append hmap, Path.render, renderSegments_eq_map]
    simp
  refine ⟨trivial, fun _ => ⟨(ty, path, first, more, ()), .refl .., ?_, ?_, ?_⟩⟩
  · rcases more with _ | ⟨more, ⟨⟩⟩ <;> simp [Parts.Written]
  · rcases more with _ | ⟨more, ⟨⟩⟩
    · refine ⟨[false, false, true, true], rfl, fun h => ?_⟩
      rw [declared_text, Nonterminal.text, htext]
      simpa using h
    · refine ⟨[false, false, true, true], rfl, fun h => ?_⟩
      rw [declared_text, Nonterminal.text, htext]
      simpa [joined_cons_eq] using h
  · rintro - ⟨ty', path', first', more', ⟨⟩⟩ ⟨hty, hpath, hfirst, hmore⟩
    exact qualified_back _ _ hty hpath (.cons hfirst (orNil_back (Parts.backAs_maybe.mp hmore).1))

end TraitMock
