import TraitMock.Proofs.Decl.TypeRules

/-!
# Proofs/Decl/MethodRules — generics, parameters and methods are written again

What is left out here are commas behind the last member of a list, the colon of a parameter without
bounds, generics without parameters, and where clauses without predicates.
-/

namespace TraitMock

open Text Parts

/-! ## Generics -/

/-- The bounds of a parameter without the colon if there are none behind it. -/
def withoutColon : Option (Option (List Bound × Unit) × Unit) →
    Option (Option (List Bound × Unit) × Unit)
  | some (none, _) => none
  | bounds => bounds

theorem orNil_withoutColon (bounds : Option (Option (List Bound × Unit) × Unit)) :
    Grammar.orNil ((withoutColon bounds).bind (·.1)) = Grammar.orNil (bounds.bind (·.1)) := by
  rcases bounds with _ | ⟨_ | ⟨bounds, ⟨⟩⟩, ⟨⟩⟩ <;> rfl

/-- The bounds behind a colon come back. -/
theorem colon_back {bounds bounds' : Option (Option (List Bound × Unit) × Unit)}
    (h : Option.Rel ((mark .colon <| maybe (phrase .bounds done) done).BackAs declared)
      (withoutColon bounds) bounds') :
    List.Forall₂ Bound.BackAs (Grammar.orNil (bounds.bind (·.1)))
      (Grammar.orNil (bounds'.bind (·.1))) := by
  rw [← orNil_withoutColon]
  generalize withoutColon bounds = written at h
  cases h with
  | none => exact .nil
  | some h => exact orNil_back (Parts.backAs_maybe.mp h).1

/-- A type parameter comes back part by part. -/
theorem typeParam_back {i j : Ident} {bounds bounds' : List Bound} {default default' : Option Ty}
    (hname : j.name = i.name) (hbounds : List.Forall₂ Bound.BackAs bounds bounds')
    (hdefault : Option.Rel Ty.BackAs default default') :
    GenericParam.BackAs (.type i bounds default) (.type j bounds' default') := by
  obtain ⟨halike, hrender⟩ := bounds_back hbounds
  obtain ⟨halike', hrender'⟩ := output_back hdefault
  have hempty : bounds'.isEmpty = bounds.isEmpty := by cases hbounds <;> rfl
  simp only [GenericParam.BackAs, GenericParam.alike, GenericParam.plain, GenericParam.render,
    Ident.alike, hname, halike, halike', hempty, renderBounds, hrender, beq_self_eq_true,
    Bool.and_self, true_and]
  cases hdefault with
  | none => rfl
  | some h => simp only [h.2]

theorem genericParam_rewrites : ∀ r ∈ Grammar.genericParam, r.Rewrites declared := by
  refine List.forall_iff_forall_mem.mp ⟨?_, ?_, ?_⟩
  · rintro - place ⟨name, bounds, default, ⟨⟩⟩ hsound
    refine ⟨trivial, fun _ => ⟨(name, withoutColon bounds, default, ()), ?_, ?_, ?_, ?_⟩⟩
    · rcases bounds with _ | ⟨_ | ⟨bounds, ⟨⟩⟩, ⟨⟩⟩ <;> rcases default with _ | ⟨ty, ⟨⟩⟩ <;>
        simp [Thins, withoutColon]
      rfl
    · rcases bounds with _ | ⟨_ | ⟨bounds, ⟨⟩⟩, ⟨⟩⟩ <;> rcases default with _ | ⟨ty, ⟨⟩⟩ <;>
        simp [Parts.Written, withoutColon]
    · rcases bounds with _ | ⟨_ | ⟨bounds, ⟨⟩⟩, ⟨⟩⟩
      · refine ⟨[false, true, true], by rcases default with _ | ⟨ty, ⟨⟩⟩ <;> rfl, fun h => ?_⟩
        rcases default with _ | ⟨ty, ⟨⟩⟩ <;>
          simpa [GenericParam.render, Place.ident, withoutColon] using h
      · refine ⟨[false, true, true], by rcases default with _ | ⟨ty, ⟨⟩⟩ <;> rfl, fun h => ?_⟩
        rcases default with _ | ⟨ty, ⟨⟩⟩ <;>
          simpa [GenericParam.render, Place.ident, withoutColon] using h
      · have hne : bounds ≠ [] := by
          rcases default with _ | ⟨ty, ⟨⟩⟩ <;> exact hsound.2.1.1.1
        refine ⟨[false, false, true, true, true], by rcases default with _ | ⟨ty, ⟨⟩⟩ <;> rfl,
          fun h => ?_⟩
        rcases default with _ | ⟨ty, ⟨⟩⟩ <;>
          simpa [GenericParam.render, Place.ident, withoutColon, hne] using h
    · rintro - ⟨name', bounds', default', ⟨⟩⟩ ⟨hname, h⟩
      obtain ⟨hbounds, h⟩ := Parts.backAs_maybe.mp h
      obtain ⟨hdefault, -⟩ := Parts.backAs_maybe.mp h
      exact typeParam_back hname (colon_back hbounds) (only_back hdefault)
  · rintro - place ⟨t, bounds, ⟨⟩⟩ hsound
    refine ⟨trivial, fun _ => ⟨(t, bounds, ()), .refl .., ?_, ?_, ?_⟩⟩
    · rcases bounds with _ | ⟨bounds, ⟨⟩⟩ <;> simp [Parts.Written]
    · refine ⟨[false, false, true], by rcases bounds with _ | ⟨bounds, ⟨⟩⟩ <;> rfl, fun h => ?_⟩
      rcases bounds with _ | ⟨bounds, ⟨⟩⟩
      · simpa [GenericParam.render, Place.lifetimeIdent, renderLifetime_lifetime hsound.1] using h
      · have hne : bounds ≠ [] := hsound.2.1.1
        simpa [GenericParam.render, Place.lifetimeIdent, renderLifetime_lifetime hsound.1,
          hne] using h
    · rintro - ⟨u, bounds', ⟨⟩⟩ ⟨htu, h⟩
      have hbounds := orNil_eq_of_back (Parts.backAs_maybe.mp h).1
      simp [-Grammar.orNil, GenericParam.BackAs, GenericParam.alike, GenericParam.plain,
        GenericParam.render, Ident.alike, Place.lifetimeIdent, Token.lifetime_eq htu, hbounds]
  · rintro - place ⟨name, ty, ⟨⟩⟩ -
    refine ⟨trivial, fun _ => ⟨(name, ty, ()),
      .of_text ⟨trivial, trivial⟩ [false, true, false, true] rfl ?_ ?_⟩⟩
    · simp [GenericParam.render, Place.ident]
    · rintro - ⟨name', ty', ⟨⟩⟩ ⟨hname, hty, -⟩
      simp [GenericParam.BackAs, GenericParam.alike, GenericParam.plain, GenericParam.render,
        Ident.alike, Place.ident, hname, hty.1, hty.2]

theorem generics_rewrites : ∀ r ∈ Grammar.generics, r.Rewrites declared := by
  refine List.forall_mem_singleton.mpr ?_
  rintro - place ⟨params, ⟨⟩⟩ -
  refine ⟨⟨rfl, rfl⟩, fun hwritten => ⟨(withoutComma params, ()), ?_, ?_, ?_, ?_⟩⟩
  · rcases params with _ | ⟨x, _ | ⟨xs, ⟨⟩⟩, _ | _, ⟨⟩⟩ <;> simp [Thins, withoutComma, mayOpen]
  · rcases params with _ | ⟨x, _ | ⟨xs, ⟨⟩⟩, c, ⟨⟩⟩ <;> simp [Parts.Written, withoutComma]
  · refine ⟨[], by rcases params with _ | ⟨x, _ | ⟨xs, ⟨⟩⟩, c, ⟨⟩⟩ <;> rfl, fun h => ?_⟩
    rcases params with _ | ⟨x, _ | ⟨xs, ⟨⟩⟩, c, ⟨⟩⟩
    · exact absurd rfl hwritten
    · simpa [withoutComma, Generics.render] using h
    · simpa [withoutComma, Generics.render, joined_cons_eq] using h
  · rintro - ⟨params', ⟨⟩⟩ h
    exact ⟨orEmpty_back (Parts.backAs_maybe.mp h).1 fun h => ⟨h.1, (Parts.backAs_maybe.mp h.2).1⟩,
      rfl, rfl, rfl, rfl⟩

/-- A text before blanks spells the same. -/
theorem Spelled.concat_blank {ws : List Lexeme} {cs : List Char} (h : Spelled ws cs) :
    Spelled ws (cs ++ [' ']) := by
  have happend := h.append (.blank .nil) (meets_of_head (b := ' ') rfl (by decide) (by decide))
  rwa [List.append_nil] at happend

/-- A condition on a type comes back part by part. -/
theorem bounded_back {ty ty' : Ty} {bounds bounds' : List Bound} (hty : Ty.BackAs ty ty')
    (h : List.Forall₂ Bound.BackAs bounds bounds') :
    Predicate.BackAs (.bounded ty bounds) (.bounded ty' bounds') := by
  obtain ⟨halike, hrender⟩ := bounds_back h
  simp [Predicate.BackAs, Predicate.alike, Predicate.plain, Predicate.render, renderBounds, hty.1,
    hty.2, halike, hrender]

theorem predicate_rewrites : ∀ r ∈ Grammar.predicate, r.Rewrites declared := by
  refine List.forall_iff_forall_mem.mp ⟨?_, ?_, ?_⟩
  · rintro - place ⟨ty, bounds, ⟨⟩⟩ hsound
    refine ⟨trivial, fun _ => ⟨(ty, bounds, ()), .refl .., ?_, ?_, ?_⟩⟩
    · rcases bounds with _ | ⟨bounds, ⟨⟩⟩ <;> simp [Parts.Written]
    · refine ⟨[false, false, true], by rcases bounds with _ | ⟨bounds, ⟨⟩⟩ <;> rfl, fun h => ?_⟩
      rcases bounds with _ | ⟨bounds, ⟨⟩⟩
      · simpa [Predicate.render, withoutTrailingBlanks, renderBounds, renderBoundList] using
          h.concat_blank.trimRight
      · simpa [Predicate.render, withoutTrailingBlanks] using h.trimRight
    · rintro - ⟨ty', bounds', ⟨⟩⟩ ⟨hty, h⟩
      exact bounded_back hty (orNil_back (Parts.backAs_maybe.mp h).1)
  · rintro - place ⟨t, bounds, ⟨⟩⟩ hsound
    refine ⟨trivial, fun _ => ⟨(t, bounds, ()), .refl .., ?_, ?_, ?_⟩⟩
    · rcases bounds with _ | ⟨bounds, ⟨⟩⟩ <;> simp [Parts.Written]
    · refine ⟨[false, false, true], by rcases bounds with _ | ⟨bounds, ⟨⟩⟩ <;> rfl, fun h => ?_⟩
      rcases bounds with _ | ⟨bounds, ⟨⟩⟩
      · simpa [Predicate.render, withoutTrailingBlanks, renderLifetimes,
          renderLifetime_lifetime hsound.1] using h.concat_blank.trimRight
      · simpa [Predicate.render, withoutTrailingBlanks, renderLifetime_lifetime hsound.1] using
          h.trimRight
    · rintro - ⟨u, bounds', ⟨⟩⟩ ⟨htu, h⟩
      have hbounds := orNil_eq_of_back (Parts.backAs_maybe.mp h).1
      simp [-Grammar.orNil, Predicate.BackAs, Predicate.alike, Predicate.plain, Predicate.render,
        Token.lifetime_eq htu, hbounds]
  · rintro - place ⟨lhs, rhs, ⟨⟩⟩ -
    refine ⟨trivial, fun _ => ⟨(lhs, rhs, ()),
      .of_text ⟨trivial, trivial, trivial⟩ [false, true, true] rfl ?_ ?_⟩⟩
    · simp [Predicate.render]
    · rintro - ⟨lhs', rhs', ⟨⟩⟩ ⟨hlhs, hrhs, -⟩
      simp [Predicate.BackAs, Predicate.alike, Predicate.plain, Predicate.render, hlhs.1, hlhs.2,
        hrhs.1, hrhs.2]

theorem whereClause_rewrites : ∀ r ∈ Grammar.whereClause, r.Rewrites declared := by
  refine List.forall_mem_singleton.mpr ?_
  rintro - place ⟨predicates, ⟨⟩⟩ -
  refine ⟨trivial, fun hwritten => ⟨(withoutComma predicates, ()), ?_, ?_, ?_, ?_⟩⟩
  · rcases predicates with _ | ⟨x, _ | ⟨xs, ⟨⟩⟩, _ | _, ⟨⟩⟩ <;>
      simp [Thins, withoutComma, mayOpen] <;> decide
  · rcases predicates with _ | ⟨x, _ | ⟨xs, ⟨⟩⟩, c, ⟨⟩⟩ <;> simp [Parts.Written, withoutComma]
  · refine ⟨[false, true], by rcases predicates with _ | ⟨x, _ | ⟨xs, ⟨⟩⟩, c, ⟨⟩⟩ <;> rfl,
      fun h => ?_⟩
    rcases predicates with _ | ⟨x, _ | ⟨xs, ⟨⟩⟩, c, ⟨⟩⟩
    · exact absurd rfl hwritten
    · simpa [withoutComma] using h
    · simpa [withoutComma, joined_cons_eq] using h
  · rintro - ⟨predicates', ⟨⟩⟩ h
    exact orEmpty_back (Parts.backAs_maybe.mp h).1 fun h => ⟨h.1, (Parts.backAs_maybe.mp h.2).1⟩

/-! ## Visibilities -/

theorem visTarget_rewrites : ∀ r ∈ Grammar.visTarget, r.Rewrites declared := by
  have h : ∀ t : Terminal,
      Rule.Rewrites declared ⟨.visTarget, token t done, fun place (x, _) => place.ident x⟩ := by
    rintro t - place ⟨x, ⟨⟩⟩ -
    refine ⟨trivial, fun _ => ⟨(x, ()), .of_text trivial [] rfl (by simp [Place.ident]) ?_⟩⟩
    rintro - ⟨y, ⟨⟩⟩ ⟨hxy, -⟩
    exact hxy
  exact List.forall_iff_forall_mem.mp ⟨h _, h _, h _⟩

theorem visibility_rewrites : ∀ r ∈ Grammar.visibility, r.Rewrites declared := by
  refine List.forall_iff_forall_mem.mp ⟨?_, ?_, ?_, ?_⟩
  · rintro - place ⟨⟩ -
    refine ⟨by simp [Visibility.render], fun _ => ⟨(), .of_text trivial [] rfl ?_ ?_⟩⟩
    · simp [Visibility.render]
    · rintro - ⟨⟩ -
      exact ⟨rfl, rfl⟩
  · rintro - place ⟨target, ⟨⟩⟩ -
    refine ⟨by simp [Visibility.render], fun _ => ⟨(target, ()),
      .of_text ⟨trivial, trivial⟩ [] rfl ?_ ?_⟩⟩
    · simp [Visibility.render, Path.ofIdents, Path.render, renderSegments, Segment.render,
        SegmentArgs.render]
    · rintro - ⟨target', ⟨⟩⟩ ⟨htarget, -⟩
      have hname : target'.name = target.name := htarget
      simp [Visibility.BackAs, Visibility.alike, Visibility.plain, Visibility.render, Path.ofIdents,
        Path.alike, Path.plain, Path.render, alikeSegments, plainSegments, renderSegments,
        Segment.alike, Segment.plain, Segment.render, SegmentArgs.alike, SegmentArgs.plain,
        SegmentArgs.render, Ident.alike, hname]
  · rintro - place ⟨path, ⟨⟩⟩ -
    refine ⟨by simp [Visibility.render], fun _ => ⟨(path, ()),
      .of_text ⟨trivial, trivial⟩ [false, false, false, true] rfl ?_ ?_⟩⟩
    · simp [Visibility.render]
    · rintro - ⟨path', ⟨⟩⟩ ⟨hpath, -⟩
      simp [Visibility.BackAs, Visibility.alike, Visibility.plain, Visibility.render, hpath.back]
  · rintro - place ⟨⟩ -
    refine ⟨by simp [Visibility.render], fun _ => ⟨(), .of_text trivial [] rfl ?_ ?_⟩⟩
    · simp [Visibility.render]
    · rintro - ⟨⟩ -
      exact ⟨rfl, rfl⟩

/-! ## Parameters -/

/-- A receiver comes back wherever it stands. -/
theorem receiver_back (kind : ReceiverKind) (isMut : Bool) (lifetime : Option String) (s t : Span) :
    Param.BackAs (.receiver kind isMut lifetime s) (.receiver kind isMut lifetime t) := by
  cases kind <;> simp [Param.BackAs, Param.alike, Param.plain, Param.render]

theorem receiver_rewrites : ∀ r ∈ Grammar.receiver, r.Rewrites declared := by
  refine .pair ?_ ?_
  · rintro - place ⟨lifetime, isMut, ⟨⟩⟩ hsound
    refine ⟨trivial, fun _ => ⟨(lifetime, isMut, ()), .refl .., ?_, ?_, ?_⟩⟩
    · rcases lifetime with _ | ⟨t, ⟨⟩⟩ <;> rcases isMut with _ | ⟨⟨⟩⟩ <;> trivial
    · rcases lifetime with _ | ⟨t, ⟨⟩⟩ <;> rcases isMut with _ | ⟨⟨⟩⟩
      · exact ⟨[], rfl, by simp [Param.render, renderAmp]⟩
      · exact ⟨[false, false, true], rfl, by simp [Param.render, renderAmp]⟩
      · refine ⟨[false, false, true], rfl, ?_⟩
        simp [Param.render, renderAmp, renderLifetime_lifetime hsound.1.1]
      · refine ⟨[false, false, true, true], rfl, ?_⟩
        simp [Param.render, renderAmp, renderLifetime_lifetime hsound.1.1]
    · rintro - ⟨lifetime', isMut', ⟨⟩⟩ h
      obtain ⟨hlifetime, h⟩ := Parts.backAs_maybe.mp h
      obtain ⟨hisMut, -⟩ := Parts.backAs_maybe.mp h
      simp only [declared_back, Nonterminal.BackAs, lifetime_back hlifetime, isSome_back hisMut]
      exact receiver_back ..
  · rintro - place ⟨isMut, ⟨⟩⟩ -
    refine ⟨trivial, fun _ => ⟨(isMut, ()), .refl .., ?_, ?_, ?_⟩⟩
    · rcases isMut with _ | ⟨⟨⟩⟩ <;> trivial
    · rcases isMut with _ | ⟨⟨⟩⟩
      · exact ⟨[], rfl, by simp [Param.render]⟩
      · exact ⟨[false, true], rfl, by simp [Param.render]⟩
    · rintro - ⟨isMut', ⟨⟩⟩ h
      simp only [declared_back, Nonterminal.BackAs, isSome_back (Parts.backAs_maybe.mp h).1]
      exact receiver_back ..

/-- The text of a tuple of patterns. -/
theorem render_tuplePat (elems : List Pat) (s : Span) :
    Pat.render (.tuple elems s) = "(" ++ joined ", " (elems.map Pat.render) ++ ")" := by
  have hmap : ∀ pats : List Pat, renderPats pats = pats.map Pat.render := by
    intro pats
    induction pats with
    | nil => rfl
    | cons pat rest ih => rw [renderPats, ih, List.map_cons]
  rw [Pat.render, hmap]

/-- A binding comes back part by part. -/
theorem binding_back {i j : Ident} {byRef byRef' isMut isMut' : Bool} {sub sub' : Option Pat}
    {s t : Span} (hname : j.name = i.name) (hbyRef : byRef' = byRef) (hisMut : isMut' = isMut)
    (hsub : Option.Rel Pat.BackAs sub sub') :
    Pat.BackAs (.ident i byRef isMut sub s) (.ident j byRef' isMut' sub' t) := by
  subst hbyRef hisMut
  have halike : alikeSub sub' sub = true ∧ renderSub sub' = renderSub sub := by
    cases hsub with
    | none => exact ⟨rfl, rfl⟩
    | some h => exact ⟨h.1, congrArg (" @ " ++ ·) h.2⟩
  simp only [Pat.BackAs, Pat.alike, Pat.render, Ident.alike, hname, halike, beq_self_eq_true,
    Bool.and_self, and_self]

theorem pattern_rewrites : ∀ r ∈ Grammar.pattern, r.Rewrites declared := by
  refine List.forall_iff_forall_mem.mp ⟨?_, ?_, ?_⟩
  · rintro - place ⟨byRef, isMut, name, sub, ⟨⟩⟩ -
    refine ⟨trivial, fun _ => ⟨(byRef, isMut, name, sub, ()), .refl .., ?_, ?_, ?_⟩⟩
    · rcases byRef with _ | ⟨⟨⟩⟩ <;> rcases isMut with _ | ⟨⟨⟩⟩ <;>
        rcases sub with _ | ⟨sub, ⟨⟩⟩ <;> simp [Parts.Written]
    · -- Every word but the first has a blank in front.
      refine ⟨[false, true, true, true, true], ?_, fun h => ?_⟩ <;>
        rcases byRef with _ | ⟨⟨⟩⟩ <;> rcases isMut with _ | ⟨⟨⟩⟩ <;> rcases sub with _ | ⟨sub, ⟨⟩⟩
      any_goals rfl
      all_goals simpa [Pat.render, renderSub, Place.ident] using h
    · rintro - ⟨byRef', isMut', name', sub', ⟨⟩⟩ h
      obtain ⟨hbyRef, h⟩ := Parts.backAs_maybe.mp h
      obtain ⟨hisMut, hname, h⟩ := Parts.backAs_maybe.mp h
      obtain ⟨hsub, -⟩ := Parts.backAs_maybe.mp h
      exact binding_back hname (isSome_back hbyRef) (isSome_back hisMut) (only_back hsub)
  · rintro - place ⟨⟩ -
    refine ⟨trivial, fun _ => ⟨(), .of_text trivial [] rfl (by simp [Pat.render]) ?_⟩⟩
    rintro - ⟨⟩ -
    simp [Pat.BackAs, Pat.alike, Pat.render]
  · rintro - place ⟨elems, ⟨⟩⟩ -
    refine ⟨trivial, fun _ => ⟨(withoutComma elems, ()), ?_, ?_, ?_, ?_⟩⟩
    · rcases elems with _ | ⟨x, _ | ⟨xs, ⟨⟩⟩, _ | _, ⟨⟩⟩ <;> simp [Thins, withoutComma, mayOpen]
    · rcases elems with _ | ⟨x, _ | ⟨xs, ⟨⟩⟩, c, ⟨⟩⟩ <;> simp [Parts.Written, withoutComma]
    · refine ⟨[], by rcases elems with _ | ⟨x, _ | ⟨xs, ⟨⟩⟩, c, ⟨⟩⟩ <;> rfl, fun h => ?_⟩
      rcases elems with _ | ⟨x, _ | ⟨xs, ⟨⟩⟩, c, ⟨⟩⟩ <;>
        simpa [withoutComma, render_tuplePat, joined_cons_eq] using h
    · rintro - ⟨elems', ⟨⟩⟩ h
      have hback : List.Forall₂ Pat.BackAs (Grammar.orEmpty elems) (Grammar.orEmpty elems') :=
        orEmpty_back (Parts.backAs_maybe.mp h).1 fun h => ⟨h.1, (Parts.backAs_maybe.mp h.2).1⟩
      obtain ⟨halike, hrender⟩ := pats_back hback
      rw [declared_back, Nonterminal.BackAs, Pat.BackAs, Pat.alike, Pat.render, Pat.render, hrender]
      exact ⟨halike, rfl⟩

theorem param_rewrites : ∀ r ∈ Grammar.param, r.Rewrites declared := by
  refine .pair ?_ ?_
  · exact unit_rewrites (n := .param) (m := .receiver) id (fun _ => trivial) (fun _ => trivial)
      (fun _ => rfl) fun _ _ => id
  · rintro - place ⟨pat, ty, ⟨⟩⟩ -
    refine ⟨trivial, fun _ => ⟨(pat, ty, ()),
      .of_text ⟨trivial, trivial, trivial⟩ [false, false, true] rfl ?_ ?_⟩⟩
    · simp [Param.render]
    · rintro - ⟨pat', ty', ⟨⟩⟩ ⟨hpat, hty, -⟩
      simp [Param.BackAs, Param.alike, Param.plain, Param.render, hpat.1, hpat.2, hty.1, hty.2]

theorem params_rewrites : ∀ r ∈ Grammar.params, r.Rewrites declared := by
  refine List.forall_mem_singleton.mpr ?_
  rintro - place ⟨first, more, comma, ⟨⟩⟩ -
  refine ⟨trivial, fun _ => ⟨(first, more, none, ()), ?_, ?_, ?_, ?_⟩⟩
  · rcases more with _ | ⟨more, ⟨⟩⟩ <;> rcases comma with _ | ⟨⟨⟩⟩ <;>
      simp [Thins, mayOpen] <;> decide
  · rcases more with _ | ⟨more, ⟨⟩⟩ <;> simp [Parts.Written]
  · refine ⟨[], by rcases more with _ | ⟨more, ⟨⟩⟩ <;> rfl, fun h => ?_⟩
    rcases more with _ | ⟨more, ⟨⟩⟩ <;> simpa [joined_cons_eq] using h
  · rintro - ⟨first', more', comma', ⟨⟩⟩ ⟨hfirst, h⟩
    exact .cons hfirst (orNil_back (Parts.backAs_maybe.mp h).1)

/-! ## Methods -/

/-- Generics that are written: those with parameters. -/
def writtenGenerics : Option (Generics × Unit) → Option (Generics × Unit)
  | some (⟨[], _, _⟩, _) => none
  | generics => generics

/-- Where clauses that are written: those with predicates. -/
def writtenClause : Option (List Predicate × Unit) → Option (List Predicate × Unit)
  | some ([], _) => none
  | clause => clause

/-- The generics that a method is read with. -/
def declaredGenerics (generics : Option (Generics × Unit))
    (clause : Option (List Predicate × Unit)) : Generics :=
  ((Grammar.only generics).getD {}).withWhere (Grammar.only clause)

section Method

variable {vis : Option (Visibility × Unit)} {generics : Option (Generics × Unit)}
  {params : Option (List Param × Unit)} {output : Option (Ty × Unit)}
  {clause : Option (List Predicate × Unit)}

/-- A visibility that may be left out comes back. -/
theorem getD_back : ∀ {o o' : Option (Visibility × Unit)},
    Option.Rel (fun a b => Visibility.BackAs a.1 b.1 ∧ True) o o' →
      Visibility.BackAs ((Grammar.only o).getD .inherited) ((Grammar.only o').getD .inherited)
  | _, _, .none => ⟨rfl, rfl⟩
  | _, _, .some h => h.1

/-- Generics come back part by part, as they are written. -/
theorem written_back {g h : Generics} (hparams : List.Forall₂ GenericParam.BackAs g.params h.params)
    (hclause : Option.Rel (List.Forall₂ Predicate.BackAs) g.written.whereClause h.whereClause)
    (hbrackets : h.hasBrackets = g.written.hasBrackets) :
    h.alike g.plain.written = true ∧ h.render = g.render ∧ h.renderWhere = g.renderWhere := by
  obtain ⟨ps, wh, br⟩ := g
  obtain ⟨qs, wh', br'⟩ := h
  obtain ⟨halike, hrender⟩ := isEqv_back hparams
  have hempty : qs.isEmpty = ps.isEmpty := by cases hparams <;> rfl
  simp only [Generics.written] at hclause hbrackets
  refine ⟨?_, ?_, ?_⟩
  · simp only [Generics.alike, Generics.written, Generics.plain, halike, hbrackets,
      List.isEmpty_map, beq_self_eq_true, Bool.and_true, Bool.true_and]
    rcases wh with _ | ⟨_ | ⟨c, cs⟩⟩
    · cases hclause
      rfl
    · cases hclause
      rfl
    · cases hclause with
      | some hcs => exact (isEqv_back hcs).1
  · simp only [Generics.render, hempty, hrender, hbrackets]
    cases br <;> cases ps.isEmpty <;> rfl
  · rcases wh with _ | ⟨_ | ⟨c, cs⟩⟩
    · cases hclause
      rfl
    · cases hclause
      rfl
    · cases hclause with
      | some hcs =>
        cases hcs with
        | cons hc hcs => simp only [Generics.renderWhere, (isEqv_back (.cons hc hcs)).2]

/-- **The generics of a method come back** without what is not written. -/
theorem declaredGenerics_back {generics' : Option (Generics × Unit)}
    {clause' : Option (List Predicate × Unit)}
    (h : ∀ g ∈ Grammar.only generics, g.whereClause = none ∧ g.hasBrackets = true)
    (hgenerics : Option.Rel (fun a b => Generics.BackAs a.1 b.1 ∧ True) (writtenGenerics generics)
      generics')
    (hclause : Option.Rel (fun a b => List.Forall₂ Predicate.BackAs a.1 b.1 ∧ True)
      (writtenClause clause) clause') :
    (declaredGenerics generics' clause').alike
        (declaredGenerics generics clause).plain.written = true ∧
      (declaredGenerics generics' clause').render = (declaredGenerics generics clause).render ∧
        (declaredGenerics generics' clause').renderWhere =
          (declaredGenerics generics clause).renderWhere := by
  refine written_back ?_ ?_ ?_
  · rcases generics with _ | ⟨⟨_ | ⟨p, ps⟩, wh, br⟩, ⟨⟩⟩ <;> cases hgenerics <;>
      rcases clause with _ | ⟨_ | ⟨c, cs⟩, ⟨⟩⟩ <;> cases hclause <;>
        simp_all [declaredGenerics, Generics.withWhere, Generics.BackAs]
  · rcases generics with _ | ⟨⟨_ | ⟨p, ps⟩, wh, br⟩, ⟨⟩⟩ <;> cases hgenerics <;>
      rcases clause with _ | ⟨_ | ⟨c, cs⟩, ⟨⟩⟩ <;> cases hclause <;>
        simp_all [declaredGenerics, Generics.withWhere, Generics.BackAs, Generics.written,
          Option.filter]
  · rcases generics with _ | ⟨⟨_ | ⟨p, ps⟩, wh, br⟩, ⟨⟩⟩ <;> cases hgenerics <;>
      rcases clause with _ | ⟨_ | ⟨c, cs⟩, ⟨⟩⟩ <;> cases hclause <;>
        simp_all [declaredGenerics, Generics.withWhere, Generics.BackAs, Generics.written]

/-- **A method comes back part by part.** -/
theorem method_back {m n : Method} (hname : n.ident.name = m.ident.name)
    (hparams : List.Forall₂ Param.BackAs m.params n.params)
    (houtput : Option.Rel Ty.BackAs m.output n.output)
    (hgenerics : n.generics.alike m.generics.plain.written = true ∧
      n.generics.render = m.generics.render ∧ n.generics.renderWhere = m.generics.renderWhere)
    (hvis : Visibility.BackAs m.vis n.vis) : Method.BackAs m n := by
  obtain ⟨halike, hrender⟩ := isEqv_back hparams
  obtain ⟨halike', hrender'⟩ := output_back houtput
  rw [renderOutput_eq_map, renderOutput_eq_map] at hrender'
  have hresult : ∀ k : Method, (none <|> k.output) = k.output := fun _ => rfl
  constructor
  · simp only [Method.alike, Method.plain, Ident.alike, hname, halike, halike', hgenerics.1, hvis.1,
      beq_self_eq_true, Bool.and_self]
  · simp only [Method.render, Method.renderWith, hresult, hname, hrender, hrender', hgenerics.2,
      hvis.2]

/-- The text of a method up to its name. -/
theorem visibility_text (h : ∀ v ∈ Grammar.only vis, Visibility.render v ≠ "") :
    (if ((Grammar.only vis).getD .inherited).render.isEmpty then "fn "
      else ((Grammar.only vis).getD .inherited).render ++ " fn ").toList =
        (vis.map fun u => u.1.render.toList).getD [] ++
          ((if vis.isSome then [' '] else []) ++ ['f', 'n', ' ']) := by
  rcases vis with _ | ⟨vis, ⟨⟩⟩
  · rfl
  · have hne : vis.render ≠ "" := h vis rfl
    simp [hne]

/-- The text of the generics of a method. -/
theorem generics_text (h : ∀ g ∈ Grammar.only generics, g.hasBrackets = true) :
    (declaredGenerics generics clause).render.toList =
      ((writtenGenerics generics).map fun u => (Generics.render u.1).toList).getD [] := by
  rcases generics with _ | ⟨⟨_ | ⟨p, ps⟩, wh, br⟩, ⟨⟩⟩ <;> rcases clause with _ | ⟨cs, ⟨⟩⟩ <;>
    simp_all [declaredGenerics, writtenGenerics, Generics.withWhere, Generics.render]

/-- The text of the where clause of a method. -/
theorem clause_text (h : ∀ g ∈ Grammar.only generics, g.whereClause = none) :
    (if (declaredGenerics generics clause).renderWhere.isEmpty then ""
      else " " ++ (declaredGenerics generics clause).renderWhere).toList =
        ((writtenClause clause).map fun u =>
          (" where " ++ joined ", " (u.1.map Predicate.render)).toList).getD [] := by
  rcases generics with _ | ⟨g, ⟨⟩⟩ <;> rcases clause with _ | ⟨_ | ⟨c, cs⟩, ⟨⟩⟩ <;>
    simp_all [declaredGenerics, writtenClause, Generics.withWhere, Generics.renderWhere]

/-- **The text of a method** that has been read, part by part. -/
theorem method_text {name : Token} {place : Place}
    (hvis : ∀ v ∈ Grammar.only vis, Visibility.render v ≠ "")
    (hgenerics : ∀ g ∈ Grammar.only generics, g.whereClause = none ∧ g.hasBrackets = true) :
    (Method.render
      { ident := place.ident name
        params := Grammar.orNil params
        output := Grammar.only output
        generics := declaredGenerics generics clause
        vis := (Grammar.only vis).getD .inherited
        span := place.span }).toList =
      (vis.map fun u => u.1.render.toList).getD [] ++ ((if vis.isSome then [' '] else []) ++
        ['f', 'n', ' '] ++ (name.text.toList ++
          (((writtenGenerics generics).map fun u => (Generics.render u.1).toList).getD [] ++ '(' ::
            ((params.map fun u => (joined ", " (u.1.map Param.render)).toList).getD [] ++ ')' ::
              ((output.map fun u => (" -> " ++ Ty.render u.1).toList).getD [] ++
                ((writtenClause clause).map fun u =>
                  (" where " ++ joined ", " (u.1.map Predicate.render)).toList).getD []))))) := by
  have hparams : (joined ", " ((Grammar.orNil params).map Param.render)).toList =
      (params.map fun u => (joined ", " (u.1.map Param.render)).toList).getD [] := by
    cases params <;> simp
  have hcall : (callText ((Grammar.orNil params).map Param.render)
      ((Grammar.only output).map Ty.render)).toList =
        '(' :: ((params.map fun u => (joined ", " (u.1.map Param.render)).toList).getD [] ++ ')' ::
          (output.map fun u => (" -> " ++ Ty.render u.1).toList).getD []) := by
    rw [← hparams]
    cases output <;> simp [callText]
  have hresult : (none <|> Grammar.only output) = Grammar.only output := rfl
  simp only [Method.render, Method.renderWith, hresult, String.toList_append,
    visibility_text hvis, generics_text fun g hg => (hgenerics g hg).2, hcall,
    clause_text fun g hg => (hgenerics g hg).1]
  simp [Place.ident]

end Method

theorem method_rewrites : ∀ r ∈ Grammar.method, r.Rewrites declared := by
  refine List.forall_mem_singleton.mpr ?_
  rintro - place ⟨vis, name, generics, params, output, clause, ⟨⟩⟩ hsound
  obtain ⟨hvis, hgenerics⟩ : (∀ v ∈ Grammar.only vis, Visibility.render v ≠ "") ∧
      ∀ g ∈ Grammar.only generics, g.whereClause = none ∧ g.hasBrackets = true := by
    rcases vis with _ | ⟨vis, ⟨⟩⟩ <;> rcases generics with _ | ⟨g, ⟨⟩⟩ <;> simp_all [Parts.Sound]
  refine ⟨trivial, fun _ => ⟨(vis, name, writtenGenerics generics, params, output,
    writtenClause clause, ()), ?_, ?_, ?_, ?_⟩⟩
  · rcases vis with _ | ⟨vis, ⟨⟩⟩ <;> rcases generics with _ | ⟨⟨_ | ⟨p, ps⟩, wh, br⟩, ⟨⟩⟩ <;>
      rcases params with _ | ⟨params, ⟨⟩⟩ <;> rcases output with _ | ⟨output, ⟨⟩⟩ <;>
        rcases clause with _ | ⟨_ | ⟨c, cs⟩, ⟨⟩⟩ <;>
          simp [Thins, writtenGenerics, writtenClause, mayOpen]
    all_goals decide
  · rcases vis with _ | ⟨vis, ⟨⟩⟩ <;> rcases generics with _ | ⟨⟨_ | ⟨p, ps⟩, wh, br⟩, ⟨⟩⟩ <;>
      rcases params with _ | ⟨params, ⟨⟩⟩ <;> rcases output with _ | ⟨output, ⟨⟩⟩ <;>
        rcases clause with _ | ⟨_ | ⟨c, cs⟩, ⟨⟩⟩ <;>
          simp [Parts.Written, writtenGenerics, writtenClause]
  · refine ⟨(vis.map fun _ => [false]).getD [] ++ vis.isSome :: true ::
      (((writtenGenerics generics).map fun _ => [false]).getD [] ++ false ::
        ((params.map fun _ => [false]).getD [] ++ false ::
          ((output.map fun _ => [true, true]).getD [] ++
            (((writtenClause clause).map fun _ => [true]).getD [] ++ [])))), ?_, fun h => ?_⟩
    · rcases vis with _ | ⟨vis, ⟨⟩⟩ <;> rcases generics with _ | ⟨⟨_ | ⟨p, ps⟩, wh, br⟩, ⟨⟩⟩ <;>
        rcases params with _ | ⟨params, ⟨⟩⟩ <;> rcases output with _ | ⟨output, ⟨⟩⟩ <;>
          rcases clause with _ | ⟨_ | ⟨c, cs⟩, ⟨⟩⟩ <;> rfl
    · rw [declared_text, Nonterminal.text, String.toList_append]
      refine (congrArg (Spelled _ <| · ++ [';']) (method_text hvis hgenerics)).mpr ?_
      rw [spaced_maybe (p := phrase .visibility done) _ _ _ _ fun _ => rfl] at h
      simp only [Parts.pieces, List.map_cons, List.map_nil, spaced, List.tail_cons] at h
      rw [spaced_maybe (p := phrase .generics done) _ _ _ _ fun _ => rfl] at h
      simp only [Parts.pieces, List.map_cons, List.map_nil, spaced, List.tail_cons] at h
      rw [spaced_maybe (p := phrase .params done) _ _ _ _ fun _ => rfl] at h
      simp only [Parts.pieces, List.map_cons, List.map_nil, spaced, List.tail_cons] at h
      rw [spaced_maybe (p := mark .arrow <| phrase .type done) _ _ _ _ fun _ => rfl,
        spaced_maybe (p := phrase .whereClause done) _ _ _ _ fun _ => rfl] at h
      simpa using h
  · rintro - ⟨vis', name', generics', params', output', clause', ⟨⟩⟩ h
    obtain ⟨hvis', hname, h⟩ := Parts.backAs_maybe.mp h
    obtain ⟨hgenerics', h⟩ := Parts.backAs_maybe.mp h
    obtain ⟨hparams, h⟩ := Parts.backAs_maybe.mp h
    obtain ⟨houtput, h⟩ := Parts.backAs_maybe.mp h
    obtain ⟨hclause, -⟩ := Parts.backAs_maybe.mp h
    exact method_back hname (orNil_back hparams) (only_back houtput)
      (declaredGenerics_back hgenerics hgenerics' hclause) (getD_back hvis')

end TraitMock
