import TraitMock.Proofs.Decl.Argument
import TraitMock.Proofs.Method.Normalize

/-!
# Proofs/Method/Named — the names under which arguments are handed on

Where a pattern begins, `_` is no name, and an argument without a name is reported.  Behind `mut` it
is one: there `_` is read like any other name, and normalization drops the `mut` in front of it.

* `Method.named_of_parse` — every argument of a cleanly classified method that is not written
  `mut _` has got a name that is not `_`, is handed on under it, and keeps it when it is read again.
* `Method.wild_of_parse` — what is written `mut _` comes through, is handed on as `_`, and is no
  binding at all when it is read again.
-/

namespace TraitMock

open Table Machine

variable {policy : Policy} {text : String} {m : Method} {generics : Option Generics}
  {facts : MethodFacts}

/-- The pattern without a name, as it is written. -/
def wildName : String := "_"

namespace Param

/-- **The name that a parameter is bound by**, if that is all its pattern. -/
def boundName? : Param → Option String
  | .typed (.ident ident false false none _) _ _ => some ident.name
  | _ => none

/-- **Whether a parameter is written `mut _`.** -/
def isMutWild : Param → Bool
  | .typed (.ident ident false true none _) _ _ => ident.name == wildName
  | _ => false

/-! ## What is handed on -/

/-- The expression that hands an argument on is its name, or a reference to it. -/
theorem render_standIn {p : Param} (hp : p.isPlain) {position : Nat} {a : StandIn}
    (h : p.standIn? position = some a) :
    ∃ name, p.boundName? = some name ∧ (a.expr.render = name ∨ a.expr.render = "&" ++ name) := by
  rcases isPlain_cases hp with ⟨_, _, _, _, rfl⟩ | ⟨ident, s, ty, span, rfl⟩
  · cases h
  · refine ⟨ident.name, rfl, ?_⟩
    unfold standIn? at h
    split at h
    next heq =>
      cases heq
      split at h
      · exact .inl (Option.some.inj h ▸ rfl)
      · exact .inr (Option.some.inj h ▸ rfl)
    next hne => exact absurd rfl (hne _ _ _ _ _ _ _)

end Param

/-- **What is handed on, argument by argument**: of plain parameters, each one but a receiver has
its stand-in, in their order, wherever they stand. -/
theorem forall₂_standIns {P : Param → StandIn → Prop} {params : List Param}
    (hplain : ∀ p ∈ params, p.withoutMut.isPlain)
    (h : ∀ p ∈ params, ∀ position a, p.withoutMut.standIn? position = some a → P p a)
    (position : Nat) :
    List.Forall₂ P (params.filter fun p => !p.isReceiver)
      (standIns position (params.map Param.withoutMut)) := by
  induction params generalizing position with
  | nil => exact .nil
  | cons p rest ih =>
    have hrest := ih (fun q hq => hplain q (List.mem_cons_of_mem p hq))
      (fun q hq => h q (List.mem_cons_of_mem p hq)) (position + 1)
    have hisSome := Param.isSome_standIn? (hplain p List.mem_cons_self) position
    rw [Param.ty?_withoutMut] at hisSome
    rw [List.map_cons, standIns]
    cases p with
    | receiver kind isMut lifetime s =>
      rw [Option.not_isSome_iff_eq_none.mp (Bool.eq_false_iff.mp hisSome)]
      exact hrest
    | typed pat ty s =>
      obtain ⟨a, ha⟩ := Option.isSome_iff_exists.mp hisSome
      rw [ha]
      exact .cons (h _ List.mem_cons_self position a ha) hrest

/-! ## What is read again -/

/-- A name that binds behind `mut` binds without it, unless it is `_` or a keyword of the place. -/
theorem Ident.Binds.withoutMut {ident : Ident} {isMut : Bool}
    (h : ident.Binds (patternWords true) isMut) (hwild : ident.name ≠ wildName)
    (hkw : ∀ kw ∈ [Terminal.mutKw, .refKw], ident.name ≠ (Lexeme.ofKind kw).text) :
    ident.Binds (patternWords true) false := by
  refine h.bare (List.Subset.refl _) fun t ht hspelling => ?_
  have ht : t = .mutKw ∨ t = .refKw ∨ t = .underscore := by simpa [hiddenWords] using ht
  rcases ht with rfl | rfl | rfl
  · exact hkw .mutKw (by decide) (Option.some.inj hspelling).symm
  · exact hkw .refKw (by decide) (Option.some.inj hspelling).symm
  · exact hwild (Option.some.inj hspelling).symm

/-- A pattern alike a name binds that name. -/
theorem Param.boundName?_of_alike {ident : Ident} {s span : Span} {ty : Ty} {pat : Pat}
    (h : pat.alike (.ident ident false false none s) = true) :
    (Param.typed pat ty span).boundName? = some ident.name := by
  cases pat with
  | ident i byRef isMut sub s' =>
    cases sub with
    | none =>
      simp only [Pat.alike, Ident.alike, alikeSub, Bool.and_true, Bool.and_eq_true, beq_iff_eq] at h
      obtain ⟨⟨hname, rfl⟩, rfl⟩ := h
      exact congrArg some hname
    | some sub => simp [Pat.alike, alikeSub] at h
  | _ => simp [Pat.alike] at h

/-- **A name comes back** when its argument is read again: if the method is read at all, its only
parameter is bound by the same name. -/
theorem boundName?_of_parse {ident : Ident} {isMut : Bool} {ty : Ty} {s span : Span}
    {ws : List Lexeme} {first next : Terminal} (hbinds : ident.Binds (patternWords true) isMut)
    (hwild : ident.name ≠ wildName) (hty : Again declared .type typeWords ty ws first next)
    (hparse : Method.parse (Param.typed (.ident ident false false none s) ty span).asMethod =
      .ok m) :
    m.params.map Param.boundName? = [some ident.name] := by
  by_cases hkw : ∀ kw ∈ [Terminal.mutKw, .refKw], ident.name ≠ (Lexeme.ofKind kw).text
  · have hpat := rereads_name ident.name ⟨none, default⟩ (hbinds.withoutMut hwild hkw)
    obtain ⟨m', pat, ty', span', hparse', hparams, halike⟩ := exists_parse_asMethod span hpat hty
    have hsame : Except.ok m = Except.ok m' := hparse.symm.trans hparse'
    obtain rfl := Except.ok.inj hsame
    rw [hparams, List.map_singleton, Param.boundName?_of_alike halike]
    rfl
  · simp only [not_forall, not_not] at hkw
    obtain ⟨kw, hmem, hname⟩ := hkw
    exact absurd hparse (not_parse_asMethod hmem hname ty s span m)

/-! ## Arguments of cleanly classified methods -/

/-- The forms of a parameter that is plain without `mut`. -/
theorem Param.isPlain_withoutMut_cases {p : Param} (h : p.withoutMut.isPlain) :
    p.withoutMut.isReceiver ∨ ∃ ident isMut s ty span,
      p = .typed (.ident ident false isMut none s) ty span ∧
        p.withoutMut = .typed (.ident ident false false none s) ty span := by
  rcases p with ⟨kind, isMut, lifetime, s⟩ | ⟨⟨ident, byRef, isMut, sub, s⟩ | _ | _ | _, ty, span⟩
  · cases kind <;> cases isMut <;> exact .inl rfl
  · refine .inr ⟨ident, isMut, s, ty, span, ?_⟩
    cases isMut <;> cases byRef <;> cases sub <;> first | exact ⟨rfl, rfl⟩ | cases h
  all_goals cases h

/-- **An argument with a name**: it is bound by the name alone, which is not `_`, and is so still if
it can be read again. -/
structure Param.Named (p : Param) (name : String) : Prop where
  bound : p.boundName? = some name
  spells : Terminal.name.Spells name
  ne_wild : name ≠ wildName
  back : ∀ m, Method.parse p.asMethod = .ok m → m.params.map boundName? = [some name]

/-- A name that is not `_` is not handed on as `_`, or as a reference to it. -/
theorem Param.Named.render_ne {p : Param} {name text : String} (h : p.Named name)
    (htext : text = name ∨ text = "&" ++ name) : text ≠ wildName ∧ text ≠ "&" ++ wildName := by
  rcases htext with rfl | rfl
  · refine ⟨h.ne_wild, ?_⟩
    rintro rfl
    exact absurd h.spells (by decide)
  · refine ⟨fun heq => ?_, fun heq => h.ne_wild ?_⟩
    · have hchars := congrArg (·.toList.head?) heq
      simp [wildName, String.toList_append] at hchars
    · have hchars := congrArg String.toList heq
      rw [String.toList_append, String.toList_append] at hchars
      exact String.toList_injective (List.append_cancel_left hchars)

theorem Param.boundName?_of_isReceiver {p : Param} (h : p.isReceiver) : p.boundName? = none := by
  cases p with
  | receiver kind isMut lifetime s => rfl
  | typed pat ty span => cases h

/-- A parameter that has been read, and is normalized to a plain one, has a name then, unless it is
written `mut _`. -/
theorem Param.Binds.named {p : Param} (h : p.Binds) (hplain : p.withoutMut.isPlain)
    (hmut : ¬ p.isMutWild) : p.withoutMut.isReceiver ∨ ∃ name, p.withoutMut.Named name := by
  rcases isPlain_withoutMut_cases hplain with hreceiver | ⟨ident, isMut, s, ty, span, rfl, hwithout⟩
  · exact .inl hreceiver
  · obtain ⟨hbinds, ws, first, next, hty⟩ := h
    have hwild : ident.name ≠ wildName := by
      cases isMut with
      | true => simpa [isMutWild] using hmut
      | false =>
        intro hname
        exact hbinds.2 .underscore (by decide) (congrArg some hname.symm)
    refine .inr ⟨ident.name, ?_⟩
    rw [hwithout]
    exact ⟨rfl, hbinds.1, hwild, fun m hparse => boundName?_of_parse hbinds hwild hty hparse⟩

/-- **Every argument has a name** that is not written `mut _`: of a method that has been read, and
of which nothing is reported, each other parameter but a receiver has a name, and none of them is
handed on as `_` or as a reference to it. -/
theorem Method.named_of_parse (hparse : Method.parse text = .ok m)
    (hfacts : (m.facts generics).Yields policy facts) :
    List.Forall₂ (fun written p =>
        ¬ written.isMutWild → p.isReceiver ∨ ∃ name, p.Named name) m.params facts.params ∧
      List.Forall₂ (fun written a =>
          ¬ written.isMutWild → a.expr.render ≠ wildName ∧ a.expr.render ≠ "&" ++ wildName)
        (m.params.filter fun p => !p.isReceiver) facts.standIns := by
  have hclean := Method.cleanFacts hfacts
  have hplain : ∀ p ∈ m.params, p.withoutMut.isPlain := fun p hp =>
    hclean.plain _ (hclean.params ▸ List.mem_map_of_mem hp)
  have hnamed : ∀ p ∈ m.params, ¬ p.isMutWild →
      p.withoutMut.isReceiver ∨ ∃ name, p.withoutMut.Named name := fun p hp =>
    (Method.binds_of_parse hparse p hp).named (hplain p hp)
  rw [hclean.standIns, hclean.params]
  refine ⟨List.forall₂_map_right_iff.mpr (List.forall₂_same.mpr hnamed),
    forall₂_standIns hplain (fun p hp position a hstandIn hmut => ?_) 0⟩
  obtain ⟨name, hbound, hrender⟩ := Param.render_standIn (hplain p hp) hstandIn
  rcases hnamed p hp hmut with hreceiver | ⟨name', hname⟩
  · rw [Param.boundName?_of_isReceiver hreceiver] at hbound
    cases hbound
  · obtain rfl : name' = name := Option.some.inj (hname.bound.symm.trans hbound)
    exact hname.render_ne hrender

/-- The method is read, nothing is reported of it, and the name of its first argument is that of its
declaration, whatever stands behind it. -/
theorem mutArgument_named :
    ∃ m facts, Method.parse "fn f(&self, mut x: u32, mut _: u32)" = .ok m ∧
      (m.facts none).Yields .collect facts ∧ m.params.map Param.isMutWild = [false, false, true] ∧
      List.Forall₂ (fun written p =>
        ¬ written.isMutWild → p.isReceiver ∨ ∃ name, p.Named name) m.params facts.params ∧
      List.Forall₂ (fun written a =>
          ¬ written.isMutWild → a.expr.render ≠ wildName ∧ a.expr.render ≠ "&" ++ wildName)
        (m.params.filter fun p => !p.isReceiver) facts.standIns := by
  obtain ⟨m, hparse, hrun⟩ := exists_of_toOption
    (e := Method.parse "fn f(&self, mut x: u32, mut _: u32)")
    (f := fun m => (m.params.map Param.isMutWild,
      ((m.facts none).run .collect).result.toOption.map fun _ => (),
      ((m.facts none).run .collect).reports))
    (b := ([false, false, true], some (), [])) (by decide +kernel)
  obtain ⟨hmut, hrun⟩ := Prod.mk.inj hrun
  obtain ⟨facts, hfacts, -⟩ := Checked.exists_yields hrun
  exact ⟨m, facts, hparse, hfacts, hmut, Method.named_of_parse hparse hfacts⟩

/-! ## What is written `mut _` -/

/-- A pattern alike the one without a name is that one. -/
theorem Pat.eq_wild_of_alike {pat : Pat} {s : Span} (h : pat.alike (.wild s) = true) :
    ∃ s', pat = .wild s' := by
  cases pat with
  | wild s' => exact ⟨s', rfl⟩
  | _ => simp [Pat.alike] at h

/-- A plain argument is handed on, wherever it stands. -/
theorem exists_mem_standIns {params : List Param} {p : Param} (hp : p ∈ params)
    (hstandIn : ∀ position, (p.standIn? position).isSome) (position : Nat) :
    ∃ at', ∃ a ∈ standIns position params, p.standIn? at' = some a := by
  induction params generalizing position with
  | nil => cases hp
  | cons q rest ih =>
    rw [standIns]
    rcases List.mem_cons.mp hp with rfl | hp
    · obtain ⟨a, ha⟩ := Option.isSome_iff_exists.mp (hstandIn position)
      exact ⟨position, a, List.mem_append_left _ (Option.mem_toList.mpr ha), ha⟩
    · obtain ⟨at', a, ha, hstandIn⟩ := ih hp (position + 1)
      exact ⟨at', a, List.mem_append_right _ ha, hstandIn⟩

theorem Param.eq_of_isMutWild {p : Param} (h : p.isMutWild) : ∃ ident s ty span,
    p = .typed (.ident ident false true none s) ty span ∧ ident.name = wildName := by
  unfold isMutWild at h
  split at h
  · exact ⟨_, _, _, _, rfl, eq_of_beq h⟩
  · cases h

/-- **What is written `mut _` comes through**: of a method that has been read, and of which nothing
is reported, such an argument is handed on as `_` or as a reference to it, and is no binding any
more when it is read again. -/
theorem Method.wild_of_parse (hparse : Method.parse text = .ok m)
    (hfacts : (m.facts generics).Yields policy facts) {p : Param} (hp : p ∈ m.params)
    (hmut : p.isMutWild) :
    p.withoutMut ∈ facts.params ∧
      (∃ a ∈ facts.standIns, a.expr.render = wildName ∨ a.expr.render = "&" ++ wildName) ∧
      ∃ m' ty s span, Method.parse p.withoutMut.asMethod = .ok m' ∧
        m'.params = [.typed (.wild s) ty span] := by
  obtain ⟨ident, s, ty, span, rfl, hname⟩ := Param.eq_of_isMutWild hmut
  have hclean := Method.cleanFacts hfacts
  have hmem : Param.typed (.ident ident false false none s) ty span ∈ facts.params := by
    rw [hclean.params]
    exact List.mem_map_of_mem hp
  refine ⟨hmem, ?_, ?_⟩
  · have hstandIn : ∀ position,
        ((Param.typed (.ident ident false false none s) ty span).standIn? position).isSome :=
      fun position => Param.isSome_standIn? rfl position
    obtain ⟨position, a, ha, hposition⟩ := exists_mem_standIns hmem hstandIn 0
    obtain ⟨name, hbound, hrender⟩ := Param.render_standIn rfl hposition
    obtain rfl : ident.name = name := Option.some.inj hbound
    rw [← hclean.standIns] at ha
    exact ⟨a, ha, hname ▸ hrender⟩
  · obtain ⟨-, ws, first, next, hty⟩ := Method.binds_of_parse hparse _ hp
    obtain ⟨m', pat, ty', span', hparse', hparams, halike⟩ :=
      exists_parse_asMethod span (rereads_wild ⟨none, default⟩) hty
    obtain ⟨s', rfl⟩ := Pat.eq_wild_of_alike halike
    refine ⟨m', ty', s', span', ?_, hparams⟩
    rw [← hparse']
    simp [Param.asMethod, Param.withoutMut, Param.render, Pat.render, renderSub, hname, wildName]

/-- The argument of `fn f(mut _: u32)` is handed on as `&_`, and nothing is reported of it. -/
theorem mutWild_handed_on :
    ∃ m facts, Method.parse "fn f(mut _: u32)" = .ok m ∧ (m.facts none).Yields .collect facts ∧
      facts.params.map Param.render = ["_: u32"] ∧
      facts.standIns.map (·.expr.render) = ["&" ++ wildName] := by
  obtain ⟨m, hparse, hrun⟩ := exists_of_toOption (e := Method.parse "fn f(mut _: u32)")
    (f := fun m => (((m.facts none).run .collect).result.toOption.map fun facts =>
      (facts.params.map Param.render, facts.standIns.map (·.expr.render)),
        ((m.facts none).run .collect).reports))
    (b := (some (["_: u32"], ["&_"]), [])) (by decide +kernel)
  obtain ⟨facts, hfacts, hrender⟩ := Checked.exists_yields hrun
  obtain ⟨hparams, hstandIns⟩ := Prod.mk.inj hrender
  exact ⟨m, facts, hparse, hfacts, hparams, hstandIns⟩

end TraitMock
