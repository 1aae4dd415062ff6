import TraitMock.Proofs.Decl.Alike
import TraitMock.Proofs.Walk.SelfType

/-!
# Proofs/Walk/Sharing — a walk rebuilds only what it changes

A walk gives back the very type that it was given exactly if it spares all places that it comes to.
Where what a pass changes can be seen, that is exactly if what comes of the type is alike
(`Ty.spares_of_alike`): a new name is another one, and a path with something in front is longer.  So
the plain walk gives back what it was given, and the lift of climbing paths and the replacement of
`Self` rebuild a type only to change it (`walks_sparing`).
-/

namespace TraitMock

variable {policy : Policy} {p : Pass}

/-! ## Changes that can be seen -/

/-- **A pass whose changes can be seen**: whatever it renames gets another name. -/
structure Pass.Shows (p : Pass) : Prop extends p.Orderly where
  rename_ne : ∀ {name new}, p.rename name = some new → new ≠ name

/-- An identifier that is called the same after the walk is not renamed. -/
theorem Ident.rename_of_alike (hp : p.Shows) {ident : Ident}
    (h : (ident.after p).alike ident = true) : p.rename ident.name = none := by
  rw [after] at h
  cases hrename : p.rename ident.name with
  | none => rfl
  | some new =>
    rw [hrename] at h
    exact absurd (beq_iff_eq.mp h) (hp.rename_ne hrename)

theorem length_eq_of_alikeSegments {as bs : List Segment} (h : alikeSegments as bs = true) :
    as.length = bs.length := by
  have hlength := congrArg List.length ((alikeSegments_iff as bs).mp h)
  rwa [movedSegments_eq_map, movedSegments_eq_map, List.length_map, List.length_map] at hlength

mutual

/-- **What comes of a type is alike only if all places are spared**, where nothing ends the walk. -/
theorem Ty.spares_of_alike (hp : p.Shows) : (ty : Ty) → Walkable (ty.places p) →
    (ty.after p).alike ty = true → (ty.places p).all p.spares = true
  | .slice elem s, hwalk, h | .paren elem s, hwalk, h | .group elem s, hwalk, h => by
    rw [Ty.places, walkable_cons] at hwalk
    rw [Ty.after, Ty.alike] at h
    rw [Ty.places, List.all_cons, Ty.spares_of_alike hp elem hwalk.2 h]
    rfl
  | .array elem _ s, hwalk, h | .pointer elem _ s, hwalk, h => by
    rw [Ty.places, walkable_cons] at hwalk
    rw [Ty.after, Ty.alike, Bool.and_eq_true] at h
    rw [Ty.places, List.all_cons, Ty.spares_of_alike hp elem hwalk.2 h.1]
    rfl
  | .reference elem _ _ s, hwalk, h => by
    rw [Ty.places, walkable_cons] at hwalk
    rw [Ty.after, Ty.alike, Bool.and_eq_true, Bool.and_eq_true] at h
    rw [Ty.places, List.all_cons, Ty.spares_of_alike hp elem hwalk.2 h.1.1]
    rfl
  | .tuple elems s, hwalk, h => by
    rw [Ty.places, walkable_cons] at hwalk
    rw [Ty.after, Ty.alike] at h
    rw [Ty.places, List.all_cons, typesSpares_of_alike hp elems hwalk.2 h]
    rfl
  | .function _ _ _, hwalk, _ | .implTrait _ _, hwalk, _ | .unknown _, hwalk, _ => by
    rw [Ty.places, walkable_cons] at hwalk
    exact nomatch hwalk.1
  | .infer _, _, _ | .never _, _, _ | .macroCall _ _, _, _ | .verbatim _ _, _, _ => by
    rw [Ty.places]
    rfl
  | .path path s, hwalk, h => by
    rw [Ty.places, walkable_cons] at hwalk
    rw [Ty.after, Ty.alike] at h
    rw [Ty.places, List.all_cons, Path.spares_of_alike hp path hwalk.2 h]
    rfl
  | .qualified self position path s, hwalk, h => by
    rw [Ty.places, walkable_cons] at hwalk
    rw [Ty.after, Ty.alike, Bool.and_eq_true] at h
    rw [Ty.places, List.all_cons, Path.spares_of_alike hp path hwalk.2 h.2]
    rfl
  | .traitObject bounds s, hwalk, h => by
    rw [Ty.places, walkable_cons] at hwalk
    cases hc : p.collapse bounds with
    | none =>
      simp only [Ty.after, hc, Ty.alike] at h hwalk
      rw [Ty.places, hc, List.all_cons, boundsSpares_of_alike hp bounds hwalk.2 h, Pass.spares, hc]
      rfl
    | some name =>
      -- What has given way is no trait object any more.
      obtain ⟨⟨segments, leadingColon⟩, relaxed, rfl, hne⟩ := hp.collapse_sole hc
      obtain ⟨ident, args, -, hafter, -⟩ := walks_last hp.toOrderly name segments hne
      simp [Ty.after, hc, soleAfter, hafter, Ty.alike] at h

theorem typesSpares_of_alike (hp : p.Shows) : (tys : List Ty) → Walkable (typesPlaces p tys) →
    alikeTypes (typesAfter p tys) tys = true → (typesPlaces p tys).all p.spares = true
  | [], _, _ => rfl
  | ty :: rest, hwalk, h => by
    rw [typesPlaces, walkable_append] at hwalk
    rw [typesAfter, alikeTypes, Bool.and_eq_true] at h
    rw [typesPlaces, List.all_append, Ty.spares_of_alike hp ty hwalk.1 h.1,
      typesSpares_of_alike hp rest hwalk.2 h.2]
    rfl

theorem outputSpares_of_alike (hp : p.Shows) : (output : Option Ty) →
    Walkable (outputPlaces p output) → alikeOutput (outputAfter p output) output = true →
    (outputPlaces p output).all p.spares = true
  | none, _, _ => rfl
  | some ty, hwalk, h => by
    rw [outputPlaces] at hwalk ⊢
    rw [outputAfter, alikeOutput] at h
    exact Ty.spares_of_alike hp ty hwalk h

/-- A path that is alike after the walk has got nothing in front, and no new names. -/
theorem Path.spares_of_alike (hp : p.Shows) : (path : Path) → Walkable (path.places p) →
    (path.after p).alike path = true → (path.places p).all p.spares = true
  | ⟨segments, leadingColon⟩, hwalk, h => by
    rw [Path.places, walkable_cons] at hwalk
    rw [Path.after, Path.led, Path.alike, Bool.and_eq_true] at h
    have hlead : p.lead ⟨segmentsAfter p segments, leadingColon⟩ = [] := by
      have hlength := length_eq_of_alikeSegments h.1
      rw [List.length_append, length_segmentsAfter] at hlength
      exact List.length_eq_zero_iff.mp (Nat.add_eq_right.mp hlength)
    rw [hlead, List.nil_append] at h
    obtain ⟨hnames, hsegments⟩ := segmentsSpares_of_alike hp segments hwalk.2 h.1
    rw [Path.places, List.all_cons, hsegments, Pass.spares, hnames, hlead]
    rfl

theorem segmentsSpares_of_alike (hp : p.Shows) : (segments : List Segment) →
    Walkable (segmentsPlaces p segments) →
    alikeSegments (segmentsAfter p segments) segments = true →
    (segments.all fun s => (p.rename s.ident.name).isNone) = true ∧
      (segmentsPlaces p segments).all p.spares = true
  | [], _, _ => ⟨rfl, rfl⟩
  | segment :: rest, hwalk, h => by
    rw [segmentsPlaces, walkable_append] at hwalk
    rw [segmentsAfter, alikeSegments, Bool.and_eq_true] at h
    obtain ⟨hname, hsegment⟩ := Segment.spares_of_alike hp segment hwalk.1 h.1
    obtain ⟨hnames, hrest⟩ := segmentsSpares_of_alike hp rest hwalk.2 h.2
    rw [List.all_cons, hname, hnames, segmentsPlaces, List.all_append, hsegment, hrest]
    exact ⟨rfl, rfl⟩

theorem Segment.spares_of_alike (hp : p.Shows) : (segment : Segment) →
    Walkable (segment.places p) → (segment.after p).alike segment = true →
    p.rename segment.ident.name = none ∧ (segment.places p).all p.spares = true
  | ⟨ident, args⟩, hwalk, h => by
    rw [Segment.places] at hwalk ⊢
    rw [Segment.after, Segment.alike, Bool.and_eq_true] at h
    exact ⟨Ident.rename_of_alike hp h.1, SegmentArgs.spares_of_alike hp args hwalk h.2⟩

theorem SegmentArgs.spares_of_alike (hp : p.Shows) : (args : SegmentArgs) →
    Walkable (args.places p) → (args.after p).alike args = true →
      (args.places p).all p.spares = true
  | .none, _, _ => rfl
  | .angle args, hwalk, h => by
    rw [SegmentArgs.places] at hwalk ⊢
    rw [SegmentArgs.after, SegmentArgs.alike] at h
    exact argsSpares_of_alike hp args hwalk h
  | .call inputs output, hwalk, h => by
    rw [SegmentArgs.places, walkable_append] at hwalk
    rw [SegmentArgs.after, SegmentArgs.alike, Bool.and_eq_true] at h
    rw [SegmentArgs.places, List.all_append, typesSpares_of_alike hp inputs hwalk.1 h.1,
      outputSpares_of_alike hp output hwalk.2 h.2]
    rfl

theorem argsSpares_of_alike (hp : p.Shows) : (args : List GenericArg) →
    Walkable (argsPlaces p args) → alikeGenericArgs (argsAfter p args) args = true →
    (argsPlaces p args).all p.spares = true
  | [], _, _ => rfl
  | arg :: rest, hwalk, h => by
    rw [argsPlaces, walkable_append] at hwalk
    rw [argsAfter, alikeGenericArgs, Bool.and_eq_true] at h
    rw [argsPlaces, List.all_append, GenericArg.spares_of_alike hp arg hwalk.1 h.1,
      argsSpares_of_alike hp rest hwalk.2 h.2]
    rfl

theorem GenericArg.spares_of_alike (hp : p.Shows) : (arg : GenericArg) →
    Walkable (arg.places p) → (arg.after p).alike arg = true → (arg.places p).all p.spares = true
  | .type ty, hwalk, h => by
    rw [GenericArg.places] at hwalk ⊢
    rw [GenericArg.after, GenericArg.alike] at h
    exact Ty.spares_of_alike hp ty hwalk h
  | .binding _ ty, hwalk, h => by
    rw [GenericArg.places] at hwalk ⊢
    rw [GenericArg.after, GenericArg.alike, Bool.and_eq_true] at h
    exact Ty.spares_of_alike hp ty hwalk h.2
  | .lifetime _, _, _ | .const _, _, _ => rfl

theorem Bound.spares_of_alike (hp : p.Shows) : (bound : Bound) →
    Walkable (bound.places p) → (bound.after p).alike bound = true →
    (bound.places p).all p.spares = true
  | .trait path _, hwalk, h => by
    rw [Bound.places] at hwalk ⊢
    rw [Bound.after, Bound.alike, Bool.and_eq_true] at h
    exact Path.spares_of_alike hp path hwalk h.1
  | .outlives _, _, _ => rfl

theorem boundsSpares_of_alike (hp : p.Shows) : (bounds : List Bound) →
    Walkable (boundsPlaces p bounds) → alikeBounds (boundsAfter p bounds) bounds = true →
    (boundsPlaces p bounds).all p.spares = true
  | [], _, _ => rfl
  | bound :: rest, hwalk, h => by
    rw [boundsPlaces, walkable_append] at hwalk
    rw [boundsAfter, alikeBounds, Bool.and_eq_true] at h
    rw [boundsPlaces, List.all_append, Bound.spares_of_alike hp bound hwalk.1 h.1,
      boundsSpares_of_alike hp rest hwalk.2 h.2]
    rfl

end

/-! ## Types that are given back -/

theorem Ty.alike_refl (ty : Ty) : ty.alike ty = true := (Ty.alike_iff ty ty).mpr rfl

/-- **An edit that rebuilds only what it changes**: the type itself is given back exactly if what
comes of it is alike, and the place of the type is kept. -/
def Edit.Sparing (ty : Ty) (e : Edit Ty) : Prop :=
  (e.isKeep = true ↔ (e.apply ty).alike ty = true) ∧ (e.apply ty).span = ty.span

/-- **The walk of a pass whose changes can be seen** rebuilds only what it changes. -/
theorem Ty.sparing_of_run_walk (hp : p.Shows) {ty : Ty} {e : Edit Ty} {reports : List Diagnostic}
    (h : (ty.walk p).run policy = ⟨.ok e, reports⟩) : e.Sparing ty := by
  obtain ⟨hwalkable, happly, hkeep⟩ := Ty.run_walk_edit hp.toOrderly h
  refine ⟨⟨fun hkept => ?_, fun halike => ?_⟩, happly ▸ Ty.span_after p ty⟩
  · cases e with
    | keep => exact Ty.alike_refl ty
    | replace new => cases hkept
  · rw [hkeep]
    exact Ty.spares_of_alike hp ty hwalkable (happly ▸ halike)

namespace Pass

theorem shows_superPath : superPath.Shows where
  toOrderly := orderly_superPath
  rename_ne h := nomatch h

variable {actual : Ident} {interface : Option String}

theorem shows_selfType (hactual : actual.name ≠ selfName) (interface : Option String) :
    (selfType actual interface).Shows where
  toOrderly := orderly_selfType actual interface
  rename_ne {name new} h := by
    simp only [selfType, Option.ite_none_right_eq_some] at h
    obtain ⟨rfl, hnew⟩ := h
    exact Option.some.inj hnew ▸ hactual

/-- The plain walk spares everything. -/
theorem spares_plain (place : Part) : plain.spares place = true := by
  cases place with
  | type ty => cases ty <;> rfl
  | path path => exact Bool.and_eq_true_iff.mpr ⟨List.all_eq_true.mpr fun _ _ => rfl, rfl⟩

theorem spares_selfType_path {path : Path} :
    (selfType actual interface).spares (.path path) = true ↔ selfName ∉ path.names := by
  have hrename : ∀ name, ((selfType actual interface).rename name).isNone = true ↔
      name ≠ selfName := by
    intro name
    simp [selfType]
  have hlead :
      ((selfType actual interface).lead ⟨segmentsAfter (selfType actual interface) path.segments,
        path.leadingColon⟩).isEmpty = true := rfl
  rw [spares, hlead, Bool.and_true, List.all_eq_true, Path.names]
  simp only [hrename, List.mem_map, not_exists, not_and, ne_eq]

/-- The replacement of `Self` spares the paths without a segment named `Self`, and the trait objects
that do not stand for the mock. -/
theorem all_spares_selfType {places : List Part} :
    places.all (selfType actual interface).spares = true ↔
      (∀ path, .path path ∈ places → selfName ∉ path.names) ∧
        ∀ bounds s, .type (.traitObject bounds s) ∈ places → ¬ StandForMock interface bounds := by
  rw [List.all_eq_true]
  constructor
  · refine fun h =>
      ⟨fun path hpath => spares_selfType_path.mp (h _ hpath), fun bounds s hobject => ?_⟩
    exact collapse_selfType_eq_none_iff.mp (Option.isNone_iff_eq_none.mp (h _ hobject))
  · rintro ⟨hpaths, hobjects⟩ (ty | path) hplace
    · cases ty with
      | traitObject bounds s =>
        exact Option.isNone_iff_eq_none.mpr
          (collapse_selfType_eq_none_iff.mpr (hobjects bounds s hplace))
      | _ => rfl
    · exact spares_selfType_path.mpr (hpaths path hplace)

end Pass

/-- **Walks rebuild only what they change.**  Under whatever policy, where a walk over a type comes
to its end: the plain walk gives back the type that it was given; the lift of climbing paths, and
the replacement of `Self` by another name, give it back exactly if what comes of it is alike, and
keep its place; and the replacement of `Self` gives it back exactly if the walk comes to no segment
named `Self` and to no trait object that stands for the mock. -/
theorem walks_sparing {actual : Ident} (hactual : actual.name ≠ selfName)
    (interface : Option String) (ty : Ty) (policy : Policy) :
    (∀ {e reports}, (ty.walk .plain).run policy = ⟨.ok e, reports⟩ → e = .keep) ∧
    (∀ {e reports}, ty.liftSuper.run policy = ⟨.ok e, reports⟩ → e.Sparing ty) ∧
    ∀ {e reports}, (ty.substSelf actual interface).run policy = ⟨.ok e, reports⟩ → e.Sparing ty ∧
      (e.isKeep = true ↔
        (∀ path, .path path ∈ ty.places (.selfType actual interface) → selfName ∉ path.names) ∧
        ∀ bounds s, .type (.traitObject bounds s) ∈ ty.places (.selfType actual interface) →
          ¬ StandForMock interface bounds) := by
  refine ⟨fun {e _} h => ?_, Ty.sparing_of_run_walk Pass.shows_superPath, fun h => ?_⟩
  · obtain ⟨-, -, hkeep⟩ := Ty.run_walk_edit Pass.orderly_plain h
    rw [List.all_eq_true.mpr fun place _ => Pass.spares_plain place] at hkeep
    cases e with
    | keep => rfl
    | replace new => cases hkeep
  · have hshows := Pass.shows_selfType hactual interface
    refine ⟨Ty.sparing_of_run_walk hshows h, ?_⟩
    rw [(Ty.run_walk_edit hshows.toOrderly h).2.2, Pass.all_spares_selfType]

/-- `(super::A, Self)` -/
def climberAndSelf : Ty :=
  .tuple [.path (.ofIdents [⟨superName, {}⟩, ⟨"A", {}⟩]) {},
    .path (.ofIdents [⟨selfName, {}⟩]) {}] {}

/-- The plain walk gives it back; the lift and the replacement of `Self` change it, each at one
place. -/
theorem climberAndSelf_sparing :
    (∃ kept, (climberAndSelf.walk .plain).run .halt = ⟨.ok kept, []⟩ ∧ kept = .keep) ∧
    (∃ lifted, climberAndSelf.liftSuper.run .halt = ⟨.ok lifted, []⟩ ∧ lifted.isKeep = false ∧
      lifted.Sparing climberAndSelf) ∧
    ∃ replaced, (climberAndSelf.substSelf ⟨"MockT", {}⟩ none).run .halt = ⟨.ok replaced, []⟩ ∧
      replaced.isKeep = false ∧ replaced.Sparing climberAndSelf := by
  have hactual : (⟨"MockT", {}⟩ : Ident).name ≠ selfName := by decide
  obtain ⟨hplain, hlift, hself⟩ := walks_sparing hactual none climberAndSelf .halt
  exact ⟨⟨_, rfl, hplain rfl⟩, ⟨_, rfl, rfl, hlift rfl⟩, ⟨_, rfl, rfl, (hself rfl).1⟩⟩

end TraitMock
