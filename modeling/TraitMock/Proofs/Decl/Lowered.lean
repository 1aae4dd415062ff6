import TraitMock.Proofs.Decl.Bindings
import TraitMock.Proofs.Decl.Rebuild

/-!
# Proofs/Decl/Lowered — what is lowered can be read again

A lowered type has been read nowhere.  Where a rule carries the lowering over, what it builds from
lowered parts can be read in the place of what it built.  Three rules do not, and there the lowered
value is put together anew: a path that climbs gets two steps in front (`path_rereadsLowered`), a
trait object that is the interface collapses to a path (`Lowered.rereads_object`), and `Self`
becomes the name of the mock (`pathIdent_rereadsLowered`).

To put these together, more must be known of the parts than that they can be read where they stood
(`KnownBeside`): what a collapsed path is applied to comes behind another name, the segments of a
climbing path come behind others, and the bounds of an unnamed type come into a box.
-/

namespace TraitMock

open Table Parts

/-! ## The judgement -/

/-- What the last segment of a sole bound is applied to. -/
def soleArgs? : List Bound → Option SegmentArgs
  | [.trait path false] => path.segments.getLast?.map (·.args)
  | _ => none

/-- **What is applied to the last segment** of what a phrase stands for. -/
def Nonterminal.lastArgs? : (n : Nonterminal) → n.Val → Option SegmentArgs
  | .segment, x => some (Segment.args x)
  | .moreSegments, xs => (List.getLast? xs).map Segment.args
  | .path, x => (Path.segments x).getLast?.map Segment.args
  | .bound, x => soleArgs? [x]
  | .bounds, xs => soleArgs? xs
  | _, _ => none

section Judgement

variable (actual : Ident) (interface : Option String)

/-- What is known of some kinds of phrases. -/
def Beside (s : Nat) : (n : Nonterminal) → n.Val → (first next : Terminal) → Prop
  | .moreBounds, xs, _, _ => xs ≠ []
  | .moreSegments, xs, first, next => xs ≠ [] ∧ first = .pathSep ∧
    (Lowers actual interface .moreSegments xs →
      FollowOthers (lowering actual interface .moreSegments xs) next)
  | .path, _, _, next => next ≠ .pathSep
  | .type, ty, first, next => Lowers actual interface .type (Ty.erased ty) →
    Rereads declared s .type (lowering actual interface .type (Ty.erased ty)) first next
  | _, _, _, _ => True

/-- **What is known of a phrase beside** what it can be read again as: what its last segment is
applied to can be read again behind any name. -/
structure KnownBeside (s : Nat) (n : Nonterminal) (v : n.Val) (first next : Terminal) : Prop where
  args : ∀ args ∈ n.lastArgs? v, Lowers actual interface .segmentArgs args →
    (lowering actual interface .segmentArgs args).Readable next
  beside : Beside actual interface s n v first next

/-- **What is known of the phrases inside types**: lowered, they can be read again in their
place. -/
structure Lowered (s : Nat) (n : Nonterminal) (v : n.Val) (first next : Terminal) : Prop
    extends KnownBeside actual interface s n v first next where
  rereads : Lowers actual interface n v →
    Rereads declared s n (lowering actual interface n v) first next

/-- What is known of well-formed phrases. -/
abbrev lowered : Judgement := wellFormed.and (Lowered actual interface)

/-- **A rule builds what can be read again when lowered.** -/
def Rule.RereadsLowered (r : Rule) : Prop :=
  ∀ {s g stop : Nat} {first next : Terminal} (place : Place) (vals : r.parts.Val),
    step s (.phrase r.lhs) = some g →
      r.parts.Holds (lowered actual interface) s vals first stop next → EndsBefore r.lhs next →
        TraitMock.Lowers actual interface r.lhs (r.action place vals) →
          Rereads declared s r.lhs (lowering actual interface r.lhs (r.action place vals))
            first next

/-- A rule keeps what is known of phrases beside. -/
def Rule.KeepsBeside (r : Rule) : Prop :=
  ∀ {s g stop : Nat} {first next : Terminal} (place : Place) (vals : r.parts.Val),
    step s (.phrase r.lhs) = some g →
      r.parts.Holds (lowered actual interface) s vals first stop next → EndsBefore r.lhs next →
        KnownBeside actual interface s r.lhs (r.action place vals) first next

end Judgement

variable {actual : Ident} {interface : Option String} {s g stop : Nat} {first next : Terminal}

/-! ## What is known beside -/

/-- The phrases of which something is known beside. -/
def besidePhrases : List Nonterminal :=
  [.moreBounds, .moreSegments, .bounds, .bound, .type, .path, .segment]

/-- Of most phrases nothing is known beside. -/
theorem KnownBeside.of_not_mem {n : Nonterminal} (hn : n ∉ besidePhrases) {v : n.Val} :
    KnownBeside actual interface s n v first next := by
  constructor
  · cases n <;> first
      | exact fun _ h => absurd h (Option.not_mem_none _)
      | exact absurd (by decide) hn
  · cases n <;> first | exact True.intro | exact absurd (by decide) hn

/-- Where further bounds have been read, there are some. -/
theorem moreBounds_keepsBeside : ∀ r ∈ Grammar.moreBounds, r.KeepsBeside actual interface := by
  refine List.forall_iff_forall_mem.mp ⟨?_, ?_⟩
  · exact fun _ _ _ _ _ => ⟨fun _ h => absurd h (Option.not_mem_none _), List.cons_ne_nil _ _⟩
  · exact fun _ _ _ _ _ => ⟨fun _ h => absurd h (Option.not_mem_none _), by simp [Beside]⟩

/-- What is applied to a segment can be read again behind any name. -/
theorem segment_keepsBeside : ∀ r ∈ Grammar.segment, r.KeepsBeside actual interface := by
  refine List.forall_mem_singleton.mpr ?_
  rintro s g stop first next place ⟨ident, args, ⟨⟩⟩ hg h hends
  refine ⟨?_, True.intro⟩
  rintro _ ⟨⟩ hlowers
  rcases args with _ | ⟨args, ⟨⟩⟩
  · exact .inl rfl
  · obtain ⟨s₁, b, -, -, s₂, b', ⟨s₃, b'', hstep, ⟨-, hargs⟩, -, rfl⟩, rfl, rfl⟩ := h
    exact .inr fun _ _ _ => (hargs.rereads hlowers).anywhere rfl (by decide) id

/-- A segment can be read behind others, once it is lowered, wherever it has been read. -/
theorem Lowered.followOthers {segment : Segment} (hends : EndsBefore .moreSegments next)
    (h : Lowered actual interface s .segment segment first next) (hwords : pathWords ⊆ words s)
    (hlowers : Lowers actual interface .segment segment) :
    FollowOthers [lowering actual interface .segment segment] next :=
  (Segment.trails_of_rereads hends (h.rereads hlowers) hwords).behind

/-- Further segments are lowered one by one. -/
theorem moreSegments_lower : ∀ r ∈ Grammar.moreSegments, r.Lowers actual interface := by
  intro r hr
  have hlhs := Grammar.lhs_of_mem (n := .moreSegments) hr
  exact Rule.lowers (Grammar.mem_rules (n := .moreSegments) hr) (by rw [hlhs]; decide)

/-- Further segments can be read behind others, and the arguments of the last behind any name. -/
theorem moreSegments_keepsBeside : ∀ r ∈ Grammar.moreSegments, r.KeepsBeside actual interface := by
  have hlower : ∀ r ∈ Grammar.moreSegments, r.Lowers actual interface := moreSegments_lower
  obtain ⟨hsingle, hconcat⟩ := List.forall_iff_forall_mem.mpr hlower
  refine List.forall_iff_forall_mem.mp ⟨?_, ?_⟩
  · rintro s g stop first next place ⟨segment, ⟨⟩⟩ hg
      ⟨hfirst, s₁, b, hsep, s₂, b', -, ⟨-, hsegment⟩, rfl, rfl⟩ hends
    have hwords : words s₁ = pathWords := words_behind_sep hg hsep
    refine ⟨?_, List.cons_ne_nil _ _, hfirst, fun hlowers => ?_⟩
    · rintro _ ⟨⟩
      exact hsegment.args _ rfl
    · exact hsegment.followOthers hends (hwords ▸ List.Subset.refl _)
        (hsingle place (segment, ()) hlowers).kept.1
  · rintro s g stop first next place ⟨segments, segment, ⟨⟩⟩ hg
      ⟨s₁, b, hsegments, ⟨-, hfront⟩, rfl, s₂, b', hsep, s₃, b'', -, ⟨-, hsegment⟩, rfl, rfl⟩ hends
    have hwords : words s₂ = pathWords := words_behind_segments hsegments hsep
    obtain ⟨-, hfirst, happend⟩ := hfront.beside
    refine ⟨?_, by simp, hfirst, fun hlowers => ?_⟩
    · rintro args hargs
      simp only [Nonterminal.lastArgs?, List.getLast?_concat, Option.map_some,
        Option.mem_some_iff] at hargs
      subst hargs
      exact hsegment.args _ rfl
    · obtain ⟨hchange, hkept, hlast, -⟩ := hconcat place (segments, segment, ()) hlowers
      have hwhole := (happend hkept).append (hsegment.followOthers hends
        (hwords ▸ List.Subset.refl _) hlast)
      exact hchange ▸ hwhole

/-- What is known of the arguments of the last segment is known of those of the path. -/
theorem path_keepsBeside : ∀ r ∈ Grammar.path, r.KeepsBeside actual interface := by
  refine List.forall_mem_singleton.mpr ?_
  rintro s g stop first next place ⟨segment, _ | ⟨more, ⟨⟩⟩, ⟨⟩⟩ hg
    ⟨s₁, b, -, ⟨-, hsegment⟩, h⟩ hends
  · obtain ⟨rfl, rfl⟩ := h
    refine ⟨?_, hends.2 (.inl rfl)⟩
    rintro _ ⟨⟩
    exact hsegment.args _ rfl
  · obtain ⟨s₂, b', ⟨s₃, b'', -, ⟨-, hmore⟩, rfl, rfl⟩, rfl, rfl⟩ := h
    refine ⟨fun args hargs => hmore.args args ?_, hends.2 (.inl rfl)⟩
    have hlast : List.getLast? (segment :: more) = List.getLast? more :=
      List.getLast?_append_of_ne_nil [segment] hmore.beside.1
    exact (congrArg (Option.map Segment.args) hlast).symm.trans hargs

/-- What is known of the arguments of a path is known of those of a bound by it. -/
theorem bound_keepsBeside : ∀ r ∈ Grammar.bound, r.KeepsBeside actual interface := by
  refine List.forall_iff_forall_mem.mp ⟨?_, ?_, ?_⟩
  · rintro s g stop first next place ⟨path, ⟨⟩⟩ hg ⟨s₁, b, -, ⟨-, hpath⟩, rfl, rfl⟩ hends
    exact ⟨fun args hargs => hpath.args args hargs, True.intro⟩
  · exact fun _ _ _ _ _ => ⟨fun _ h => absurd h (Option.not_mem_none _), True.intro⟩
  · exact fun _ _ _ _ _ => ⟨fun _ h => absurd h (Option.not_mem_none _), True.intro⟩

/-- What is known of the arguments of a sole bound is known of those of the bounds. -/
theorem bounds_keepsBeside : ∀ r ∈ Grammar.bounds, r.KeepsBeside actual interface := by
  refine List.forall_mem_singleton.mpr ?_
  rintro s g stop first next place ⟨bound, _ | ⟨more, ⟨⟩⟩, ⟨⟩⟩ hg ⟨s₁, b, -, ⟨-, hbound⟩, h⟩ hends
  · obtain ⟨rfl, rfl⟩ := h
    exact ⟨fun args hargs => hbound.args args hargs, True.intro⟩
  · obtain ⟨s₂, b', ⟨s₃, b'', -, ⟨-, hmore⟩, -⟩, -⟩ := h
    -- A second bound keeps the first from being the only one.
    obtain ⟨second, rest, rfl⟩ := List.exists_cons_of_ne_nil hmore.beside
    refine ⟨fun args hargs => ?_, True.intro⟩
    cases bound with
    | trait path relaxed => cases relaxed <;> exact absurd hargs (Option.not_mem_none _)
    | outlives lifetime => exact absurd hargs (Option.not_mem_none _)

/-! ## Trait objects and unnamed types -/

section Object

variable {bounds : List Bound} {place : Place}

/-- **A trait object can be read wherever a type may stand**, once it is lowered, if its bounds have
been read anywhere. -/
theorem Lowered.rereads_object (hfree : ∀ span, Ident.Free ⟨actual.name, span⟩)
    (hactual : actual.name ≠ superName) {e : Nat} (he : (step e (.phrase .bounds)).isSome = true)
    (hbounds : Lowered actual interface e .bounds bounds first next)
    (hlowers : Lowers actual interface .type (.traitObject bounds place.span))
    (hs : Begins s .type) {first' next' : Terminal} (hends : EndsBefore .type next') :
    Rereads declared s .type
      (lowering actual interface .type (.traitObject bounds place.span)) first' next' := by
  have hfollow : ∀ t ∈ follow .type, t ∈ follow .typeNoBounds ∧ t ≠ .pathSep := by decide
  obtain ⟨hbare, hsep⟩ := hfollow next' (hends.1 hs.1)
  -- Either the object stays one and its bounds are read again, or it becomes a path of the mock's
  -- name.
  cases hc : (Pass.selfType actual interface).collapse bounds with
  | none =>
    rw [lowering_bounds hc]
    have hbuild : ∀ r ∈ Grammar.type, r.Constructs (Rereads declared) := rules_construct .type
    obtain ⟨-, -, hdyn⟩ := List.forall_iff_forall_mem.mpr hbuild
    have hcontext : (.bounds, [], pathWords) ∈ contexts := by decide
    obtain ⟨g, hg⟩ := Option.isSome_iff_exists.mp he
    have hrereads : ∀ {s'}, Begins s' .bounds →
        Rereads declared s' .bounds (lowering actual interface .bounds bounds) first next' := by
      intro s' hbegins
      obtain ⟨g', hg'⟩ := Option.isSome_iff_exists.mp hbegins.2
      refine (hbounds.rereads (hlowers.bounds_of_object hc)).elsewhere (fun _ => ?_) id
        fun h => absurd h hsep
      rw [words_eq hcontext hg rfl, words_eq hcontext hg' rfl]
      exact List.Subset.refl _
    have hbuilt : Rereads declared s .type
        (.traitObject (lowering actual interface .bounds bounds) place.span) .dynKw next' :=
      hdyn.build place (_, ()) hs
        ⟨rfl, first, next', fun _ _ hbegins => hrereads hbegins, rfl⟩ hends
    exact hbuilt.beginning (by decide)
  | some name =>
    obtain ⟨path, segment, rfl, hlast⟩ := Pass.sole_of_collapse hc
    rw [lowering_object hactual hc hlast]
    have hargs := hbounds.args segment.args (congrArg (Option.map Segment.args) hlast)
      (hlowers.args_of_object hc hlast)
    have hbuilt := Ty.rereads_type hs hends fun hs =>
      Ty.rereads_sole place (hfree segment.ident.span) (hargs.before hsep) hs
        ⟨fun _ => hbare, fun h => absurd h (by decide)⟩ hsep
    exact hbuilt.beginning (by decide)

end Object

/-- What a rule carries the lowering over to can be read again. -/
theorem Rule.Carries.rereads {r : Rule} {place : Place} {vals : r.parts.Val}
    (h : r.Carries (lowering actual interface) (TraitMock.Lowers actual interface) place vals)
    (hr : r ∈ Grammar.rules) (hg : step s (.phrase r.lhs) = some g)
    (hholds : r.parts.Holds (lowered actual interface) s vals first stop next)
    (hends : EndsBefore r.lhs next) :
    Rereads declared s r.lhs (lowering actual interface r.lhs (r.action place vals)) first next :=
  h.holds ((rules_rewrite r hr).preserves hr) (fun hv hkept => hv.2.rereads hkept) hg hholds hends

/-- A rule that carries the lowering over builds what can be read again. -/
theorem Rule.Lowers.rereadsLowered {r : Rule} (h : r.Lowers actual interface)
    (hr : r ∈ Grammar.rules) : r.RereadsLowered actual interface :=
  fun place vals hg hholds hends hlowers => (h place vals hlowers).rereads hr hg hholds hends

section Types

variable (hfree : ∀ span, Ident.Free ⟨actual.name, span⟩) (hactual : actual.name ≠ superName)

include hfree hactual

/-- A lowered type can be read again, as an object, a box or what it was. -/
theorem type_rereadsLowered : ∀ r ∈ Grammar.type, r.RereadsLowered actual interface := by
  have hrules : ∀ r ∈ Grammar.type, r ∈ Grammar.rules := fun _ => Grammar.mem_rules (n := .type)
  refine List.forall_iff_forall_mem.mp ⟨?_, ?_, ?_⟩
  · exact Grammar.bareType_lowers.rereadsLowered (hrules _ (List.mem_cons_self))
  · -- An unnamed type is of no supported form: before it is lowered it has to be boxed.
    rintro s g stop first next place ⟨bounds, ⟨⟩⟩ - - - ⟨-, h⟩
    exact absurd (allParts_cons.mp h).1 Bool.false_ne_true
  · rintro s g stop first next place ⟨bounds, ⟨⟩⟩ hg
      ⟨-, s₁, b, -, s₂, b', hstep, ⟨-, hbounds⟩, -⟩ hends hlowers
    exact hbounds.rereads_object hfree hactual (by rw [hstep]; rfl) hlowers
      ⟨by decide, by rw [hg]; rfl⟩ hends

/-- A type is also known to be read again once it is boxed, if it is an unnamed one. -/
theorem type_keepsBeside : ∀ r ∈ Grammar.type, r.KeepsBeside actual interface := by
  have hrereads : ∀ r ∈ Grammar.type, r.RereadsLowered actual interface :=
    type_rereadsLowered hfree hactual
  obtain ⟨hbare, -, hobject⟩ := List.forall_iff_forall_mem.mpr hrereads
  refine List.forall_iff_forall_mem.mp ⟨?_, ?_, ?_⟩
  · rintro s g stop first next place ⟨ty, ⟨⟩⟩ hg h hends
    refine ⟨fun _ hargs => absurd hargs (Option.not_mem_none _), fun hlowers => ?_⟩
    have hbare' := h
    obtain ⟨s₁, b, -, ⟨⟨-, hty⟩, -⟩, -⟩ := hbare'
    rw [Ty.erased_of_isBare hty] at hlowers ⊢
    exact hbare place (ty, ()) hg h hends hlowers
  · rintro s g stop first next place ⟨bounds, ⟨⟩⟩ hg
      ⟨-, s₁, b, -, s₂, b', hstep, ⟨-, hbounds⟩, -⟩ hends
    refine ⟨fun _ h => absurd h (Option.not_mem_none _), fun hlowers => ?_⟩
    have hobject : ∀ {s}, Begins s .type → Rereads declared s .type
        (lowering actual interface .type (.traitObject bounds place.span)) .dynKw .greater := by
      intro s hs
      exact hbounds.rereads_object hfree hactual (by rw [hstep]; rfl) hlowers.object_of_box hs
        ⟨fun _ => by decide, by decide⟩
    have hbuilt := Ty.rereads_box place.span place ⟨by decide, by rw [hg]; rfl⟩ hends hobject
    exact (lowering_box bounds place.span).symm ▸ hbuilt.beginning (by decide)
  · exact fun place vals hg hholds hends =>
      ⟨fun _ h => absurd h (Option.not_mem_none _), hobject place vals hg hholds hends⟩

/-- What is referred to can be read again, an object by one bound among it. -/
theorem refTarget_rereadsLowered : ∀ r ∈ Grammar.refTarget, r.RereadsLowered actual interface := by
  have hrules : ∀ r ∈ Grammar.refTarget, r ∈ Grammar.rules := fun _ =>
    Grammar.mem_rules (n := .refTarget)
  obtain ⟨hbare, hdyn⟩ := List.forall_iff_forall_mem.mpr hrules
  refine List.forall_iff_forall_mem.mp ⟨Grammar.bareTarget_lowers.rereadsLowered hbare, ?_⟩
  rintro s g stop first next place ⟨path, ⟨⟩⟩ hg h hends hlowers
  have hobject : Lowers actual interface .type (.traitObject [.trait path false] place.span) :=
    ⟨by decide, hlowers.2⟩
  cases hc : (Pass.selfType actual interface).collapse [.trait path false] with
  | none =>
    have hbounds := hobject.bounds_of_object hc
    refine Rule.Carries.rereads ⟨lowering_bounds hc place.span, ?_, trivial⟩ hdyn hg h hends
    exact ⟨by decide, (allParts_append.mp hbounds.2).1⟩
  | some name =>
    have hfollow : ∀ t ∈ follow .refTarget, t ∈ follow .typeNoBounds := by decide
    obtain ⟨-, s₁, b, -, s₂, b', -, ⟨-, hpath⟩, rfl, rfl⟩ := h
    obtain ⟨path, segment, heq, hlast⟩ := Pass.sole_of_collapse hc
    cases heq
    have hargs := hpath.args segment.args (congrArg (Option.map Segment.args) hlast)
      (hobject.args_of_object hc hlast)
    have hbuilt := Ty.rereads_refTarget ⟨by decide, by rw [hg]; rfl⟩ hends fun hs =>
      Ty.rereads_sole place (hfree segment.ident.span) hargs hs
        ⟨fun _ => hfollow _ (hends.1 (by decide)), fun h => absurd h (by decide)⟩ hpath.beside
    exact (lowering_object hactual hc hlast place.span).symm ▸ hbuilt.beginning (by decide)

omit hactual

/-- **The name of the mock can be read in the place of `Self`**, and other names as they were. -/
theorem pathIdent_rereadsLowered : ∀ r ∈ Grammar.pathIdent, r.RereadsLowered actual interface := by
  have htoken : ∀ t, ⟨.pathIdent, token t done, fun place (x, _) => place.ident x⟩ ∈ Grammar.rules →
      Rule.RereadsLowered actual interface
        ⟨.pathIdent, token t done, fun place (x, _) => place.ident x⟩ := by
    rintro t hr s g stop first next place ⟨x, ⟨⟩⟩ hg h hends -
    by_cases hself : x.text = selfName
    · have hident : lowering actual interface .pathIdent (place.ident x) =
          ⟨actual.name, (place.ident x).span⟩ := by
        simp [lowering, Pass.change, Ident.after, Pass.selfType, Pass.superPath, Place.ident, hself]
      have hbuilt := (hfree (place.ident x).span).rereads ⟨by decide, by rw [hg]; rfl⟩ hends
      exact hident.symm ▸ hbuilt.beginning (by decide)
    · refine Rule.Carries.rereads ⟨?_, trivial, trivial⟩ hr hg h hends
      simp [lowering, Pass.change, Ident.after, Pass.selfType, Pass.superPath, Place.ident, hself]
  have hrules : ∀ r ∈ Grammar.pathIdent, r ∈ Grammar.rules := fun _ =>
    Grammar.mem_rules (n := .pathIdent)
  obtain ⟨hname, hself, hcrate⟩ := List.forall_iff_forall_mem.mpr hrules
  exact List.forall_iff_forall_mem.mp ⟨htoken _ hname, htoken _ hself, htoken _ hcrate⟩

omit hfree
include hactual

/-- **A path that climbs can be read with two steps in front of it.** -/
theorem path_rereadsLowered : ∀ r ∈ Grammar.path, r.RereadsLowered actual interface := by
  have hr := List.forall_mem_singleton.mp fun r (h : r ∈ Grammar.path) =>
    Grammar.mem_rules (n := .path) h
  refine List.forall_mem_singleton.mpr ?_
  rintro s g stop first next place ⟨segment, more, ⟨⟩⟩ hg h hends hlowers
  obtain ⟨hfirst, hmore⟩ := hlowers.segments_of_path
  have hpath := @lowering_path actual interface hactual (Grammar.listed segment more)
  by_cases hsuper : segment.ident.name = superName
  · -- Behind the steps in front, the first segment is no longer first: all come behind others.
    have hs : Begins s .path := ⟨by decide, by rw [hg]; rfl⟩
    have hfollow : ∀ t ∈ follow .path, t ∈ follow .moreSegments := by decide
    have hothers : FollowOthers
        (lowering actual interface .moreSegments (Grammar.listed segment more)) next := by
      obtain ⟨s₁, b, -, ⟨-, hsegment⟩, hrest⟩ := h
      rcases more with _ | ⟨more, ⟨⟩⟩
      · obtain ⟨-, rfl⟩ := hrest
        exact hsegment.followOthers ⟨fun _ => hfollow _ (hends.1 hs.1),
          fun h => absurd h (by decide)⟩ (pathWords_subset hg) hfirst
      · obtain ⟨s₂, b', ⟨s₃, b'', -, ⟨-, hothers⟩, -, rfl⟩, -, rfl⟩ := hrest
        obtain ⟨-, rfl, happend⟩ := hothers.beside
        exact (hsegment.followOthers ⟨fun _ => by decide, fun h => absurd h (by decide)⟩
          (pathWords_subset hg) hfirst).append (happend (hmore _ rfl))
    have hclimb : Path.climb ⟨Grammar.listed segment more, false⟩ = supers 2 segment.ident.span :=
      if_pos hsuper
    rw [hclimb] at hpath
    exact hpath ▸ (Path.rereads_supers hs hends hothers).beginning (by decide)
  · have hclimb : Path.climb ⟨Grammar.listed segment more, false⟩ = [] := if_neg hsuper
    rw [hclimb, List.nil_append] at hpath
    refine Rule.Carries.rereads
      ⟨hpath.trans ?_, hfirst, fun u hu => ⟨hmore u hu, trivial⟩, trivial⟩ hr hg h hends
    cases more <;> rfl

end Types

/-! ## All rules -/

section Rules

variable (hfree : ∀ span, Ident.Free ⟨actual.name, span⟩) (hactual : actual.name ≠ superName)

include hfree hactual

/-- **Whatever rule builds it, what is lowered can be read again.** -/
theorem Rule.rereadsLowered {r : Rule} (hr : r ∈ Grammar.rules) :
    r.RereadsLowered actual interface := by
  by_cases htype : r.lhs = .type
  · exact type_rereadsLowered hfree hactual r (Grammar.mem_of_lhs hr htype)
  by_cases htarget : r.lhs = .refTarget
  · exact refTarget_rereadsLowered hfree hactual r (Grammar.mem_of_lhs hr htarget)
  by_cases hpath : r.lhs = .path
  · exact path_rereadsLowered hactual r (Grammar.mem_of_lhs hr hpath)
  by_cases hident : r.lhs = .pathIdent
  · exact pathIdent_rereadsLowered hfree r (Grammar.mem_of_lhs hr hident)
  exact (Rule.lowers hr (by simp [rebuiltPhrases, *])).rereadsLowered hr

/-- Whatever rule builds it, what is known beside is kept. -/
theorem Rule.keepsBeside {r : Rule} (hr : r ∈ Grammar.rules) : r.KeepsBeside actual interface := by
  by_cases hbeside : r.lhs ∈ besidePhrases
  · simp only [besidePhrases, List.mem_cons, List.not_mem_nil, or_false] at hbeside
    rcases hbeside with h | h | h | h | h | h | h
    · exact moreBounds_keepsBeside r (Grammar.mem_of_lhs hr h)
    · exact moreSegments_keepsBeside r (Grammar.mem_of_lhs hr h)
    · exact bounds_keepsBeside r (Grammar.mem_of_lhs hr h)
    · exact bound_keepsBeside r (Grammar.mem_of_lhs hr h)
    · exact type_keepsBeside hfree hactual r (Grammar.mem_of_lhs hr h)
    · exact path_keepsBeside r (Grammar.mem_of_lhs hr h)
    · exact segment_keepsBeside r (Grammar.mem_of_lhs hr h)
  · exact fun _ _ _ _ _ => .of_not_mem hbeside

/-- **Every rule keeps what is known of the phrases inside types.** -/
theorem Rule.preserves_lowered {r : Rule} (hr : r ∈ Grammar.rules) :
    r.Preserves (lowered actual interface) :=
  Rule.Preserves.and
    (fun place vals _ hholds _ => Grammar.rules_makeFormed r hr place vals hholds.formed)
    fun place vals hg hholds hends =>
      ⟨Rule.keepsBeside hfree hactual hr place vals hg hholds hends,
        Rule.rereadsLowered hfree hactual hr place vals hg hholds hends⟩

end Rules

end TraitMock
