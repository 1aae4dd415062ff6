import TraitMock.Proofs.Decl.Lowering
import TraitMock.Proofs.Decl.RoundTrip

/-!
# Proofs/Decl/Rebuild — phrases that are put together anew

A name that no keyword is spelled like can be read wherever a path may begin, with whatever can be
read behind a name (`Segment.rereads`).  So a path of one such name can be read wherever a type may
stand (`Ty.rereads_sole`), and so can a type in a box if it can be read at all (`Ty.rereads_box`).
-/

namespace TraitMock

open Table Parts

variable {s : Nat} {first next : Terminal}

/-- **The rules of a phrase build what can be read again.** -/
theorem rules_construct (n : Nonterminal) :
    ∀ r ∈ Grammar.rules.filter (·.lhs == n), r.Constructs (Rereads declared) := by
  intro r hr
  have hrule := List.mem_of_mem_filter hr
  exact Rule.Preserves.constructs ((rules_rewrite r hrule).preserves hrule) hrule

/-! ## Names -/

/-- **A name that is never a keyword.** -/
structure Ident.Free (ident : Ident) : Prop where
  spells : Terminal.name.Spells ident.name
  avoids : ∀ t : Terminal, t.spelling? ≠ some ident.name

theorem Ident.free_of_forall {name : String}
    (h : Terminal.name.Spells name ∧ ∀ t ∈ Terminal.all, t.spelling? ≠ some name) (span : Span) :
    (⟨name, span⟩ : Ident).Free :=
  ⟨h.1, fun t ht => h.2 t (Terminal.mem_all_of_spelling ht) ht⟩

/-- Such a name can be read wherever a path may go on. -/
theorem Ident.Free.rereads {ident : Ident} (h : ident.Free) (hs : Begins s .pathIdent)
    (hends : EndsBefore .pathIdent next) : Rereads declared s .pathIdent ident .name next := by
  have hbuild : ∀ r ∈ Grammar.pathIdent, r.Constructs (Rereads declared) :=
    rules_construct .pathIdent
  obtain ⟨hname, -⟩ := List.forall_iff_forall_mem.mpr hbuild
  have hbuilt := hname.build ⟨none, default⟩ (⟨.name, ident.name, default⟩, ()) hs
    ⟨rfl, rfl, fun _ _ => ⟨h.spells, fun _ t _ => h.avoids t⟩, next, rfl⟩ hends
  exact hbuilt.same ⟨id, id, rfl, fun _ => id⟩

/-! ## Paths -/

/-- **What is applied to a name can be read again** behind any. -/
def SegmentArgs.Readable (args : SegmentArgs) (next : Terminal) : Prop :=
  args = .none ∨ ∀ s first, Begins s .segmentArgs → Rereads declared s .segmentArgs args first next

/-- What is applied to a name can be read before whatever is not `::`. -/
theorem SegmentArgs.Readable.before {args : SegmentArgs} {next' : Terminal} (h : args.Readable next)
    (hne : next' ≠ .pathSep) : args.Readable next' :=
  h.imp_right fun hargs _ first hs =>
    (hargs _ first hs).anywhere rfl (by decide) fun hsep => absurd hsep hne

/-- A name that can be read where a segment begins is a segment. -/
theorem Segment.rereads_bare {ident : Ident} (hs : Begins s .segment)
    (hends : EndsBefore .segment next) (h : Begins s .pathIdent → EndsBefore .pathIdent next →
      Rereads declared s .pathIdent ident first next) :
    Rereads declared s .segment ⟨ident, .none⟩ first next := by
  have hfollow : ∀ t ∈ follow .segment, t ∈ follow .pathIdent := by decide
  have hbuild : ∀ r ∈ Grammar.segment, r.Constructs (Rereads declared) := rules_construct .segment
  exact (List.forall_mem_singleton.mp hbuild).build ⟨none, default⟩ (ident, none, ()) hs
    (.head (h · ⟨fun _ => hfollow _ (hends.1 hs.1), fun h => absurd h (by decide)⟩) rfl) hends

/-- A segment by a free name can be read wherever a path may go on. -/
theorem Segment.rereads {ident : Ident} {args : SegmentArgs} (hident : ident.Free)
    (hargs : args.Readable next) (hs : Begins s .segment) (hends : EndsBefore .segment next) :
    Rereads declared s .segment ⟨ident, args⟩ .name next := by
  have hless : EndsBefore .pathIdent .less := ⟨fun _ => by decide, by decide⟩
  have hbuild : ∀ r ∈ Grammar.segment, r.Constructs (Rereads declared) := rules_construct .segment
  rcases hargs with rfl | hargs
  · exact rereads_bare hs hends hident.rereads
  · exact (List.forall_mem_singleton.mp hbuild).build ⟨none, default⟩
      (ident, some (args, ()), ()) hs ⟨.less, fun _ _ hbegins => hident.rereads hbegins hless, next,
        ⟨next, fun _ _ hbegins => hargs _ _ hbegins, rfl⟩, rfl⟩ hends

/-- **A path of one segment** can be read where the segment can. -/
theorem Path.rereads_sole {segment : Segment} (hs : Begins s .path) (hends : EndsBefore .path next)
    (h : Begins s .segment → Rereads declared s .segment segment first next) :
    Rereads declared s .path ⟨[segment], false⟩ first next := by
  have hbuild : ∀ r ∈ Grammar.path, r.Constructs (Rereads declared) := rules_construct .path
  exact (List.forall_mem_singleton.mp hbuild).build ⟨none, default⟩ (segment, none, ()) hs
    (.head h rfl) hends

/-- Wherever a path begins, the keywords of paths are kept from names. -/
theorem Table.pathWords_subset {g : Nat} (hs : step s (.phrase .path) = some g) :
    pathWords ⊆ words s := by
  have hall : allStates (fun s =>
      (step s (.phrase .path)).isNone || pathWords.all (words s).contains) = true := by
    decide +kernel
  have hwords := of_allStates_of_step hall hs
  simp only [List.all_eq_true, List.contains_iff_mem] at hwords
  exact fun t ht => hwords t ht

/-- Behind the first `::`, the keywords of paths are kept from names. -/
theorem Table.words_behind_sep {g s' : Nat} (hg : step s (.phrase .moreSegments) = some g)
    (hsep : step s (.term .pathSep) = some s') : words s' = pathWords := by
  have hcontext : (.moreSegments, [.term .pathSep], pathWords) ∈ contexts := by decide
  exact words_eq hcontext hg (by rw [walk_cons, hsep]; rfl)

/-- Behind a further `::`, the keywords of paths are kept from names. -/
theorem Table.words_behind_segments {g s' : Nat} (hg : step s (.phrase .moreSegments) = some g)
    (hsep : step g (.term .pathSep) = some s') : words s' = pathWords := by
  have hcontext :
      (.moreSegments, [.phrase .moreSegments, .term .pathSep], pathWords) ∈ contexts := by
    decide
  exact words_eq hcontext hg (by rw [walk_cons, hg, Option.bind_some, walk_cons, hsep]; rfl)

/-- **Segments can be read behind others**, with a terminal behind them. -/
def FollowOthers (segments : List Segment) (next : Terminal) : Prop :=
  ∀ s front, Begins s .moreSegments → Rereads declared s .moreSegments front .pathSep .pathSep →
    Rereads declared s .moreSegments (front ++ segments) .pathSep next

theorem FollowOthers.append {segments segments' : List Segment} (h : FollowOthers segments .pathSep)
    (h' : FollowOthers segments' next) : FollowOthers (segments ++ segments') next :=
  fun s _ hs hfront => List.append_assoc .. ▸ h' s _ hs (h s _ hs hfront)

/-- **Segments can be read behind `::`**, alone or behind others, with a terminal behind them. -/
structure Trails (segments : List Segment) (next : Terminal) : Prop where
  alone : ∀ s, Begins s .moreSegments → Rereads declared s .moreSegments segments .pathSep next
  behind : FollowOthers segments next

theorem FollowOthers.trails {front segments : List Segment} (h : FollowOthers segments next)
    (hfront : Trails front .pathSep) : Trails (front ++ segments) next where
  alone s hs := h s _ hs (hfront.alone s hs)
  behind := hfront.behind.append h

theorem Trails.append {front segments : List Segment} (hfront : Trails front .pathSep)
    (h : Trails segments next) : Trails (front ++ segments) next := h.behind.trails hfront

/-- A segment can be read behind `::` if it can where the keywords of a path are kept from names. -/
theorem Segment.trails {segment : Segment} (hends : EndsBefore .moreSegments next)
    (h : ∀ {s}, words s = pathWords → Begins s .segment →
      Rereads declared s .segment segment first next) : Trails [segment] next := by
  have hbuild : ∀ r ∈ Grammar.moreSegments, r.Constructs (Rereads declared) :=
    rules_construct .moreSegments
  obtain ⟨hsingle, hconcat⟩ := List.forall_iff_forall_mem.mpr hbuild
  have hwords : ∀ {s s' front}, Begins s .moreSegments →
      (.moreSegments, front, pathWords) ∈ contexts → Table.walk s front = some s' →
        words s' = pathWords := by
    intro s s' front hs hcontext hwalk
    obtain ⟨g, hg⟩ := Option.isSome_iff_exists.mp hs.2
    exact words_eq hcontext hg hwalk
  refine ⟨fun s hs => ?_, fun s front hs hfront => ?_⟩
  · exact hsingle.build ⟨none, default⟩ (segment, ()) hs
      ⟨rfl, first, next, fun _ hwalk hbegins => h (hwords hs (by decide) hwalk) hbegins, rfl⟩ hends
  · exact hconcat.build ⟨none, default⟩ (front, segment, ()) hs
      ⟨.pathSep, fun _ hwalk _ => Option.some.inj hwalk ▸ hfront, rfl, first, next,
        fun _ hwalk hbegins => h (hwords hs (by decide) hwalk) hbegins, rfl⟩ hends

/-- A segment that has been read can be read behind `::`. -/
theorem Segment.trails_of_rereads {segment : Segment} (hends : EndsBefore .moreSegments next)
    (h : Rereads declared s .segment segment first next) (hwords : pathWords ⊆ words s) :
    Trails [segment] next :=
  Segment.trails hends fun hs _ => h.elsewhere (fun _ => hs ▸ hwords) id id

/-- **A path can go on** behind its first segment with whatever can be read behind `::`. -/
theorem Path.rereads_trail {segment : Segment} {more : List Segment} (hs : Begins s .path)
    (hends : EndsBefore .path next)
    (hsegment : Begins s .segment → Rereads declared s .segment segment first .pathSep)
    (hmore : Trails more next) : Rereads declared s .path ⟨segment :: more, false⟩ first next := by
  have hbuild : ∀ r ∈ Grammar.path, r.Constructs (Rereads declared) := rules_construct .path
  exact (List.forall_mem_singleton.mp hbuild).build ⟨none, default⟩
    (segment, some (more, ()), ()) hs
    (.head hsegment ⟨next, ⟨next, fun _ _ hbegins => hmore.alone _ hbegins, rfl⟩, rfl⟩) hends

/-! ### Steps up -/

/-- A step up can be read wherever a path may go on. -/
theorem rereads_super (span : Span) (hs : Begins s .segment) (hends : EndsBefore .segment next) :
    Rereads declared s .segment ⟨⟨superName, span⟩, .none⟩ .name next :=
  Segment.rereads (Ident.free_of_forall (by decide) span) (.inl rfl) hs hends

/-- A step up can be read behind `::`. -/
theorem trails_super (span : Span) (hends : EndsBefore .segment next) :
    Trails [⟨⟨superName, span⟩, .none⟩] next := by
  have hfollow : ∀ t ∈ follow .segment, t ∈ follow .moreSegments := by decide
  exact Segment.trails ⟨fun _ => hfollow _ (hends.1 (by decide)), fun h => absurd h (by decide)⟩
    fun _ hs => rereads_super span hs hends

/-- **A path can be read with two steps up in front**, if its segments can be read behind others. -/
theorem Path.rereads_supers {segments : List Segment} {span : Span} (hs : Begins s .path)
    (hends : EndsBefore .path next) (h : FollowOthers segments next) :
    Rereads declared s .path ⟨supers 2 span ++ segments, false⟩ .name next := by
  have hsep : EndsBefore .segment .pathSep := ⟨fun _ => by decide, by decide⟩
  exact Path.rereads_trail hs hends (rereads_super span · hsep) (h.trails (trails_super span hsep))

/-! ## Types -/

namespace Ty

/-- A path can be read wherever a type without bounds may stand. -/
theorem rereads_path {path : Path} (place : Place) (hs : Begins s .typeNoBounds)
    (hends : EndsBefore .typeNoBounds next)
    (h : Begins s .path → Rereads declared s .path path first next) :
    Rereads declared s .typeNoBounds (.path path place.span) first next := by
  have hbuild : ∀ r ∈ Grammar.typeNoBounds ++ Grammar.groupedType ++ Grammar.atomicType,
    r.Constructs (Rereads declared) := rules_construct .typeNoBounds
  have hpath := hbuild _ (by rw [Grammar.typeNoBounds]; exact List.mem_cons_self)
  exact hpath.build place (path, ()) hs (.head h rfl) hends

/-- A type without bounds can be read wherever a type may stand. -/
theorem rereads_type {ty : Ty} (hs : Begins s .type) (hends : EndsBefore .type next)
    (h : Begins s .typeNoBounds → Rereads declared s .typeNoBounds ty first next) :
    Rereads declared s .type ty first next := by
  have hbuild : ∀ r ∈ Grammar.type, r.Constructs (Rereads declared) := rules_construct .type
  exact (List.forall_mem_cons.mp hbuild).1.build ⟨none, default⟩ (ty, ()) hs (.head h rfl) hends

/-- A type without bounds can be read wherever a reference may point to it. -/
theorem rereads_refTarget {ty : Ty} (hs : Begins s .refTarget) (hends : EndsBefore .refTarget next)
    (h : Begins s .typeNoBounds → Rereads declared s .typeNoBounds ty first next) :
    Rereads declared s .refTarget ty first next := by
  have hbuild : ∀ r ∈ Grammar.refTarget, r.Constructs (Rereads declared) :=
    rules_construct .refTarget
  exact (List.forall_mem_cons.mp hbuild).1.build ⟨none, default⟩ (ty, ()) hs (.head h rfl) hends

/-- **A free name can be read wherever a type without bounds may stand**, applied to whatever can be
read behind a name. -/
theorem rereads_sole {ident : Ident} {args : SegmentArgs} (place : Place) (hident : ident.Free)
    (hargs : args.Readable next) (hs : Begins s .typeNoBounds)
    (hends : EndsBefore .typeNoBounds next) (hsep : next ≠ .pathSep) :
    Rereads declared s .typeNoBounds (.path (Pass.sole ident.name ident.span args) place.span) .name
      next := by
  have hfollow : ∀ t ∈ follow .typeNoBounds, t ∈ follow .path ∧ t ∈ follow .segment := by decide
  obtain ⟨hpath, hsegment⟩ := hfollow next (hends.1 hs.1)
  exact rereads_path place hs hends fun hs =>
    Path.rereads_sole hs ⟨fun _ => hpath, fun _ => hsep⟩ fun hs =>
    Segment.rereads hident hargs hs ⟨fun _ => hsegment, fun h => absurd h (by decide)⟩

end Ty

/-- A type can be read as the only argument of a name. -/
theorem SegmentArgs.readable_angle {ty : Ty} (hends : EndsBefore .segmentArgs next)
    (h : ∀ {s}, Begins s .type → Rereads declared s .type ty first .greater) :
    (SegmentArgs.angle [.type ty]).Readable next := by
  refine .inr fun s first' hs => ?_
  have hbuildArg : ∀ r ∈ Grammar.genericArg, r.Constructs (Rereads declared) :=
    rules_construct .genericArg
  have hbuild : ∀ r ∈ Grammar.segmentArgs, r.Constructs (Rereads declared) :=
    rules_construct .segmentArgs
  have harg : ∀ {s}, Begins s .genericArg →
      Rereads declared s .genericArg (.type ty) first .greater := fun hs =>
    (List.forall_mem_cons.mp hbuildArg).1.build ⟨Option.none, default⟩ (ty, ()) hs
      ⟨.greater, fun _ _ hbegins => h hbegins, rfl⟩ ⟨fun _ => by decide, by decide⟩
  have hargs : Rereads declared s .segmentArgs (.angle [.type ty]) .less next :=
    (List.forall_mem_cons.mp hbuild).1.build ⟨Option.none, default⟩
      (some (.type ty, Option.none, Option.none, ()), ()) hs
      ⟨rfl, first, .greater, ⟨.greater, fun _ _ hbegins => harg hbegins, rfl⟩, rfl, next, rfl⟩ hends
  exact hargs.beginning (by decide)

/-- **A type can be boxed** wherever a type may stand. -/
theorem Ty.rereads_box {ty : Ty} (span : Span) (place : Place) (hs : Begins s .type)
    (hends : EndsBefore .type next)
    (h : ∀ {s}, Begins s .type → Rereads declared s .type ty first .greater) :
    Rereads declared s .type (.path ⟨[⟨⟨"Box", span⟩, .angle [.type ty]⟩], false⟩ place.span) .name
      next := by
  have hfollow : ∀ t ∈ follow .type,
      t ∈ follow .typeNoBounds ∧ t ∈ follow .segmentArgs ∧ t ≠ .pathSep := by
    decide
  obtain ⟨hbare, hargs, hsep⟩ := hfollow next (hends.1 hs.1)
  exact rereads_type hs hends fun hs => rereads_sole place (Ident.free_of_forall (by decide) span)
    (SegmentArgs.readable_angle ⟨fun _ => hargs, fun h => absurd h (by decide)⟩ h) hs
      ⟨fun _ => hbare, fun h => absurd h (by decide)⟩ hsep

end TraitMock
