import TraitMock.Decl.Reroot
import TraitMock.Proofs.Decl.Bindings
import TraitMock.Proofs.Decl.Rebuild

/-!
# Proofs/Decl/Rerooted — a visibility from below, and from further below

Re-rooting twice is re-rooting once by all the levels (`Visibility.rerootBy_add`): behind the steps
up of the first time no leading `self` is left, and the second time only adds steps.

A re-rooted visibility is source again (`Visibility.parse_rerootBy`).  Its path has been read
nowhere: the steps up are new, and behind them stand segments that have been read in front, or
without the `self` before them.  So of every path that has been read it has to be known that its
segments, and those behind the first, can be read behind `::` (`rules_trail`).
-/

namespace TraitMock

open Table Machine Parts

/-! ## Twice -/

theorem supers_add (a b : Nat) (span : Span) :
    supers (a + b) span = supers a span ++ supers b span :=
  (List.replicate_append_replicate ..).symm

/-- A path that is re-rooted begins with a step up, and no longer with a word of its own. -/
theorem Path.firstName?_reroot_ne (path : Path) (levels : Nat) :
    (path.reroot (levels + 1)).firstName? ≠ some hereName ∧
      (path.reroot (levels + 1)).firstName? ≠ some crateName := by
  have hfirst : (path.reroot (levels + 1)).firstName? = some superName := rfl
  rw [hfirst]
  decide

/-- **Re-rooting a path twice** adds steps up the second time. -/
theorem Path.reroot_reroot (path : Path) (a b : Nat) :
    (path.reroot (a + 1)).reroot b = path.reroot (b + (a + 1)) := by
  have hsteps : ∀ span rest,
      supers b span ++ (supers (a + 1) span ++ rest) = supers (b + (a + 1)) span ++ rest := by
    intro span rest
    rw [supers_add b, List.append_assoc]
  rw [reroot, if_neg (path.firstName?_reroot_ne a).1]
  exact congrArg (Path.mk · false) (hsteps _ _)

/-- **Re-rooting a visibility twice** is re-rooting it once by all the levels. -/
theorem Visibility.rerootBy_add (vis : Visibility) (a b : Nat) :
    (((vis.rerootBy (a + 1)).apply vis).rerootBy b).apply ((vis.rerootBy (a + 1)).apply vis) =
      (vis.rerootBy (b + (a + 1))).apply vis := by
  have hfurther : ∀ path : Path, (path.reroot (a + 1)).firstName? ≠ some crateName :=
    fun path => (path.firstName?_reroot_ne a).2
  cases vis with
  | pub | crate | unknown => rfl
  | inherited =>
    -- Without a keyword, a visibility is re-rooted as the empty path is.
    have hempty : ∀ n, (⟨supers n .unknown, false⟩ : Path) = Path.reroot n ⟨[], false⟩ := fun n =>
      congrArg (Path.mk · false) (List.append_nil _).symm
    simp only [rerootBy, Edit.apply_replace, hempty, if_neg (hfurther _), Path.reroot_reroot]
  | restricted path hasIn =>
    by_cases hcrate : path.firstName? = some crateName
    · simp only [rerootBy, if_pos hcrate, Edit.apply_keep]
    · simp only [rerootBy, if_neg hcrate, Edit.apply_replace, if_neg (hfurther _),
        Path.reroot_reroot]

/-! ## Paths that can be climbed to -/

/-- **Steps up can be put in front of segments**, and in front of those behind the first. -/
structure Climbable (segments : List Segment) (next : Terminal) : Prop where
  all : Trails segments next
  behind : segments.tail = [] ∨ Trails segments.tail next

theorem Climbable.sole {segment : Segment} {next : Terminal} (h : Trails [segment] next) :
    Climbable [segment] next := ⟨h, .inl rfl⟩

/-- Steps up can be put in front of the path that a visibility is restricted to. -/
def Visibility.Climbs : Visibility → Prop
  | .restricted path _ => Climbable path.segments .rparen
  | _ => True

/-- **What is known of the phrases of a visibility**, beside that they can be read again. -/
def climbs : Judgement := fun s n v first next => match n, v with
  | .moreSegments, xs => first = .pathSep ∧ Trails xs next
  | .path, x => Climbable (Path.segments x) next
  | .visTarget, x => pathWords ⊆ words s → Climbable [⟨x, .none⟩] next
  | .visibility, x => Visibility.Climbs x
  | _, _ => True

/-- What is known of phrases, those of a visibility among them. -/
abbrev climbing : Judgement := (Rereads declared).and climbs

/-- A rule keeps what is known of the phrases of a visibility. -/
def Rule.KeepsClimbs (r : Rule) : Prop :=
  ∀ {s g stop : Nat} {first next : Terminal} (place : Place) (vals : r.parts.Val),
    step s (.phrase r.lhs) = some g → r.parts.Holds climbing s vals first stop next →
      EndsBefore r.lhs next → climbs s r.lhs (r.action place vals) first next

variable {s : Nat} {first next : Terminal}

theorem moreSegments_keepsClimbs : ∀ r ∈ Grammar.moreSegments, r.KeepsClimbs := by
  refine List.forall_iff_forall_mem.mp ⟨?_, ?_⟩
  · rintro s g stop first next place ⟨segment, ⟨⟩⟩ hg
      ⟨hfirst, s₁, b, hsep, s₂, b', -, ⟨hsegment, -⟩, rfl, rfl⟩ hends
    have hwords : words s₁ = pathWords := words_behind_sep hg hsep
    exact ⟨hfirst, Segment.trails_of_rereads hends hsegment (hwords ▸ List.Subset.refl _)⟩
  · rintro s g stop first next place ⟨segments, segment, ⟨⟩⟩ hg
      ⟨s₁, b, hsegments, ⟨-, hfirst, hfront⟩, rfl, s₂, b', hsep, s₃, b'', -, ⟨hsegment, -⟩,
        rfl, rfl⟩ hends
    have hwords : words s₂ = pathWords := words_behind_segments hsegments hsep
    exact ⟨hfirst, hfront.append
      (Segment.trails_of_rereads hends hsegment (hwords ▸ List.Subset.refl _))⟩

theorem path_keepsClimbs : ∀ r ∈ Grammar.path, r.KeepsClimbs := by
  refine List.forall_mem_singleton.mpr ?_
  rintro s g stop first next place ⟨segment, _ | ⟨more, ⟨⟩⟩, ⟨⟩⟩ hg
    ⟨s₁, b, -, ⟨hsegment, -⟩, h⟩ hends
  · have hfollow : ∀ t ∈ follow .path, t ∈ follow .moreSegments := by decide
    obtain ⟨-, rfl⟩ := h
    exact .sole (Segment.trails_of_rereads
      ⟨fun _ => hfollow _ (hends.1 (by decide)), fun h => absurd h (by decide)⟩ hsegment
      (pathWords_subset hg))
  · obtain ⟨s₂, b', ⟨s₃, b'', -, ⟨-, rfl, hmore⟩, -, rfl⟩, -, rfl⟩ := h
    have hfront :=
      Segment.trails_of_rereads ⟨fun _ => by decide, fun h => absurd h (by decide)⟩ hsegment
      (pathWords_subset hg)
    exact ⟨hfront.append hmore, .inr hmore⟩

/-- A word that names a module by itself can also be read in a path. -/
theorem visTarget_keepsClimbs : ∀ r ∈ Grammar.visTarget, r.KeepsClimbs := by
  have hbuild : ∀ r ∈ Grammar.pathIdent, r.Constructs (Rereads declared) :=
    rules_construct .pathIdent
  obtain ⟨hname, hself, hcrate⟩ := List.forall_iff_forall_mem.mpr hbuild
  have htoken : ∀ t, Rule.Constructs (Rereads declared)
        ⟨.pathIdent, token t done, fun place (x, _) => place.ident x⟩ →
      Rule.KeepsClimbs ⟨.visTarget, token t done, fun place (x, _) => place.ident x⟩ := by
    rintro t hident s g stop first next place ⟨x, ⟨⟩⟩ hg ⟨-, hkind, ⟨hspells, havoids⟩, -⟩ hends
      hwords
    have hfollow : ∀ t ∈ follow .visTarget, t ∈ follow .moreSegments ∧ t ∈ follow .segment := by
      decide
    have hitem : .visTarget ∉ itemPhrases := by decide
    obtain ⟨hmore, hsegment⟩ := hfollow next (hends.1 hitem)
    refine .sole (Segment.trails ⟨fun _ => hmore, fun h => absurd h (by decide)⟩ fun hs hbegins =>
      Segment.rereads_bare hbegins ⟨fun _ => hsegment, fun h => absurd h (by decide)⟩
        fun hbegins hends => hident.build place (x, ()) hbegins ⟨rfl, hkind, ?_, next, rfl⟩ hends)
    rintro _ ⟨⟩
    exact ⟨hspells, fun hname t ht => havoids hname t (hwords (hs ▸ ht))⟩
  exact List.forall_iff_forall_mem.mp ⟨htoken _ hcrate, htoken _ hself, htoken _ hname⟩

theorem visibility_keepsClimbs : ∀ r ∈ Grammar.visibility, r.KeepsClimbs := by
  refine List.forall_iff_forall_mem.mp ⟨?_, ?_, ?_, ?_⟩
  · exact fun _ _ _ _ _ => trivial
  · rintro s g stop first next place ⟨target, ⟨⟩⟩ hg
      ⟨-, s₁, b₁, hpub, -, s₂, b₂, hparen, s₃, b₃, -, ⟨-, htarget⟩, rfl, -⟩ hends
    have hcontext :
        (.visibility, [.term .pubKw, .term .lparen], [.crateKw, .selfKw, .inKw]) ∈ contexts := by
      decide
    have hwords : words s₂ = [.crateKw, .selfKw, .inKw] :=
      words_eq hcontext hg (by rw [walk_cons, hpub, Option.bind_some, walk_cons, hparen]; rfl)
    exact htarget (hwords ▸ by decide)
  · rintro s g stop first next place ⟨path, ⟨⟩⟩ hg
      ⟨-, s₁, b₁, -, -, s₂, b₂, -, -, s₃, b₃, -, s₄, b₄, -, ⟨-, hpath⟩, rfl, -⟩ hends
    exact hpath
  · exact fun _ _ _ _ _ => trivial

/-- The phrases of a visibility of which something is known. -/
def climbPhrases : List Nonterminal := [.moreSegments, .path, .visTarget, .visibility]

theorem climbs_of_not_mem {n : Nonterminal} (hn : n ∉ climbPhrases) (v : n.Val) :
    climbs s n v first next := by
  cases n <;> first | exact True.intro | exact absurd (by decide) hn

theorem Rule.keepsClimbs {r : Rule} (hr : r ∈ Grammar.rules) : r.KeepsClimbs := by
  by_cases hclimb : r.lhs ∈ climbPhrases
  · simp only [climbPhrases, List.mem_cons, List.not_mem_nil, or_false] at hclimb
    rcases hclimb with h | h | h | h
    · exact moreSegments_keepsClimbs r (Grammar.mem_of_lhs hr h)
    · exact path_keepsClimbs r (Grammar.mem_of_lhs hr h)
    · exact visTarget_keepsClimbs r (Grammar.mem_of_lhs hr h)
    · exact visibility_keepsClimbs r (Grammar.mem_of_lhs hr h)
  · exact fun _ _ _ _ _ => climbs_of_not_mem hclimb _

/-- **Every rule keeps what is known of the phrases of a visibility.** -/
theorem rules_trail : ∀ r ∈ Grammar.rules, r.Preserves climbing := fun r hr =>
  Rule.Preserves.and ((rules_rewrite r hr).preserves hr) (Rule.keepsClimbs hr)

/-- **Steps up can be put in front of the path** of a visibility that has been read. -/
theorem Visibility.climbs_of_parse {text : String} {vis : Visibility}
    (h : Visibility.parse text = .ok vis) : vis.Climbs := by
  rcases inherited_or_parse h with rfl | hparse
  · exact trivial
  · obtain ⟨first, -, hclimbs⟩ := Machine.holds_of_parse rules_trail hparse
    exact hclimbs

/-! ## Source again -/

/-- **A path of steps up** can be read wherever a path may stand, with whatever can be read behind
`::`. -/
theorem Path.rereads_climb {segments : List Segment} (levels : Nat) (span : Span)
    (hs : Begins s .path) (hends : EndsBefore .path next)
    (h : segments = [] ∨ Trails segments next) :
    Rereads declared s .path ⟨supers (levels + 1) span ++ segments, false⟩ .name next := by
  have hfollow : ∀ t ∈ follow .path, t ∈ follow .segment := by decide
  have hlast : EndsBefore .segment next :=
    ⟨fun _ => hfollow _ (hends.1 hs.1), fun h => absurd h (by decide)⟩
  have hsep : EndsBefore .segment .pathSep := ⟨fun _ => by decide, by decide⟩
  -- The first step up begins the path, and the others are read behind `::`.
  have htrails : ∀ n, supers n span ++ segments = [] ∨ Trails (supers n span ++ segments) next := by
    intro n
    induction n with
    | zero => exact h
    | succ n ih =>
      refine .inr ?_
      rcases ih with hnil | htrails
      · have hsole : supers (n + 1) span ++ segments = [⟨⟨superName, span⟩, .none⟩] :=
          congrArg (_ :: ·) hnil
        exact hsole ▸ trails_super span hlast
      · exact (trails_super span hsep).append htrails
  have hcons : supers (levels + 1) span ++ segments =
      ⟨⟨superName, span⟩, .none⟩ :: (supers levels span ++ segments) := rfl
  rw [hcons]
  rcases htrails levels with hnil | htrails
  · rw [hnil]
    exact Path.rereads_sole hs hends (rereads_super span · hlast)
  · exact Path.rereads_trail hs hends (rereads_super span · hsep) htrails

namespace Visibility

/-- A visibility restricted to a path of steps up is read from its own text. -/
theorem exists_parse_climb {segments : List Segment} (levels : Nat) (span : Span)
    (h : segments = [] ∨ Trails segments .rparen) :
    ∃ vis', Visibility.parse
        (restricted ⟨supers (levels + 1) span ++ segments, false⟩ true).render = .ok vis' ∧
      BackAs (.restricted ⟨supers (levels + 1) span ++ segments, false⟩ true) vis' := by
  have hbuild : ∀ r ∈ Grammar.visibility, r.Constructs (Rereads declared) :=
    rules_construct .visibility
  obtain ⟨-, -, hin, -⟩ := List.forall_iff_forall_mem.mpr hbuild
  have hends : EndsBefore .path .rparen := ⟨fun _ => by decide, fun _ => by decide⟩
  have hrereads : Rereads declared Entry.visibility.start .visibility
      (.restricted ⟨supers (levels + 1) span ++ segments, false⟩ true) .pubKw .endOfText :=
    hin.build ⟨none, default⟩ (_, ()) ⟨by decide, rfl⟩ ⟨rfl, _, rfl, _, rfl, _, .rparen,
      fun _ _ hs => Path.rereads_climb levels span hs hends h, rfl, _, rfl⟩
      ⟨fun _ => by decide, by decide⟩
  obtain ⟨hsound, hagain⟩ := hrereads (by decide)
  obtain ⟨ws, hagain⟩ := hagain trivial
  exact exists_parse_of_again hsound hagain

/-- **A re-rooted visibility is read from its own text**, if the visibility has been read. -/
theorem parse_rerootBy {text : String} {vis : Visibility} (h : Visibility.parse text = .ok vis)
    (levels : Nat) :
    ∃ vis', Visibility.parse ((vis.rerootBy (levels + 1)).apply vis).render = .ok vis' ∧
      ((vis.rerootBy (levels + 1)).apply vis).BackAs vis' := by
  cases vis with
  | pub | crate | unknown => exact parse_render h
  | inherited =>
    have hclimb := exists_parse_climb levels .unknown (.inl (Eq.refl []))
    rwa [List.append_nil] at hclimb
  | restricted path hasIn =>
    have hclimbs : Climbable path.segments .rparen := climbs_of_parse h
    by_cases hcrate : path.firstName? = some crateName
    · rw [rerootBy, if_pos hcrate]
      exact parse_render h
    · rw [rerootBy, if_neg hcrate, Edit.apply_replace, Path.reroot]
      refine exists_parse_climb levels _ ?_
      split
      · rw [List.drop_one]
        exact hclimbs.behind
      · exact .inr hclimbs.all

/-- From one level down on, a visibility is re-rooted by as many steps up. -/
theorem reroot_of_one_le (vis : Visibility) {levels : Int} (h : 1 ≤ levels) :
    ∃ n, levels.toNat = n + 1 ∧ vis.reroot levels = .ok (vis.rerootBy (n + 1)) := by
  obtain ⟨n, hn⟩ : ∃ n, levels.toNat = n + 1 := ⟨levels.toNat - 1, by omega⟩
  exact ⟨n, hn, by rw [reroot, if_neg (Int.not_lt.mpr h), hn]⟩

/-- **Re-rooting composes over depth, and stays source.**  Seen from `a` levels down and from there
from `b` levels further down, a visibility is what it is seen from `a + b` levels down.  If it has
been read, what it is from `a` levels down is read from its own text, alike but for spans and for
what is empty in it. -/
theorem reroot_composes {a b : Int} (ha : 1 ≤ a) (hb : 1 ≤ b) :
    (∀ vis : Visibility, ∃ e e' e'', vis.reroot a = .ok e ∧ (e.apply vis).reroot b = .ok e' ∧
      vis.reroot (a + b) = .ok e'' ∧ e'.apply (e.apply vis) = e''.apply vis) ∧
    ∀ text vis, Visibility.parse text = .ok vis → ∃ e vis', vis.reroot a = .ok e ∧
      Visibility.parse (e.apply vis).render = .ok vis' ∧ vis'.alike (e.apply vis).plain = true ∧
        vis'.render = (e.apply vis).render := by
  refine ⟨fun vis => ?_, fun text vis h => ?_⟩
  · obtain ⟨n, hn, hfirst⟩ := vis.reroot_of_one_le ha
    obtain ⟨m, hm, hsecond⟩ := ((vis.rerootBy (n + 1)).apply vis).reroot_of_one_le hb
    have hab : 1 ≤ a + b := by omega
    obtain ⟨k, hk, hboth⟩ := vis.reroot_of_one_le hab
    obtain rfl : k = m + 1 + n := by omega
    exact ⟨_, _, _, hfirst, hsecond, hboth, vis.rerootBy_add n (m + 1)⟩
  · obtain ⟨n, -, hreroot⟩ := vis.reroot_of_one_le ha
    obtain ⟨vis', hparse, halike, hrender⟩ := parse_rerootBy h n
    exact ⟨_, vis', hreroot, hparse, halike, hrender⟩

/-- The `self` of `pub(in self::a<>::b)` is dropped the first time, and what is empty in it is not
written. -/
theorem selfPath_reroots :
    ∃ vis, Visibility.parse "pub(in self::a<>::b)" = .ok vis ∧
      ∃ e e' e'' vis', vis.reroot 2 = .ok e ∧ (e.apply vis).reroot 1 = .ok e' ∧
        vis.reroot 3 = .ok e'' ∧ e'.apply (e.apply vis) = e''.apply vis ∧
        (e''.apply vis).render = "pub(in super::super::super::a::b)" ∧
        Visibility.parse (e.apply vis).render = .ok vis' ∧
          vis'.alike (e.apply vis).plain = true := by
  obtain ⟨vis, hvis, hrender⟩ := exists_of_toOption (e := Visibility.parse "pub(in self::a<>::b)")
    (f := fun vis => ((vis.rerootBy 3).apply vis).render) (b := "pub(in super::super::super::a::b)")
    (by decide +kernel)
  obtain ⟨htwice, hback⟩ := reroot_composes (a := 2) (b := 1) (by decide) (by decide)
  obtain ⟨e, e', e'', hfirst, hsecond, hboth, hsame⟩ := htwice vis
  obtain ⟨e₁, vis', hfirst', hparse, halike, -⟩ := hback _ vis hvis
  obtain rfl : e = e₁ := Except.ok.inj (hfirst.symm.trans hfirst')
  obtain rfl : vis.rerootBy 3 = e'' := Except.ok.inj hboth
  exact ⟨vis, hvis, e, e', _, vis', hfirst, hsecond, hboth, hsame, hrender, hparse, halike⟩

end Visibility

end TraitMock
