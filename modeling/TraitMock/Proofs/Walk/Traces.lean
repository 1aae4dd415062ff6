import TraitMock.Proofs.Report.Clean
import TraitMock.Proofs.Walk.Parts
import TraitMock.Walk.Basic

/-!
# Proofs/Walk/Traces — what a clean walk makes of the parts of a type

A walk skips some places and throws others away: it does not look into qualified paths and function
pointers, and where a trait object gives way to a name only the arguments of its last segment stay.
What it skips it reports, so on a clean walk every part of the new type has been looked at.

* `Pass.Traces` — the parts of the new type beside those of the old one, each path under its new
  names.
* `Ty.traces_of_walk` — a clean walk leaves such a trace, and no unsupported form in it.
-/

namespace TraitMock

variable {α β : Type} {p : Pass} {policy : Policy}

namespace Pass

/-! ## Traces -/

/-- What a segment is called after the walk. -/
def called (p : Pass) (name : String) : String := (p.rename name).getD name

/-- **How a path comes out of a walk**: under the new names of its segments, with what these put in
front. -/
def Carries (p : Pass) (old new : Path) : Prop :=
  ∃ inner : Path, inner.leadingColon = old.leadingColon ∧
    inner.names = old.names.map p.called ∧ new.leadingColon = old.leadingColon ∧
    new.names = (p.lead inner).map (·.ident.name) ++ inner.names

/-- Whether there are trait objects that give way to a name. -/
def Collapses (p : Pass) (name : String) : Prop := ∃ bounds, p.collapse bounds = some name

/-- **The trace of a walk**: the parts before it beside the parts after it.  A part is lost, or
made, only where a trait object gives way to a name. -/
inductive Traces (p : Pass) : List Part → List Part → Prop
  | nil : Traces p [] []
  | type {old new : Ty} {olds news : List Part} (supported : new.isSupported)
      (rest : Traces p olds news) : Traces p (.type old :: olds) (.type new :: news)
  | path {old new : Path} {olds news : List Part} (carried : p.Carries old new)
      (rest : Traces p olds news) : Traces p (.path old :: olds) (.path new :: news)
  | lost {name : String} {part : Part} {olds news : List Part} (collapses : p.Collapses name)
      (rest : Traces p olds news) : Traces p (part :: olds) news
  | made {name : String} {new : Path} {olds news : List Part} (collapses : p.Collapses name)
      (names : new.names = [name]) (rest : Traces p olds news) : Traces p olds (.path new :: news)

namespace Traces

variable {olds news : List Part}

theorem append {olds' news' : List Part} (h : Traces p olds news) (h' : Traces p olds' news') :
    Traces p (olds ++ olds') (news ++ news') := by
  induction h with
  | nil => exact h'
  | type supported _ ih => exact .type supported ih
  | path carried _ ih => exact .path carried ih
  | lost collapses _ ih => exact .lost collapses ih
  | made collapses names _ ih => exact .made collapses names ih

/-- Where a trait object gives way, any number of parts can be lost. -/
theorem lostAll {name : String} (collapses : p.Collapses name) (h : Traces p olds news) :
    (parts : List Part) → Traces p (parts ++ olds) news
  | [] => h
  | _ :: parts => .lost collapses (lostAll collapses h parts)

/-- **No unsupported form is left.** -/
theorem isSupported (h : Traces p olds news) {ty : Ty} (hty : .type ty ∈ news) :
    ty.isSupported := by
  induction h with
  | nil => cases hty
  | type supported _ ih =>
    rcases List.mem_cons.mp hty with hty | hty
    · cases hty
      exact supported
    · exact ih hty
  | path _ _ ih => exact ih ((List.mem_cons.mp hty).resolve_left Part.noConfusion)
  | lost _ _ ih => exact ih hty
  | made _ _ _ ih => exact ih ((List.mem_cons.mp hty).resolve_left Part.noConfusion)

/-- **Where a path of the new type comes from**: it is an old one carried over, or the name that a
trait object gave way to. -/
theorem origin (h : Traces p olds news) {new : Path} (hnew : .path new ∈ news) :
    (∃ old, .path old ∈ olds ∧ p.Carries old new) ∨
      ∃ name, p.Collapses name ∧ new.names = [name] := by
  induction h with
  | nil => cases hnew
  | type _ _ ih =>
    rcases ih ((List.mem_cons.mp hnew).resolve_left Part.noConfusion) with ⟨old, hold, hc⟩ | hm
    · exact .inl ⟨old, List.mem_cons_of_mem _ hold, hc⟩
    · exact .inr hm
  | path carried _ ih =>
    rcases List.mem_cons.mp hnew with hnew | hnew
    · cases hnew
      exact .inl ⟨_, List.mem_cons_self, carried⟩
    · rcases ih hnew with ⟨old, hold, hc⟩ | hm
      · exact .inl ⟨old, List.mem_cons_of_mem _ hold, hc⟩
      · exact .inr hm
  | lost _ _ ih =>
    rcases ih hnew with ⟨old, hold, hc⟩ | hm
    · exact .inl ⟨old, List.mem_cons_of_mem _ hold, hc⟩
    · exact .inr hm
  | made collapses names _ ih =>
    rcases List.mem_cons.mp hnew with hnew | hnew
    · cases hnew
      exact .inr ⟨_, collapses, names⟩
    · exact ih hnew

end Traces

/-- **A pass that leaves what it makes in order**: nothing is applied to the segments that it puts
in front of a path, and only a trait object with a trait for its sole bound gives way to a name. -/
structure Orderly (p : Pass) : Prop where
  lead_bare : ∀ path, ∀ segment ∈ p.lead path, segment.args = .none
  collapse_sole : ∀ {bounds name}, p.collapse bounds = some name →
    ∃ path relaxed, bounds = [.trait path relaxed] ∧ path.segments ≠ []

end Pass

/-! ## The parts after an edit -/

theorem Path.apply_withLead (lead : Path → List Segment) (path : Path) (e : Edit (List Segment)) :
    (path.withLead lead e).apply path =
      ⟨lead ⟨e.apply path.segments, path.leadingColon⟩ ++ e.apply path.segments,
        path.leadingColon⟩ := by
  unfold Path.withLead
  cases h : lead ⟨e.apply path.segments, path.leadingColon⟩ with
  | nil =>
    obtain ⟨segments, leadingColon⟩ := path
    simp only [h]
    exact Edit.apply_map (Path.mk · leadingColon) segments e
  | cons first front => simp only [h, Edit.apply_replace]

theorem Segment.apply_edit (rename : String → Option String) (ident : Ident) (args : SegmentArgs)
    (e : Edit SegmentArgs) :
    (Segment.edit rename ident args e).apply ⟨ident, args⟩ =
      ⟨((rename ident.name).map (⟨·, ident.span⟩)).getD ident, e.apply args⟩ := by
  unfold Segment.edit
  cases rename ident.name with
  | none => exact Edit.apply_map (Segment.mk ident) args e
  | some name => rfl

theorem SegmentArgs.apply_editCall (inputs : List Ty) (output : Option Ty) (is : Edit (List Ty))
    (o : Edit (Option Ty)) :
    (SegmentArgs.editCall inputs output is o).apply (.call inputs output) =
      .call (is.apply inputs) (o.apply output) := by
  cases is <;> cases o <;> rfl

/-! ## Walks that leave a trace -/

/-- **A walk leaves a trace** of the parts of what it walks over, if it is clean. -/
def Pass.Leaves (p : Pass) (policy : Policy) (parts : α → List Part) (c : Checked (Edit α))
    (old : α) : Prop :=
  ∀ ⦃e : Edit α⦄, c.Yields policy e → p.Traces (parts old) (parts (e.apply old))

namespace Pass.Leaves

variable {parts : α → List Part} {parts' : β → List Part} {c : Checked (Edit α)} {old : α}

/-- What has no parts and is left as it is. -/
theorem keep (hparts : parts old = []) : p.Leaves policy parts (pure .keep) old := by
  intro e h
  obtain rfl := Checked.yields_pure.mp h
  rw [Edit.apply_keep, hparts]
  exact .nil

/-- A type that is left as it is. -/
theorem leaf {ty : Ty} (hparts : ty.parts = [.type ty]) (hsupported : ty.isSupported) :
    p.Leaves policy Ty.parts (pure .keep) ty := by
  intro e h
  obtain rfl := Checked.yields_pure.mp h
  rw [Edit.apply_keep, hparts]
  exact .type hsupported .nil

/-- What becomes of what holds the walked value. -/
theorem exists_of_map {f : α → β} {e : Edit β} (old : α)
    (h : (do return (← c).map f : Checked (Edit β)).Yields policy e) :
    ∃ e', c.Yields policy e' ∧ e.apply (f old) = f (e'.apply old) := by
  simp only [Checked.yields_bind, Checked.yields_pure] at h
  obtain ⟨e', h', rfl⟩ := h
  exact ⟨e', h', Edit.apply_map f old e'⟩

/-- A walk over what holds the walked value and has the same parts. -/
theorem map {f : α → β} (h : p.Leaves policy parts c old)
    (hparts : ∀ a, parts' (f a) = parts a) :
    p.Leaves policy parts' (do return (← c).map f) (f old) := by
  intro e h'
  obtain ⟨e', he', happly⟩ := exists_of_map old h'
  rw [happly, hparts, hparts]
  exact h he'

/-- A walk over a type of a supported form is one over what it holds. -/
theorem type {f : α → Ty} (h : p.Leaves policy parts c old)
    (hparts : ∀ a, (f a).parts = .type (f a) :: parts a) (hsupported : ∀ a, (f a).isSupported) :
    p.Leaves policy Ty.parts (do return (← c).map f) (f old) := by
  intro e h'
  obtain ⟨e', he', happly⟩ := exists_of_map old h'
  rw [happly, hparts, hparts]
  exact .type (hsupported _) (h he')

/-- A walk over the first member of a list, and one over the others. -/
theorem cons {rowParts : List α → List Part} {cs : Checked (Edit (List α))} {olds : List α}
    (h : p.Leaves policy parts c old) (hs : p.Leaves policy rowParts cs olds)
    (hparts : ∀ a row, rowParts (a :: row) = parts a ++ rowParts row) :
    p.Leaves policy rowParts (do return .cons old olds (← c) (← cs)) (old :: olds) := by
  intro e h'
  simp only [Checked.yields_bind, Checked.yields_pure] at h'
  obtain ⟨e₁, h₁, e₂, h₂, rfl⟩ := h'
  rw [Edit.apply_cons, hparts, hparts]
  exact (h h₁).append (hs h₂)

end Pass.Leaves

/-! ## Clean walks

By cases on the type, as the walk goes.  Only at a path is there something to say beside the parts:
the names of its segments. -/

/-- The walk over a sole bound finds its last segment. -/
theorem walkLast_ne_none {segments : List Segment} (hne : segments ≠ []) :
    ¬ (walkLast p segments).Yields policy none := by
  induction segments with
  | nil => exact absurd rfl hne
  | cons segment rest ih =>
    cases rest with
    | nil =>
      obtain ⟨ident, args⟩ := segment
      simp [walkLast]
    | cons next rest =>
      rw [walkLast]
      exact ih (List.cons_ne_nil _ _)

mutual

/-- **A clean walk leaves a trace**: no unsupported form is in what it makes of a type, and each
path in it has come out of the walk. -/
theorem Ty.traces_of_walk (hp : p.Orderly) : (ty : Ty) → p.Leaves policy Ty.parts (ty.walk p) ty
  | .slice elem s => by
    rw [Ty.walk]
    exact (Ty.traces_of_walk hp elem).type (fun _ => rfl) fun _ => rfl
  | .array elem length s => by
    rw [Ty.walk]
    exact (Ty.traces_of_walk hp elem).type (fun _ => rfl) fun _ => rfl
  | .pointer elem isMut s => by
    rw [Ty.walk]
    exact (Ty.traces_of_walk hp elem).type (fun _ => rfl) fun _ => rfl
  | .reference elem lifetime isMut s => by
    rw [Ty.walk]
    exact (Ty.traces_of_walk hp elem).type (fun _ => rfl) fun _ => rfl
  | .tuple elems s => by
    rw [Ty.walk]
    exact (traces_of_walkTypes hp elems).type (fun _ => rfl) fun _ => rfl
  | .paren elem s => by
    rw [Ty.walk]
    exact (Ty.traces_of_walk hp elem).type (fun _ => rfl) fun _ => rfl
  | .group elem s => by
    rw [Ty.walk]
    exact (Ty.traces_of_walk hp elem).type (fun _ => rfl) fun _ => rfl
  | .function _ _ _ | .implTrait _ _ | .macroCall _ _ | .verbatim _ _ | .qualified _ _ _ _
  | .unknown _ => fun _ h => absurd h (by simp [Ty.walk])
  | .infer s => .leaf rfl rfl
  | .never s => .leaf rfl rfl
  | .path path s => by
    rw [Ty.walk]
    exact (Path.traces_of_walk hp path).type (fun _ => rfl) fun _ => rfl
  | .traitObject bounds s => by
    intro e h
    cases hc : p.collapse bounds with
    | none =>
      simp only [Ty.walk, hc] at h
      obtain ⟨_, -, h⟩ := Checked.yields_bind.mp h
      exact (traces_of_walkBounds hp bounds).type (fun _ => rfl) (fun _ => rfl) h
    | some name =>
      simp only [Ty.walk, hc, Checked.yields_bind] at h
      obtain ⟨last, hlast, h⟩ := h
      cases last with
      | none =>
        obtain ⟨⟨segments, leadingColon⟩, relaxed, rfl, hne⟩ := hp.collapse_sole hc
        rw [walkSole] at hlast
        exact absurd hlast (walkLast_ne_none hne)
      | some last =>
        obtain ⟨ident, args⟩ := last
        simp only [Checked.yields_pure] at h
        subst h
        have hargs := traces_of_walkSole hp ⟨bounds, hc⟩ bounds hlast
        simp only [Edit.apply_replace, Ty.parts, Path.parts, segmentsParts, Segment.parts,
          List.append_nil]
        exact .type rfl (.made ⟨bounds, hc⟩ rfl hargs)

/-- The trace of a walk over types. -/
theorem traces_of_walkTypes (hp : p.Orderly) : (tys : List Ty) →
    p.Leaves policy typesParts (walkTypes p tys) tys
  | [] => .keep rfl
  | ty :: rest => by
    rw [walkTypes]
    exact (Ty.traces_of_walk hp ty).cons (traces_of_walkTypes hp rest) fun _ _ => rfl

/-- The trace of a walk over a result. -/
theorem traces_of_walkOutput (hp : p.Orderly) : (output : Option Ty) →
    p.Leaves policy outputParts (walkOutput p output) output
  | none => .keep rfl
  | some ty => by
    rw [walkOutput]
    exact (Ty.traces_of_walk hp ty).map fun _ => rfl

/-- The trace of a walk over a path. -/
theorem Path.traces_of_walk (hp : p.Orderly) : (path : Path) →
    p.Leaves policy Path.parts (path.walk p) path
  | ⟨segments, leadingColon⟩ => by
    intro e h
    simp only [Path.walk, Checked.yields_bind, Checked.yields_pure] at h
    obtain ⟨e', h', rfl⟩ := h
    obtain ⟨htrace, hnames⟩ := traces_of_walkSegments hp segments h'
    rw [Path.apply_withLead, Path.parts, Path.parts, segmentsParts_append,
      segmentsParts_of_bare (hp.lead_bare _), List.nil_append]
    refine .path ⟨⟨e'.apply segments, leadingColon⟩, rfl, ?_, rfl, ?_⟩ htrace
    · rw [Path.names, hnames, Path.names, List.map_map]
      rfl
    · rw [Path.names, List.map_append]
      rfl

/-- The trace of a walk over segments, and what they are called after it. -/
theorem traces_of_walkSegments (hp : p.Orderly) : (segments : List Segment) →
    {e : Edit (List Segment)} → (walkSegments p segments).Yields policy e →
    p.Traces (segmentsParts segments) (segmentsParts (e.apply segments)) ∧
      (e.apply segments).map (·.ident.name) = segments.map (p.called ·.ident.name)
  | [], e, h => by
    simp only [walkSegments, Checked.yields_pure] at h
    subst h
    exact ⟨.nil, rfl⟩
  | segment :: rest, e, h => by
    simp only [walkSegments, Checked.yields_bind, Checked.yields_pure] at h
    obtain ⟨e₁, h₁, e₂, h₂, rfl⟩ := h
    obtain ⟨htrace, hname⟩ := Segment.traces_of_walk hp segment h₁
    obtain ⟨htraces, hnames⟩ := traces_of_walkSegments hp rest h₂
    rw [Edit.apply_cons, segmentsParts, segmentsParts, List.map_cons, List.map_cons, hname, hnames]
    exact ⟨htrace.append htraces, rfl⟩

/-- The trace of a walk over a segment, and what it is called after it. -/
theorem Segment.traces_of_walk (hp : p.Orderly) : (segment : Segment) → {e : Edit Segment} →
    (segment.walk p).Yields policy e → p.Traces segment.parts (e.apply segment).parts ∧
      (e.apply segment).ident.name = p.called segment.ident.name
  | ⟨ident, args⟩, e, h => by
    simp only [Segment.walk, Checked.yields_bind, Checked.yields_pure] at h
    obtain ⟨e', h', rfl⟩ := h
    rw [Segment.apply_edit, Segment.parts, Segment.parts, Pass.called]
    refine ⟨SegmentArgs.traces_of_walk hp args h', ?_⟩
    cases p.rename ident.name <;> rfl

/-- The trace of a walk over what is applied to a segment. -/
theorem SegmentArgs.traces_of_walk (hp : p.Orderly) : (args : SegmentArgs) →
    p.Leaves policy SegmentArgs.parts (args.walk p) args
  | .none => .keep rfl
  | .angle args => by
    rw [SegmentArgs.walk]
    exact (traces_of_walkGenericArgs hp args).map fun _ => rfl
  | .call inputs output => by
    intro e h
    simp only [SegmentArgs.walk, Checked.yields_bind, Checked.yields_pure] at h
    obtain ⟨is, his, o, ho, rfl⟩ := h
    rw [SegmentArgs.apply_editCall, SegmentArgs.parts, SegmentArgs.parts]
    exact (traces_of_walkTypes hp inputs his).append (traces_of_walkOutput hp output ho)

/-- The trace of a walk over generic arguments. -/
theorem traces_of_walkGenericArgs (hp : p.Orderly) : (args : List GenericArg) →
    p.Leaves policy argsParts (walkGenericArgs p args) args
  | [] => .keep rfl
  | arg :: rest => by
    rw [walkGenericArgs]
    exact (GenericArg.traces_of_walk hp arg).cons (traces_of_walkGenericArgs hp rest) fun _ _ => rfl

/-- The trace of a walk over a generic argument. -/
theorem GenericArg.traces_of_walk (hp : p.Orderly) : (arg : GenericArg) →
    p.Leaves policy GenericArg.parts (arg.walk p) arg
  | .type ty => by
    rw [GenericArg.walk]
    exact (Ty.traces_of_walk hp ty).map fun _ => rfl
  | .binding ident ty => by
    rw [GenericArg.walk]
    exact (Ty.traces_of_walk hp ty).map fun _ => rfl
  | .lifetime _ => .keep rfl
  | .const _ => .keep rfl

/-- The trace of a walk over a bound. -/
theorem Bound.traces_of_walk (hp : p.Orderly) : (bound : Bound) →
    p.Leaves policy Bound.parts (bound.walk p) bound
  | .trait path relaxed => by
    rw [Bound.walk]
    exact (Path.traces_of_walk hp path).map fun _ => rfl
  | .outlives _ => .keep rfl

/-- The trace of a walk over bounds. -/
theorem traces_of_walkBounds (hp : p.Orderly) : (bounds : List Bound) →
    p.Leaves policy boundsParts (walkBounds p bounds) bounds
  | [] => .keep rfl
  | bound :: rest => by
    rw [walkBounds]
    exact (Bound.traces_of_walk hp bound).cons (traces_of_walkBounds hp rest) fun _ _ => rfl

/-- Of a sole bound that gives way, what is applied to its last segment leaves a trace. -/
theorem traces_of_walkSole (hp : p.Orderly) {name : String} (hc : p.Collapses name) :
    (bounds : List Bound) → {last : Segment} → (walkSole p bounds).Yields policy (some last) →
    p.Traces (boundsParts bounds) last.args.parts
  | [.trait ⟨segments, leadingColon⟩ relaxed], last, h => by
    rw [walkSole] at h
    rw [boundsParts, Bound.parts, Path.parts, boundsParts, List.append_nil]
    exact .lost hc (traces_of_walkLast hp hc segments h)
  | [], last, h => absurd h (by simp [walkSole])
  | [.outlives _], last, h => absurd h (by simp [walkSole])
  | .trait ⟨_, _⟩ _ :: _ :: _, _, h => absurd (Checked.yields_pure.mp h) nofun
  | .outlives _ :: _ :: _, _, h => absurd (Checked.yields_pure.mp h) nofun

/-- Of segments that give way, what is applied to the last one leaves a trace. -/
theorem traces_of_walkLast (hp : p.Orderly) {name : String} (hc : p.Collapses name) :
    (segments : List Segment) → {last : Segment} →
    (walkLast p segments).Yields policy (some last) →
    p.Traces (segmentsParts segments) last.args.parts
  | [], last, h => absurd h (by simp [walkLast])
  | [⟨ident, args⟩], last, h => by
    simp only [walkLast, Checked.yields_bind, Checked.yields_pure] at h
    obtain ⟨e', h', hlast⟩ := h
    obtain rfl := Option.some.inj hlast
    rw [segmentsParts, segmentsParts, Segment.parts, List.append_nil]
    exact SegmentArgs.traces_of_walk hp args h'
  | segment :: next :: rest, last, h => by
    rw [walkLast] at h
    rw [segmentsParts]
    exact (traces_of_walkLast hp hc (next :: rest) h).lostAll hc segment.parts

end

end TraitMock
