import TraitMock.Proofs.Walk.Image

/-!
# Proofs/Walk/Stems — where the parts of a type after a walk come from

Each part of the type that a walk makes has its stem among the parts of the old type
(`Ty.stems_after`): the walk has left it alone, or has made it of its stem, or it is the name that a
trait object gives way to, and then its stem is the path that the trait object had for its bound.
The walk need not have been clean, and need not even have come to the part: the types of qualified
paths are left alone, and so is what is inside a function pointer.

So a property of single parts that none of these three steps takes away holds throughout the new
type if it holds throughout the old one (`Pass.Keeps.run_walk`).
-/

namespace TraitMock

variable {p : Pass}

namespace Pass

/-- **How a part stems from old ones.** -/
inductive Stems (p : Pass) (olds : List Part) : Part → Prop
  | kept {old : Part} (mem : old ∈ olds) : Stems p olds old
  | made {old : Part} (mem : old ∈ olds) : Stems p olds (old.after p)
  | sole {name : String} {path : Path} {ident : Ident} {args : SegmentArgs}
      (collapses : p.Collapses name) (mem : .path path ∈ olds)
      (last : path.segments.getLast? = some ⟨ident, args⟩) :
      Stems p olds (.path (Pass.sole name ident.span (args.after p)))

namespace Stems

variable {olds olds' : List Part} {part : Part}

theorem mono (h : p.Stems olds part) (hsub : olds ⊆ olds') : p.Stems olds' part := by
  cases h with
  | kept mem => exact .kept (hsub mem)
  | made mem => exact .made (hsub mem)
  | sole collapses mem last => exact .sole collapses (hsub mem) last

end Stems

/-- **Parts that all stem from old ones.** -/
def AllStem (p : Pass) (olds news : List Part) : Prop := ∀ new ∈ news, p.Stems olds new

namespace AllStem

variable {olds olds' news news' : List Part}

theorem nil : p.AllStem olds [] := List.forall_mem_nil _

/-- Parts that are left alone. -/
theorem kept : p.AllStem olds olds := fun _ => .kept

theorem mono (h : p.AllStem olds news) (hsub : olds ⊆ olds') : p.AllStem olds' news :=
  fun new hnew => (h new hnew).mono hsub

theorem append (h : p.AllStem olds news) (h' : p.AllStem olds' news') :
    p.AllStem (olds ++ olds') (news ++ news') :=
  List.forall_mem_append.mpr
    ⟨h.mono (List.subset_append_left _ _), h'.mono (List.subset_append_right _ _)⟩

/-- A part in front is made of the part in front. -/
theorem behind {old new : Part} (h : p.AllStem olds news) (hnew : new = old.after p) :
    p.AllStem (old :: olds) (new :: news) :=
  List.forall_mem_cons.mpr ⟨hnew ▸ .made List.mem_cons_self, h.mono (List.subset_cons_self _ _)⟩

end AllStem

end Pass

open Pass (AllStem)

mutual

/-- **Every part of what a walk makes of a type** stems from a part of the old type. -/
theorem Ty.stems_after (hp : p.Orderly) : (ty : Ty) → p.AllStem ty.parts (ty.after p).parts
  | .slice elem _ | .array elem _ _ | .pointer elem _ _ | .reference elem _ _ _ | .paren elem _
  | .group elem _ => by
    rw [Ty.parts, Ty.after, Ty.parts]
    exact (Ty.stems_after hp elem).behind rfl
  | .tuple elems _ => by
    rw [Ty.parts, Ty.after, Ty.parts]
    exact (stems_typesAfter hp elems).behind rfl
  | .function _ _ _ | .implTrait _ _ | .infer _ | .never _ | .macroCall _ _ | .verbatim _ _
  | .unknown _ => by
    rw [Ty.after]
    exact .kept
  | .path path _ => by
    rw [Ty.parts, Ty.after, Ty.parts]
    exact (Path.stems_after hp path).behind rfl
  | .qualified self _ path _ => by
    rw [Ty.parts, Ty.after, Ty.parts]
    exact (AllStem.append .kept (Path.stems_after hp path)).behind rfl
  | .traitObject bounds s => by
    cases hc : p.collapse bounds with
    | none =>
      have hobject : (Ty.traitObject bounds s).after p = .traitObject (boundsAfter p bounds) s := by
        simp only [Ty.after, hc]
      rw [hobject, Ty.parts, Ty.parts]
      exact (stems_boundsAfter hp bounds).behind (congrArg Part.type hobject.symm)
    | some name =>
      obtain ⟨⟨segments, leadingColon⟩, relaxed, rfl, hne⟩ := hp.collapse_sole hc
      obtain ⟨ident, args, hlast, hafter, hargs⟩ := stems_lastAfter hp segments hne
      have hobject : (Ty.traitObject [.trait ⟨segments, leadingColon⟩ relaxed] s).after p =
          .path (Pass.sole name ident.span (args.after p)) s := by
        simp only [Ty.after, hc, soleAfter, hafter, Pass.sole]
      rw [hobject]
      simp only [Ty.parts, boundsParts, Bound.parts, Path.parts, segmentsParts, Segment.parts,
        List.append_nil, Pass.sole]
      have hsole : p.AllStem (.path ⟨segments, leadingColon⟩ :: segmentsParts segments)
          (.path (Pass.sole name ident.span (args.after p)) :: (args.after p).parts) :=
        List.forall_mem_cons.mpr
          ⟨.sole ⟨_, hc⟩ List.mem_cons_self hlast, hargs.mono (List.subset_cons_self _ _)⟩
      exact hsole.behind (congrArg Part.type hobject.symm)

/-- The parts of types. -/
theorem stems_typesAfter (hp : p.Orderly) : (tys : List Ty) →
    p.AllStem (typesParts tys) (typesParts (typesAfter p tys))
  | [] => .nil
  | ty :: rest => (Ty.stems_after hp ty).append (stems_typesAfter hp rest)

/-- The parts of a result. -/
theorem stems_outputAfter (hp : p.Orderly) : (output : Option Ty) →
    p.AllStem (outputParts output) (outputParts (outputAfter p output))
  | none => .nil
  | some ty => Ty.stems_after hp ty

/-- The parts of a path; what is put in front of it has none. -/
theorem Path.stems_after (hp : p.Orderly) :
    (path : Path) → p.AllStem path.parts (path.after p).parts
  | ⟨segments, leadingColon⟩ => by
    rw [Path.parts, Path.after, Path.led, Path.parts, segmentsParts_append,
      segmentsParts_of_bare (hp.lead_bare _), List.nil_append]
    exact (stems_segmentsAfter hp segments).behind rfl

/-- The parts of segments. -/
theorem stems_segmentsAfter (hp : p.Orderly) : (segments : List Segment) →
    p.AllStem (segmentsParts segments) (segmentsParts (segmentsAfter p segments))
  | [] => .nil
  | segment :: rest => (Segment.stems_after hp segment).append (stems_segmentsAfter hp rest)

/-- The parts of a segment. -/
theorem Segment.stems_after (hp : p.Orderly) : (segment : Segment) →
    p.AllStem segment.parts (segment.after p).parts
  | ⟨_, args⟩ => SegmentArgs.stems_after hp args

/-- The parts of what is applied to a segment. -/
theorem SegmentArgs.stems_after (hp : p.Orderly) : (args : SegmentArgs) →
    p.AllStem args.parts (args.after p).parts
  | .none => .nil
  | .angle args => stems_argsAfter hp args
  | .call inputs output => (stems_typesAfter hp inputs).append (stems_outputAfter hp output)

/-- The parts of generic arguments. -/
theorem stems_argsAfter (hp : p.Orderly) : (args : List GenericArg) →
    p.AllStem (argsParts args) (argsParts (argsAfter p args))
  | [] => .nil
  | arg :: rest => (GenericArg.stems_after hp arg).append (stems_argsAfter hp rest)

/-- The parts of a generic argument. -/
theorem GenericArg.stems_after (hp : p.Orderly) : (arg : GenericArg) →
    p.AllStem arg.parts (arg.after p).parts
  | .type ty | .binding _ ty => Ty.stems_after hp ty
  | .lifetime _ | .const _ => .nil

/-- The parts of a bound. -/
theorem Bound.stems_after (hp : p.Orderly) : (bound : Bound) →
    p.AllStem bound.parts (bound.after p).parts
  | .trait path _ => Path.stems_after hp path
  | .outlives _ => .nil

/-- The parts of bounds. -/
theorem stems_boundsAfter (hp : p.Orderly) : (bounds : List Bound) →
    p.AllStem (boundsParts bounds) (boundsParts (boundsAfter p bounds))
  | [] => .nil
  | bound :: rest => (Bound.stems_after hp bound).append (stems_boundsAfter hp rest)

/-- Of segments that give way, the parts of what is applied to the last one. -/
theorem stems_lastAfter (hp : p.Orderly) : (segments : List Segment) → segments ≠ [] →
    ∃ ident args, segments.getLast? = some ⟨ident, args⟩ ∧
      lastAfter p segments = some ⟨ident, args.after p⟩ ∧
      p.AllStem (segmentsParts segments) (args.after p).parts
  | [], hne => absurd rfl hne
  | [⟨ident, args⟩], _ =>
    ⟨ident, args, rfl, rfl, (SegmentArgs.stems_after hp args).mono (List.subset_append_left _ _)⟩
  | first :: segment :: rest, _ => by
    obtain ⟨ident, args, hlast, hafter, hargs⟩ :=
      stems_lastAfter hp (segment :: rest) (List.cons_ne_nil _ _)
    refine ⟨ident, args, List.getLast?_cons_cons.trans hlast, ?_,
      hargs.mono (List.subset_append_right _ _)⟩
    rw [lastAfter]
    exact hafter

end

/-! ## Properties of parts -/

/-- **A pass keeps a property of parts**: neither what it makes of a part loses it, nor does a name
that a trait object gives way to. -/
structure Pass.Keeps (p : Pass) (P : Part → Prop) : Prop extends p.Orderly where
  after : ∀ part, P part → P (part.after p)
  sole : ∀ {name path ident args}, p.Collapses name → P (.path path) →
    path.segments.getLast? = some ⟨ident, args⟩ →
      P (.path (Pass.sole name ident.span (args.after p)))

namespace Pass.Keeps

variable {P : Part → Prop} {policy : Policy}

theorem parts_after (h : p.Keeps P) {ty : Ty} (hty : ∀ part ∈ ty.parts, P part) :
    ∀ part ∈ (ty.after p).parts, P part := by
  intro part hpart
  cases Ty.stems_after h.toOrderly ty part hpart with
  | kept mem => exact hty _ mem
  | made mem => exact h.after _ (hty _ mem)
  | sole collapses mem last => exact h.sole collapses (hty _ mem) last

/-- **A walk that gives an edit** leaves throughout the type what its pass keeps. -/
theorem run_walk (h : p.Keeps P) {ty : Ty} {e : Edit Ty} {reports : List Diagnostic}
    (hrun : (ty.walk p).run policy = ⟨.ok e, reports⟩) (hty : ∀ part ∈ ty.parts, P part) :
    ∀ part ∈ (e.apply ty).parts, P part := by
  rw [(Ty.run_walk_inv h.toOrderly hrun).2]
  exact h.parts_after hty

end Pass.Keeps

end TraitMock
