import TraitMock.Decl.Basic
import TraitMock.Report.Checked
import TraitMock.Walk.Edit

/-!
# Walk/Basic — walking over a type and rebuilding only what changes

A `Pass` says what is to change: which names of segments are replaced, what is put in front of a
path, which trait objects give way to a name, and what is reported on the way.  `Ty.walk` carries it
out on every part of a type it can look into.

* The type of a qualified path is not looked into; such a path is reported.
* Opaque types are reported and left alone.
* A function pointer and `impl Trait` end the walk.
-/

namespace TraitMock

/-- **What a walk changes and reports.** -/
structure Pass where
  /-- The problem that an opaque type of the given text is. -/
  unseen : String → Problem := .opaqueType
  /-- The new name of a segment, if it gets one. -/
  rename : String → Option String := fun _ => none
  /-- The segments to be put in front of a path. -/
  lead : Path → List Segment := fun _ => []
  /-- The name that takes the place of a trait object with the given bounds. -/
  collapse : List Bound → Option String := fun _ => none
  /-- The problem that the bounds of a trait object are. -/
  objection : List Bound → Option Problem := fun _ => none

/-- Putting segments in front of an edited path. -/
def Path.withLead (lead : Path → List Segment) (path : Path) (edit : Edit (List Segment)) :
    Edit Path :=
  let new : Path := ⟨edit.apply path.segments, path.leadingColon⟩
  match lead new with
  | [] => edit.map (⟨·, path.leadingColon⟩)
  | front => .replace ⟨front ++ new.segments, path.leadingColon⟩

/-- The arguments of a call signature from the edits of its parts. -/
def SegmentArgs.editCall (inputs : List Ty) (output : Option Ty) :
    Edit (List Ty) → Edit (Option Ty) → Edit SegmentArgs
  | .keep, .keep => .keep
  | is, o => .replace (.call (is.apply inputs) (o.apply output))

/-- A segment from the edit of its arguments, under the name it gets. -/
def Segment.edit (rename : String → Option String) (ident : Ident) (args : SegmentArgs)
    (edit : Edit SegmentArgs) : Edit Segment :=
  match rename ident.name with
  | some name => .replace ⟨⟨name, ident.span⟩, edit.apply args⟩
  | none => edit.map (⟨ident, ·⟩)

/-- Reporting a problem if there is one. -/
def Checked.reportSome (p : Option Problem) (span : Span) : Checked Unit :=
  match p with
  | some p => report p span
  | none => pure ()

mutual

/-- **Walking over a type.** -/
def Ty.walk (p : Pass) : Ty → Checked (Edit Ty)
  | .slice elem s => do return (← elem.walk p).map (.slice · s)
  | .array elem length s => do return (← elem.walk p).map (.array · length s)
  | .pointer elem isMut s => do return (← elem.walk p).map (.pointer · isMut s)
  | .reference elem lifetime isMut s => do
    return (← elem.walk p).map (.reference · lifetime isMut s)
  | .tuple elems s => do return (← walkTypes p elems).map (.tuple · s)
  | .paren elem s => do return (← elem.walk p).map (.paren · s)
  | .group elem s => do return (← elem.walk p).map (.group · s)
  | .function _ _ _ => .fail .functionPointer
  | .traitObject bounds s =>
    match p.collapse bounds with
    | some name => do
      match ← walkSole p bounds with
      | some ⟨ident, args⟩ =>
        return .replace (.path ⟨[⟨⟨name, ident.span⟩, args⟩], false⟩ s)
      | none => return .keep
    | none => do
      .reportSome (p.objection bounds) s
      return (← walkBounds p bounds).map (.traitObject · s)
  | .implTrait _ _ => .fail .implTrait
  | .infer _ => return .keep
  | .never _ => return .keep
  | .macroCall text s => do
    .report (p.unseen text) s
    return .keep
  | .verbatim text s => do
    .report (p.unseen text) s
    return .keep
  | .path path s => do return (← path.walk p).map (.path · s)
  | .qualified self position path s => do
    .report .qualifiedPath s
    return (← path.walk p).map fun new =>
      .qualified self (position + new.segments.length - path.segments.length) new s
  | .unknown kind => .fail (.unknownShape kind)

/-- Walking over types from left to right. -/
def walkTypes (p : Pass) : List Ty → Checked (Edit (List Ty))
  | [] => return .keep
  | ty :: rest => do return .cons ty rest (← ty.walk p) (← walkTypes p rest)

/-- Walking over the result of a call signature. -/
def walkOutput (p : Pass) : Option Ty → Checked (Edit (Option Ty))
  | none => return .keep
  | some ty => do return (← ty.walk p).map some

/-- **Walking over a path.** -/
def Path.walk (p : Pass) : Path → Checked (Edit Path)
  | ⟨segments, leadingColon⟩ => do
    return Path.withLead p.lead ⟨segments, leadingColon⟩ (← walkSegments p segments)

/-- Walking over segments from left to right. -/
def walkSegments (p : Pass) : List Segment → Checked (Edit (List Segment))
  | [] => return .keep
  | segment :: rest => do return .cons segment rest (← segment.walk p) (← walkSegments p rest)

/-- Walking over a segment. -/
def Segment.walk (p : Pass) : Segment → Checked (Edit Segment)
  | ⟨ident, args⟩ => do return Segment.edit p.rename ident args (← args.walk p)

/-- Walking over what is applied to a segment. -/
def SegmentArgs.walk (p : Pass) : SegmentArgs → Checked (Edit SegmentArgs)
  | .none => return .keep
  | .angle args => do return (← walkGenericArgs p args).map .angle
  | .call inputs output => do
    return SegmentArgs.editCall inputs output (← walkTypes p inputs) (← walkOutput p output)

/-- Walking over generic arguments from left to right. -/
def walkGenericArgs (p : Pass) : List GenericArg → Checked (Edit (List GenericArg))
  | [] => return .keep
  | arg :: rest => do return .cons arg rest (← arg.walk p) (← walkGenericArgs p rest)

/-- Walking over a generic argument. -/
def GenericArg.walk (p : Pass) : GenericArg → Checked (Edit GenericArg)
  | .type ty => do return (← ty.walk p).map .type
  | .lifetime _ => return .keep
  | .binding ident ty => do return (← ty.walk p).map (.binding ident)
  | .const _ => return .keep

/-- Walking over a bound. -/
def Bound.walk (p : Pass) : Bound → Checked (Edit Bound)
  | .trait path relaxed => do return (← path.walk p).map (.trait · relaxed)
  | .outlives _ => return .keep

/-- Walking over bounds from left to right. -/
def walkBounds (p : Pass) : List Bound → Checked (Edit (List Bound))
  | [] => return .keep
  | bound :: rest => do return .cons bound rest (← bound.walk p) (← walkBounds p rest)

/-- The last segment of a sole bound, its arguments walked over. -/
def walkSole (p : Pass) : List Bound → Checked (Option Segment)
  | [.trait ⟨segments, _⟩ _] => walkLast p segments
  | _ => return none

/-- The last of some segments, its arguments walked over. -/
def walkLast (p : Pass) : List Segment → Checked (Option Segment)
  | [] => return none
  | [⟨ident, args⟩] => do return some ⟨ident, (← args.walk p).apply args⟩
  | _ :: segment :: rest => walkLast p (segment :: rest)

end

/-- **The walk that changes nothing**: it only reports. -/
def Pass.plain : Pass := {}

end TraitMock
