import TraitMock.Proofs.Walk.Traces
import TraitMock.Walk.SelfType
import TraitMock.Walk.SuperPath

/-!
# Proofs/Walk/Passes — what the two passes leave

* `Ty.clean_substSelf` — where `Self` is replaced cleanly, no path speaks of it any more.
* `Ty.clean_liftSuper` — where climbing paths are lifted cleanly, each path has got two steps up in
  front if it climbs, and is otherwise the same.
-/

namespace TraitMock

variable {policy : Policy}

/-- **A type of supported forms throughout.** -/
def Ty.Supported (ty : Ty) : Prop := ∀ t, Part.type t ∈ ty.parts → t.isSupported

/-- **A type that nowhere speaks of `Self`.** -/
def Ty.Selfless (ty : Ty) : Prop := ∀ path, Part.path path ∈ ty.parts → selfName ∉ path.names

theorem Pass.orderly_plain : Pass.plain.Orderly where
  lead_bare _ _ h := absurd h List.not_mem_nil
  collapse_sole h := nomatch h

/-! ## Replacing `Self` -/

theorem Pass.orderly_selfType (actual : Ident) (interface : Option String) :
    (Pass.selfType actual interface).Orderly where
  lead_bare _ _ h := absurd h List.not_mem_nil
  collapse_sole {bounds name} h := by
    match bounds with
    | [.trait path false] =>
      refine ⟨path, false, rfl, fun hnil => ?_⟩
      simp [selfType, Bound.namesMock, Path.lastName?, hnil] at h
    | [.trait _ true] | [.outlives _] => simp [selfType, Bound.namesMock] at h

theorem Pass.name_of_collapses {actual : Ident} {interface : Option String} {name : String}
    (h : (Pass.selfType actual interface).Collapses name) : name = actual.name := by
  obtain ⟨bounds, h⟩ := h
  simp only [selfType] at h
  split at h
  · split at h
    · exact (Option.some.inj h).symm
    · cases h
  · cases h

/-- No segment is called `Self` after the pass. -/
theorem Pass.called_selfType_ne {actual : Ident} (hactual : actual.name ≠ selfName)
    (interface : Option String) (name : String) :
    (Pass.selfType actual interface).called name ≠ selfName := by
  simp only [called, selfType]
  split
  · exact hactual
  · assumption

/-- **What is cleanly rid of `Self`** does not speak of it, and is supported throughout. -/
theorem Ty.clean_substSelf {ty : Ty} {actual : Ident} {interface : Option String} {e : Edit Ty}
    (hactual : actual.name ≠ selfName) (h : (ty.substSelf actual interface).Yields policy e) :
    (e.apply ty).Supported ∧ (e.apply ty).Selfless := by
  have htrace := Ty.traces_of_walk (Pass.orderly_selfType actual interface) ty h
  refine ⟨fun _ => htrace.isSupported, fun path hpath hself => ?_⟩
  rcases htrace.origin hpath with ⟨old, -, inner, -, hinner, -, hnames⟩ | ⟨name, hc, hnames⟩
  · rw [hnames, hinner] at hself
    obtain ⟨name, -, hname⟩ := List.mem_map.mp hself
    exact Pass.called_selfType_ne hactual interface name hname
  · rw [hnames, List.mem_singleton, Pass.name_of_collapses hc] at hself
    exact hactual hself.symm

/-! ## Lifting paths that climb -/

/-- Whether a path climbs from where it stands. -/
def Path.climbs (path : Path) : Bool :=
  !path.leadingColon && path.names.head? == some superName

theorem Path.names_climb (path : Path) :
    path.climb.map (·.ident.name) = if path.climbs then [superName, superName] else [] := by
  obtain ⟨segments, leadingColon⟩ := path
  cases leadingColon with
  | true => rfl
  | false =>
    cases segments with
    | nil => rfl
    | cons first rest =>
      by_cases hfirst : first.ident.name = superName
      · simp [climb, climbs, names, hfirst, supers]
      · simp [climb, climbs, names, hfirst]

theorem Pass.orderly_superPath : Pass.superPath.Orderly where
  lead_bare path segment h := by
    simp only [superPath, Path.climb] at h
    split at h
    · split at h
      · exact (List.eq_of_mem_replicate h) ▸ rfl
      · cases h
    · cases h
  collapse_sole h := nomatch h

theorem Pass.not_collapses_superPath (name : String) : ¬ Pass.superPath.Collapses name := nofun

/-- **How a path is lifted.** -/
theorem Pass.Carries.names_superPath {old new : Path} (h : Pass.superPath.Carries old new) :
    new.names = (if old.climbs then [superName, superName] else []) ++ old.names := by
  obtain ⟨inner, hcolon, hinner, -, hnames⟩ := h
  have hinner : inner.names = old.names := hinner.trans (List.map_id _)
  have hclimbs : inner.climbs = old.climbs := by rw [Path.climbs, hcolon, hinner, Path.climbs]
  rw [hnames, hinner, ← hclimbs]
  exact congrArg (· ++ old.names) (Path.names_climb inner)

/-- **What is cleanly lifted** is supported throughout, and speaks of `Self` only where it did. -/
theorem Ty.clean_liftSuper {ty : Ty} {e : Edit Ty} (h : ty.liftSuper.Yields policy e) :
    (e.apply ty).Supported ∧ (ty.Selfless → (e.apply ty).Selfless) := by
  have htrace := Ty.traces_of_walk Pass.orderly_superPath ty h
  refine ⟨fun _ => htrace.isSupported, fun hty path hpath hself => ?_⟩
  rcases htrace.origin hpath with ⟨old, hold, hc⟩ | ⟨name, hc, -⟩
  · rw [hc.names_superPath, List.mem_append] at hself
    rcases hself with hself | hself
    · split at hself <;> simp [selfName, superName] at hself
    · exact hty old hold hself
  · exact Pass.not_collapses_superPath name hc

end TraitMock
