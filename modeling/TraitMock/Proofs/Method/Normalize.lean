import TraitMock.Method.Facts
import TraitMock.Proofs.Report.Clean

/-!
# Proofs/Method/Normalize — what a clean normalization lets through

Each parameter of a cleanly normalized method is a receiver, or is bound by a name alone: neither by
reference nor `mut`, and with no pattern behind it.  So every argument has a stand-in.
-/

namespace TraitMock

variable {policy : Policy}

/-- **Whether a parameter can be handed on by name**: it is a receiver, or a plain binding. -/
def Param.isPlain : Param → Bool
  | .receiver _ _ _ _ => true
  | .typed (.ident _ false false none _) _ _ => true
  | _ => false

/-- **The parameter as it is normalized**: without `mut`. -/
def Param.withoutMut : Param → Param
  | .receiver .value true lifetime s => .receiver .value false lifetime s
  | .typed (.ident ident byRef true sub s) ty span =>
    .typed (.ident ident byRef false sub s) ty span
  | p => p

namespace Param

/-- Dropping a `mut` leaves a parameter its type. -/
theorem ty?_withoutMut (p : Param) : p.withoutMut.ty? = p.ty? := by
  unfold withoutMut
  split <;> rfl

/-- So normalized parameters are of the declared types. -/
theorem filterMap_ty?_withoutMut (params : List Param) :
    (params.map withoutMut).filterMap ty? = params.filterMap ty? := by
  rw [List.filterMap_map]
  exact congrArg (List.filterMap · params) (funext ty?_withoutMut)

/-- The two forms of a plain parameter. -/
theorem isPlain_cases {p : Param} (h : p.isPlain) :
    (∃ kind isMut lifetime s, p = .receiver kind isMut lifetime s) ∨
      ∃ ident s ty span, p = .typed (.ident ident false false none s) ty span := by
  unfold isPlain at h
  split at h
  · exact .inl ⟨_, _, _, _, rfl⟩
  · exact .inr ⟨_, _, _, _, rfl⟩
  · cases h

/-- A parameter that is normalized cleanly loses its `mut`, and is plain. -/
theorem clean_normalize {q : Param} {e : Edit Param} (h : q.normalize.Yields policy e) :
    e.apply q = q.withoutMut ∧ q.withoutMut.isPlain := by
  match q with
  | .receiver .value true _ _ | .receiver .value false _ _ | .receiver .ref _ _ _
  | .receiver .refMut _ _ _ =>
    rw [Checked.yields_pure.mp h |>.symm]
    exact ⟨rfl, rfl⟩
  | .typed (.wild _) _ _ | .typed (.tuple _ _) _ _ | .typed (.unknown _) _ _ =>
    simp [normalize] at h
  | .typed (.ident ident byRef isMut sub s) ty span =>
    cases byRef with
    | true => simp [normalize] at h
    | false =>
      cases sub with
      | some sub => simp [normalize] at h
      | none =>
        cases isMut <;> simp only [normalize] at h <;> obtain rfl := by simpa using h
        · exact ⟨rfl, rfl⟩
        · exact ⟨rfl, rfl⟩

end Param

/-- **A cleanly normalized list** has lost every `mut`, and all of it is plain. -/
theorem clean_normalizeParams {params : List Param} {edits : List (Edit Param)}
    (h : (normalizeParams params).Yields policy edits) :
    applyEdits params edits = params.map Param.withoutMut ∧
      ∀ p ∈ params, p.withoutMut.isPlain := by
  induction params generalizing edits with
  | nil => exact ⟨by simp [applyEdits], List.forall_mem_nil _⟩
  | cons p rest ih =>
    simp only [normalizeParams, Checked.yields_bind, Checked.yields_pure] at h
    obtain ⟨e, he, es, hes, rfl⟩ := h
    obtain ⟨happly, hplain⟩ := Param.clean_normalize he
    obtain ⟨happlys, hplains⟩ := ih hes
    refine ⟨?_, List.forall_mem_cons.mpr ⟨hplain, hplains⟩⟩
    rw [List.map_cons, ← happly, ← happlys]
    rfl

/-- The facts of a method that is classified cleanly: its parameters have lost every `mut`, all of
them are plain, and the rest is read off them and the result. -/
structure Method.CleanFacts (m : Method) (facts : MethodFacts) : Prop where
  params : facts.params = m.params.map Param.withoutMut
  plain : ∀ p ∈ facts.params, p.isPlain
  argTypes : facts.argTypes = facts.params.filterMap Param.ty?
  standIns : facts.standIns = TraitMock.standIns 0 facts.params
  output : facts.output = m.output.map fun ty => ty.eraseImpl.apply ty

theorem Method.cleanFacts {m : Method} {generics : Option Generics} {facts : MethodFacts}
    (h : (m.facts generics).Yields policy facts) : m.CleanFacts facts := by
  simp only [Method.facts, Method.normalizedParams, Checked.yields_bind, Checked.yields_pure] at h
  obtain ⟨params, ⟨edits, hedits, rfl⟩, dispatch, -, rfl⟩ := h
  obtain ⟨happly, hplain⟩ := clean_normalizeParams hedits
  refine ⟨happly, ?_, rfl, rfl, rfl⟩
  rw [happly]
  exact List.forall_mem_map.mpr hplain

/-! ## Stand-ins -/

/-- A plain parameter has a stand-in exactly if it has a type. -/
theorem Param.isSome_standIn? {p : Param} (h : p.isPlain) (position : Nat) :
    (p.standIn? position).isSome = p.ty?.isSome := by
  rcases isPlain_cases h with ⟨_, _, _, _, rfl⟩ | ⟨ident, s, ty, span, rfl⟩
  · rfl
  · cases ty <;> rfl

/-- **Every plain argument has a stand-in**, and no receiver has one. -/
theorem length_standIns {params : List Param} (h : ∀ p ∈ params, p.isPlain) (position : Nat) :
    (standIns position params).length = (params.filterMap Param.ty?).length := by
  induction params generalizing position with
  | nil => rfl
  | cons p rest ih =>
    obtain ⟨hp, hrest⟩ := List.forall_mem_cons.mp h
    have hsome := Param.isSome_standIn? hp position
    rw [standIns, List.length_append, ih hrest]
    cases ht : p.ty? with
    | none =>
      rw [ht, Option.isSome_none, Option.isSome_eq_false_iff, Option.isNone_iff_eq_none] at hsome
      rw [List.filterMap_cons_none ht, hsome, Option.toList_none, List.length_nil, Nat.zero_add]
    | some ty =>
      rw [ht, Option.isSome_some] at hsome
      obtain ⟨arg, harg⟩ := Option.isSome_iff_exists.mp hsome
      rw [List.filterMap_cons_some ht, harg, Option.toList_some, List.length_singleton,
        List.length_cons, Nat.add_comm]

end TraitMock
