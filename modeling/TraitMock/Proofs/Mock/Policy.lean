import TraitMock.Method.Facts
import TraitMock.Proofs.Report.Policy
import TraitMock.Proofs.Walk.Equation
import TraitMock.Proofs.Walk.Passes
import TraitMock.Walk.TypePass

/-!
# Proofs/Mock/Policy — passes where nobody collects problems

The passes over types, the normalization of arguments and the classification of methods all heed the
policy under which they run (`passes_heed_policy`).

A walk inspects places and then makes an edit that reports nothing, so it is enough that each single
place heeds the policy: it either ends the walk, or is reported, or neither.
-/

namespace TraitMock

open Checked

/-! ## Walks -/

theorem Pass.heeds_check (p : Pass) (place : Part) : (p.check place).Heeds := by
  unfold check
  split
  · exact .fail _
  · split
    · exact .emit _
    · exact .pure ()

theorem Pass.heeds_inspect (p : Pass) : (places : List Part) → (p.inspect places).Heeds
  | [] => .pure ()
  | place :: rest => (p.heeds_check place).bind fun _ => p.heeds_inspect rest

/-- A walk heeds the policy. -/
theorem Ty.heeds_walk {p : Pass} (hp : p.Orderly) (ty : Ty) : (ty.walk p).Heeds := by
  obtain ⟨e, hwalk, -, -⟩ := Ty.walks hp ty
  rw [hwalk]
  exact (p.heeds_inspect _).bind fun _ => .pure e

theorem TypePass.heeds_run (pass : TypePass) (ty : Ty) : (pass.run ty).Heeds := by
  cases pass with
  | plain => exact Ty.heeds_walk Pass.orderly_plain ty
  | eraseImpl => exact .pure _
  | selfType actual interface => exact Ty.heeds_walk (Pass.orderly_selfType actual interface) ty
  | superPath => exact Ty.heeds_walk Pass.orderly_superPath ty

theorem TypePass.heeds_runOptional (pass : TypePass) (ty : Option Ty) :
    (pass.runOptional ty).Heeds := by
  cases ty with
  | some ty => exact (pass.heeds_run ty).bind fun _ => .pure _
  | none =>
    cases pass with
    | eraseImpl => exact .pure _
    | plain | selfType | superPath => exact .fail _

/-! ## Methods -/

/-- A problem that is reported on a condition, before the rest. -/
theorem Checked.heeds_reportIf {α : Type} (b : Bool) (p : Problem) (span : Span)
    {rest : Unit → Checked α} (hrest : ∀ u, (rest u).Heeds) :
    (if b then report p span >>= rest else rest ()).Heeds := by
  cases b with
  | false => exact hrest ()
  | true => exact (Heeds.report p span).bind hrest

theorem Param.heeds_normalize (p : Param) : p.normalize.Heeds := by
  match p with
  | .receiver .value true _ _ | .receiver .value false _ _ | .receiver .ref _ _ _
  | .receiver .refMut _ _ _ => exact .pure _
  | .typed (.wild s) _ _ => exact (Heeds.report .unnamedArgument s).bind fun _ => .pure _
  | .typed (.tuple _ s) _ _ => exact (Heeds.report .patternArgument s).bind fun _ => .pure _
  | .typed (.unknown _) _ _ => exact (Heeds.report .patternArgument _).bind fun _ => .pure _
  | .typed (.ident _ _ _ _ _) _ _ =>
    unfold normalize
    refine heeds_reportIf _ .byRefArgument _ fun _ => ?_
    refine heeds_reportIf _ .subpatternArgument _ fun _ => ?_
    split
    · exact .pure _
    · exact .pure _

theorem heeds_normalizeParams : (params : List Param) → (normalizeParams params).Heeds
  | [] => .pure _
  | p :: rest => p.heeds_normalize.bind fun _ => (heeds_normalizeParams rest).bind fun _ => .pure _

theorem CallKind.heeds_ofOutput (output : Option Ty) : (CallKind.ofOutput output).Heeds := by
  unfold ofOutput
  split
  · exact heeds_reportIf _ .namedReturnLifetime _ fun _ => .pure _
  · exact .pure _

theorem Method.heeds_facts (m : Method) (generics : Option Generics) :
    (m.facts generics).Heeds := by
  have hparams : m.normalizedParams.Heeds := (heeds_normalizeParams m.params).bind fun _ => .pure _
  exact hparams.bind fun _ => (CallKind.heeds_ofOutput _).bind fun _ => .pure _

/-- **All passes heed the policy**: those over a type, if there is one, the normalization of
arguments, and the classification of a method.  Where nobody collects problems, each of them does
what it does where they are collected, as long as there are none, and ends with the message of the
first one otherwise, whether or not a fault comes behind it. -/
theorem passes_heed_policy :
    (∀ (pass : TypePass) (ty : Option Ty), (pass.runOptional ty).Heeds) ∧
      (∀ params : List Param, (normalizeParams params).Heeds) ∧
      ∀ (m : Method) (generics : Option Generics), (m.facts generics).Heeds :=
  ⟨TypePass.heeds_runOptional, heeds_normalizeParams, Method.heeds_facts⟩

end TraitMock
