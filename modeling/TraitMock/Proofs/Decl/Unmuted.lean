import TraitMock.Proofs.Decl.Bindings
import TraitMock.Proofs.Decl.Rebuild
import TraitMock.Proofs.Method.Normalize

/-!
# Proofs/Decl/Unmuted — arguments without their `mut`

Normalization drops the `mut` of an argument.  Its name then stands where the pattern begins, and
can be read there unless it is a keyword that `mut` had hidden.  So arguments that can be handed on
by name can be read again once they have lost their `mut` (`rules_unmute`).
-/

namespace TraitMock

open Table Machine Parts

/-! ## Dropping `mut` -/

/-- The pattern as it is normalized: without `mut`. -/
def Pat.withoutMut : Pat → Pat
  | .ident i byRef true sub s => .ident i byRef false sub s
  | pat => pat

theorem Param.withoutMut_typed (pat : Pat) (ty : Ty) (span : Span) :
    (Param.typed pat ty span).withoutMut = .typed pat.withoutMut ty span := by
  rcases pat with ⟨ident, byRef, _ | _, sub, s⟩ | _ | _ | _ <;> rfl

/-- **A pattern that stays a name without `mut`.** -/
def Pat.Handed : Pat → Prop
  | .ident i false _ none _ => ∀ t ∈ hiddenWords, t.spelling? ≠ some i.name
  | _ => False

/-- **A parameter that can be handed on by name** once it has lost its `mut`. -/
def Param.Handed : Param → Prop
  | .receiver _ _ _ _ => True
  | .typed pat _ _ => pat.Handed

/-- What phrases among arguments stand for, without `mut`. -/
def withoutMut : Change
  | .pattern, pat => Pat.withoutMut pat
  | .receiver, p | .param, p => Param.withoutMut p
  | .params, ps | .moreParams, ps => List.map Param.withoutMut ps
  | _, v => v

/-- All that a phrase among arguments stands for can be handed on by name. -/
def Handed : (n : Nonterminal) → n.Val → Prop
  | .pattern, pat => Pat.Handed pat
  | .receiver, p | .param, p => Param.Handed p
  | .params, ps | .moreParams, ps => ∀ p ∈ ps, Param.Handed p
  | _, _ => True

/-- **What is known of phrases among arguments**: without `mut`, they can be read again in their
place. -/
def unmuted : Judgement := fun s n v first next =>
  Handed n v → Rereads declared s n (withoutMut n v) first next

/-- What is known of phrases, arguments among them. -/
abbrev unmuting : Judgement := ((Rereads declared).and binds).and unmuted

/-- A rule keeps what is known of phrases among arguments. -/
def Rule.KeepsUnmuted (r : Rule) : Prop :=
  ∀ {s g stop : Nat} {first next : Terminal} (place : Place) (vals : r.parts.Val),
    step s (.phrase r.lhs) = some g → r.parts.Holds unmuting s vals first stop next →
      EndsBefore r.lhs next → unmuted s r.lhs (r.action place vals) first next

/-! ## Names -/

/-- Where a pattern begins, no more words are kept from names than where a parameter does. -/
theorem Table.words_subset_patternWords {s g : Nat} (hs : step s (.phrase .pattern) = some g) :
    words s ⊆ patternWords true := by
  have hall : allStates (fun s =>
      (step s (.phrase .pattern)).isNone || (words s).all (patternWords true).contains) = true := by
    decide +kernel
  have hwords := of_allStates_of_step hall hs
  simp only [List.all_eq_true, List.contains_iff_mem] at hwords
  exact fun t ht => hwords t ht

/-! ## Rules -/

theorem pattern_keepsUnmuted : ∀ r ∈ Grammar.pattern, r.KeepsUnmuted := by
  have hbuild : ∀ r ∈ Grammar.pattern, r.Constructs (Rereads declared) := rules_construct .pattern
  obtain ⟨hbinds, -⟩ := List.forall_iff_forall_mem.mpr pattern_keepsBinds
  refine List.forall_iff_forall_mem.mp ⟨?_, fun _ _ _ _ _ => False.elim,
    fun _ _ _ _ _ => False.elim⟩
  rintro s g stop first next place ⟨byRef, isMut, name, sub, ⟨⟩⟩ hg h hends hhanded
  rcases byRef with _ | ⟨⟨⟩⟩
  · rcases sub with _ | ⟨sub, ⟨⟩⟩
    · have hbind : (place.ident name).Binds (words s) isMut.isSome :=
        hbinds place (none, isMut, name, none, ()) hg (h.mono fun h => h.1)
      obtain ⟨hspells, havoids⟩ := hbind.bare (Table.words_subset_patternWords hg) hhanded
      have hkind : name.kind = .name := by
        obtain ⟨_, _, -, -, hkind, -⟩ := h.of_maybe.choose_spec.choose_spec.2.of_maybe
        exact hkind
      have hstands : ∀ s', walk s [] = some s' → name.lexeme.StandsAt s' := by
        rintro _ ⟨⟩
        exact ⟨(hkind ▸ hspells : name.kind.Spells _), fun _ => havoids⟩
      have hbuilt := (List.forall_mem_cons.mp hbuild).1.build place (none, none, name, none, ())
        ⟨by decide, by rw [hg]; rfl⟩ ⟨rfl, hkind, hstands, next, rfl⟩ hends
      cases isMut <;> exact hbuilt.beginning (by decide)
    · exact hhanded.elim
  · exact hhanded.elim

theorem receiver_keepsUnmuted : ∀ r ∈ Grammar.receiver, r.KeepsUnmuted := by
  have hbuild : ∀ r ∈ Grammar.receiver, r.Constructs (Rereads declared) := rules_construct .receiver
  have hrule : ∀ r ∈ Grammar.receiver, r.Preserves (Rereads declared) := fun r hr =>
    (rules_rewrite r (Grammar.mem_rules (n := .receiver) hr)).preserves
      (Grammar.mem_rules (n := .receiver) hr)
  obtain ⟨href, hvalue⟩ := List.forall_iff_forall_mem.mpr hrule
  obtain ⟨-, hbuildValue⟩ := List.forall_iff_forall_mem.mpr hbuild
  refine List.forall_iff_forall_mem.mp ⟨?_, ?_⟩
  · rintro s g stop first next place ⟨lifetime, isMut, ⟨⟩⟩ hg h hends -
    have hsame := href place (lifetime, isMut, ()) hg (h.mono fun h => h.1.1) hends
    cases isMut <;> exact hsame
  · rintro s g stop first next place ⟨isMut, ⟨⟩⟩ hg h hends -
    have hbuilt := hbuildValue.build place (none, ()) ⟨by decide, by rw [hg]; rfl⟩
      ⟨rfl, next, rfl⟩ hends
    cases isMut <;> exact hbuilt.beginning (by decide)

/-- A rule carries the loss of `mut` over from its parts. -/
def Rule.Unmutes (r : Rule) : Prop :=
  ∀ (place : Place) (vals : r.parts.Val), Handed r.lhs (r.action place vals) →
    r.Carries withoutMut Handed place vals

theorem lists_unmute : ∀ r ∈ Grammar.moreParams ++ Grammar.params ++ Grammar.param, r.Unmutes := by
  refine List.forall_iff_forall_mem.mp ⟨?_, ?_, ?_, ?_, ?_⟩
  · rintro place ⟨p, ⟨⟩⟩ h
    exact ⟨rfl, List.forall_mem_singleton.mp h, trivial⟩
  · rintro place ⟨ps, p, ⟨⟩⟩ h
    obtain ⟨hps, hp⟩ := List.forall_mem_append.mp h
    exact ⟨List.map_append, hps, List.forall_mem_singleton.mp hp, trivial⟩
  · rintro place ⟨p, more, comma, ⟨⟩⟩ h
    obtain ⟨hp, hmore⟩ := Grammar.forall_mem_listed.mp h
    refine ⟨?_, hp, fun u hu => ⟨hmore u hu, trivial⟩, fun _ _ => trivial, trivial⟩
    cases more <;> rfl
  · exact fun _ _ h => ⟨rfl, h, trivial⟩
  · exact fun place (pat, ty, _) h =>
      ⟨Param.withoutMut_typed pat ty place.span, h, trivial, trivial⟩

theorem Rule.Unmutes.keepsUnmuted {r : Rule} (h : r.Unmutes) (hr : r ∈ Grammar.rules) :
    r.KeepsUnmuted := fun place vals hg hholds hends hhanded =>
  (h place vals hhanded).holds ((rules_rewrite r hr).preserves hr) (fun hv => hv.2) hg hholds hends

/-- Outside arguments there is no `mut` to lose. -/
theorem withoutMut_of_not_mem {n : Nonterminal}
    (hn : n ∉ [.pattern, .receiver, .moreParams, .params, .param]) (v : n.Val) :
    withoutMut n v = v := by
  cases n <;> first | rfl | exact absurd (by decide) hn

theorem Rule.keepsUnmuted {r : Rule} (hr : r ∈ Grammar.rules) : r.KeepsUnmuted := by
  by_cases hpattern : r.lhs = .pattern
  · exact pattern_keepsUnmuted r (Grammar.mem_of_lhs hr hpattern)
  by_cases hreceiver : r.lhs = .receiver
  · exact receiver_keepsUnmuted r (Grammar.mem_of_lhs hr hreceiver)
  by_cases hlist : r.lhs ∈ [Nonterminal.moreParams, .params, .param]
  · refine (lists_unmute r ?_).keepsUnmuted hr
    simp only [List.mem_cons, List.not_mem_nil, or_false] at hlist
    simp only [List.mem_append]
    rcases hlist with h | h | h
    · exact .inl (.inl (Grammar.mem_of_lhs hr h))
    · exact .inl (.inr (Grammar.mem_of_lhs hr h))
    · exact .inr (Grammar.mem_of_lhs hr h)
  intro place vals hg hholds hends _
  have hsame := (rules_rewrite r hr).preserves hr place vals hg (hholds.mono fun h => h.1.1) hends
  rwa [withoutMut_of_not_mem (by simp_all)]

/-- **Every rule keeps what is known of phrases among arguments.** -/
theorem rules_unmute : ∀ r ∈ Grammar.rules, r.Preserves unmuting := fun r hr =>
  Rule.Preserves.and (rules_bind r hr) fun place vals => Rule.keepsUnmuted hr place vals

end TraitMock
