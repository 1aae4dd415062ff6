import TraitMock.Proofs.Decl.RoundTrip

/-!
# Proofs/Decl/Bindings — the names that arguments are bound by

Where a pattern begins, `_`, `mut` and `ref` are keywords and no names.  Behind `mut` they are
names, so a binding can be called `_` there.  `Param.Binds` says what is known of a binding that has
been read, and that its type can be read again.
-/

namespace TraitMock

open Table Machine

variable {P Q : Judgement}

/-! ## Two judgements at a time -/

/-- Both of two judgements. -/
def Judgement.and (P Q : Judgement) : Judgement := fun s n v first next =>
  P s n v first next ∧ Q s n v first next

theorem Parts.Holds.mono (h : ∀ {s n v first next}, P s n v first next → Q s n v first next) :
    ∀ {p : Parts} {s stop : Nat} {vals : p.Val} {first next : Terminal},
      p.Holds P s vals first stop next → p.Holds Q s vals first stop next
  | .done, _, _, _, _, _, hholds => hholds
  | .mark _ _, _, _, _, _, _, ⟨hfirst, s', b, hstep, hrest⟩ => ⟨hfirst, s', b, hstep, hrest.mono h⟩
  | .token _ _, _, _, (_, _), _, _, ⟨hfirst, hkind, hstands, s', b, hstep, hrest⟩ =>
    ⟨hfirst, hkind, hstands, s', b, hstep, hrest.mono h⟩
  | .phrase _ _, _, _, (_, _), _, _, ⟨s', b, hstep, hv, hrest⟩ => ⟨s', b, hstep, h hv, hrest.mono h⟩
  | .maybe _ rest, _, _, (none, _), _, _, hholds => Parts.Holds.mono (p := rest) h hholds
  | .maybe _ _, _, _, (some _, _), _, _, ⟨s', b, hinner, hrest⟩ =>
    ⟨s', b, hinner.mono h, hrest.mono h⟩

/-- An option in front of other parts. -/
theorem Parts.Holds.of_maybe {p q : Parts} {s stop : Nat} {vals : q.Val} {first next : Terminal} :
    ∀ {o : Option p.Val}, (Parts.maybe p q).Holds P s (o, vals) first stop next →
      ∃ s' b, (∀ u ∈ o, p.Holds P s u first s' b) ∧ q.Holds P s' vals b stop next
  | none, h => ⟨s, first, nofun, h⟩
  | some _, ⟨s', b, hu, h⟩ => ⟨s', b, fun _ hu' => Option.some.inj hu' ▸ hu, h⟩

/-- **A second judgement beside one that is preserved already**: its proof may use the first. -/
theorem Rule.Preserves.and {r : Rule} (hP : r.Preserves P)
    (hQ : ∀ {s g stop : Nat} {first next : Terminal} (place : Place) (vals : r.parts.Val),
      step s (.phrase r.lhs) = some g → r.parts.Holds (P.and Q) s vals first stop next →
        EndsBefore r.lhs next → Q s r.lhs (r.action place vals) first next) :
    r.Preserves (P.and Q) :=
  fun place vals hg hholds hends =>
    ⟨hP place vals hg (hholds.mono fun h => h.1) hends, hQ place vals hg hholds hends⟩

/-! ## Bindings -/

/-- The keywords behind `mut`, where a pattern begins with the given ones. -/
def wordsBehindMut (before : List Terminal) : List Terminal :=
  if .selfKw ∈ before then [.selfKw] else []

/-- **What is known of a name that binds** where a pattern begins with the given keywords: it is
none of those that are told apart from it. -/
def Ident.Binds (before : List Terminal) (isMut : Bool) (ident : Ident) : Prop :=
  Terminal.name.Spells ident.name ∧
    ∀ t ∈ if isMut then wordsBehindMut before else before, t.spelling? ≠ some ident.name

/-- The keywords where a pattern begins that are names behind `mut`. -/
def hiddenWords : List Terminal := [.mutKw, .refKw, .underscore]

/-- **A name that binds behind `mut` binds without it**, unless it is a keyword that `mut` hides. -/
theorem Ident.Binds.bare {before : List Terminal} {isMut : Bool} {ident : Ident}
    (h : ident.Binds before isMut) (hbefore : before ⊆ patternWords true)
    (hhidden : ∀ t ∈ hiddenWords, t.spelling? ≠ some ident.name) : ident.Binds before false := by
  refine ⟨h.1, fun t ht => ?_⟩
  rcases List.mem_cons.mp (hbefore ht) with rfl | hword
  · refine h.2 .selfKw ?_
    cases isMut with
    | false => exact ht
    | true => simp [wordsBehindMut, show .selfKw ∈ before from ht]
  · exact hhidden t hword

/-- What is known of a pattern, if it is a name with or without `mut`. -/
def Pat.Binds (before : List Terminal) : Pat → Prop
  | .ident i false isMut none _ => i.Binds before isMut
  | _ => True

/-- **What is known of a parameter** that is bound by a name, with or without `mut`; its type can be
read again. -/
def Param.Binds : Param → Prop
  | .typed (.ident i false isMut none _) ty _ => i.Binds (patternWords true) isMut ∧
    ∃ ws first next, Again declared .type typeWords ty ws first next
  | _ => True

/-- The judgement about bindings. -/
def binds : Judgement
  | s, .pattern, pat, _, _ => Pat.Binds (words s) pat
  | _, .param, p, _, _ | _, .receiver, p, _, _ => Param.Binds p
  | _, .params, ps, _, _ | _, .moreParams, ps, _, _ => ∀ p ∈ ps, Param.Binds p
  | _, .method, m, _, _ => ∀ p ∈ Method.params m, p.Binds
  | _, _, _, _, _ => True

/-- The phrases that the judgement speaks of. -/
def bindingPhrases : List Nonterminal :=
  [.moreParams, .method, .params, .param, .receiver, .pattern]

/-- The rules of these phrases. -/
def bindingRules : List Rule :=
  Grammar.moreParams ++ Grammar.method ++ Grammar.params ++ Grammar.param ++ Grammar.receiver ++
    Grammar.pattern

theorem mem_bindingRules {r : Rule} (hr : r ∈ Grammar.rules) (hlhs : r.lhs ∈ bindingPhrases) :
    r ∈ bindingRules := Grammar.mem_of_lhs_mem rfl hr hlhs

/-- Whether a rule keeps the judgement about bindings, where its phrases can be read again. -/
def Rule.KeepsBinds (r : Rule) : Prop :=
  ∀ {s g stop : Nat} {first next : Terminal} (place : Place) (vals : r.parts.Val),
    step s (.phrase r.lhs) = some g →
      r.parts.Holds ((Rereads declared).and binds) s vals first stop next →
        binds s r.lhs (r.action place vals) first next

theorem pattern_keepsBinds : ∀ r ∈ Grammar.pattern, r.KeepsBinds := by
  refine List.forall_iff_forall_mem.mp ⟨?_, fun _ _ _ _ => trivial, fun _ _ _ _ => trivial⟩
  rintro s g stop first next place ⟨byRef, isMut, name, sub, ⟨⟩⟩ hg h
  rcases byRef with _ | ⟨⟨⟩⟩
  · rcases sub with _ | ⟨sub, ⟨⟩⟩
    · rcases isMut with _ | ⟨⟨⟩⟩
      · obtain ⟨-, hkind, ⟨hspells, havoids⟩, -⟩ := h
        have hkind : name.lexeme.kind = .name := hkind
        exact ⟨hkind ▸ hspells, havoids hkind⟩
      · obtain ⟨s', b, ⟨-, s₁, b', hmut, hstop, -⟩, -, hkind, ⟨hspells, havoids⟩, -⟩ := h
        obtain rfl := hstop
        have hkind : name.lexeme.kind = .name := hkind
        have hwords : words s' = wordsBehindMut (words s) := words_behind_mut hg hmut
        exact ⟨hkind ▸ hspells, hwords ▸ havoids hkind⟩
    · exact trivial
  · exact trivial

theorem receiver_keepsBinds : ∀ r ∈ Grammar.receiver, r.KeepsBinds :=
  List.forall_iff_forall_mem.mp ⟨fun _ _ _ _ => trivial, fun _ _ _ _ => trivial⟩

theorem param_keepsBinds : ∀ r ∈ Grammar.param, r.KeepsBinds := by
  refine List.forall_iff_forall_mem.mp ⟨?_, ?_⟩
  · rintro s g stop first next place ⟨p, ⟨⟩⟩ hg h
    obtain ⟨s', b, hstep, ⟨-, hp⟩, -⟩ := h
    exact hp
  · rintro s g stop first next place ⟨pat, ty, ⟨⟩⟩ hg h
    obtain ⟨s₁, b, hpat, ⟨-, hbinds⟩, -, s₂, b', hcolon, s₃, b'', htype, ⟨hrereads, -⟩, -⟩ := h
    obtain ⟨-, hagain⟩ := hrereads (by decide)
    obtain ⟨ws, hws⟩ := hagain trivial
    have hparam : (.param, [], patternWords true) ∈ contexts := by decide
    have hty : (.type, [], typeWords) ∈ contexts := by decide
    rw [words_eq hty htype rfl] at hws
    rcases pat with ⟨i, _ | _, isMut, _ | sub, span⟩ | _ | _ | _
    · exact ⟨words_eq hparam hg rfl ▸ hbinds, ws, b', b'', hws⟩
    all_goals exact trivial

theorem params_keepsBinds : ∀ r ∈ Grammar.params, r.KeepsBinds := by
  refine List.forall_mem_singleton.mpr ?_
  rintro s g stop first next place ⟨p, more, comma, ⟨⟩⟩ hg ⟨s', b, hstep, ⟨-, hp⟩, h⟩
  rcases more with _ | ⟨more, ⟨⟩⟩
  · exact List.forall_mem_singleton.mpr hp
  · obtain ⟨s'', b', ⟨_, _, _, ⟨-, hmore⟩, -⟩, -⟩ := h
    exact List.forall_mem_cons.mpr ⟨hp, hmore⟩

theorem moreParams_keepsBinds : ∀ r ∈ Grammar.moreParams, r.KeepsBinds := by
  refine List.forall_iff_forall_mem.mp ⟨?_, ?_⟩
  · rintro s g stop first next place ⟨p, ⟨⟩⟩ hg ⟨-, s', b, -, _, _, -, ⟨-, hp⟩, -⟩
    exact List.forall_mem_singleton.mpr hp
  · rintro s g stop first next place ⟨ps, p, ⟨⟩⟩ hg
      ⟨_, _, -, ⟨-, hps⟩, -, s', b, -, _, _, -, ⟨-, hp⟩, -⟩
    exact List.forall_mem_append.mpr ⟨hps, List.forall_mem_singleton.mpr hp⟩

theorem method_keepsBinds : ∀ r ∈ Grammar.method, r.KeepsBinds := by
  refine List.forall_mem_singleton.mpr ?_
  rintro s g stop first next place ⟨vis, name, generics, params, output, clause, ⟨⟩⟩ hg h
  obtain ⟨_, _, -, -, _, _, -, -, -, -, _, _, -, h⟩ := h.of_maybe
  obtain ⟨_, _, -, -, _, _, -, h⟩ := h.of_maybe
  obtain ⟨_, _, hparams, -⟩ := h.of_maybe
  rcases params with _ | ⟨params, ⟨⟩⟩
  · exact fun p hp => absurd hp List.not_mem_nil
  · obtain ⟨_, _, -, ⟨-, hall⟩, -⟩ := hparams _ rfl
    exact hall

/-- The rules of bindings keep what is known of them. -/
theorem keepsBinds {r : Rule} (hr : r ∈ bindingRules) : r.KeepsBinds := by
  simp only [bindingRules, List.mem_append] at hr
  rcases hr with ((((hr | hr) | hr) | hr) | hr) | hr
  · exact moreParams_keepsBinds r hr
  · exact method_keepsBinds r hr
  · exact params_keepsBinds r hr
  · exact param_keepsBinds r hr
  · exact receiver_keepsBinds r hr
  · exact pattern_keepsBinds r hr

/-- Of the other phrases the judgement says nothing. -/
theorem binds_of_not_mem {n : Nonterminal} (hn : n ∉ bindingPhrases) (s : Nat) (v : n.Val)
    (first next : Terminal) : binds s n v first next := by
  cases n <;> first | exact True.intro | exact absurd (by decide) hn

/-- **Every rule keeps what is known of bindings**, and writes again what it reads. -/
theorem rules_bind : ∀ r ∈ Grammar.rules, r.Preserves ((Rereads declared).and binds) := by
  intro r hr
  refine Rule.Preserves.and ((rules_rewrite r hr).preserves hr) fun place vals hg hholds _ => ?_
  by_cases hlhs : r.lhs ∈ bindingPhrases
  · exact keepsBinds (mem_bindingRules hr hlhs) place vals hg hholds
  · exact binds_of_not_mem hlhs ..

/-- **The bindings of a method** that has been read. -/
theorem Method.binds_of_parse {text : String} {m : Method} (h : Method.parse text = .ok m) :
    ∀ p ∈ m.params, p.Binds := by
  have hparse : Machine.parse none .method (Method.completed text.toList) = .ok m := h
  obtain ⟨first, -, hbinds⟩ := holds_of_parse rules_bind hparse
  exact hbinds

end TraitMock
