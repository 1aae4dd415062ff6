import TraitMock.Proofs.Decl.Bindings
import TraitMock.Proofs.Syntax.Change
import TraitMock.Proofs.Syntax.Refusal

/-!
# Proofs/Decl/Argument — an argument read as the only one of a method

An argument has no entry of its own, so its text is read as `fn f(argument)`.

* `exists_parse_asMethod` — with the type of an argument that has been read, and a pattern that can
  be read where the first parameter begins, such a method is read, and has this argument alone.
* `not_parse_asMethod` — an argument called `mut` or `ref` is not read: in front, these are
  keywords.
-/

namespace TraitMock

open Table Machine

/-- **The text of a parameter** as the only one of a method. -/
def Param.asMethod (p : Param) : String := "fn f(" ++ p.render ++ ")"

/-! ## The states on the way -/

/-- The state behind a symbol. -/
def Table.after (s : Nat) (x : Symbol) : Nat := (step s x).getD 0

theorem Table.step_after {s : Nat} {x : Symbol} (h : (step s x).isSome = true) :
    step s x = some (after s x) := by
  obtain ⟨s', hs'⟩ := Option.isSome_iff_exists.mp h
  rw [after, hs', Option.getD_some]

/-- The state behind `fn`. -/
def fnState : Nat := after Entry.method.start (.term .fnKw)

/-- The state behind `fn f(`. -/
def paramState : Nat := after (after fnState (.term .name)) (.term .lparen)

theorem words_paramState : words paramState = patternWords true := by decide

/-! ## From an argument to the method -/

/-- A type can be read again before whatever is not `::`. -/
theorem Again.before {W : Writing} {avoid : List Terminal} {ty : Ty} {ws : List Lexeme}
    {first next next' : Terminal} (h : Again W .type avoid ty ws first next)
    (hne : next' ≠ .pathSep) : Again W .type avoid ty ws first next' :=
  h.elsewhere (fun _ => List.Subset.refl _) id fun hsep => absurd hsep hne

/-- What the rules of a phrase make can be read again. -/
theorem preserves_of_mem {r : Rule} (hr : r ∈ bindingRules) : r.Preserves (Rereads declared) :=
  have hmem : r ∈ Grammar.rules.filter fun r => bindingPhrases.contains r.lhs := hr
  have hrules := List.mem_of_mem_filter hmem
  (rules_rewrite r hrules).preserves hrules

variable {pat : Pat} {ty : Ty} {first next begin : Terminal}

/-- **The argument** behind `fn f(`. -/
theorem rereads_param {ws : List Lexeme} (place : Place)
    (hpat : Rereads declared paramState .pattern pat begin .colon)
    (hty : Again declared .type typeWords ty ws first next) :
    Rereads declared paramState .param (.typed pat ty place.span) begin .rparen := by
  have hall : ∀ r ∈ Grammar.param, r.Preserves (Rereads declared) :=
    fun r hr => preserves_of_mem (by simp [bindingRules, hr])
  obtain ⟨-, htyped⟩ := List.forall_iff_forall_mem.mpr hall
  have hwords : words (after (after paramState (.phrase .pattern)) (.term .colon)) = typeWords := by
    decide
  have hrereads : Rereads declared (after (after paramState (.phrase .pattern)) (.term .colon))
      .type ty first .rparen :=
    fun _ => ⟨trivial, fun _ => ⟨ws, hwords ▸ hty.before (by decide)⟩⟩
  exact htyped place (pat, ty, ()) (step_after (by decide))
    ⟨_, _, step_after (by decide), hpat, rfl, _, _, step_after (by decide +kernel), _, _,
      step_after (by decide), hrereads, rfl, rfl⟩ ⟨fun _ => by decide, by decide⟩

/-- The method with one argument, at a place. -/
def argumentMethod (place : Place) (p : Param) : Method :=
  { ident := place.ident ⟨.name, "f", default⟩, params := [p], span := place.span }

theorem render_argumentMethod (place : Place) (p : Param) :
    (argumentMethod place p).render = p.asMethod := by
  have hcall : "fn f" ++ ("(" ++ p.render ++ ")") = "fn f(" ++ p.render ++ ")" := by
    rw [← String.append_assoc, ← String.append_assoc]
    rfl
  simpa [argumentMethod, Method.render, Method.renderWith, Param.asMethod, Visibility.render,
    Generics.render, Generics.renderWhere, callText, Place.ident] using hcall

/-- **The method** with one argument can be read again. -/
theorem rereads_argumentMethod {ws : List Lexeme} (place : Place)
    (hpat : Rereads declared paramState .pattern pat begin .colon)
    (hty : Again declared .type typeWords ty ws first next) :
    Rereads declared Entry.method.start .method
      (argumentMethod place (.typed pat ty place.span)) .fnKw .endOfText := by
  have hparams : ∀ r ∈ Grammar.params, r.Preserves (Rereads declared) :=
    fun r hr => preserves_of_mem (by simp [bindingRules, hr])
  have hmethod : ∀ r ∈ Grammar.method, r.Preserves (Rereads declared) :=
    fun r hr => preserves_of_mem (by simp [bindingRules, hr])
  have hlist : Rereads declared paramState .params [.typed pat ty place.span] begin .rparen :=
    List.forall_mem_singleton.mp hparams place (.typed pat ty place.span, none, none, ())
      (step_after (by decide))
      ⟨_, _, step_after (by decide), rereads_param place hpat hty, rfl, rfl⟩
      ⟨fun _ => by decide, by decide⟩
  have hname : (⟨.name, "f"⟩ : Lexeme).StandsAt fnState :=
    ⟨by decide, fun _ => by decide⟩
  have hends : EndsBefore .method .endOfText := ⟨fun _ => by decide, by decide⟩
  exact List.forall_mem_singleton.mp hmethod place
    (none, ⟨.name, "f", default⟩, none, some ([.typed pat ty place.span], ()), none, none, ())
    (step_after (by decide))
    ⟨rfl, fnState, _, step_after (by decide), rfl, rfl, hname, _, _,
      step_after (by decide), rfl, paramState, _, step_after (by decide +kernel), _, _,
      ⟨_, _, step_after (by decide), hlist, rfl, rfl⟩, rfl, _, _,
      step_after (by decide), rfl, _, _, step_after (by decide +kernel), rfl, rfl⟩ hends

/-- The only parameter alike another one. -/
theorem eq_singleton_of_isEqv {ps : List Param} {q : Param}
    (h : ps.isEqv [q] Param.alike = true) : ∃ p, ps = [p] ∧ p.alike q = true := by
  match ps with
  | [] => simp [List.isEqv] at h
  | [p] => exact ⟨p, rfl, by simpa [List.isEqv] using h⟩
  | _ :: _ :: _ => simp [List.isEqv] at h

/-- **An argument is read** from its text as the only one of a method, with the same pattern. -/
theorem exists_parse_asMethod {ws : List Lexeme} (span : Span)
    (hpat : Rereads declared paramState .pattern pat begin .colon)
    (hty : Again declared .type typeWords ty ws first next) :
    ∃ m pat' ty' span', Method.parse (Param.typed pat ty span).asMethod = .ok m ∧
      m.params = [.typed pat' ty' span'] ∧ pat'.alike pat = true := by
  obtain ⟨-, hagain⟩ := rereads_argumentMethod ⟨none, default⟩ hpat hty (by decide)
  obtain ⟨ws', hws'⟩ := hagain trivial
  obtain ⟨m, hparse, halike, -⟩ := Method.exists_parse_of_again hws'
  rw [render_argumentMethod] at hparse
  simp only [Method.alike, Method.plain, argumentMethod, Bool.and_eq_true] at halike
  obtain ⟨p, hp, hpalike⟩ := eq_singleton_of_isEqv halike.1.1.1.2
  rcases p with _ | ⟨pat', ty', span'⟩
  · cases hpalike
  · rw [Param.plain, Param.alike, Bool.and_eq_true] at hpalike
    exact ⟨m, pat', ty', span', hparse, hp, hpalike.1⟩

/-! ## Patterns where the first parameter begins -/

theorem rereads_pattern {r : Rule} (hr : r ∈ Grammar.pattern) : r.Preserves (Rereads declared) :=
  preserves_of_mem (by simp [bindingRules, hr])

/-- The pattern `_` is read there. -/
theorem rereads_wild (place : Place) :
    Rereads declared paramState .pattern (.wild place.span) .underscore .colon := by
  obtain ⟨-, hwild, -⟩ := List.forall_iff_forall_mem.mpr fun _ => rereads_pattern
  exact hwild place () (step_after (by decide))
    ⟨rfl, _, _, step_after (by decide), rfl, rfl⟩ ⟨fun _ => by decide, by decide⟩

/-- A name is read there, unless it is a keyword of that place. -/
theorem rereads_name (name : String) (place : Place)
    (h : (⟨name, place.span⟩ : Ident).Binds (patternWords true) false) :
    Rereads declared paramState .pattern
      (.ident (place.ident ⟨.name, name, default⟩) false false none place.span) .name .colon := by
  obtain ⟨hname, -⟩ := List.forall_iff_forall_mem.mpr fun _ => rereads_pattern
  have hstands : (⟨.name, name⟩ : Lexeme).StandsAt paramState :=
    ⟨h.1, fun _ => words_paramState ▸ h.2⟩
  exact hname place (none, none, ⟨.name, name, default⟩, none, ()) (step_after (by decide))
    ⟨rfl, rfl, hstands, _, _, step_after (by decide), rfl, rfl⟩
    ⟨fun _ => by decide, by decide⟩

/-! ## Names that are not read -/

theorem Method.completed_append (front cs : List Char) :
    ∃ tail, completed (front ++ cs) = front ++ tail := by
  rw [completed]
  split
  · exact ⟨cs, rfl⟩
  · exact ⟨cs ++ [';'], List.append_assoc ..⟩

/-- A word stands right before what no name goes on with. -/
theorem Terminal.apart_cons {t : Terminal} {c : Char} (ht : t ≠ .colon) (hc : isNameChar c = false)
    (cs : List Char) : t.Apart (c :: cs) :=
  ⟨fun _ _ hd => Option.some.inj hd ▸ hc, fun h => absurd h ht⟩

/-- The keywords `mut` and `ref` may stand in front of the first parameter, and neither a colon nor
a path separator behind them. -/
theorem keyword_stands {kw : Terminal} (hkw : kw ∈ [Terminal.mutKw, .refKw]) :
    (Lexeme.ofKind kw).StandsAt paramState ∧ kw ≠ .colon ∧ (step paramState (.term kw)).isSome ∧
      ∀ t ∈ [Terminal.colon, .pathSep],
        (Table.action? (after paramState (.term kw)) t).isSome = false := by
  have hkeyword : ∀ kw ∈ [Terminal.mutKw, .refKw],
      kw.Spells (Lexeme.ofKind kw).text ∧ kw ≠ .name ∧ kw ≠ .colon ∧
        (step paramState (.term kw)).isSome ∧ ∀ t ∈ [Terminal.colon, .pathSep],
          (Table.action? (after paramState (.term kw)) t).isSome = false := by
    decide
  obtain ⟨hspells, hne, hrest⟩ := hkeyword kw hkw
  exact ⟨⟨hspells, fun h => absurd h hne⟩, hrest⟩

/-- Behind `fn f(` and a keyword that goes with a name, there is no colon. -/
theorem not_readsOn_keyword {kw : Terminal} (hkw : kw ∈ [Terminal.mutKw, .refKw]) (tail : List Char)
    (m : Method) : ¬ ReadsOn .method []
      ("fn".toList ++ ' ' :: ("f".toList ++ '(' :: ((Lexeme.ofKind kw).text.toList ++ ':' :: tail)))
      m := by
  obtain ⟨hkeyword, hcolon, hstep, hnone⟩ := keyword_stands hkw
  have hfn : (Lexeme.ofKind .fnKw).StandsAt Entry.method.start := ⟨by decide, nofun⟩
  have hname : (⟨.name, "f"⟩ : Lexeme).StandsAt fnState := ⟨by decide, fun _ => by decide⟩
  have hparen : (Lexeme.ofKind .lparen).StandsAt (after fnState (.term .name)) := ⟨by decide, nofun⟩
  have htop : top .method [] = Entry.method.start := rfl
  intro h
  obtain ⟨_, htop, h⟩ := h.word (.ofKind .fnKw) htop hfn (step_after (by decide))
    (Terminal.apart_cons (by decide) (by decide) _) (.inl rfl)
  obtain ⟨_, htop, h⟩ := h.word ⟨.name, "f"⟩ htop hname (step_after (by decide))
    (Terminal.apart_cons (by decide) (by decide) _) (.inr rfl)
  obtain ⟨_, htop, h⟩ := h.word (.ofKind .lparen) htop hparen (step_after (by decide))
    ⟨nofun, nofun⟩ (.inl rfl)
  obtain ⟨_, htop, h⟩ := h.word (.ofKind kw) htop hkeyword (step_after hstep)
    (Terminal.apart_cons hcolon (by decide) _) (.inl rfl)
  refine not_readsOn_colon ?_ ?_ h
  · rw [accepts, action?_eq, htop]
    exact hnone .colon (by decide)
  · rw [accepts, action?_eq, htop]
    exact hnone .pathSep (by decide)

/-- **An argument called `mut` or `ref` is not read.** -/
theorem not_parse_asMethod {kw : Terminal} (hkw : kw ∈ [Terminal.mutKw, .refKw]) {ident : Ident}
    (hname : ident.name = (Lexeme.ofKind kw).text) (ty : Ty) (s span : Span) (m : Method) :
    Method.parse (Param.typed (.ident ident false false none s) ty span).asMethod ≠ .ok m := by
  intro hparse
  have htext : (Param.typed (.ident ident false false none s) ty span).asMethod.toList =
      ("fn f(" ++ (Lexeme.ofKind kw).text ++ ":").toList ++ (" " ++ ty.render ++ ")").toList := by
    simp [Param.asMethod, Param.render, Pat.render, renderSub, hname]
  obtain ⟨tail, htail⟩ := Method.completed_append
    ("fn f(" ++ (Lexeme.ofKind kw).text ++ ":").toList (" " ++ ty.render ++ ")").toList
  rw [Method.parse, htext, htail] at hparse
  have hreads := readsOn_of_parse hparse
  refine not_readsOn_keyword hkw tail m ?_
  simpa using hreads

end TraitMock
