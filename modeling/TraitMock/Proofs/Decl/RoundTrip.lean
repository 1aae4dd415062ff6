import TraitMock.Proofs.Decl.MethodRules
import TraitMock.Syntax.Parse

/-!
# Proofs/Decl/RoundTrip — what has been read and written is read again

Types, methods, generics and visibilities are read back from their own text, alike but for spans and
for what is empty in them.  Every rule of the grammar writes again what it has read
(`Machine.again_of_parse`), so the text of the whole spells lexemes that the machine reads.
-/

namespace TraitMock

open Table Machine

/-- All rules of a list write again what they read. -/
def RulesRewrite (rules : List Rule) : Prop := ∀ r ∈ rules, r.Rewrites declared

theorem RulesRewrite.append {rules rules' : List Rule} (h : RulesRewrite rules)
    (h' : ∀ r ∈ rules', r.Rewrites declared) : RulesRewrite (rules ++ rules') :=
  List.forall_mem_append.mpr ⟨h, h'⟩

/-- Nothing is said of the rules of whole items. -/
theorem item_rewrites {rules : List Rule}
    (h : rules.all (fun r => itemPhrases.contains r.lhs) = true) : RulesRewrite rules :=
  fun r hr hitem => absurd (List.contains_iff_mem.mp (List.all_eq_true.mp h r hr)) hitem

/-- **Every rule writes again what it reads.** -/
theorem rules_rewrite : ∀ r ∈ Grammar.rules, r.Rewrites declared := by
  unfold Grammar.rules
  exact item_rewrites rfl
    |>.append (item_rewrites rfl) |>.append moreParams_rewrites |>.append morePatterns_rewrites
    |>.append moreGenericParams_rewrites |>.append moreLifetimes_rewrites
    |>.append morePredicates_rewrites |>.append moreBounds_rewrites |>.append moreTypes_rewrites
    |>.append moreSegments_rewrites |>.append moreGenericArgs_rewrites |>.append (item_rewrites rfl)
    |>.append typeOnly_rewrites |>.append (item_rewrites rfl) |>.append (item_rewrites rfl)
    |>.append (item_rewrites rfl) |>.append method_rewrites |>.append params_rewrites
    |>.append param_rewrites |>.append receiver_rewrites |>.append pattern_rewrites
    |>.append visibility_rewrites |>.append visTarget_rewrites |>.append generics_rewrites
    |>.append genericParam_rewrites |>.append lifetimeBounds_rewrites |>.append whereClause_rewrites
    |>.append predicate_rewrites |>.append bounds_rewrites |>.append bound_rewrites
    |>.append type_rewrites |>.append typeNoBounds_rewrites |>.append groupedType_rewrites
    |>.append atomicType_rewrites |>.append refTarget_rewrites |>.append qualifiedType_rewrites
    |>.append arrayLength_rewrites |>.append path_rewrites |>.append segment_rewrites
    |>.append pathIdent_rewrites |>.append segmentArgs_rewrites |>.append genericArg_rewrites

namespace Machine

/-- **What has been read can be read again**, if it is written at all. -/
theorem again_of_parse (entry : Entry) {file : Option String} {text : List Char}
    {v : entry.phrase.Val} (hentry : entry ≠ .declFile) (h : parse file entry text = .ok v) :
    entry.phrase.Sound v ∧ (entry.phrase.Written v → ∃ ws first,
      Again declared entry.phrase (words entry.start) v ws first .endOfText) := by
  obtain ⟨first, hrereads⟩ :=
    holds_of_parse (fun r hr => (rules_rewrite r hr).preserves hr) h
  have hitem : entry.phrase ∉ itemPhrases := by
    cases entry <;> first | decide | exact absurd rfl hentry
  obtain ⟨hsound, hagain⟩ := hrereads hitem
  refine ⟨hsound, fun hwritten => ?_⟩
  obtain ⟨ws, hws⟩ := hagain hwritten
  exact ⟨ws, first, hws⟩

/-- What can be read again leads from the empty stack to one phrase. -/
theorem goes_of_again (entry : Entry) (file : Option String) {v : entry.phrase.Val}
    {ws : List Lexeme} {first : Terminal} (hentry : entry ≠ .declFile)
    (h : Again declared entry.phrase (words entry.start) v ws first .endOfText) :
    Goes file entry [] ws .endOfText fun stack =>
      ∃ v', result? entry stack = some v' ∧ entry.phrase.BackAs v v' := by
  have hstart :
      entry.phrase ∉ itemPhrases ∧ (step entry.start (.phrase entry.phrase)).isSome = true ∧
      .endOfText ∈ follow entry.phrase ∧ argStart entry.start = false := by
    cases entry <;> first | exact absurd rfl hentry | decide
  obtain ⟨hitem, hstep, hfollow, harg⟩ := hstart
  obtain ⟨g, hg⟩ := Option.isSome_iff_exists.mp hstep
  have hreads : Reads file entry entry.start entry.phrase ws (entry.phrase.BackAs v) .endOfText :=
    h.reads ⟨hitem, hstep⟩ (fun _ => List.Subset.refl _) ⟨hfollow,
      fun h => absurd h (by simp [harg])⟩ (.inr fun h => absurd h (by decide))
  refine (hreads [] g rfl hg).mono ?_
  rintro _ ⟨v', extent, hback, rfl⟩
  exact ⟨v', Frame.value?_mk .., hback⟩

end Machine

/-! ## The mark at the end of a method -/

/-- Only the semicolon ends with one. -/
theorem Terminal.eq_semicolon {t : Terminal} {word : String} (h : t.Spells word)
    (hc : word.toList.getLast? = some ';') : t = .semicolon := by
  rcases getLast_of_spells h hc with ⟨-, hname⟩ | ⟨-, ⟨-, heq⟩ | ⟨s, hs, hlast⟩⟩
  · exact absurd hname (by decide)
  · exact absurd heq (by decide)
  · have hall : ∀ t ∈ all, ∀ s ∈ t.spelling?.toList, s.toList.getLast? = some ';' →
        t = .semicolon := by
      decide
    exact hall t (mem_all_of_spelling hs) s (by rw [hs]; exact List.mem_singleton.mpr rfl) hlast

/-- **A semicolon at the end of a text is its last word.** -/
theorem Spelled.of_concat_semicolon {ws : List Lexeme} {cs : List Char}
    (h : Spelled ws (cs ++ [';'])) :
    ∃ us w, ws = us ++ [w] ∧ w.kind = .semicolon ∧ Spelled us cs := by
  generalize htext : cs ++ [';'] = text at h
  induction h generalizing cs with
  | nil => simp at htext
  | @blank ws text _ ih =>
    cases cs with
    | nil => simp at htext
    | cons c cs =>
      simp only [List.cons_append, List.cons.injEq] at htext
      obtain ⟨us, w, hws, hw, hus⟩ := ih htext.2
      exact ⟨us, w, hws, hw, htext.1 ▸ .blank hus⟩
  | @word w ws text hspells hapart h ih =>
    rcases List.eq_nil_or_concat text with rfl | ⟨front, d, rfl⟩
    · have hws : ws = [] := List.eq_nil_of_length_eq_zero (Nat.le_zero.mp h.length_le)
      rw [List.append_nil] at htext
      have hkind := Terminal.eq_semicolon hspells (by simp [← htext])
      have hword : w.text = ";" := by
        have hspelling := Terminal.spelling_of_spells (by rw [hkind]; rfl) hspells
        rw [hkind] at hspelling
        exact (Option.some.inj hspelling).symm
      have hcs : cs = [] := by simpa [hword] using htext
      exact ⟨[], w, by rw [hws]; rfl, hkind, hcs ▸ .nil⟩
    · rw [List.concat_eq_append, ← List.append_assoc] at htext
      obtain ⟨rfl, hd⟩ := List.append_inj' htext rfl
      obtain rfl : ';' = d := by simpa using hd
      obtain ⟨us, v, hws, hv, hus⟩ := @ih front (by simp)
      refine ⟨w :: us, v, by rw [hws]; rfl, hv, .word hspells (hapart.of_prefix ?_) hus⟩
      simp

namespace Machine

variable {file : Option String} {entry : Entry}

/-- Behind a semicolon no other one is read. -/
theorem Feeds.kind_ne_semicolon {stack stack' : List Frame} {front back : List Token} {t u : Token}
    (h : Feeds file entry stack (front ++ t :: u :: back) stack') (ht : t.kind = .semicolon) :
    u.kind ≠ .semicolon := by
  induction front generalizing stack with
  | nil =>
    have hall : allStates (fun s => (step s (.term .semicolon)).all fun e =>
        (Table.action? e .semicolon).isNone) = true := by
      decide +kernel
    cases h with
    | cons _ _ hstep h =>
      cases h with
      | cons _ hreduces hstep' _ =>
        have haccepts := accepts_of_reduces hreduces hstep'
        rw [accepts, action?_eq] at haccepts
        rintro hu
        rw [ht] at hstep
        rw [hu] at haccepts
        have hnone := of_allStates hall (lt_of_step hstep)
        rw [hstep, Option.all_some, Option.isNone_iff_eq_none] at hnone
        have hsome := Option.isSome_iff_exists.mp haccepts
        exact absurd (hnone.symm.trans hsome.choose_spec) (by simp)
  | cons token front ih =>
    cases h with
    | cons _ _ _ h => exact ih h

/-- **A method is written without a semicolon at its end.** -/
theorem getLast?_trimRight_ne {m : Method} {ws : List Lexeme} {first : Terminal}
    (h : Again declared .method (words Entry.method.start) m ws first .endOfText) :
    (Text.trimRight m.render.toList).getLast? ≠ some ';' := by
  intro hlast
  have hspelled : Spelled ws (m.render.toList ++ [';']) := by
    have htext := h.spelled
    rwa [declared_text, Nonterminal.text, String.toList_append] at htext
  obtain ⟨us, w, rfl, hw, hus⟩ := hspelled.of_concat_semicolon
  obtain ⟨v, hv, hspells, hend⟩ := hus.trimRight.getLast hlast (by decide)
  obtain ⟨front, rfl⟩ := List.getLast?_eq_some_iff.mp hv
  -- The row would end with two semicolons, which no run takes.
  obtain ⟨_, hfeeds, -⟩ := goes_of_again .method none (by decide) h
    ((front ++ [v] ++ [w]).map fun u => ⟨u.kind, u.text, default⟩)
      (by rw [List.map_map]; exact List.map_id _)
  rw [List.map_append, List.map_append, List.append_assoc] at hfeeds
  exact hfeeds.kind_ne_semicolon (Terminal.eq_semicolon hspells hend) hw

end Machine

/-! ## Reading what has been written -/

namespace Machine

/-- A text that spells what can be read again is read, as what the whole may come back as. -/
theorem exists_parse_of_again (entry : Entry) {file : Option String} {text : List Char}
    {v : entry.phrase.Val} {ws : List Lexeme} {first : Terminal} (hentry : entry ≠ .declFile)
    (h : Again declared entry.phrase (words entry.start) v ws first .endOfText)
    (htext : (entry.phrase.text v).toList = text) :
    ∃ v', parse file entry text = .ok v' ∧ entry.phrase.BackAs v v' :=
  exists_parse (htext ▸ h.spelled) (goes_of_again entry file hentry h)

end Machine

/-- A type is read from its own text. -/
theorem Ty.parse_render {text : String} {ty : Ty} (h : Ty.parse text = .ok ty) :
    ∃ ty', Ty.parse ty.render = .ok ty' ∧ Ty.BackAs ty ty' := by
  obtain ⟨ws, first, hagain⟩ := (again_of_parse .type (by decide) h).2 trivial
  exact exists_parse_of_again .type (by decide) hagain rfl

/-- A method that can be read again is read from its own text. -/
theorem Method.exists_parse_of_again {m : Method} {ws : List Lexeme} {first : Terminal}
    (h : Again declared .method (words Entry.method.start) m ws first .endOfText) :
    ∃ m', Method.parse m.render = .ok m' ∧ Method.BackAs m m' := by
  refine Machine.exists_parse_of_again .method (by decide) h ?_
  rw [Method.completed, if_neg (getLast?_trimRight_ne h)]
  exact String.toList_append ..

/-- A method is read from its own text. -/
theorem Method.parse_render {text : String} {m : Method} (h : Method.parse text = .ok m) :
    ∃ m', Method.parse m.render = .ok m' ∧ Method.BackAs m m' := by
  obtain ⟨ws, first, hagain⟩ := (again_of_parse .method (by decide) h).2 trivial
  exact Method.exists_parse_of_again hagain

/-- Generics with parameters are read from their own text. -/
theorem Generics.parse_render {text : String} {g : Generics} (h : Generics.parse text = .ok g)
    (hparams : g.params ≠ []) : ∃ g', Generics.parse g.render = .ok g' ∧ Generics.BackAs g g' := by
  obtain ⟨ws, first, hagain⟩ := (again_of_parse .generics (by decide) h).2 hparams
  exact exists_parse_of_again .generics (by decide) hagain rfl

/-- A visibility that is written at all is not written in blanks. -/
theorem not_blank_render {vis : Visibility} (h : vis.render ≠ "") :
    vis.render.toList.all Text.isBlank = false := by
  have hp : Text.isBlank 'p' = false := by decide
  have hc : Text.isBlank 'c' = false := by decide
  rcases vis with _ | _ | _ | ⟨path, _ | _⟩ | _ <;> simp_all [Visibility.render]

/-- A visibility that can be read again is read from its own text. -/
theorem Visibility.exists_parse_of_again {vis : Visibility} {ws : List Lexeme} {first : Terminal}
    (hsound : vis.render ≠ "")
    (h : Again declared .visibility (words Entry.visibility.start) vis ws first .endOfText) :
    ∃ vis', Visibility.parse vis.render = .ok vis' ∧ Visibility.BackAs vis vis' := by
  obtain ⟨vis', hvis', hback⟩ := Machine.exists_parse_of_again .visibility (by decide) h rfl
  refine ⟨vis', Eq.trans (if_neg ?_) hvis', hback⟩
  exact Bool.not_eq_true _ ▸ not_blank_render hsound

/-- A visibility that has been read is the private one, or has been read by the machine. -/
theorem Visibility.inherited_or_parse {text : String} {vis : Visibility}
    (h : Visibility.parse text = .ok vis) :
    vis = .inherited ∨ Machine.parse none .visibility text.toList = .ok vis := by
  by_cases hblank : text.toList.all Text.isBlank = true
  · have hinherited : Visibility.parse text = .ok .inherited := if_pos hblank
    exact .inl (Except.ok.inj (h.symm.trans hinherited))
  · have hparse : Visibility.parse text = Machine.parse none .visibility text.toList :=
      if_neg hblank
    exact .inr (hparse.symm.trans h)

/-- A visibility is read from its own text. -/
theorem Visibility.parse_render {text : String} {vis : Visibility}
    (h : Visibility.parse text = .ok vis) :
    ∃ vis', Visibility.parse vis.render = .ok vis' ∧ Visibility.BackAs vis vis' := by
  rcases inherited_or_parse h with rfl | hparse
  · exact ⟨.inherited, rfl, rfl, rfl⟩
  · obtain ⟨hsound, hagain⟩ := again_of_parse .visibility (by decide) hparse
    obtain ⟨ws, first, hagain⟩ := hagain trivial
    exact exists_parse_of_again hsound hagain

/-- What is known of the value that has been read. -/
theorem exists_of_toOption {ε α β : Type} {e : Except ε α} {f : α → β} {b : β}
    (h : e.toOption.map f = some b) : ∃ a, e = .ok a ∧ f a = b := by
  cases e with
  | error e => exact nomatch h
  | ok a => exact ⟨a, rfl, Option.some.inj h⟩

/-- **Reading undoes writing** on everything that has been read: types, methods, generics with
parameters and visibilities come back from their own text, alike but for spans and for what is empty
in them, and they are then written the same. -/
theorem parse_of_render :
    (∀ (text : String) (ty : Ty), Ty.parse text = .ok ty → ∃ ty', Ty.parse ty.render = .ok ty' ∧
      ty'.alike ty.plain = true ∧ ty'.render = ty.render) ∧
    (∀ (text : String) (m : Method), Method.parse text = .ok m →
      ∃ m', Method.parse m.render = .ok m' ∧
      m'.alike m.plain = true ∧ m'.render = m.render) ∧
    (∀ (text : String) (g : Generics), Generics.parse text = .ok g → g.params ≠ [] →
      ∃ g', Generics.parse g.render = .ok g' ∧ g'.alike g.plain = true ∧ g'.render = g.render) ∧
    (∀ (text : String) (vis : Visibility), Visibility.parse text = .ok vis →
      ∃ vis', Visibility.parse vis.render = .ok vis' ∧ vis'.alike vis.plain = true ∧
        vis'.render = vis.render) := by
  refine ⟨fun _ _ h => Ty.parse_render h, fun _ _ h => Method.parse_render h,
    fun _ g h hparams => ?_, fun _ _ h => Visibility.parse_render h⟩
  obtain ⟨g', hg', hback⟩ := Generics.parse_render h hparams
  exact ⟨g', hg', hback.back⟩

/-- What is empty in a type, a method, generics and a visibility is gone when they are read back. -/
theorem parse_of_render_empty :
    (∃ ty ty', Ty.parse "Vec<>" = .ok ty ∧ ty.render = "Vec" ∧ Ty.parse "Vec" = .ok ty' ∧
      ty'.alike ty.plain = true ∧ ty'.render = "Vec") ∧
    (∃ m m', Method.parse "fn f<>(self,) where" = .ok m ∧ m.render = "fn f(self)" ∧
      Method.parse "fn f(self)" = .ok m' ∧ m'.alike m.plain = true ∧ m'.render = "fn f(self)") ∧
    (∃ g g', Generics.parse "<T:,>" = .ok g ∧ g.params ≠ [] ∧ g.render = "<T>" ∧
      Generics.parse "<T>" = .ok g' ∧ g'.alike g.plain = true ∧ g'.render = "<T>") ∧
    ∃ vis vis', Visibility.parse "pub (in a<>)" = .ok vis ∧ vis.render = "pub(in a)" ∧
      Visibility.parse "pub(in a)" = .ok vis' ∧ vis'.alike vis.plain = true ∧
        vis'.render = "pub(in a)" := by
  refine ⟨?_, ?_, ?_, ?_⟩
  · obtain ⟨ty, hty, hrender⟩ := exists_of_toOption (e := Ty.parse "Vec<>") (f := Ty.render)
      (b := "Vec") (by decide +kernel)
    obtain ⟨ty', hty', halike, hsame⟩ := parse_of_render.1 _ ty hty
    rw [hrender] at hty' hsame
    exact ⟨ty, ty', hty, hrender, hty', halike, hsame⟩
  · obtain ⟨m, hm, hrender⟩ := exists_of_toOption (e := Method.parse "fn f<>(self,) where")
      (f := Method.render) (b := "fn f(self)") (by decide +kernel)
    obtain ⟨m', hm', halike, hsame⟩ := parse_of_render.2.1 _ m hm
    rw [hrender] at hm' hsame
    exact ⟨m, m', hm, hrender, hm', halike, hsame⟩
  · obtain ⟨g, hg, hshape⟩ := exists_of_toOption (e := Generics.parse "<T:,>")
      (f := fun g => (g.render, g.params.isEmpty)) (b := ("<T>", false)) (by decide +kernel)
    obtain ⟨hrender, hempty⟩ := Prod.mk.inj hshape
    have hne : g.params ≠ [] := by simpa using hempty
    obtain ⟨g', hg', halike, hsame⟩ := parse_of_render.2.2.1 _ g hg hne
    rw [hrender] at hg' hsame
    exact ⟨g, g', hg, hne, hrender, hg', halike, hsame⟩
  · obtain ⟨vis, hvis, hrender⟩ := exists_of_toOption (e := Visibility.parse "pub (in a<>)")
      (f := Visibility.render) (b := "pub(in a)") (by decide +kernel)
    obtain ⟨vis', hvis', halike, hsame⟩ := parse_of_render.2.2.2 _ vis hvis
    rw [hrender] at hvis' hsame
    exact ⟨vis, vis', hvis, hrender, hvis', halike, hsame⟩

end TraitMock
