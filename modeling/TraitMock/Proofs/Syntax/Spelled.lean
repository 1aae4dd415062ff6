import TraitMock.Proofs.Syntax.Lexeme

/-!
# Proofs/Syntax/Spelled — texts that spell a row of lexemes

`Spelled ws cs` says that the text `cs` is the words of `ws` in order, with blanks where two words
would otherwise run into one another.  The lexer reads such a text back, one lexeme at a time
(`Lexer.next_of_spelled`), and texts put together spell their rows put together (`Spelled.append`).
-/

namespace TraitMock

/-! ## Texts that spell a row of lexemes -/

/-- **A text spells a row of lexemes**: their words in order, with blanks between them where two
words would otherwise run into one another. -/
inductive Spelled : List Lexeme → List Char → Prop
  | nil : Spelled [] []
  | blank {ws : List Lexeme} {cs : List Char} : Spelled ws cs → Spelled ws (' ' :: cs)
  | word {w : Lexeme} {ws : List Lexeme} {cs : List Char} :
    w.kind.Spells w.text → w.kind.Apart cs → Spelled ws cs → Spelled (w :: ws) (w.text.toList ++ cs)

/-- **The next token** is the lexeme at the front, if it stands rightly and is accepted. -/
theorem Lexer.next_of_fits {accepts : Terminal → Bool} {w : Lexeme} {cs : List Char} {pos : Pos}
    (hfits : w.Fits accepts) (haccepts : accepts w.kind = true)
    (hargs : accepts .macroArgs = true → w.kind = .macroArgs) (hapart : w.kind.Apart cs) :
    Lexer.next accepts pos (w.text.toList ++ cs) =
      .ok (some (tokenAt pos w.kind w.text.toList, cs)) := by
  obtain ⟨c, word, hc⟩ := List.exists_cons_of_ne_nil (Terminal.scan_sound hfits.spells).2.1
  have hscan : w.kind.scan (c :: word) = some (w.text.toList, []) := by
    rw [← hc]
    exact hfits.spells
  obtain ⟨hblank, hslash, -⟩ := not_blank_of_scan hscan
  have hlexeme := lexeme_of_fits hfits haccepts hargs hapart
  rw [hc, List.cons_append] at hlexeme ⊢
  simp [next, skip, hblank, hslash, hlexeme]

/-- **The lexer reads back what a text spells**: one and the same token wherever its lexeme stands
rightly and is accepted. -/
theorem Lexer.next_of_spelled {w : Lexeme} : ∀ {ws : List Lexeme} {cs : List Char},
    Spelled (w :: ws) cs → ∀ pos : Pos, ∃ token rest, token.lexeme = w ∧ Spelled ws rest ∧
      ∀ {accepts : Terminal → Bool}, w.Fits accepts → accepts w.kind = true →
        (accepts .macroArgs = true → w.kind = .macroArgs) →
          Lexer.next accepts pos cs = .ok (some (token, rest))
  | ws, _, @Spelled.blank _ cs h, pos => by
    obtain ⟨token, rest, hw, hrest, hnext⟩ := next_of_spelled h (pos.next ' ')
    refine ⟨token, rest, hw, hrest, fun hfits haccepts hargs => ?_⟩
    have hskipped := hnext hfits haccepts hargs
    rw [next] at hskipped ⊢
    exact hskipped
  | ws, _, @Spelled.word _ _ cs hspells hapart h, pos =>
    ⟨tokenAt pos w.kind w.text.toList, cs, by simp [tokenAt, Token.lexeme], h,
      fun hfits haccepts hargs => next_of_fits hfits haccepts hargs hapart⟩

/-! ## How a text that spells something ends -/

namespace Terminal

theorem getLast_of_scanGroup {cs word rest : List Char} {depth : Nat}
    (h : scanGroup depth cs = some (word, rest)) : word.getLast? = some ')' := by
  induction cs generalizing word rest depth with
  | nil => simp [scanGroup] at h
  | cons c cs ih =>
    have hrec : ∀ d : Nat, (scanGroup d cs).map (fun found => (c :: found.1, found.2)) =
        some (word, rest) → word.getLast? = some ')' := by
      intro d hd
      obtain ⟨⟨body, rest⟩, hbody, heq⟩ := Option.map_eq_some_iff.mp hd
      obtain ⟨rfl, rfl⟩ := Prod.mk.inj heq
      rw [List.getLast?_cons, ih hbody, Option.getD_some]
    simp only [scanGroup] at h
    split at h
    · split at h
      · exact hrec _ h
      · simp at h
    · split at h
      · simp at h
      · split at h
        · next hclose =>
          split at h
          · simp only [Option.some.injEq, Prod.mk.injEq] at h
            rw [← h.1, hclose]
            rfl
          · exact hrec _ h
        · exact hrec _ h

theorem isNameChar_of_scanName {word : List Char} (h : scanName word = some (word, [])) :
    ∀ c ∈ word, isNameChar c = true := by
  cases word with
  | nil => simp
  | cons d word =>
    simp only [scanName] at h
    split at h
    · next hd =>
      simp only [Option.some.injEq, Prod.mk.injEq, List.cons.injEq, true_and] at h
      intro c hc
      rcases List.mem_cons.mp hc with rfl | hc
      · simp [isNameChar, hd]
      · exact List.takeWhile_eq_self_iff.mp h.1 c hc
    · simp at h

/-- **What the words of a terminal end with.** -/
theorem getLast_of_spells {t : Terminal} {word : String} {c : Char} (h : t.Spells word)
    (hc : word.toList.getLast? = some c) :
    (t.endsOpen = true ∧ isNameChar c = true) ∨
      (t.endsOpen = false ∧ (t = .macroArgs ∧ c = ')' ∨
        ∃ s, t.spelling? = some s ∧ s.toList.getLast? = some c)) := by
  have hmem : c ∈ word.toList := List.mem_of_getLast? hc
  rcases open_or_spelling t with rfl | rfl | rfl | rfl | rfl | ⟨s, hs, -⟩
  · have hlast := getLast_of_scanGroup h
    exact .inr ⟨rfl, .inl ⟨rfl, Option.some.inj (hc.symm.trans hlast)⟩⟩
  · refine .inl ⟨rfl, ?_⟩
    obtain ⟨d, name, hd⟩ := List.exists_cons_of_ne_nil (scan_sound h).2.1
    rw [Spells, hd] at h
    rw [hd] at hc
    simp only [scan, scanLifetime] at h
    split at h
    · obtain ⟨⟨found, rest⟩, hname, heq⟩ := Option.map_eq_some_iff.mp h
      simp only [Prod.mk.injEq, List.cons.injEq, true_and] at heq
      obtain ⟨rfl, rfl⟩ := heq
      obtain ⟨-, hne, -⟩ := scanName_sound hname
      rw [List.getLast?_cons_of_ne_nil hne] at hc
      exact isNameChar_of_scanName hname c (List.mem_of_getLast? hc)
    · simp at h
  · exact .inl ⟨rfl, isNameChar_of_scanName h c hmem⟩
  · refine .inl ⟨rfl, ?_⟩
    obtain ⟨hall, -, -⟩ := scanWhile_eq_some_iff.mp h
    simp [isNameChar, List.takeWhile_eq_self_iff.mp hall c hmem]
  · simp [Spells, scan, spelling?] at h
  · have hall : ∀ t ∈ all, ∀ s ∈ t.spelling?.toList, s.toList.getLast?.all fun c =>
        decide (t.endsOpen = true → isNameChar c = true) := by
      decide
    have hword := spelling_of_spells (by rw [hs]; rfl) h
    cases hopen : t.endsOpen with
    | true =>
      have hlast := hall t (mem_all_of_spelling hs) word (by simp [hword])
      rw [hc] at hlast
      exact .inl ⟨rfl, of_decide_eq_true hlast hopen⟩
    | false => exact .inr ⟨rfl, .inr ⟨word, hword, hc⟩⟩

end Terminal

namespace Spelled

open Terminal

/-- The words of a text are no longer than the text. -/
theorem length_le {ws : List Lexeme} {cs : List Char} (h : Spelled ws cs) :
    ws.length ≤ cs.length := by
  induction h with
  | nil => simp
  | blank _ ih => simp only [List.length_cons]; omega
  | word hspells _ _ ih =>
    have hpos := List.length_pos_iff.mpr (scan_sound hspells).2.1
    simp only [List.length_cons, List.length_append]
    omega

/-- **A text ends with its last word**, unless it ends with a blank. -/
theorem getLast {ws : List Lexeme} {cs : List Char} (h : Spelled ws cs) {c : Char}
    (hc : cs.getLast? = some c) (hblank : c ≠ ' ') :
    ∃ w, ws.getLast? = some w ∧ w.kind.Spells w.text ∧ w.text.toList.getLast? = some c := by
  induction h with
  | nil => simp at hc
  | @blank ws cs _ ih =>
    cases cs with
    | nil => simp [Ne.symm hblank] at hc
    | cons d cs => exact ih (by rwa [List.getLast?_cons_cons] at hc)
  | @word w ws cs hspells _ h ih =>
    rcases List.eq_nil_or_concat cs with rfl | ⟨front, d, rfl⟩
    · have hws : ws = [] := List.eq_nil_of_length_eq_zero (Nat.le_zero.mp h.length_le)
      exact ⟨w, by rw [hws]; rfl, hspells, by simpa using hc⟩
    · obtain ⟨v, hv, hlast⟩ := ih (by simpa using hc)
      exact ⟨v, by simp [List.getLast?_cons, hv], hlast⟩

/-! ### Putting texts together -/

/-- **Two texts can stand one right behind the other**: neither a name nor a colon at the end of the
first runs into the second. -/
def Meets (cs ds : List Char) : Prop :=
  ∀ a ∈ cs.getLast?, ∀ b ∈ ds.head?,
    ¬(isNameChar a = true ∧ isNameChar b = true) ∧ ¬(a = ':' ∧ b = ':')

/-- **Texts put together spell their rows put together.** -/
theorem append {ws vs : List Lexeme} {cs ds : List Char} (h : Spelled ws cs) (h' : Spelled vs ds)
    (hmeets : Meets cs ds) : Spelled (ws ++ vs) (cs ++ ds) := by
  induction h with
  | nil => exact h'
  | @blank ws cs _ ih =>
    refine .blank (ih fun a ha => ?_)
    cases cs with
    | nil => simp at ha
    | cons d cs => exact hmeets a (by rwa [List.getLast?_cons_cons])
  | @word w ws cs hspells hapart h ih =>
    rw [List.cons_append, List.append_assoc]
    rcases List.eq_nil_or_concat cs with rfl | ⟨front, d, rfl⟩
    · refine .word hspells ⟨fun hopen c hc => ?_, fun hcolon hc => ?_⟩
        (ih fun a ha => absurd ha (by simp))
      · obtain ⟨front, d, hd⟩ :=
          (List.eq_nil_or_concat w.text.toList).resolve_left (scan_sound hspells).2.1
        have hlast : w.text.toList.getLast? = some d := by simp [hd]
        have hd : isNameChar d = true := by
          rcases getLast_of_spells hspells hlast with ⟨-, h⟩ | ⟨h, -⟩
          · exact h
          · exact absurd hopen (by simp [h])
        have hnot := (hmeets d (by simp [hlast]) c hc).1
        simpa [hd] using hnot
      · have hword : w.text = ":" := by
          have hspelling := spelling_of_spells (by rw [hcolon]; rfl) hspells
          rw [hcolon] at hspelling
          exact (Option.some.inj hspelling).symm
        exact (hmeets ':' (by simp [hword]) ':' (by simpa using hc)).2 ⟨rfl, rfl⟩
    · refine .word hspells ⟨fun hopen c hc => hapart.1 hopen c ?_,
        fun hcolon hc => hapart.2 hcolon ?_⟩ (ih fun a ha => hmeets a (by simpa using ha))
      · cases front <;> simpa using hc
      · cases front <;> simpa using hc

/-- Nothing runs into a text that begins with a mark other than a colon. -/
theorem meets_of_head {cs ds : List Char} {b : Char} (hb : ds.head? = some b)
    (hname : isNameChar b = false) (hcolon : b ≠ ':') : Meets cs ds := by
  intro a _ b' hb'
  obtain rfl : b = b' := Option.some.inj (hb.symm.trans hb')
  exact ⟨fun h => absurd h.2 (by simp [hname]), fun h => hcolon h.2⟩

/-! ### Blanks at the end -/

theorem trimRight_append (cs ds : List Char) : Text.trimRight (cs ++ ds) =
    if Text.trimRight ds = [] then Text.trimRight cs else cs ++ Text.trimRight ds := by
  simp only [Text.trimRight, List.reverse_append, List.dropWhile_append, List.reverse_eq_nil_iff,
    List.isEmpty_iff]
  split <;> simp

/-- No word ends with a blank. -/
theorem trimRight_of_spells {t : Terminal} {word : String} (h : t.Spells word) :
    Text.trimRight word.toList = word.toList := by
  obtain ⟨front, d, hd⟩ := (List.eq_nil_or_concat word.toList).resolve_left (scan_sound h).2.1
  have hlast : word.toList.getLast? = some d := by simp [hd]
  have hblank : Text.isBlank d = false := by
    rcases getLast_of_spells h hlast with ⟨-, hname⟩ | ⟨-, ⟨-, rfl⟩ | ⟨s, hs, hlast⟩⟩
    · exact (Lexer.not_blank_of_isNameChar hname).2.2
    · decide
    · have hall : ∀ t ∈ all, ∀ s ∈ t.spelling?.toList, s.toList.getLast?.all fun c =>
          decide (Text.isBlank c = false) := by
        decide
      have hd := hall t (mem_all_of_spelling hs) s (by simp [hs])
      rw [hlast] at hd
      exact of_decide_eq_true hd
  simp [Text.trimRight, hd, hblank]

/-- A text without the blanks at its end spells the same. -/
theorem trimRight {ws : List Lexeme} {cs : List Char} (h : Spelled ws cs) :
    Spelled ws (Text.trimRight cs) := by
  induction h with
  | nil => exact .nil
  | @blank ws cs _ ih =>
    rw [← List.singleton_append, trimRight_append]
    split
    · next hnil => rwa [hnil] at ih
    · exact .blank ih
  | @word w ws cs hspells hapart h ih =>
    have hfront : Text.trimRight cs <+: cs := by
      rw [← List.reverse_suffix, Text.trimRight, List.reverse_reverse]
      exact List.dropWhile_suffix _
    have hword := Spelled.word hspells (hapart.of_prefix hfront) ih
    rw [trimRight_append, trimRight_of_spells hspells]
    split
    · next hnil => rwa [hnil, List.append_nil] at hword
    · exact hword

end Spelled

end TraitMock
