import TraitMock.Proofs.Syntax.Spelled

/-!
# Proofs/Syntax/Spread — a text with more layout between its tokens

`Spread words cs cs'` says that `cs'` is the text `cs`, made of the words `words`, with blanks and
comments put in anywhere between the words, in front of them or behind them.  The lexer finds the
same token at the front of both, and what is behind it is spread in the same way
(`Spread.exists_next`).

A word may have been matched right in front of the next one, so it is not enough that it stands
apart from what now follows; it is enough that it was matched there, and that a blank or a slash
makes no word longer (`Lexer.lexeme_again`).
-/

namespace TraitMock

/-! ## Layout -/

/-- **A piece of layout**: one blank, or one comment with the end of its line. -/
inductive Filler : List Char → Prop
  | blank {c : Char} : Lexer.isBlank c = true → Filler [c]
  | comment {body : List Char} : '\n' ∉ body → Filler ('/' :: '/' :: body ++ ['\n'])

/-- **Layout**: pieces one behind the other. -/
inductive Filling : List Char → Prop
  | nil : Filling []
  | cons {piece cs : List Char} : Filler piece → Filling cs → Filling (piece ++ cs)

/-- **A text made of words, and the same text with more layout.**  Pieces of layout stay where they
are, and others are put in between the words and these pieces; behind a comment that ends with the
text they become part of it, up to the end of a line. -/
inductive Spread : List String → List Char → List Char → Prop
  | nil : Spread [] [] []
  | word {words : List String} {cs cs' : List Char} (word : String) : Spread words cs cs' →
    Spread (word :: words) (word.toList ++ cs) (word.toList ++ cs')
  | keep {words : List String} {piece cs cs' : List Char} : Filler piece → Spread words cs cs' →
    Spread words (piece ++ cs) (piece ++ cs')
  | insert {words : List String} {piece cs cs' : List Char} : Filler piece → Spread words cs cs' →
    Spread words cs (piece ++ cs')
  | lastComment {body filling : List Char} : '\n' ∉ body → Filling filling →
    Spread [] ('/' :: '/' :: body) ('/' :: '/' :: body ++ filling)

namespace Lexer

open Terminal

/-- The rest of a comment, up to the end of its line. -/
theorem skip_comment : ∀ {body : List Char}, '\n' ∉ body → ∀ (pos : Pos) (cs : List Char),
    skip true pos (body ++ '\n' :: cs) = skip false (pos.after (body ++ ['\n'])) cs
  | [], _, _, _ => rfl
  | c :: body, h, pos, cs => by
    have hgoes : (c != '\n') = true := bne_iff_ne.mpr (List.ne_of_not_mem_cons h).symm
    rw [List.cons_append, skip, hgoes, skip_comment (List.not_mem_of_not_mem_cons h)]
    rfl

/-- **A piece of layout is skipped.** -/
theorem skip_filler {piece : List Char} (h : Filler piece) (pos : Pos) (cs : List Char) :
    skip false pos (piece ++ cs) = skip false (pos.after piece) cs := by
  cases h with
  | blank hc =>
    rw [List.singleton_append, skip, if_pos hc]
    rfl
  | @comment body hbody =>
    have hslashes : ∀ rest : List Char, skip false pos ('/' :: '/' :: rest) =
        skip true ((pos.next '/').next '/') rest := fun _ => rfl
    rw [List.append_assoc, List.cons_append, List.cons_append, hslashes, List.singleton_append,
      skip_comment hbody]
    rfl

/-- Layout is skipped to its end, also where it is the rest of a comment. -/
theorem skip_filling {filling : List Char} (h : Filling filling) :
    ∀ (inComment : Bool) (pos : Pos), (skip inComment pos filling).2 = [] := by
  induction h with
  | nil => intro inComment pos; cases inComment <;> rfl
  | @cons piece cs hpiece _ ih =>
    intro inComment pos
    cases inComment with
    | false => rw [skip_filler hpiece, ih]
    | true =>
      cases hpiece with
      | blank _ => exact ih _ _
      | @comment body hbody =>
        have hmem : '\n' ∉ '/' :: '/' :: body := by simpa using hbody
        rw [List.append_assoc, List.singleton_append, skip_comment hmem, ih]

/-- A comment that ends with the text, and layout behind it. -/
theorem skip_lastComment {filling : List Char} (hfilling : Filling filling) : ∀ {body : List Char},
    '\n' ∉ body → ∀ pos : Pos, (skip true pos (body ++ filling)).2 = []
  | [], _, pos => skip_filling hfilling true pos
  | c :: body, h, pos => by
    have hgoes : (c != '\n') = true := bne_iff_ne.mpr (List.ne_of_not_mem_cons h).symm
    rw [List.cons_append, skip, hgoes]
    exact skip_lastComment hfilling (List.not_mem_of_not_mem_cons h) (pos.next c)

/-- In front of a word nothing is skipped. -/
theorem skip_word {t : Terminal} {word : List Char} (h : t.scan word = some (word, [])) (pos : Pos)
    (rest : List Char) : skip false pos (word ++ rest) = (pos, word ++ rest) := by
  obtain ⟨c, tail, rfl⟩ := List.exists_cons_of_ne_nil (scan_sound h).2.1
  obtain ⟨hblank, hslash, -⟩ := not_blank_of_scan h
  rw [List.cons_append, skip, if_neg (by simp [hblank]), if_neg (by simp [hslash])]

theorem next_filler {accepts : Terminal → Bool} {piece : List Char} (h : Filler piece) (pos : Pos)
    (cs : List Char) : next accepts pos (piece ++ cs) = next accepts (pos.after piece) cs := by
  rw [next, next, skip_filler h]

/-- **The text ends** where nothing but layout is left. -/
theorem next_eq_none_iff {accepts : Terminal → Bool} {pos : Pos} {cs : List Char} :
    next accepts pos cs = .ok none ↔ (skip false pos cs).2 = [] := by
  rw [next]
  split
  · next heq => simp [heq]
  · next pos c cs heq =>
    rw [heq]
    split
    · simp
    · split <;> simp

/-- **The token in front** of a text, if a lexeme stands there. -/
theorem next_of_lexeme {accepts : Terminal → Bool} {kind : Terminal} {cs word rest : List Char}
    (h : lexeme accepts cs = some (kind, word, rest)) (pos : Pos) :
    next accepts pos cs = .ok (some (tokenAt pos kind word, rest)) := by
  obtain ⟨rfl, hfits⟩ := fits_of_lexeme h
  have hspells := hfits.spells
  rw [Spells, String.toList_ofList] at hspells
  have hskip := skip_word hspells pos rest
  obtain ⟨c, tail, rfl⟩ := List.exists_cons_of_ne_nil (scan_sound hspells).2.1
  rw [List.cons_append] at h hskip ⊢
  rw [next, hskip]
  simp only [h]

/-- A token is the lexeme behind the layout. -/
theorem exists_lexeme_of_next {accepts : Terminal → Bool} {pos : Pos} {cs rest : List Char}
    {token : Token} (h : next accepts pos cs = .ok (some (token, rest))) :
    ∃ pos', skip false pos cs = (pos', token.text.toList ++ rest) ∧
      lexeme accepts (token.text.toList ++ rest) = some (token.kind, token.text.toList, rest) := by
  rw [next] at h
  split at h
  · simp at h
  · next pos' c tail hskip =>
    split at h
    · next kind word rest' hlexeme =>
      simp only [Except.ok.injEq, Option.some.injEq, Prod.mk.injEq] at h
      obtain ⟨rfl, rfl⟩ := h
      have hcs := (fits_of_lexeme hlexeme).1
      have hword : (tokenAt pos' kind word).text.toList = word := String.toList_ofList
      refine ⟨pos', ?_, ?_⟩
      · rw [hskip, hword, hcs]
      · rw [hword, ← hcs]
        exact hlexeme
    · split at h <;> simp at h

/-! ## A lexeme before another rest -/

/-- **The second text begins as the first**, or with a blank or a slash. -/
def GoesOn (cs cs' : List Char) : Prop :=
  cs'.head? = cs.head? ∨ ∃ c, cs'.head? = some c ∧ (isBlank c = true ∨ c = '/')

/-- What does not begin with a character of names or with a colon does not begin so either if it
goes on in the same way, or with layout. -/
theorem GoesOn.head {cs cs' : List Char} (h : GoesOn cs cs') {p : Char → Bool}
    (hp : ∀ c, isBlank c = true ∨ c = '/' → p c = false) (hcs : ∀ c ∈ cs.head?, p c = false) :
    ∀ c ∈ cs'.head?, p c = false := by
  intro c hc
  rcases h with hsame | ⟨d, hd, hlayout⟩
  · exact hcs c (by rwa [← hsame])
  · obtain rfl : d = c := Option.some.inj (hd.symm.trans hc)
    exact hp d hlayout

theorem isNameChar_of_layout {c : Char} (h : isBlank c = true ∨ c = '/') :
    isNameChar c = false := by
  by_contra hname
  obtain ⟨hblank, hslash, -⟩ := not_blank_of_isNameChar (by simpa using hname)
  rcases h with h | h
  · rw [hblank] at h
    cases h
  · exact hslash h

theorem isDigit_of_layout {c : Char} (h : isBlank c = true ∨ c = '/') : c.isDigit = false := by
  have hname := isNameChar_of_layout h
  simp only [isNameChar, Bool.or_eq_false_iff] at hname
  exact hname.2

/-- What is left behind the longest front of characters of a class begins with none of them. -/
theorem head?_dropWhile {p : Char → Bool} (cs : List Char) :
    ∀ c ∈ (cs.dropWhile p).head?, p c = false := by
  intro c hc
  have hnot := List.head?_dropWhile_not p cs
  rw [Option.mem_def.mp hc] at hnot
  simpa using hnot

theorem head?_of_scanName {cs word rest : List Char} (h : scanName cs = some (word, rest)) :
    ∀ c ∈ rest.head?, isNameChar c = false := by
  cases cs with
  | nil => simp [scanName] at h
  | cons c cs =>
    simp only [scanName] at h
    split at h
    · simp only [Option.some.injEq, Prod.mk.injEq] at h
      rw [← h.2]
      exact head?_dropWhile cs
    · cases h

/-- **What a terminal matched, it matches again** before a text that goes on in the same way, or
with layout. -/
theorem scan_again {t : Terminal} {word rest rest' : List Char} (hgoes : GoesOn rest rest')
    (h : t.scan (word ++ rest) = some (word, rest)) :
    t.scan (word ++ rest') = some (word, rest') := by
  obtain ⟨-, hne, hword⟩ := scan_sound h
  rcases open_or_spelling t with rfl | rfl | rfl | rfl | rfl | ⟨s, hs, -⟩
  · exact (scanGroup_sound h).2 rest'
  · obtain ⟨c, name, rfl⟩ := List.exists_cons_of_ne_nil hne
    simp only [List.cons_append, scan, scanLifetime] at h hword ⊢
    split at h
    · next hc =>
      obtain ⟨⟨found, behind⟩, hfound, heq⟩ := Option.map_eq_some_iff.mp h
      simp only [Prod.mk.injEq, List.cons.injEq, true_and] at heq
      obtain ⟨rfl, rfl⟩ := heq
      have hhead := hgoes.head (fun c => isNameChar_of_layout) (head?_of_scanName hfound)
      rw [if_pos hc, scanName_append (scanName_sound hfound).2.2 hhead]
      rfl
    · cases h
  · exact scanName_append hword (hgoes.head (fun c => isNameChar_of_layout) (head?_of_scanName h))
  · obtain ⟨-, hdrop, -⟩ := scanWhile_eq_some_iff.mp h
    refine scanWhile_append hword (hgoes.head (fun c => isDigit_of_layout) ?_)
    rw [← hdrop]
    exact head?_dropWhile _
  · simp [scan, spelling?] at h
  · rw [scan_of_spelling hs, scanSpelling_eq_some_iff] at h ⊢
    exact ⟨h.1, by rw [← h.1]⟩

/-- Which terminal was matched where a lexeme was found. -/
theorem exists_scan_of_lexeme {accepts : Terminal → Bool} {kind : Terminal}
    {cs word rest : List Char} (h : lexeme accepts cs = some (kind, word, rest)) :
    ∃ t, accepts t = true ∧ ¬(accepts .name = true ∧ t.isWord = true) ∧
      t.scan cs = some (word, rest) ∧ (if t = .name then nameKind accepts word else t) = kind := by
  obtain ⟨t, -, ht⟩ := List.exists_of_findSome?_eq_some h
  simp only [scanIn] at ht
  split at ht
  · cases ht
  · next htried =>
    simp only [Bool.or_eq_true, Bool.not_eq_true', Bool.and_eq_true, not_or,
      Bool.not_eq_false] at htried
    obtain ⟨x, hscan, heq⟩ := Option.map_eq_some_iff.mp ht
    simp only [Prod.mk.injEq] at heq
    obtain ⟨hkind, hword, hrest⟩ := heq
    exact ⟨t, htried.1, htried.2, by rw [hscan, ← hword, ← hrest], by rw [← hword]; exact hkind⟩

/-- What is found is accepted. -/
theorem accepts_of_lexeme {accepts : Terminal → Bool} {kind : Terminal} {cs word rest : List Char}
    (h : lexeme accepts cs = some (kind, word, rest)) : accepts kind = true := by
  obtain ⟨t, haccepts, -, -, rfl⟩ := exists_scan_of_lexeme h
  split
  · next hname =>
    rcases nameKind_cases accepts word with ⟨-, hkeyword, -⟩ | ⟨hkind, -⟩
    · exact hkeyword
    · rwa [hkind, ← hname]
  · exact haccepts

/-- Where a colon is read as one and `::` is accepted too, no second colon follows. -/
theorem head?_of_colon {accepts : Terminal → Bool} {rest : List Char}
    (hargs : accepts .macroArgs = false) (hsep : accepts .pathSep = true)
    (h : lexeme accepts (':' :: rest) = some (.colon, [':'], rest)) : rest.head? ≠ some ':' := by
  intro hhead
  obtain ⟨rest, rfl⟩ := List.head?_eq_some_iff.mp hhead
  have hfits : Lexeme.Fits accepts ⟨.pathSep, "::"⟩ := ⟨by decide, nofun⟩
  have hboth : lexeme accepts ("::".toList ++ rest) = some (.pathSep, "::".toList, rest) :=
    lexeme_of_other hfits hsep (by simp [hargs])
      ((scan_of_spelling rfl _).trans (scanSpelling_eq_some_iff.mpr ⟨rfl, rfl⟩)) nofun
      fun hother => absurd hother.2 (by decide)
  cases h.symm.trans hboth

/-- Nor does one follow where the text goes on in the same way, or with layout. -/
theorem head?_again_of_colon {accepts : Terminal → Bool} {rest rest' : List Char}
    (hgoes : GoesOn rest rest') (hargs : accepts .macroArgs = false)
    (hsep : accepts .pathSep = true)
    (h : lexeme accepts (':' :: rest) = some (.colon, [':'], rest)) : rest'.head? ≠ some ':' := by
  intro hhead
  have hcolon := hgoes.head (p := (· == ':'))
    (fun c hlayout => by
      by_contra hc
      obtain rfl : c = ':' := by simpa using hc
      exact absurd hlayout (by decide))
    (fun c hc => by
      by_contra hcolon
      obtain rfl : c = ':' := by simpa using hcolon
      exact head?_of_colon hargs hsep h hc)
  exact absurd (hcolon ':' hhead) (by decide)

/-- **A lexeme is found again** before a text that goes on in the same way, or with layout. -/
theorem lexeme_again {accepts : Terminal → Bool} {kind : Terminal} {word rest rest' : List Char}
    (hgoes : GoesOn rest rest') (hargs : accepts .macroArgs = true → kind = .macroArgs)
    (h : lexeme accepts (word ++ rest) = some (kind, word, rest)) :
    lexeme accepts (word ++ rest') = some (kind, word, rest') := by
  obtain ⟨t, haccepts, htried, hscan, hkind⟩ := exists_scan_of_lexeme h
  have hfits := (fits_of_lexeme h).2
  have hscan' : t.scan ((String.ofList word).toList ++ rest') =
      some ((String.ofList word).toList, rest') := by
    rw [String.toList_ofList]
    exact scan_again hgoes hscan
  by_cases hword : accepts .name = true ∧ kind.isWord = true
  · -- A keyword among names was matched as a name, and so it is again.
    obtain rfl : t = .name := by
      by_contra hname
      rw [if_neg hname] at hkind
      exact htried (hkind ▸ hword)
    have hnoargs := not_accepts_macroArgs hargs hword.2
    have hagain :=
      lexeme_of_keyword hword.1 hword.2 hfits.spells (accepts_of_lexeme h) hnoargs hscan'
    rwa [String.toList_ofList] at hagain
  · obtain rfl : t = kind := by
      by_cases hname : t = .name
      · rw [if_pos hname] at hkind
        rcases nameKind_cases accepts word with ⟨hisWord, -, -⟩ | ⟨hk, -⟩
        · rw [hkind] at hisWord
          exact absurd ⟨hname ▸ haccepts, hisWord⟩ hword
        · rw [hname, ← hk, hkind]
      · rwa [if_neg hname] at hkind
    have hcolons : t = .colon → accepts .pathSep = true → rest'.head? ≠ some ':' := by
      rintro rfl hsep
      obtain ⟨rfl, -⟩ := scanSpelling_eq_some_iff.mp ((scan_of_spelling rfl _).symm.trans hscan)
      have hnoargs : accepts .macroArgs = false := Bool.eq_false_iff.mpr fun h => nomatch hargs h
      exact head?_again_of_colon hgoes hnoargs hsep h
    have hagain := lexeme_of_other hfits haccepts hargs hscan' hcolons hword
    rwa [String.toList_ofList] at hagain

end Lexer

/-! ## The words of a spread text -/

namespace Spread

open Lexer

variable {accepts : Terminal → Bool} {cs cs' rest : List Char} {pos : Pos} {token : Token}
  {words : List String}

/-- **A spread text begins as the text**, or with layout. -/
theorem goesOn (h : Spread words cs cs') : GoesOn cs cs' := by
  induction h with
  | nil => exact .inl rfl
  | @word _ _ _ word _ ih =>
    cases hword : word.toList with
    | nil => exact ih
    | cons c word => exact .inl rfl
  | keep hpiece _ _ =>
    cases hpiece <;> exact .inl rfl
  | insert hpiece _ _ =>
    cases hpiece with
    | blank hc => exact .inr ⟨_, rfl, .inl hc⟩
    | comment _ => exact .inr ⟨'/', rfl, .inr rfl⟩
  | lastComment _ _ => exact .inl rfl

theorem length_le (h : Spread words cs cs') : cs.length ≤ cs'.length := by
  induction h with
  | nil => exact Nat.le_refl 0
  | word _ _ ih | keep _ _ ih =>
    rw [List.length_append, List.length_append]
    exact Nat.add_le_add_left ih _
  | insert _ _ ih =>
    rw [List.length_append]
    exact Nat.le_add_left_of_le ih
  | lastComment _ _ =>
    rw [List.length_append]
    exact Nat.le_add_right _ _

/-- **Where the text ends, the spread text ends.** -/
theorem next_eq_none (h : Spread [] cs cs') (hend : next accepts pos cs = .ok none) (pos' : Pos) :
    next accepts pos' cs' = .ok none := by
  generalize hwords : ([] : List String) = words at h
  induction h generalizing pos pos' with
  | nil => rfl
  | word _ _ _ => cases hwords
  | keep hpiece _ ih =>
    rw [next_filler hpiece] at hend ⊢
    exact ih hend _ hwords
  | insert hpiece _ ih =>
    rw [next_filler hpiece]
    exact ih hend _ hwords
  | lastComment hbody hfilling =>
    exact next_eq_none_iff.mpr (skip_lastComment hfilling hbody _)

/-- **Where a token is read in the text, the same one is read in the spread text**, and what is
behind it is spread in the same way. -/
theorem exists_next (h : Spread (token.text :: words) cs cs')
    (hargs : accepts .macroArgs = true → token.kind = .macroArgs)
    (hnext : next accepts pos cs = .ok (some (token, rest))) (pos' : Pos) :
    ∃ token' rest', next accepts pos' cs' = .ok (some (token', rest')) ∧
      token'.lexeme = token.lexeme ∧ Spread words rest rest' := by
  generalize hwords : token.text :: words = all at h
  induction h generalizing pos pos' with
  | nil => cases hwords
  | @word _ cs cs' _ hrest _ =>
    cases hwords
    obtain ⟨pos₁, hskip, hlexeme⟩ := exists_lexeme_of_next hnext
    have hspells : token.kind.scan token.text.toList = some (token.text.toList, []) :=
      (fits_of_next hnext).spells
    rw [skip_word hspells] at hskip
    obtain rfl : cs = rest := List.append_cancel_left (Prod.mk.inj hskip).2
    have hagain := lexeme_again hrest.goesOn hargs hlexeme
    exact ⟨_, cs', next_of_lexeme hagain pos', by simp [tokenAt, Token.lexeme], hrest⟩
  | keep hpiece _ ih =>
    rw [next_filler hpiece] at hnext ⊢
    exact ih hnext _ hwords
  | insert hpiece _ ih =>
    rw [next_filler hpiece]
    exact ih hnext _ hwords
  | lastComment _ _ => cases hwords

/-- **What is skipped is layout**: a text is made of the words that the text behind it is made
of. -/
theorem of_skip (pos : Pos) (hend : (skip false pos cs).2 = [] → words = [])
    (h : Spread words (skip false pos cs).2 (skip false pos cs).2) : Spread words cs cs := by
  induction hn : cs.length using Nat.strong_induction_on generalizing cs pos with
  | _ n ih =>
    subst hn
    cases cs with
    | nil => exact h
    | cons c cs =>
      by_cases hblank : isBlank c = true
      · rw [skip, if_pos hblank] at hend h
        exact .keep (.blank hblank) (ih _ (Nat.lt_succ_self _) _ hend h rfl)
      by_cases hslashes : c = '/' ∧ cs.head? = some '/'
      · obtain ⟨rfl, hhead⟩ := hslashes
        obtain ⟨cs, rfl⟩ := List.head?_eq_some_iff.mp hhead
        have hskip : skip false pos ('/' :: '/' :: cs) =
            skip true ((pos.next '/').next '/') cs := rfl
        rw [hskip] at hend h
        by_cases hline : '\n' ∈ cs
        · obtain ⟨body, tail, rfl, hbody⟩ := List.eq_append_cons_of_mem hline
          rw [skip_comment hbody] at hend h
          have htail : Spread words tail tail := ih _ (by simp; omega) _ hend h rfl
          simpa using Spread.keep (.comment hbody) htail
        · have hrest := skip_lastComment .nil hline ((pos.next '/').next '/')
          rw [List.append_nil] at hrest
          rw [hend hrest]
          simpa using Spread.lastComment hline .nil
      · rwa [skip, if_neg hblank, if_neg hslashes] at h

end Spread

end TraitMock
