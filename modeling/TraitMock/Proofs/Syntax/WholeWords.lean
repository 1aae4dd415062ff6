import Mathlib.Data.List.Basic
import TraitMock.Proofs.Syntax.Taken
import TraitMock.Syntax.Parse

/-!
# Proofs/Syntax/WholeWords — which words are read whole

Where a name may stand, the lexer takes a whole run of letters, digits and underscores and then
looks whether it is a keyword.  Where none may stand, it takes the letters of a keyword whatever
follows them, so `traitFoo` is read as `trait Foo`.

* `Machine.whole_of_parse` — in a text that is read every word is a whole run, unless it is a
  keyword of the list `Terminal.gluing`, read where no name may stand.
* `traitFoo_glued` — such a keyword is read.

Two inputs carry the argument: the lexer stops inside a run only behind a keyword or a number
(`Lexer.cut_of_lexeme`), and behind a number, and behind every other keyword that it takes so, the
table has no place for the word that would follow (`Table.closes`).
-/

namespace TraitMock

/-- **The keywords that may run into the next word**: each is accepted in some place where no name
may stand, and a word may follow it there. -/
def Terminal.gluing : List Terminal :=
  [.traitKw, .implKw, .forKw, .fnKw, .whereKw, .pubKw, .crateKw, .mutKw, .constKw, .asKw]

/-! ## Where the lexer stops inside a run -/

namespace Lexer

open Terminal

variable {accepts : Terminal → Bool} {kind : Terminal} {cs word rest : List Char} {c : Char}

/-- **Inside a run the lexer stops** only behind a number, or behind a keyword where no name is
accepted. -/
theorem cut_of_lexeme (h : lexeme accepts cs = some (kind, word, rest))
    (hopen : kind.endsOpen = true) (hc : c ∈ rest.head?) (hname : isNameChar c = true) :
    kind = .int ∨ kind.isWord = true ∧ accepts .name = false := by
  obtain ⟨t, -, htried, hscan, hkind⟩ := exists_scan_of_lexeme h
  have hstop : ¬∀ d ∈ rest.head?, isNameChar d = false := fun hall => by
    rw [hall c hc] at hname
    cases hname
  by_cases ht : t = .name
  · subst ht
    exact absurd (head?_of_scanName hscan) hstop
  · rw [if_neg ht] at hkind
    subst hkind
    by_cases hlifetime : t = .lifetime
    · subst hlifetime
      cases cs with
      | nil => cases hscan
      | cons d cs =>
        simp only [scan, scanLifetime] at hscan
        split at hscan
        · obtain ⟨found, hfound, heq⟩ := Option.map_eq_some_iff.mp hscan
          cases heq
          exact absurd (head?_of_scanName hfound) hstop
        · cases hscan
    · simp only [endsOpen, Bool.or_eq_true, beq_iff_eq, ht, hlifetime, false_or] at hopen
      refine hopen.imp id fun hword => ⟨hword, ?_⟩
      by_contra haccepts
      exact htried ⟨by simpa using haccepts, hword⟩

/-- What the lexer finds where a run begins is a word, and it is accepted. -/
theorem beginsOpen_of_next {pos : Pos} {token : Token}
    (h : next accepts pos (c :: cs) = .ok (some (token, rest))) (hc : isNameChar c = true) :
    token.kind.beginsOpen = true ∧ accepts token.kind = true := by
  obtain ⟨pos', hskip, hlexeme⟩ := exists_lexeme_of_next h
  obtain ⟨hblank, hslash, -⟩ := not_blank_of_isNameChar hc
  rw [skip, if_neg (by simp [hblank]), if_neg (by simp [hslash])] at hskip
  obtain ⟨-, hcs⟩ := Prod.mk.inj hskip
  rw [← hcs] at hlexeme
  refine ⟨?_, accepts_of_lexeme hlexeme⟩
  obtain ⟨t, -, -, hscan, hkind⟩ := exists_scan_of_lexeme hlexeme
  have ht : t.beginsOpen = true := by
    rcases lead_of_scan hscan with hlead | ⟨rfl, -⟩ | ⟨rfl, -⟩
    · obtain ⟨hstart, hdigit⟩ := class_of_lead hlead
      have hword : t.isWord = true := hstart (by simpa [isNameChar, hdigit] using hc)
      simp [beginsOpen, hword]
    · rfl
    · rfl
  split at hkind
  · rcases nameKind_cases accepts token.text.toList with ⟨hword, -, -⟩ | ⟨hname, -⟩
    · rw [hkind] at hword
      simp [beginsOpen, hword]
    · rw [← hkind, hname]
      rfl
  · rwa [← hkind]

theorem next_ne_none (hc : isNameChar c = true) (pos : Pos) :
    next accepts pos (c :: cs) ≠ .ok none := by
  obtain ⟨hblank, hslash, -⟩ := not_blank_of_isNameChar hc
  rw [Ne, next_eq_none_iff, skip, if_neg (by simp [hblank]), if_neg (by simp [hslash])]
  exact List.cons_ne_nil _ _

end Lexer

/-! ## Where no word may follow -/

namespace Table

open Terminal

/-- A state takes a terminal, and then no word may follow. -/
def closesAt (s : Nat) (t : Terminal) : Bool :=
  match action? s t with
  | none => true
  | some (.shift s') => Terminal.all.all fun w => !w.beginsOpen || (action? s' w).isNone
  | some (.reduce _) => false

/-- Behind a number no word may follow, nor behind a keyword that is read where no name may stand,
unless it is one that runs into names. -/
theorem closesAt_of_lt {s : Nat} (hs : s < 481) : closesAt s .int = true ∧
    ∀ t, t.isWord = true → action? s .name = none → t ∉ gluing → closesAt s t = true := by
  have hall : allStates (fun s => closesAt s .int && ((action? s .name).isSome ||
      keywords.all fun t => gluing.contains t || closesAt s t)) = true := by decide +kernel
  have hclosed := of_allStates hall hs
  rw [Bool.and_eq_true] at hclosed
  refine ⟨hclosed.1, fun t ht hname hgluing => ?_⟩
  have hwords := hclosed.2
  simp only [hname, Option.isSome_none, Bool.false_or, List.all_eq_true] at hwords
  simpa [hgluing] using hwords t (isWord_iff_mem.mp ht)

theorem exists_of_closesAt {s : Nat} {t : Terminal} {action : Action} (h : closesAt s t = true)
    (haction : action? s t = some action) :
    ∃ s', action = .shift s' ∧ ∀ w : Terminal, w.beginsOpen = true → action? s' w = none := by
  rw [closesAt, haction] at h
  cases action with
  | reduce i => cases h
  | shift s' =>
    refine ⟨s', rfl, fun w hw => ?_⟩
    have hmem : w ∈ Terminal.all := by cases w <;> first | decide | cases hw
    simpa [hw] using List.all_eq_true.mp h w hmem

end Table

/-! ## Runs -/

namespace Machine

open Table Terminal

variable {file : Option String} {entry : Entry}

/-- **A token is cut out of a run**: it is one of the keywords that may run into the next word, and
it was read where no name may stand. -/
def Taken.Glued (t : Taken) : Prop :=
  t.token.kind ∈ gluing ∧ Table.action? t.state .name = none

/-- A token that can be shifted at once is. -/
theorem shift_of_action {stack : List Frame} {token : Token} {s : Nat}
    (h : Table.action? (top entry stack) token.kind = some (.shift s)) :
    shift file entry stack token = some (⟨s, .term token.kind, token, token.extent⟩ :: stack) := by
  have hsettle : settle file entry token (reductionBound stack) stack = some (s, stack) := by
    rw [show reductionBound stack = 12 * stack.length + 11 + 1 from rfl, settle_succ, action?_eq, h]
  rw [shift, hsettle]
  rfl

variable {v : entry.phrase.Val} {fuel : Nat} {stack next : List Frame} {last : Option Token}
  {pos : Pos} {cs rest : List Char} {token : Token} {c : Char}

/-- **What a run goes on behind**: behind a token that the lexer cut out of a longer run of letters,
a run only goes on if the token is a keyword that may run into the next word. -/
theorem glued_of_run (hnext : Lexer.next (accepts entry stack) pos cs = .ok (some (token, rest)))
    (hshift : shift file entry stack token = some next)
    (hrun : run file entry fuel next (some token) token.extent.stop rest = .ok v)
    (hopen : token.kind.endsOpen = true) (hc : c ∈ rest.head?) (hname : isNameChar c = true) :
    Taken.Glued ⟨top entry stack, token, rest⟩ := by
  obtain ⟨-, -, hlexeme⟩ := Lexer.exists_lexeme_of_next hnext
  have haccepted := Lexer.accepts_of_lexeme hlexeme
  have hcut := Lexer.cut_of_lexeme hlexeme hopen hc hname
  rw [accepts, action?_eq, Option.isSome_iff_exists] at haccepted
  obtain ⟨action, haction⟩ := haccepted
  have hs := lt_of_action? haction
  -- Where the table has no place for a word, the run ends in an error.
  have hnot : closesAt (top entry stack) token.kind = true → False := by
    intro hcloses
    obtain ⟨s', rfl, hnone⟩ := exists_of_closesAt hcloses haction
    rw [shift_of_action haction] at hshift
    cases hshift
    obtain ⟨rest, rfl⟩ := List.head?_eq_some_iff.mp hc
    cases fuel with
    | zero => cases hrun
    | succ fuel =>
      rcases run_eq_ok hrun with ⟨hend, -⟩ | ⟨token', rest', stack', hnext', -, -⟩
      · exact Lexer.next_ne_none hname _ hend
      · obtain ⟨hword, haccepted⟩ := Lexer.beginsOpen_of_next hnext' hname
        rw [accepts, action?_eq, top, hnone _ hword] at haccepted
        cases haccepted
  rcases hcut with hint | ⟨hword, hnoname⟩
  · exact (hnot (hint ▸ (closesAt_of_lt hs).1)).elim
  · rw [accepts, action?_eq, Option.isSome_eq_false_iff, Option.isNone_iff_eq_none] at hnoname
    refine ⟨?_, hnoname⟩
    by_contra hgluing
    exact hnot ((closesAt_of_lt hs).2 _ hword hnoname hgluing)

/-- **Behind a word of a run** stands no character that would make it longer, unless it is cut. -/
theorem glued_behind (hrun : run file entry fuel stack last pos cs = .ok v) :
    ∀ t ∈ takenFrom file entry fuel stack pos cs, t.token.kind.endsOpen = true →
      ∀ c ∈ t.rest.head?, isNameChar c = true → t.Glued := by
  induction fuel generalizing stack last pos cs with
  | zero => cases hrun
  | succ fuel ih =>
    rw [takenFrom_succ]
    rcases run_eq_ok hrun with ⟨hend, -⟩ | ⟨token, rest, next, hnext, hshift, hrun⟩
    · simp [hend]
    · simp only [hnext, hshift, List.mem_cons]
      rintro t (rfl | ht)
      · exact fun hopen c hc hname => glued_of_run hnext hshift hrun hopen hc hname
      · exact ih hrun t ht

/-- What a word begins with, if it has no quote in front. -/
theorem exists_head_of_spells (h : token.kind.Spells token.text)
    (hopen : token.kind.endsOpen = true) (hlifetime : token.kind ≠ .lifetime) :
    ∃ c word, token.text.toList = c :: word ∧ isNameChar c = true := by
  obtain ⟨c, word, hword⟩ := List.exists_cons_of_ne_nil (scan_sound h).2.1
  refine ⟨c, word, hword, ?_⟩
  rw [Spells, hword] at h
  rcases lead_of_scan h with hlead | ⟨-, hstart⟩ | ⟨-, hdigit⟩
  · have hall : ∀ t ∈ Terminal.all, t.lead?.all fun c =>
        !t.endsOpen || t == .lifetime || isNameChar c := by decide
    have hkind := hall token.kind (mem_all_of_scan h)
    simpa [hlead, hopen, hlifetime] using hkind
  · simp [isNameChar, hstart]
  · simp [isNameChar, hdigit]

/-- What ends with a character of names is a word. -/
theorem endsOpen_of_getLast (h : token.kind.Spells token.text) (hc : c ∈ token.text.toList.getLast?)
    (hname : isNameChar c = true) : token.kind.endsOpen = true := by
  rcases getLast_of_spells h hc with ⟨hopen, -⟩ | ⟨hclosed, ⟨-, rfl⟩ | ⟨s, hs, hlast⟩⟩
  · exact hopen
  · exact absurd hname (by decide)
  · have hall : ∀ t ∈ Terminal.all, ∀ s ∈ t.spelling?.toList, s.toList.getLast?.all fun c =>
        t.endsOpen || !isNameChar c := by decide
    have hmark := hall token.kind (mem_all_of_spelling hs) s (Option.mem_toList.mpr hs)
    simp [hlast, hclosed, hname] at hmark

/-- **In front of a word of a run** stands the text of the tokens before it; it ends with a
character of names only if the token before it was cut. -/
theorem glued_before (hrun : run file entry fuel stack last pos cs = .ok v) :
    ∀ t ∈ takenFrom file entry fuel stack pos cs, ∃ front,
      cs = front ++ (t.token.text.toList ++ t.rest) ∧
      ∀ c ∈ front.getLast?, isNameChar c = true → ∃ u ∈ takenFrom file entry fuel stack pos cs,
        u.token.kind.endsOpen = true ∧ u.rest = t.token.text.toList ++ t.rest := by
  induction fuel generalizing stack last pos cs with
  | zero => cases hrun
  | succ fuel ih =>
    rw [takenFrom_succ]
    rcases run_eq_ok hrun with ⟨hend, -⟩ | ⟨token, rest, next, hnext, hshift, hrun⟩
    · simp [hend]
    · obtain ⟨layout, hlayout, hcs, -⟩ := Lexer.exists_filling_of_next hnext
      simp only [hnext, hshift, List.mem_cons]
      rintro t (rfl | ht)
      · refine ⟨layout, hcs, fun c hc hname => ?_⟩
        exact absurd (hlayout.isBlank_getLast c hc)
          (by simp [(Lexer.not_blank_of_isNameChar hname).1])
      · obtain ⟨front, hrest, hbefore⟩ := ih hrun t ht
        refine ⟨layout ++ (token.text.toList ++ front), by simp [hcs, hrest], fun c hc hname => ?_⟩
        have hspells : token.kind.Spells token.text := (Lexer.fits_of_next hnext).spells
        rcases List.eq_nil_or_concat front with rfl | ⟨front, d, rfl⟩
        · rw [List.append_nil, List.getLast?_append_of_ne_nil _ (scan_sound hspells).2.1] at hc
          exact ⟨_, .inl rfl, endsOpen_of_getLast hspells hc hname, hrest⟩
        · rw [List.concat_eq_append, ← List.append_assoc, ← List.append_assoc,
            List.getLast?_append_of_ne_nil _ (List.cons_ne_nil d [])] at hc
          obtain ⟨u, hu, huopen, hurest⟩ := hbefore c (by simpa using hc) hname
          exact ⟨u, .inr hu, huopen, hurest⟩

/-- **Words are read whole**, but for the keywords that may run into the next word.  Every word of a
text that is read stands between characters that would not make it longer; where one stands behind
it, it was cut out of a run, and where one stands in front of it, the word before it was.  (A
lifetime begins with its quote.) -/
theorem whole_of_parse {text : List Char} (h : parse file entry text = .ok v) :
    ∀ t ∈ taken file entry text, t.token.kind.endsOpen = true →
      ((∃ c ∈ t.rest.head?, isNameChar c = true) → t.Glued) ∧
      ∃ front, text = front ++ (t.token.text.toList ++ t.rest) ∧
        ((∃ c ∈ front.getLast?, isNameChar c = true) → t.token.kind ≠ .lifetime →
          ∃ u ∈ taken file entry text, u.Glued ∧ u.rest = t.token.text.toList ++ t.rest) := by
  intro t ht hopen
  have hbehind := glued_behind h
  refine ⟨fun ⟨c, hc, hname⟩ => hbehind t ht hopen c hc hname, ?_⟩
  obtain ⟨front, htext, hbefore⟩ := glued_before h t ht
  refine ⟨front, htext, fun ⟨c, hc, hname⟩ hlifetime => ?_⟩
  obtain ⟨u, hu, huopen, hurest⟩ := hbefore c hc hname
  obtain ⟨d, word, hword, hd⟩ :=
    exists_head_of_spells (spells_of_mem_takenFrom t ht) hopen hlifetime
  refine ⟨u, hu, hbehind u hu huopen d ?_ hd, hurest⟩
  rw [hurest, hword]
  rfl

/-- In front of a word of a method stands a keyword that runs into it. -/
theorem pubfn_whole : ∃ m, parse none .method "pubfn input();".toList = .ok m ∧
    ∃ t ∈ taken none .method "pubfn input();".toList, t.token.text = "fn" ∧
      ((∃ c ∈ t.rest.head?, isNameChar c = true) → t.Glued) ∧
      ∃ front, "pubfn input();".toList = front ++ (t.token.text.toList ++ t.rest) ∧
        ((∃ c ∈ front.getLast?, isNameChar c = true) → t.token.kind ≠ .lifetime →
          ∃ u ∈ taken none .method "pubfn input();".toList, u.Glued ∧
            u.rest = t.token.text.toList ++ t.rest) := by
  have hread : (parse none .method "pubfn input();".toList).toOption.isSome = true := by
    decide +kernel
  obtain ⟨t, ht, htext, hopen⟩ : ∃ t ∈ taken none .method "pubfn input();".toList,
      t.token.text = "fn" ∧ t.token.kind.endsOpen = true := by decide +kernel
  cases hparse : parse none .method "pubfn input();".toList with
  | error e =>
    rw [hparse] at hread
    cases hread
  | ok m => exact ⟨m, rfl, t, ht, htext, whole_of_parse hparse t ht hopen⟩

end Machine

/-- **A run of letters may be read as a keyword and a name**: `traitFoo` is taken for
`trait Foo`. -/
theorem traitFoo_glued :
    (DeclFile.parse none "traitFoo \x7b\x7d").toOption.isSome = true ∧
      ∃ t ∈ Machine.taken none .declFile "traitFoo \x7b\x7d".toList,
        t.token.kind = .traitKw ∧ t.rest.head? = some 'F' ∧ Terminal.isNameChar 'F' = true := by
  decide +kernel

end TraitMock
