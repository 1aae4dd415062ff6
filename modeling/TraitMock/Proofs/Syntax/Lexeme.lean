import TraitMock.Syntax.Lexer
import TraitMock.Text.Blank
import Mathlib.Data.List.TakeWhile

/-!
# Proofs/Syntax/Lexeme — words of a text and how the lexer finds them again

A `Lexeme` is a word with the terminal that it belongs to.  Two directions:

* `Lexer.fits_of_next` — whatever the lexer reads is a lexeme that stands rightly where it was
  read: it spells its terminal, and a name spells no keyword that is accepted there.
* `Lexer.lexeme_of_fits` — a lexeme that stands rightly is found again at the front of every text
  that does not run into it.
-/

namespace TraitMock

namespace Terminal

/-! ## Matching a word, and matching it again before a rest -/

/-- **A word of a terminal**: the terminal matches all of it. -/
def Spells (t : Terminal) (word : String) : Prop :=
  t.scan word.toList = some (word.toList, [])

instance (t : Terminal) (word : String) : Decidable (t.Spells word) :=
  inferInstanceAs (Decidable (_ = _))

/-- A stretch of characters of a class ends where the class ends. -/
theorem takeWhile_dropWhile_append {p : Char → Bool} {word rest : List Char}
    (hword : ∀ c ∈ word, p c = true) (hrest : ∀ c ∈ rest.head?, p c = false) :
    (word ++ rest).takeWhile p = word ∧ (word ++ rest).dropWhile p = rest := by
  rw [List.takeWhile_append_of_pos hword, List.dropWhile_append_of_pos hword]
  cases rest with
  | nil => simp
  | cons c rest => simp [hrest c (by simp)]

theorem scanName_sound {cs word rest : List Char} (h : scanName cs = some (word, rest)) :
    cs = word ++ rest ∧ word ≠ [] ∧ scanName word = some (word, []) := by
  cases cs with
  | nil => simp [scanName] at h
  | cons c cs =>
    simp only [scanName] at h
    split at h
    · next hc =>
      simp only [Option.some.injEq, Prod.mk.injEq] at h
      obtain ⟨rfl, rfl⟩ := h
      have hall : ∀ d ∈ cs.takeWhile isNameChar, isNameChar d = true :=
        fun d hd => List.all_eq_true.mp List.all_takeWhile d hd
      refine ⟨by simp, by simp, ?_⟩
      rw [scanName, if_pos hc, List.takeWhile_eq_self_iff.mpr hall,
        List.dropWhile_eq_nil_iff.mpr hall]
    · simp at h

theorem scanName_append {word rest : List Char} (h : scanName word = some (word, []))
    (hrest : ∀ c ∈ rest.head?, isNameChar c = false) :
    scanName (word ++ rest) = some (word, rest) := by
  cases word with
  | nil => simp [scanName] at h
  | cons c cs =>
    simp only [scanName] at h
    split at h
    · next hc =>
      simp only [Option.some.injEq, Prod.mk.injEq, List.cons.injEq, true_and] at h
      obtain ⟨htake, hdrop⟩ :=
        takeWhile_dropWhile_append (List.takeWhile_eq_self_iff.mp h.1) hrest
      rw [List.cons_append, scanName, if_pos hc, htake, hdrop]
    · simp at h

theorem scanWhile_eq_some_iff {p : Char → Bool} {cs word rest : List Char} :
    scanWhile p cs = some (word, rest) ↔
      cs.takeWhile p = word ∧ cs.dropWhile p = rest ∧ word ≠ [] := by
  rw [scanWhile]
  split
  · next hnil =>
    exact ⟨fun h => absurd h (by simp), fun ⟨hword, _, hne⟩ => absurd (hword.symm.trans hnil) hne⟩
  · next front hne =>
    simp only [Option.some.injEq, Prod.mk.injEq]
    constructor
    · rintro ⟨rfl, rfl⟩
      exact ⟨rfl, rfl, hne⟩
    · rintro ⟨rfl, rfl, -⟩
      exact ⟨rfl, rfl⟩

theorem scanWhile_sound {p : Char → Bool} {cs word rest : List Char}
    (h : scanWhile p cs = some (word, rest)) :
    cs = word ++ rest ∧ word ≠ [] ∧ scanWhile p word = some (word, []) := by
  obtain ⟨rfl, rfl, hne⟩ := scanWhile_eq_some_iff.mp h
  have hall : ∀ d ∈ cs.takeWhile p, p d = true :=
    fun d hd => List.all_eq_true.mp List.all_takeWhile d hd
  exact ⟨List.takeWhile_append_dropWhile.symm, hne, scanWhile_eq_some_iff.mpr
    ⟨List.takeWhile_eq_self_iff.mpr hall, List.dropWhile_eq_nil_iff.mpr hall, hne⟩⟩

theorem scanWhile_append {p : Char → Bool} {word rest : List Char}
    (h : scanWhile p word = some (word, [])) (hrest : ∀ c ∈ rest.head?, p c = false) :
    scanWhile p (word ++ rest) = some (word, rest) := by
  obtain ⟨hword, -, hne⟩ := scanWhile_eq_some_iff.mp h
  obtain ⟨htake, hdrop⟩ :=
    takeWhile_dropWhile_append (List.takeWhile_eq_self_iff.mp hword) hrest
  exact scanWhile_eq_some_iff.mpr ⟨htake, hdrop, hne⟩

theorem scanGroup_sound : ∀ {cs word rest : List Char} {depth : Nat},
    scanGroup depth cs = some (word, rest) →
      cs = word ++ rest ∧ ∀ rest', scanGroup depth (word ++ rest') = some (word, rest')
  | [], _, _, _, h => by simp [scanGroup] at h
  | c :: cs, word, rest, depth, h => by
    simp only [scanGroup] at h
    split at h
    · next hopen =>
      split at h
      · next hdepth =>
        obtain ⟨⟨body, rest⟩, hbody, heq⟩ := Option.map_eq_some_iff.mp h
        obtain ⟨rfl, rfl⟩ := Prod.mk.inj heq
        obtain ⟨rfl, ih⟩ := scanGroup_sound hbody
        exact ⟨rfl, fun rest' => by simp [scanGroup, hopen, hdepth, ih]⟩
      · simp at h
    · next hopen =>
      split at h
      · simp at h
      · next hdepth =>
        split at h
        · next hclose =>
          split at h
          · next hone =>
            simp only [Option.some.injEq, Prod.mk.injEq] at h
            obtain ⟨rfl, rfl⟩ := h
            exact ⟨rfl, fun rest' => by simp [scanGroup, hone, hclose]⟩
          · next hone =>
            obtain ⟨⟨body, rest⟩, hbody, heq⟩ := Option.map_eq_some_iff.mp h
            obtain ⟨rfl, rfl⟩ := Prod.mk.inj heq
            obtain ⟨rfl, ih⟩ := scanGroup_sound hbody
            exact ⟨rfl, fun rest' => by simp [scanGroup, hdepth, hclose, hone, ih]⟩
        · next hclose =>
          obtain ⟨⟨body, rest⟩, hbody, heq⟩ := Option.map_eq_some_iff.mp h
          obtain ⟨rfl, rfl⟩ := Prod.mk.inj heq
          obtain ⟨rfl, ih⟩ := scanGroup_sound hbody
          exact ⟨rfl, fun rest' => by simp [scanGroup, hopen, hdepth, hclose, ih]⟩

theorem scanSpelling_eq_some_iff : ∀ {spelling cs word rest : List Char},
    scanSpelling spelling cs = some (word, rest) ↔ word = spelling ∧ cs = spelling ++ rest
  | [], cs, word, rest => by
    simp [scanSpelling, eq_comm]
  | w :: spelling, [], word, rest => by simp [scanSpelling]
  | w :: spelling, c :: cs, word, rest => by
    simp only [scanSpelling]
    split
    · next hw =>
      subst hw
      simp only [Option.map_eq_some_iff, Prod.exists, scanSpelling_eq_some_iff, Prod.mk.injEq,
        List.cons_append, List.cons.injEq, true_and]
      constructor
      · rintro ⟨done, rest, ⟨rfl, rfl⟩, rfl, rfl⟩
        exact ⟨rfl, rfl⟩
      · rintro ⟨rfl, rfl⟩
        exact ⟨_, _, ⟨rfl, rfl⟩, rfl, rfl⟩
    · next hw => simp [Ne.symm hw]

/-- What a terminal with a spelling matches. -/
theorem scan_of_spelling {t : Terminal} {s : String} (hs : t.spelling? = some s) (cs : List Char) :
    t.scan cs = scanSpelling s.toList cs := by
  cases t <;> simp_all [scan, spelling?]

/-- A word has no letter of its own: each terminal is an open class or has one spelling. -/
theorem open_or_spelling (t : Terminal) :
    t = .macroArgs ∨ t = .lifetime ∨ t = .name ∨ t = .int ∨ t = .endOfText ∨
      ∃ s, t.spelling? = some s ∧ s.toList ≠ [] := by
  cases t <;> simp [spelling?]

/-- **What is matched is a front of the text**, and would be matched on its own. -/
theorem scan_sound {t : Terminal} {cs word rest : List Char} (h : t.scan cs = some (word, rest)) :
    cs = word ++ rest ∧ word ≠ [] ∧ t.scan word = some (word, []) := by
  rcases open_or_spelling t with rfl | rfl | rfl | rfl | rfl | ⟨s, hs, hne⟩
  · obtain ⟨rfl, hagain⟩ := scanGroup_sound h
    refine ⟨rfl, ?_, by simpa [scan] using hagain []⟩
    rintro rfl
    simpa [scanGroup] using hagain []
  · cases cs with
    | nil => simp [scan, scanLifetime] at h
    | cons c cs =>
      simp only [scan, scanLifetime] at h
      split at h
      · next hc =>
        obtain ⟨⟨name, rest⟩, hname, heq⟩ := Option.map_eq_some_iff.mp h
        obtain ⟨rfl, rfl⟩ := Prod.mk.inj heq
        obtain ⟨rfl, -, hagain⟩ := scanName_sound hname
        exact ⟨rfl, by simp, by simp [scan, scanLifetime, hc, hagain]⟩
      · simp at h
  · exact scanName_sound h
  · exact scanWhile_sound h
  · simp [scan, spelling?] at h
  · rw [scan_of_spelling hs, scanSpelling_eq_some_iff] at h
    obtain ⟨rfl, rfl⟩ := h
    refine ⟨rfl, hne, ?_⟩
    rw [scan_of_spelling hs, scanSpelling_eq_some_iff]
    simp

/-- The spelling of a keyword is the only word that it matches. -/
theorem spelling_of_spells {t : Terminal} {word : String} (ht : t.spelling?.isSome = true)
    (h : t.Spells word) : t.spelling? = some word := by
  obtain ⟨s, hs⟩ := Option.isSome_iff_exists.mp ht
  rw [Spells, scan_of_spelling hs, scanSpelling_eq_some_iff] at h
  rw [hs, String.toList_inj.mp h.1]

/-! ## How words begin and end -/

/-- The terminals whose words end in a character that a name could go on with. -/
def endsOpen (t : Terminal) : Bool := t == .name || t == .lifetime || t == .int || t.isWord

/-- The terminals whose words begin with a character that a name could go on with. -/
def beginsOpen (t : Terminal) : Bool := t == .name || t == .int || t.isWord

/-- **A word of a terminal can stand right before a text**: neither a name nor a colon is made
longer by it. -/
def Apart (t : Terminal) (cs : List Char) : Prop :=
  (t.endsOpen = true → ∀ c ∈ cs.head?, isNameChar c = false) ∧ (t = .colon → cs.head? ≠ some ':')

instance (t : Terminal) (cs : List Char) : Decidable (t.Apart cs) :=
  decidable_of_iff ((t.endsOpen = true → cs.head?.all (!isNameChar ·) = true) ∧
    (t = .colon → cs.head? ≠ some ':')) (by cases cs <;> simp [Apart])

theorem Apart.of_prefix {t : Terminal} {cs ds : List Char} (h : t.Apart cs) (hds : ds <+: cs) :
    t.Apart ds := by
  cases ds with
  | nil => exact ⟨fun _ _ hc => absurd hc (by simp), fun _ => by simp⟩
  | cons c ds =>
    obtain ⟨rest, rfl⟩ := hds
    exact h

/-- **A word matches again before whatever stands apart from it.** -/
theorem scan_append {t : Terminal} {word cs : List Char} (h : t.scan word = some (word, []))
    (hapart : t.Apart cs) : t.scan (word ++ cs) = some (word, cs) := by
  rcases open_or_spelling t with rfl | rfl | rfl | rfl | rfl | ⟨s, hs, -⟩
  · exact (scanGroup_sound h).2 cs
  · cases word with
    | nil => simp [scan, scanLifetime] at h
    | cons c word =>
      simp only [scan, scanLifetime] at h
      split at h
      · next hc =>
        obtain ⟨⟨name, rest⟩, hname, heq⟩ := Option.map_eq_some_iff.mp h
        simp only [Prod.mk.injEq, List.cons.injEq, true_and] at heq
        obtain ⟨rfl, rfl⟩ := heq
        simp [scan, scanLifetime, hc, scanName_append hname (hapart.1 rfl)]
      · simp at h
  · exact scanName_append h (hapart.1 rfl)
  · refine scanWhile_append h fun c hc => ?_
    have hname : isNameChar c = false := hapart.1 rfl c hc
    simp only [isNameChar, Bool.or_eq_false_iff] at hname
    exact hname.2
  · simp [scan, spelling?] at h
  · rw [scan_of_spelling hs, scanSpelling_eq_some_iff] at h ⊢
    exact ⟨h.1, by rw [← h.1]⟩

/-- The character that all words of a terminal begin with, if there is one. -/
def lead? : Terminal → Option Char
  | .macroArgs => some '('
  | .lifetime => some quoteMark
  | t => t.spelling?.bind (·.toList.head?)

/-- **What a word begins with.** -/
theorem lead_of_scan {t : Terminal} {c : Char} {cs : List Char} {x : List Char × List Char}
    (h : t.scan (c :: cs) = some x) :
    t.lead? = some c ∨ (t = .name ∧ isNameStart c = true) ∨ (t = .int ∧ c.isDigit = true) := by
  rcases open_or_spelling t with rfl | rfl | rfl | rfl | rfl | ⟨s, hs, hne⟩
  · refine .inl ?_
    by_contra hc
    have hne : c ≠ '(' := fun heq => hc (by rw [heq]; rfl)
    simp [scan, scanGroup, hne] at h
  · refine .inl ?_
    simp only [scan, scanLifetime] at h
    split at h
    · next hc => rw [hc]; rfl
    · simp at h
  · refine .inr (.inl ⟨rfl, ?_⟩)
    simp only [scan, scanName] at h
    split at h
    · next hc => exact hc
    · simp at h
  · refine .inr (.inr ⟨rfl, ?_⟩)
    by_contra hc
    simp [scan, scanWhile, hc] at h
  · simp [scan, spelling?] at h
  · refine .inl ?_
    obtain ⟨word, rest⟩ := x
    rw [scan_of_spelling hs, scanSpelling_eq_some_iff] at h
    obtain ⟨d, ds, hd⟩ := List.exists_cons_of_ne_nil hne
    have hlead : t.lead? = t.spelling?.bind (·.toList.head?) := by
      cases t <;> simp_all [spelling?, lead?]
    rw [hd, List.cons_append, List.cons.injEq] at h
    simp [hlead, hs, hd, h.2.1]

/-- What can be matched is tried. -/
theorem mem_all_of_scan {t : Terminal} {cs : List Char} {x : List Char × List Char}
    (h : t.scan cs = some x) : t ∈ all := by
  cases t <;> first | decide | simp [scan, spelling?] at h

theorem mem_all_of_spelling {t : Terminal} {s : String} (h : t.spelling? = some s) : t ∈ all := by
  cases t <;> simp_all [spelling?, all]

/-- **Words of different terminals begin differently**, but for keywords, for the two colons, and
for the parenthesis of the arguments of a macro. -/
theorem lead_injective {t u : Terminal} {c : Char} (ht : t.lead? = some c) (hu : u.lead? = some c) :
    t = u ∨ (t.isWord = true ∧ u.isWord = true) ∨ t = .macroArgs ∨ u = .macroArgs ∨
      (t = .pathSep ∧ u = .colon) ∨ (t = .colon ∧ u = .pathSep) := by
  have hall : ∀ t ∈ all, ∀ u ∈ all, t.lead?.isSome = true → t.lead? = u.lead? →
      t = u ∨ (t.isWord = true ∧ u.isWord = true) ∨ t = .macroArgs ∨ u = .macroArgs ∨
        (t = .pathSep ∧ u = .colon) ∨ (t = .colon ∧ u = .pathSep) := by
    decide
  refine hall t ?_ u ?_ (by simp [ht]) (ht.trans hu.symm)
  · cases t <;> first | decide | simp [lead?, spelling?] at ht
  · cases u <;> first | decide | simp [lead?, spelling?] at hu

end Terminal

/-! ## Lexemes in their context -/

/-- **A word with the terminal that it belongs to.** -/
structure Lexeme where
  kind : Terminal
  text : String
  deriving DecidableEq, Repr

/-- A token without its place. -/
def Token.lexeme (t : Token) : Lexeme := ⟨t.kind, t.text⟩

namespace Lexeme

/-- The keyword or the mark of a terminal. -/
def ofKind (t : Terminal) : Lexeme := ⟨t, t.spelling?.getD ""⟩

/-- A name avoids keywords if it spells none of them. -/
def Avoids (w : Lexeme) (words : List Terminal) : Prop :=
  w.kind = .name → ∀ t ∈ words, t.spelling? ≠ some w.text

/-- **A lexeme stands rightly in a context**: it spells its terminal, and a name is no accepted
keyword. -/
structure Fits (accepts : Terminal → Bool) (w : Lexeme) : Prop where
  spells : w.kind.Spells w.text
  free : w.kind = .name → ∀ t, t.isWord = true → accepts t = true → t.spelling? ≠ some w.text

end Lexeme

namespace Lexer

open Terminal

/-- A word of a terminal that is left to the names is a name. -/
theorem isNameStart_of_isWord {t : Terminal} {s : String} (ht : t.isWord = true)
    (hs : t.spelling? = some s) : Terminal.name.Spells s := by
  cases t <;> first | (cases hs; decide) | exact absurd ht (by decide)

/-- Keywords with one spelling are one. -/
theorem eq_of_spelling {t u : Terminal} {s : String} (ht : t.spelling? = some s)
    (hu : u.spelling? = some s) : t = u := by
  have hall : ∀ t ∈ Terminal.all, ∀ u ∈ Terminal.all, t.spelling?.isSome = true →
      t.spelling? = u.spelling? → t = u := by
    decide
  exact hall t (mem_all_of_spelling ht) u (mem_all_of_spelling hu) (by simp [ht]) (ht.trans hu.symm)

/-- No keyword begins with another one. -/
theorem eq_of_scan_keyword {t u : Terminal} {cs : List Char} {x y : List Char × List Char}
    (ht : t.isWord = true) (hu : u.isWord = true) (hx : t.scan cs = some x)
    (hy : u.scan cs = some y) : t = u := by
  have hall : ∀ t ∈ Terminal.all, ∀ u ∈ Terminal.all, t.isWord = true → u.isWord = true →
      (t.spelling?.getD "").toList.isPrefixOf (u.spelling?.getD "").toList = true → t = u := by
    decide
  have hspelling : ∀ v : Terminal, v.isWord = true → ∃ s, v.spelling? = some s := by
    intro v hv
    cases v <;> first | exact ⟨_, rfl⟩ | exact absurd hv (by decide)
  obtain ⟨a, ha⟩ := hspelling t ht
  obtain ⟨b, hb⟩ := hspelling u hu
  obtain ⟨-, hx⟩ := scanSpelling_eq_some_iff.mp (scan_of_spelling ha cs ▸ hx)
  obtain ⟨-, hy⟩ := scanSpelling_eq_some_iff.mp (scan_of_spelling hb cs ▸ hy)
  have hta := mem_all_of_spelling ha
  have hub := mem_all_of_spelling hb
  rcases List.prefix_or_prefix_of_prefix ⟨_, hx.symm⟩ ⟨_, hy.symm⟩ with h | h
  · exact hall t hta u hub ht hu (by simpa [ha, hb] using h)
  · exact (hall u hub t hta hu ht (by simpa [ha, hb] using h)).symm

/-- The first success of a search is the success at a place before which there is none. -/
theorem findSome?_eq_some {α β : Type} [DecidableEq α] {f : α → Option β} {d : α} {b : β} :
    ∀ {l : List α}, d ∈ l → (∀ a ∈ l.takeWhile (· != d), f a = none) → f d = some b →
      l.findSome? f = some b
  | a :: l, hd, hnone, hb => by
    by_cases had : a = d
    · rw [had, List.findSome?_cons, hb]
    · have ha : f a = none := hnone a (by simp [had])
      have hmem : d ∈ l := (List.mem_cons.mp hd).resolve_left (Ne.symm had)
      rw [List.findSome?_cons, ha]
      exact findSome?_eq_some hmem (fun c hc => hnone c (by simp [had, hc])) hb

/-- Where the characters of names lie: digits below, letters and the underscore above. -/
theorem toNat_of_isNameStart {c : Char} (h : isNameStart c = true) :
    65 ≤ c.toNat ∧ c.toNat ≤ 122 := by
  have hranges : isNameStart c = (decide (c.val ≥ 'A'.val ∧ c.val ≤ 'Z'.val) ||
      (decide (c.val ≥ 'a'.val) && decide (c.val ≤ 'z'.val)) || c == '_') := rfl
  simp only [hranges, Bool.or_eq_true, Bool.and_eq_true, decide_eq_true_eq, beq_iff_eq, ge_iff_le,
    UInt32.le_iff_toNat_le] at h
  rcases h with (h | h) | rfl
  · exact ⟨h.1, h.2.trans (by decide)⟩
  · exact ⟨le_trans (by decide) h.1, h.2⟩
  · decide

theorem toNat_of_isDigit {c : Char} (h : c.isDigit = true) : 48 ≤ c.toNat ∧ c.toNat ≤ 57 := by
  simp only [Char.isDigit, Bool.and_eq_true, decide_eq_true_eq, ge_iff_le,
    UInt32.le_iff_toNat_le] at h
  exact h

/-- A name does not begin with a digit. -/
theorem isDigit_of_isNameStart {c : Char} (h : isNameStart c = true) : c.isDigit = false := by
  by_contra hdigit
  have hstart := (toNat_of_isNameStart h).1
  have hstop := (toNat_of_isDigit (by simpa using hdigit)).2
  omega

theorem toNat_of_isNameChar {c : Char} (h : isNameChar c = true) :
    48 ≤ c.toNat ∧ c.toNat ≤ 122 := by
  simp only [isNameChar, Bool.or_eq_true] at h
  rcases h with h | h
  · have hbounds := toNat_of_isNameStart h
    omega
  · have hbounds := toNat_of_isDigit h
    omega

/-- The characters that words begin with: a letter begins keywords only, and a digit nothing. -/
theorem class_of_lead {t : Terminal} {c : Char} (h : t.lead? = some c) :
    (isNameStart c = true → t.isWord = true) ∧ c.isDigit = false := by
  have hall : ∀ t ∈ Terminal.all, t.lead?.all fun c =>
      decide ((isNameStart c = true → t.isWord = true) ∧ c.isDigit = false) := by
    decide
  have hclass := hall t (by cases t <;> first | decide | simp [lead?, spelling?] at h)
  rw [h] at hclass
  exact of_decide_eq_true hclass

/-- **Two terminals that match at one place** are names or keywords, or one of them opens the
arguments of a macro, or they are the two colons. -/
theorem eq_or_of_scan {t u : Terminal} {cs : List Char} {x y : List Char × List Char}
    (hx : t.scan cs = some x) (hy : u.scan cs = some y) :
    t = u ∨ ((t = .name ∨ t.isWord = true) ∧ (u = .name ∨ u.isWord = true)) ∨ t = .macroArgs ∨
      u = .macroArgs ∨ (t = .pathSep ∧ u = .colon) ∨ (t = .colon ∧ u = .pathSep) := by
  obtain ⟨word, rest⟩ := x
  obtain ⟨hcs, hne, -⟩ := scan_sound hx
  obtain ⟨c, word, rfl⟩ := List.exists_cons_of_ne_nil hne
  rw [hcs, List.cons_append] at hx hy
  rcases lead_of_scan hx with ht | ⟨rfl, ht⟩ | ⟨rfl, ht⟩ <;>
    rcases lead_of_scan hy with hu | ⟨rfl, hu⟩ | ⟨rfl, hu⟩
  · rcases lead_injective ht hu with h | ⟨htw, huw⟩ | h
    · exact .inl h
    · exact .inr (.inl ⟨.inr htw, .inr huw⟩)
    · exact .inr (.inr h)
  · exact .inr (.inl ⟨.inr ((class_of_lead ht).1 hu), .inl rfl⟩)
  · exact absurd hu (by simp [(class_of_lead ht).2])
  · exact .inr (.inl ⟨.inl rfl, .inr ((class_of_lead hu).1 ht)⟩)
  · exact .inl rfl
  · exact absurd hu (by simp [isDigit_of_isNameStart ht])
  · exact absurd ht (by simp [(class_of_lead hu).2])
  · exact absurd ht (by simp [isDigit_of_isNameStart hu])
  · exact .inl rfl

theorem isSome_spelling_of_isWord {t : Terminal} (ht : t.isWord = true) :
    t.spelling?.isSome = true := by
  cases t <;> first | rfl | exact absurd ht (by decide)

/-- A whole name that spells an accepted keyword is this keyword. -/
theorem nameKind_of_spelling {accepts : Terminal → Bool} {t : Terminal} {word : List Char}
    (hword : t.isWord = true) (haccepts : accepts t = true)
    (hspelling : t.spelling? = some (String.ofList word)) : nameKind accepts word = t := by
  have hsome : (Terminal.all.find? fun t =>
      t.isWord && accepts t && t.spelling? == some (String.ofList word)).isSome = true :=
    List.find?_isSome.mpr ⟨t, mem_all_of_spelling hspelling, by simp [hword, haccepts, hspelling]⟩
  obtain ⟨u, hu⟩ := Option.isSome_iff_exists.mp hsome
  have hspells := List.find?_some hu
  simp only [Bool.and_eq_true, beq_iff_eq] at hspells
  rw [nameKind, hu, Option.getD_some, eq_of_spelling hspells.2 hspelling]

/-- A whole name is an accepted keyword that it spells, or a name that spells none. -/
theorem nameKind_cases (accepts : Terminal → Bool) (word : List Char) :
    ((nameKind accepts word).isWord = true ∧ accepts (nameKind accepts word) = true ∧
        (nameKind accepts word).spelling? = some (String.ofList word)) ∨
      (nameKind accepts word = .name ∧ ∀ t, t.isWord = true → accepts t = true →
        t.spelling? ≠ some (String.ofList word)) := by
  cases h : Terminal.all.find? fun t =>
      t.isWord && accepts t && t.spelling? == some (String.ofList word) with
  | some u =>
    have hspells := List.find?_some h
    simp only [Bool.and_eq_true, beq_iff_eq] at hspells
    rw [nameKind, h, Option.getD_some]
    exact .inl ⟨hspells.1.1, hspells.1.2, hspells.2⟩
  | none =>
    rw [nameKind, h, Option.getD_none]
    refine .inr ⟨rfl, fun t ht haccepts hspelling => ?_⟩
    have hnot := List.find?_eq_none.mp h t (mem_all_of_spelling hspelling)
    simp [ht, haccepts, hspelling] at hnot

/-- A keyword among names is read as a name and then recognised, where the whole word is matched as
a name. -/
theorem lexeme_of_keyword {accepts : Terminal → Bool} {kind : Terminal} {text : String}
    {cs : List Char} (hname : accepts .name = true) (hword : kind.isWord = true)
    (hspells : kind.Spells text) (haccepts : accepts kind = true)
    (hargs : accepts .macroArgs = false)
    (hscan : Terminal.name.scan (text.toList ++ cs) = some (text.toList, cs)) :
    lexeme accepts (text.toList ++ cs) = some (kind, text.toList, cs) := by
  have hspelling : kind.spelling? = some text :=
    spelling_of_spells (isSome_spelling_of_isWord hword) hspells
  refine findSome?_eq_some (d := .name) (by decide) (fun t ht => ?_) ?_
  · have hfront : t = .macroArgs ∨ t = .lifetime := by
      simpa [Terminal.all] using ht
    rcases hfront with rfl | rfl
    · simp [scanIn, hargs]
    · cases hlifetime : Terminal.lifetime.scan (text.toList ++ cs) with
      | none => simp [scanIn, hlifetime]
      | some x => exact absurd (eq_or_of_scan hlifetime hscan) (by decide)
  · have hkind : nameKind accepts text.toList = kind :=
      nameKind_of_spelling hword haccepts (by rw [String.ofList_toList, hspelling])
    have hopen : Terminal.name.isWord = false := by decide
    simp [scanIn, hname, hscan, hopen, hkind]

/-- What stands rightly is taken for what it is: no name is a keyword there. -/
theorem kind_of_fits {accepts : Terminal → Bool} {w : Lexeme} (hfits : w.Fits accepts) :
    (if w.kind = .name then nameKind accepts w.text.toList else w.kind) = w.kind := by
  split
  · next hname =>
    rcases nameKind_cases accepts w.text.toList with ⟨hword, haccepts, hspelling⟩ | ⟨h, -⟩
    · rw [String.ofList_toList] at hspelling
      exact absurd hspelling (hfits.free hname _ hword haccepts)
    · rw [h, hname]
  · rfl

/-- Every other lexeme is the first that matches, if it is matched at all; only a colon might be
taken for one half of two. -/
theorem lexeme_of_other {accepts : Terminal → Bool} {w : Lexeme} {cs : List Char}
    (hfits : w.Fits accepts) (haccepts : accepts w.kind = true)
    (hargs : accepts .macroArgs = true → w.kind = .macroArgs)
    (hscan : w.kind.scan (w.text.toList ++ cs) = some (w.text.toList, cs))
    (hcolons : w.kind = .colon → accepts .pathSep = true → cs.head? ≠ some ':')
    (hother : ¬(accepts .name = true ∧ w.kind.isWord = true)) :
    lexeme accepts (w.text.toList ++ cs) = some (w.kind, w.text.toList, cs) := by
  refine findSome?_eq_some (d := w.kind) (mem_all_of_scan hscan) (fun t ht => ?_) ?_
  · by_contra hsome
    obtain ⟨x, hx⟩ := Option.ne_none_iff_exists'.mp hsome
    simp only [scanIn] at hx
    split at hx
    · simp at hx
    · next htried =>
      simp only [Bool.or_eq_true, Bool.not_eq_true', Bool.and_eq_true, not_or,
        Bool.not_eq_false] at htried
      obtain ⟨htaccepts, htried⟩ := htried
      obtain ⟨y, hy, -⟩ := Option.map_eq_some_iff.mp hx
      have hne : t ≠ w.kind := by simpa using List.mem_takeWhile_imp ht
      rcases eq_or_of_scan hy hscan with h | ⟨htname, hwname⟩ | h | h | ⟨h, hcolon⟩ | ⟨h, hsep⟩
      · exact hne h
      · rcases htname with rfl | htword <;> rcases hwname with hw | hwword
        · exact hne hw.symm
        · exact hother ⟨htaccepts, hwword⟩
        · exact htried ⟨hw ▸ haccepts, htword⟩
        · exact hne (eq_of_scan_keyword htword hwword hy hscan)
      · exact hne (h.trans (hargs (h ▸ htaccepts)).symm)
      · rw [h] at ht
        simp [Terminal.all] at ht
      · have hsep : t.spelling? = some "::" := by rw [h]; rfl
        have htext : w.kind.spelling? = some w.text :=
          spelling_of_spells (by rw [hcolon]; rfl) hfits.spells
        obtain ⟨-, hcs⟩ := scanSpelling_eq_some_iff.mp (scan_of_spelling hsep _ ▸ hy)
        rw [hcolon] at htext
        rw [← Option.some.inj htext] at hcs
        exact hcolons hcolon (h ▸ htaccepts) (by simp_all)
      · rw [h, hsep] at ht
        exact absurd ht (by decide)
  · simp only [scanIn, haccepts, Bool.not_true, Bool.false_or, Bool.and_eq_true, hother, if_false,
      hscan, Option.map_some, kind_of_fits hfits]

/-- No word is read where the arguments of a macro are asked for. -/
theorem not_accepts_macroArgs {accepts : Terminal → Bool} {kind : Terminal}
    (hargs : accepts .macroArgs = true → kind = .macroArgs) (hword : kind.isWord = true) :
    accepts .macroArgs = false :=
  Bool.eq_false_iff.mpr fun h => absurd (hargs h ▸ hword) (by decide)

/-- **The lexer finds a lexeme again** at the front of a text where it is accepted and stands
rightly, and where it is not the arguments of a macro that are asked for. -/
theorem lexeme_of_fits {accepts : Terminal → Bool} {w : Lexeme} {cs : List Char}
    (hfits : w.Fits accepts) (haccepts : accepts w.kind = true)
    (hargs : accepts .macroArgs = true → w.kind = .macroArgs) (hapart : w.kind.Apart cs) :
    lexeme accepts (w.text.toList ++ cs) = some (w.kind, w.text.toList, cs) := by
  by_cases hword : accepts .name = true ∧ w.kind.isWord = true
  · have hnoargs := not_accepts_macroArgs hargs hword.2
    have hspelling : w.kind.spelling? = some w.text :=
      spelling_of_spells (isSome_spelling_of_isWord hword.2) hfits.spells
    exact lexeme_of_keyword hword.1 hword.2 hfits.spells haccepts hnoargs
      (scan_append (isNameStart_of_isWord hword.2 hspelling)
        ⟨fun _ => hapart.1 (by simp [endsOpen, hword.2]), by simp⟩)
  · exact lexeme_of_other hfits haccepts hargs (scan_append hfits.spells hapart)
      (fun hcolon _ => hapart.2 hcolon) hword

/-- **What the lexer finds stands rightly where it was found.** -/
theorem fits_of_lexeme {accepts : Terminal → Bool} {kind : Terminal} {cs word rest : List Char}
    (h : lexeme accepts cs = some (kind, word, rest)) :
    cs = word ++ rest ∧ Lexeme.Fits accepts ⟨kind, String.ofList word⟩ := by
  obtain ⟨t, -, ht⟩ := List.exists_of_findSome?_eq_some h
  simp only [scanIn] at ht
  split at ht
  · simp at ht
  · next htried =>
    obtain ⟨⟨found, behind⟩, hscan, heq⟩ := Option.map_eq_some_iff.mp ht
    simp only [Prod.mk.injEq] at heq
    obtain ⟨hkind, rfl, rfl⟩ := heq
    obtain ⟨hcs, hne, hagain⟩ := scan_sound hscan
    refine ⟨hcs, ?_⟩
    by_cases hname : t = .name
    · rw [if_pos hname] at hkind
      rcases nameKind_cases accepts found with ⟨hword, -, hspelling⟩ | ⟨hk, hfree⟩
      · rw [hkind] at hword hspelling
        refine ⟨?_, fun h => absurd hword (by rw [show kind = .name from h]; decide)⟩
        rw [Spells, scan_of_spelling hspelling, scanSpelling_eq_some_iff]
        simp
      · rw [hkind] at hk
        refine ⟨?_, fun _ => hfree⟩
        rw [Spells, hk, String.toList_ofList, ← hname]
        exact hagain
    · rw [if_neg hname] at hkind
      rw [← hkind]
      exact ⟨by rw [Spells, String.toList_ofList]; exact hagain, fun h => absurd h hname⟩

/-- **Every token stands rightly where it was read.** -/
theorem fits_of_next {accepts : Terminal → Bool} {pos : Pos} {cs rest : List Char} {token : Token}
    (h : next accepts pos cs = .ok (some (token, rest))) : token.lexeme.Fits accepts := by
  rw [next] at h
  split at h
  · simp at h
  · next pos c cs _ =>
    split at h
    · next kind word rest hlexeme =>
      simp only [Except.ok.injEq, Option.some.injEq, Prod.mk.injEq] at h
      rw [← h.1]
      exact (fits_of_lexeme hlexeme).2
    · split at h <;> simp at h

/-! ## Blanks -/

/-- A character of a name is no blank, and no slash either. -/
theorem not_blank_of_isNameChar {c : Char} (h : isNameChar c = true) :
    isBlank c = false ∧ c ≠ '/' ∧ Text.isBlank c = false := by
  obtain ⟨hlow, hhigh⟩ := toNat_of_isNameChar h
  refine ⟨?_, ?_, ?_⟩
  · by_contra hblank
    simp only [isBlank, Bool.not_eq_false, Bool.or_eq_true, beq_iff_eq] at hblank
    rcases hblank with (((rfl | rfl) | rfl) | rfl) | rfl <;> exact absurd hlow (by decide)
  · rintro rfl
    exact absurd hlow (by decide)
  · simp only [Text.isBlank, Text.inRanges, Text.blankRanges, List.any_cons, List.any_nil,
      Bool.or_false, Bool.or_eq_false_iff, Bool.and_eq_false_iff, decide_eq_false_iff_not]
    omega

/-- No word begins with a blank or a slash. -/
theorem not_blank_of_scan {t : Terminal} {c : Char} {cs : List Char} {x : List Char × List Char}
    (h : t.scan (c :: cs) = some x) : isBlank c = false ∧ c ≠ '/' ∧ Text.isBlank c = false := by
  rcases lead_of_scan h with ht | ⟨-, hc⟩ | ⟨-, hc⟩
  · have hall : ∀ t ∈ Terminal.all, t.lead?.all fun c =>
        decide (isBlank c = false ∧ c ≠ '/' ∧ Text.isBlank c = false) := by
      decide
    have hlead := hall t (mem_all_of_scan h)
    rw [ht] at hlead
    exact of_decide_eq_true hlead
  · exact not_blank_of_isNameChar (by simp [isNameChar, hc])
  · exact not_blank_of_isNameChar (by simp [isNameChar, hc])

end Lexer

end TraitMock
