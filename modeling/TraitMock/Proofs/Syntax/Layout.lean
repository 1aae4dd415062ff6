import TraitMock.Proofs.Syntax.Draft

/-!
# Proofs/Syntax/Layout — writing a draft down

The text of a phrase is the texts of its parts one behind the other, some of them with a blank in
front (`spaced`).  Two parts may touch without a blank if neither a name nor a colon can run from
the one into the other, which the grammar tells (`touches`).

* `Parts.Draft.spelled` — so the text spells the lexemes of a draft.
* `Rule.preserves` — so what is read by a rule can be read again.
-/

namespace TraitMock

open Table Machine

/-! ## What may touch -/

/-- The marks of colons. -/
def Terminal.isColon (t : Terminal) : Bool := t == .colon || t == .pathSep

theorem Terminal.isLastMark_of_isColon {t : Terminal} (h : t.isColon = true) :
    t.isLastMark = true := by
  cases t <;> first | rfl | exact absurd h (by decide)

/-- What a symbol surely does not end with: a character that a name could go on with. -/
def Symbol.endsClosed : Symbol → Bool
  | .term t => !t.endsOpen
  | .phrase _ => false

/-- **Two symbols may touch** without a blank. -/
def touches (x y : Symbol) : Bool :=
  (x.endsClosed || (firstsOf y).all (!·.beginsOpen)) &&
    ((lastMarksOf x).all (!·.isColon) || (firstsOf y).all (!·.isColon))

/-- Whether symbols with blanks in front of some of them nowhere touch but where they may. -/
def fits (gaps : List Bool) : List Symbol → Bool
  | x :: y :: rest => (gaps.tail.headD false || touches x y) && fits gaps.tail (y :: rest)
  | _ => true

/-- **Texts one behind the other**, some of them with a blank in front. -/
@[simp] def spaced (gaps : List Bool) : List String → List Char
  | [] => []
  | s :: rest => (if gaps.headD false then [' '] else []) ++ (s.toList ++ spaced gaps.tail rest)

/-! ## Pieces of a text -/

/-- **A row of lexemes that a piece of text spells**, in the place of a symbol. -/
structure Piece (x : Symbol) (text : String) (ws : List Lexeme) : Prop where
  spelled : Spelled ws text.toList
  head : ∃ t ∈ firstsOf x, ws.head?.map Lexeme.kind = some t
  last : ∀ w ∈ ws.getLast?, (w.kind.isLastMark = true → w.kind ∈ lastMarksOf x) ∧
    (x.endsClosed = true → w.kind.endsOpen = false)

/-- A text with or without a blank in front. -/
theorem Spelled.indented {ws : List Lexeme} {cs : List Char} (h : Spelled ws cs) (gap : Bool) :
    Spelled ws ((if gap then [' '] else []) ++ cs) := by
  cases gap
  · exact h
  · exact .blank h

theorem Terminal.spells_ofKind {t : Terminal} (h : t.spelling?.isSome = true) :
    t.Spells (Lexeme.ofKind t).text := by
  obtain ⟨mark, hmark⟩ := Option.isSome_iff_exists.mp h
  rw [Lexeme.ofKind, hmark, Option.getD_some, Spells, scan_of_spelling hmark,
    scanSpelling_eq_some_iff]
  simp

/-- A word alone. -/
theorem Piece.of_spells {w : Lexeme} {t : Terminal} (hkind : w.kind = t)
    (hspells : t.Spells w.text) : Piece (.term t) w.text [w] := by
  subst hkind
  refine ⟨?_, ⟨w.kind, List.mem_singleton.mpr rfl, rfl⟩, fun v hv => ?_⟩
  · have hword := Spelled.word hspells ⟨fun _ _ hc => absurd hc (by simp), fun _ => by simp⟩ .nil
    rwa [List.append_nil] at hword
  · obtain rfl : w = v := by simpa using hv
    refine ⟨fun hmark => ?_, fun hclosed => by simpa [Symbol.endsClosed] using hclosed⟩
    simp only [Terminal.isLastMark, Bool.or_eq_true, beq_iff_eq] at hmark
    rw [lastMarksOf, if_pos (or_assoc.mp hmark)]
    exact List.mem_singleton.mpr rfl

/-- What a text begins with, its first word begins with. -/
theorem Spelled.head {w : Lexeme} {ws : List Lexeme} {cs : List Char} (h : Spelled (w :: ws) cs)
    {c : Char} (hc : cs.head? = some c) (hblank : c ≠ ' ') :
    (Terminal.isNameChar c = true → w.kind.beginsOpen = true) ∧
    (c = ':' → w.kind.isColon = true) := by
  cases h with
  | blank h => exact absurd (Option.some.inj hc).symm hblank
  | @word _ _ cs hspells hapart h =>
    obtain ⟨d, word, hd⟩ := List.exists_cons_of_ne_nil (Terminal.scan_sound hspells).2.1
    rw [Terminal.Spells, hd] at hspells
    obtain rfl : d = c := by simpa [hd] using hc
    have hall : ∀ t ∈ Terminal.all, t.lead?.all fun c =>
        decide ((Terminal.isNameChar c = true → t.beginsOpen = true) ∧
          (c = ':' → t.isColon = true)) := by
      decide
    rcases Terminal.lead_of_scan hspells with hlead | ⟨hname, hstart⟩ | ⟨hint, hdigit⟩
    · have hd := hall _ (Terminal.mem_all_of_scan hspells)
      rw [hlead] at hd
      exact of_decide_eq_true hd
    · rw [hname]
      exact ⟨fun _ => rfl, by rintro rfl; exact absurd hstart (by decide)⟩
    · rw [hint]
      exact ⟨fun _ => rfl, by rintro rfl; exact absurd hdigit (by decide)⟩

/-- What a word ends with. -/
theorem Terminal.last_of_spells {t : Terminal} {word : String} {c : Char} (h : t.Spells word)
    (hc : word.toList.getLast? = some c) :
    (isNameChar c = true → t.endsOpen = true) ∧ (c = ':' → t.isColon = true) := by
  rcases getLast_of_spells h hc with ⟨hopen, hname⟩ | ⟨-, ⟨-, rfl⟩ | ⟨s, hs, hlast⟩⟩
  · exact ⟨fun _ => hopen, by rintro rfl; exact absurd hname (by decide)⟩
  · exact ⟨fun hname => absurd hname (by decide), fun heq => absurd heq (by decide)⟩
  · have hall : ∀ t ∈ all, ∀ s ∈ t.spelling?.toList, s.toList.getLast?.all fun c =>
        decide ((isNameChar c = true → t.endsOpen = true) ∧ (c = ':' → t.isColon = true)) := by
      decide
    have hc := hall t (mem_all_of_spelling hs) s (by simp [hs])
    rw [hlast] at hc
    exact of_decide_eq_true hc

/-- **Where symbols may touch, their texts do not run into one another.** -/
theorem Piece.meets {x y : Symbol} {s : String} {us vs : List Lexeme} {ds : List Char}
    (h : Piece x s us) (hds : Spelled vs ds)
    (hhead : ∃ t ∈ firstsOf y, vs.head?.map Lexeme.kind = some t) (htouches : touches x y = true) :
    Spelled.Meets s.toList ds := by
  obtain ⟨t, ht, hhead⟩ := hhead
  simp only [touches, Bool.and_eq_true, Bool.or_eq_true, List.all_eq_true,
    Bool.not_eq_true'] at htouches
  intro a ha b hb
  have hblank : Terminal.isNameChar ' ' = false := by decide
  by_cases hspace : a = ' ' ∨ b = ' '
  · rcases hspace with rfl | rfl <;> simp [hblank]
  · rw [not_or] at hspace
    obtain ⟨w, hw, hspells, hlast⟩ := h.spelled.getLast ha hspace.1
    obtain ⟨v, vs, rfl⟩ : ∃ v vs', vs = v :: vs' := by
      cases vs with
      | nil => simp at hhead
      | cons v vs => exact ⟨v, vs, rfl⟩
    obtain rfl : v.kind = t := by simpa using hhead
    have hfirst := hds.head hb hspace.2
    have hends := Terminal.last_of_spells hspells hlast
    constructor
    · rintro ⟨hname, hname'⟩
      rcases htouches.1 with hclosed | hopen
      · exact absurd (hends.1 hname) (by simp [(h.last w hw).2 hclosed])
      · exact absurd (hfirst.1 hname') (by simp [hopen _ ht])
    · rintro ⟨hcolon, hcolon'⟩
      have hmark := hends.2 hcolon
      rcases htouches.2 with hlasts | hfirsts
      · have hmem := (h.last w hw).1 (Terminal.isLastMark_of_isColon hmark)
        exact absurd hmark (by simp [hlasts _ hmem])
      · exact absurd (hfirst.2 hcolon') (by simp [hfirsts _ ht])

/-! ## Rows of pieces -/

/-- The pieces of text that the symbols of a sequence are written as. -/
def Row : List (Symbol × String) → List Lexeme → Prop
  | [], ws => ws = []
  | (x, text) :: rest, ws => ∃ us vs, ws = us ++ vs ∧ Piece x text us ∧ Row rest vs

theorem Row.append : ∀ {xs ys : List (Symbol × String)} {us vs : List Lexeme},
    Row xs us → Row ys vs → Row (xs ++ ys) (us ++ vs)
  | [], _, _, _, h, h' => by
    rw [show _ = [] from h]
    exact h'
  | _ :: _, _, _, vs, ⟨us, us', hus, hpiece, h⟩, h' =>
    ⟨us, us' ++ vs, by rw [hus, List.append_assoc], hpiece, h.append h'⟩

/-- **Pieces with blanks where they must not touch spell their rows one behind the other.** -/
theorem Row.spelled : ∀ {pieces : List (Symbol × String)} {gaps : List Bool} {ws : List Lexeme},
    Row pieces ws → fits gaps (pieces.map Prod.fst) = true →
      Spelled ws (spaced gaps (pieces.map Prod.snd))
  | [], _, _, h, _ => by
    rw [show _ = [] from h]
    exact .nil
  | [(x, text)], gaps, _, ⟨us, vs, hws, hpiece, hvs⟩, _ => by
    rw [hws, show vs = [] from hvs, List.append_nil]
    simp only [List.map_cons, List.map_nil, spaced, List.append_nil]
    exact hpiece.spelled.indented _
  | (x, text) :: (y, text') :: rest, gaps, _, ⟨us, vs, hws, hpiece, hvs⟩, hfits => by
    simp only [List.map_cons, fits, Bool.and_eq_true, Bool.or_eq_true] at hfits
    have hrest := hvs.spelled hfits.2
    obtain ⟨us', vs', hvs', hpiece', -⟩ := hvs
    rw [hws]
    refine (hpiece.spelled.append hrest ?_).indented _
    -- Behind a blank anything may stand; without one the two symbols may touch.
    cases hgap : gaps.tail.headD false with
    | true =>
      refine Spelled.meets_of_head (b := ' ') ?_ (by decide) (by decide)
      rw [List.map_cons, spaced, hgap]
      rfl
    | false =>
      obtain ⟨t, ht, hhead⟩ := hpiece'.head
      obtain ⟨w, hw, -⟩ := Option.map_eq_some_iff.mp hhead
      refine hpiece.meets hrest ⟨t, ht, ?_⟩ (hfits.1.resolve_left (by rw [hgap]; decide))
      rw [hvs', List.head?_append, hw, Option.some_or, ← hw, hhead]

namespace Parts

/-- **The pieces of text of the parts of a rule.** -/
@[simp] def pieces (W : Writing) : (p : Parts) → p.Val → List (Symbol × String)
  | .done, _ => []
  | .mark t rest, vals => (.term t, t.spelling?.getD "") :: rest.pieces W vals
  | .token t rest, (tok, vals) => (.term t, tok.text) :: rest.pieces W vals
  | .phrase n rest, (v, vals) => (.phrase n, W.text n v) :: rest.pieces W vals
  | .maybe _ rest, (none, vals) => rest.pieces W vals
  | .maybe inner rest, (some u, vals) => inner.pieces W u ++ rest.pieces W vals

theorem spaced_append : ∀ {gaps : List Bool} {texts : List String} (gaps' : List Bool)
    (texts' : List String), gaps.length = texts.length →
      spaced (gaps ++ gaps') (texts ++ texts') = spaced gaps texts ++ spaced gaps' texts'
  | [], [], _, _, _ => rfl
  | _ :: gaps, _ :: texts, gaps', texts', h => by
    simp [spaced_append gaps' texts' (Nat.succ.inj h)]

/-- **The text of an option** in front of other parts. -/
theorem spaced_maybe {W : Writing} {p q : Parts} (o : Option p.Val) (vals : q.Val)
    (front : p.Val → List Bool) (gaps : List Bool)
    (hfront : ∀ u, (front u).length = (p.pieces W u).length) :
    spaced ((o.map front).getD [] ++ gaps) (((maybe p q).pieces W (o, vals)).map Prod.snd) =
      (o.map fun u => spaced (front u) ((p.pieces W u).map Prod.snd)).getD [] ++
        spaced gaps ((q.pieces W vals).map Prod.snd) := by
  cases o with
  | none => rfl
  | some u =>
    rw [pieces, List.map_append]
    exact spaced_append _ _ ((hfront u).trans (List.length_map ..).symm)

theorem map_fst_pieces (W : Writing) : ∀ (p : Parts) (vals : p.Val),
    (p.pieces W vals).map Prod.fst = p.symbols vals
  | .done, _ => rfl
  | .mark _ rest, vals => congrArg (_ :: ·) (map_fst_pieces W rest vals)
  | .token _ rest, (_, vals) => congrArg (_ :: ·) (map_fst_pieces W rest vals)
  | .phrase _ rest, (_, vals) => congrArg (_ :: ·) (map_fst_pieces W rest vals)
  | .maybe _ rest, (none, vals) => map_fst_pieces W rest vals
  | .maybe inner rest, (some u, vals) => by
    rw [pieces, symbols, List.map_append, map_fst_pieces W inner u, map_fst_pieces W rest vals]

/-- A draft is written piece by piece. -/
theorem Draft.row {W : Writing} {n : Nonterminal} {s₀ : Nat} {p : Parts} {front : List Symbol}
    {vals : p.Val} {ws : List Lexeme} {next : Terminal} (hmarked : p.marked = true)
    (h : p.Draft W n s₀ front vals ws next) : Row (p.pieces W vals) ws := by
  induction p generalizing front ws next with
  | done => exact h
  | mark t rest ih =>
    rw [marked, Bool.and_eq_true] at hmarked
    obtain ⟨vs, hws, h⟩ := h
    exact ⟨[.ofKind t], vs, hws, .of_spells (w := .ofKind t) rfl (Terminal.spells_ofKind hmarked.1),
      ih hmarked.2 h⟩
  | token t rest ih =>
    obtain ⟨tok, vals⟩ := vals
    obtain ⟨vs, hws, ⟨hkind, hspells, -⟩, h⟩ := h
    exact ⟨[tok.lexeme], vs, hws, .of_spells (w := tok.lexeme) hkind hspells, ih hmarked h⟩
  | phrase m rest ih =>
    obtain ⟨v, vals⟩ := vals
    obtain ⟨us, vs, hws, ⟨_, _, _, hagain, -⟩, h⟩ := h
    obtain ⟨t, ht, hhead, -⟩ := hagain.head
    refine ⟨us, vs, hws, ⟨hagain.spelled, ⟨t, ht, hhead⟩, fun w hw => ⟨hagain.last w hw, ?_⟩⟩,
      ih hmarked h⟩
    intro hterm
    cases hterm
  | maybe inner rest ihInner ih =>
    rw [marked, Bool.and_eq_true] at hmarked
    obtain ⟨_ | u, vals⟩ := vals
    · exact ih hmarked.2 h
    · obtain ⟨us, vs, rfl, h, h'⟩ := h
      exact (ihInner hmarked.1 h).append (ih hmarked.2 h')

/-- **The text of the parts of a rule spells the lexemes of their draft.** -/
theorem Draft.spelled {W : Writing} {n : Nonterminal} {s₀ : Nat} {p : Parts} {front : List Symbol}
    {vals : p.Val} {ws : List Lexeme} {next : Terminal} (hmarked : p.marked = true)
    (h : p.Draft W n s₀ front vals ws next) {gaps : List Bool}
    (hfits : fits gaps (p.symbols vals) = true) :
    Spelled ws (spaced gaps ((p.pieces W vals).map Prod.snd)) :=
  (h.row hmarked).spelled (by rwa [map_fst_pieces])

end Parts

/-! ## What is read by a rule -/

/-- **How a phrase that a rule has built is written again**: from values of its parts with some of
the options left out, by a text that is laid out from theirs. -/
structure Rewrite (W : Writing) (r : Rule) (place : Place) (vals vals' : r.parts.Val) : Prop where
  thins : r.parts.Thins r.lhs false [] [] ((follow r.lhs).contains .pathSep) vals vals'
  written : r.parts.Written W vals'
  text : ∃ gaps, fits gaps (r.parts.symbols vals') = true ∧
    ∀ {ws : List Lexeme}, Spelled ws (spaced gaps ((r.parts.pieces W vals').map Prod.snd)) →
      Spelled ws (W.text r.lhs (r.action place vals)).toList
  back : ∀ place' vals'', r.parts.BackAs W vals' vals'' →
    W.back r.lhs (r.action place vals) (r.action place' vals'')

/-- Writing again with nothing left out. -/
theorem Rewrite.of_text {W : Writing} {r : Rule} {place : Place} {vals : r.parts.Val}
    (hwritten : r.parts.Written W vals) (gaps : List Bool)
    (hfits : fits gaps (r.parts.symbols vals) = true)
    (htext : (W.text r.lhs (r.action place vals)).toList =
      spaced gaps ((r.parts.pieces W vals).map Prod.snd))
    (hback : ∀ place' vals', r.parts.BackAs W vals vals' →
      W.back r.lhs (r.action place vals) (r.action place' vals')) : Rewrite W r place vals vals :=
  ⟨.refl .., hwritten, ⟨gaps, hfits, fun h => htext ▸ h⟩, hback⟩

/-- **All that a rule builds can be written again.** -/
def Rule.Rewrites (W : Writing) (r : Rule) : Prop :=
  r.lhs ∉ itemPhrases → ∀ (place : Place) (vals : r.parts.Val), r.parts.Sound W vals →
    W.sound r.lhs (r.action place vals) ∧
      (W.written r.lhs (r.action place vals) → ∃ vals', Rewrite W r place vals vals')

/-- **What a rule reads can be read again** if all that it builds can be written again. -/
theorem Rule.Rewrites.preserves {W : Writing} {r : Rule} (hr : r ∈ Grammar.rules)
    (h : r.Rewrites W) : r.Preserves (Rereads W) := by
  intro s g stop first next place vals hg hholds hends hitem
  obtain ⟨hsound, hrewrite⟩ := h hitem place vals (hholds.sound hitem (Rule.within hr vals))
  refine ⟨hsound, fun hwritten => ?_⟩
  obtain ⟨vals', hthins, hparts, ⟨gaps, hfits, htext⟩, hback⟩ := hrewrite hwritten
  have hs : Begins s r.lhs := ⟨hitem, by rw [hg]; rfl⟩
  have hnext : next = .pathSep → next = .pathSep ∧ (follow r.lhs).contains .pathSep = true :=
    fun hsep => ⟨hsep, List.contains_iff_mem.mpr (hsep ▸ hends.1 hitem)⟩
  obtain ⟨ws, hdraft, hopen⟩ :=
    hholds.exists_draft hs (Rule.within hr vals) rfl hthins hparts hnext
  exact ⟨ws, .of_draft hr hitem hends hdraft (fun hsep => (hopen rfl hsep).1)
    (htext (hdraft.spelled (Rule.marked hr) hfits)) hback⟩

end TraitMock
