import TraitMock.Proofs.Decl.PartRules
import TraitMock.Proofs.Decl.RoundTrip
import TraitMock.Proofs.Syntax.Adjoining
import TraitMock.Proofs.Syntax.Pattern

/-!
# Proofs/Decl/Macros — the text of a macro type

A macro type keeps the text of its arguments as it is written.  Wherever one stands in what has been
read, the text has a name there, behind it a mark and behind this a group, with layout alone between
them, and the text of the type is the name, the mark and the group without the layout
(`Machine.macroAt_of_parse`).  The rule for macros knows this from its tokens, which adjoin, and no
other rule builds a macro.
-/

namespace TraitMock

/-- **A macro stands in a text**: a name, a mark and a group that nests two deep at most, with
layout alone between them, which is written as the text of the macro, in the span from the name to
the end of the group. -/
def MacroAt (file : Option String) (source : List Char) (text : String) (s : Span) : Prop :=
  ∃ front name gap gap' group behind : List Char,
    source = front ++ (name ++ (gap ++ '!' :: (gap' ++ (group ++ behind)))) ∧
    Terminal.name.Spells (String.ofList name) ∧ Filling gap ∧ Filling gap' ∧
    IsGroup group ∧ NestedInTwo group ∧ text = String.ofList (name ++ '!' :: group) ∧
    s = (⟨({} : Pos).after front,
        ({} : Pos).after (front ++ (name ++ (gap ++ '!' :: (gap' ++ group))))⟩ : Extent).toSpan
      (file.filter fun name => !name.isEmpty)

/-! ## What has been read -/

/-- A part that is a macro stands in a text. -/
def Part.MacroIn (file : Option String) (source : List Char) (part : Part) : Prop :=
  ∀ found ∈ part.macro?, MacroAt file source found.1 found.2

/-- The parts of a phrase that are macros stand in a text. -/
def MacrosIn (file : Option String) (source : List Char) (n : Nonterminal) (v : n.Val) : Prop :=
  AllParts (Part.MacroIn file source) (n.parts v)

variable {file : Option String} {source : List Char}

theorem Part.macroIn_of_eq_none {part : Part} (h : part.macro? = none) :
    part.MacroIn file source := by
  intro found hfound
  rw [h] at hfound
  cases hfound

/-- **A name, a mark and arguments that end a text one behind the other** are a macro in it. -/
theorem MacroAt.of_ends {before front₁ front₂ front₃ behind : List Char} {name mark args : Token}
    (hname : Machine.Ends before name front₁) (hmark : Machine.Ends front₁ mark front₂)
    (hargs : Machine.Ends front₂ args front₃) (hname_kind : name.kind = .name)
    (hmark_kind : mark.kind = .bang) (hargs_kind : args.kind = .macroArgs) :
    MacroAt file (front₃ ++ behind) (name.text ++ "!" ++ args.text)
      (Place.span ⟨file, name.extent.start, args.extent.stop⟩) := by
  obtain ⟨hname_spells, layout, -, rfl, hname_extent⟩ := hname
  obtain ⟨hmark_spells, gap, hgap, rfl, -⟩ := hmark
  obtain ⟨hargs_spells, gap', hgap', rfl, hargs_extent⟩ := hargs
  rw [hname_kind] at hname_spells
  rw [hmark_kind] at hmark_spells
  rw [hargs_kind] at hargs_spells
  have hbang : mark.text = "!" :=
    (Option.some.inj (Terminal.spelling_of_spells rfl hmark_spells)).symm
  obtain ⟨-, hgroup, hnested⟩ := Terminal.scanGroup_eq_some_iff.mp hargs_spells
  refine ⟨before ++ layout, name.text.toList, gap, gap', args.text.toList, behind, ?_,
    by rwa [String.ofList_toList], hgap, hgap', hgroup, hnested, ?_, ?_⟩
  · rw [hbang]
    simp
  · refine String.toList_inj.mp ?_
    simp
  · rw [Place.span, Place.namedFile, hname_extent, hargs_extent, hbang]
    simp

/-- **The rule for macros joins** a name, a mark and a group. -/
theorem Grammar.macroType_joins : macroType.Joins (MacrosIn file source) file source := by
  intro reading frames rest vals front behind here hreading hsource hadjoins hvals
  obtain rfl := List.mem_singleton.mp hreading
  obtain ⟨name, mark, args, ⟨⟩⟩ := vals
  -- The frames are a name, a mark and the arguments, and each of them ends a front of the text.
  obtain ⟨state₁, extent₁, _, rfl, htail₁⟩ := Machine.exists_of_values?_cons hvals
  obtain ⟨state₂, extent₂, _, rfl, htail₂⟩ := Machine.exists_of_values?_cons htail₁
  obtain ⟨state₃, extent₃, _, rfl, hnil⟩ := Machine.exists_of_values?_cons htail₂
  obtain rfl := Machine.eq_nil_of_values? hnil
  cases hadjoins with
  | token hbelow hargs_kind hargs_extent hargs =>
  cases hbelow with
  | token hbelow hmark_kind _ hmark =>
  cases hbelow with
  | token _ hname_kind hname_extent hname =>
  have hwritten : MacroAt file (front ++ behind) _ _ :=
    MacroAt.of_ends hname hmark hargs hname_kind hmark_kind hargs_kind
  rw [hname_extent, hargs_extent, ← hsource] at hwritten
  refine allParts_cons.mpr ⟨fun found hfound => ?_, allParts_nil⟩
  obtain rfl := Option.some.inj hfound
  exact hwritten

theorem Grammar.rules_joins : ∀ r ∈ rules, r.Joins (MacrosIn file source) file source := by
  refine forall_mem_rules (P := Part.MacroIn file source) (fun r hkeep => ?_) macroType_joins
  exact Rule.joins_of_all fun place vals hall =>
    hkeep place vals (fun _ => Part.macroIn_of_eq_none rfl)
    (fun ty _ hnone => Part.macroIn_of_eq_none hnone) hall

/-- **The text of a macro** that has been read is the name, the mark and the group of a macro that
stands in the text. -/
theorem Machine.macroAt_of_parse {entry : Entry} {v : entry.phrase.Val}
    (h : parse file entry source = .ok v) {text : String} {s : Span}
    (hmem : .type (.macroCall text s) ∈ entry.phrase.parts v) : MacroAt file source text s :=
  joined_of_parse (Q := MacrosIn file source) Grammar.rules_joins h _ hmem (text, s) rfl

/-- **The arguments of a macro are a group.**  The pattern of the arguments has at most one match at
a place in a text, which is the one that is read.  It is the group that is opened there, of which
there is one at most and which ends in a closing parenthesis, and there is a match if and only if
this group is closed in the text and nests two deep at most, whatever else stands in it.  So the
text of a macro that has been read is a name and a mark and then such a group of the text. -/
theorem macroArgs_group :
    (∀ cs : List Char,
      Pattern.group.rests cs = ((Terminal.macroArgs.scan cs).map Prod.snd).toList) ∧
    (∀ cs rest : List Char, rest ∈ Pattern.group.rests cs ↔
      ∃ word, cs = word ++ rest ∧ IsGroup word ∧ NestedInTwo word) ∧
    (∀ word rest word' rest' : List Char, IsGroup word → IsGroup word' →
      word ++ rest = word' ++ rest' → word = word' ∧ word.getLast? = some ')') ∧
    ∀ (file : Option String) (entry : Entry) (source : List Char) (v : entry.phrase.Val)
      (text : String) (s : Span), Machine.parse file entry source = .ok v →
        .type (.macroCall text s) ∈ entry.phrase.parts v → MacroAt file source text s := by
  refine ⟨Pattern.rests_group, fun _ _ => Pattern.mem_rests_group_iff,
    fun word rest word' rest' h h' heq => ?_,
    fun file entry source v text s h hmem => Machine.macroAt_of_parse h hmem⟩
  exact ⟨h.eq_of_append_eq h' heq, h.getLast?_eq⟩

/-- Quotes, ends of lines and what looks like a comment are text in a group; layout in front of it
is not. -/
theorem macroArgs_group_quoted :
    let source := "Vec<m ! ((a) // \"b\n)>"
    let text := "m!((a) // \"b\n)"
    let s : Span := ⟨none, some 1, some 5, some 2, some 2⟩
    ∃ ty, Ty.parse source = .ok ty ∧ .type (.macroCall text s) ∈ ty.parts ∧
      MacroAt none source.toList text s := by
  intro source text s
  obtain ⟨ty, hty, hmacros⟩ := exists_of_toOption (e := Ty.parse source)
    (f := fun ty => ty.parts.filterMap Part.macro?) (b := [(text, s)]) (by decide +kernel)
  obtain ⟨part, hpart, hfound⟩ : ∃ part ∈ ty.parts, part.macro? = some (text, s) :=
    List.mem_filterMap.mp (hmacros ▸ List.mem_singleton_self _)
  obtain rfl := Part.macro?_eq_some_iff.mp hfound
  exact ⟨ty, hty, hpart, macroArgs_group.2.2.2 _ .type _ ty _ _ hty hpart⟩

end TraitMock
