import TraitMock.Proofs.Command.Sources

/-!
# Proofs/Command/Lines — one line for each diagnostic

Whatever is found is told in one line, but for an opaque type that is written over several
(`DeclFile.oneLine_or_spreads`): its text goes into the message as it is.  So in a run on sources
without such types, what is written about the diagnostics has a line for each of them, which names
the source, the place there, the severity and the message (`oneLine_throughout`).
-/

namespace TraitMock

/-! ## What is told in one line -/

/-- The text of a part that is an opaque type. -/
def Part.opaqueText? : Part → Option String
  | .type ty => ty.opaqueText?
  | .path _ => none

/-- **The texts of the opaque types in a file.** -/
def DeclFile.opaqueTexts (decls : DeclFile) : List String :=
  decls.items.flatMap fun item => item.parts.filterMap Part.opaqueText?

/-- **A file is tight**: no opaque type in it is written over several lines. -/
def DeclFile.Tight (decls : DeclFile) : Prop := ∀ text ∈ decls.opaqueTexts, OneLine text

instance (decls : DeclFile) : Decidable decls.Tight :=
  inferInstanceAs (Decidable (∀ text ∈ decls.opaqueTexts, OneLine text))

/-- **A diagnostic spreads**: it is about an opaque type of a file, which is written over several
lines, and quotes its text. -/
def DeclFile.Spreads (decls : DeclFile) (d : Diagnostic) : Prop :=
  ∃ item ∈ decls.items, ∃ ty text, .type ty ∈ item.parts ∧ ty.opaqueText? = some text ∧
    ¬ OneLine text ∧
    ∃ problem : Problem, problem.quoted? = some text ∧ d = .ofProblem problem ty.span

theorem DeclFile.Tight.not_spreads {decls : DeclFile} (h : decls.Tight) (d : Diagnostic) :
    ¬ decls.Spreads d := by
  rintro ⟨item, hitem, ty, text, hty, htext, hspread, -⟩
  exact hspread
    (h text (List.mem_flatMap.mpr ⟨item, hitem, List.mem_filterMap.mpr ⟨_, hty, htext⟩⟩))

/-- **A file that cannot be read is told so in one line.** -/
theorem DeclFile.oneLine_of_collect (file : Option String) (text : String) :
    ∀ d ∈ (DeclFile.collect file text).2, OneLine d.message := by
  unfold DeclFile.collect
  split
  next => exact List.forall_mem_nil _
  next e _ => exact List.forall_mem_singleton.mpr e.oneLine_message

/-- **What is reported on a file is told in one line**, unless it spreads. -/
theorem DeclFile.oneLine_or_spreads (decls : DeclFile) (levels : Int) :
    (decls.plan levels).Reports fun d =>
      d.severity = "error" ∧ (OneLine d.message ∨ decls.Spreads d) := by
  refine reports_planItems fun item hitem d hd => ?_
  cases item.reports_plan levels d hd with
  | @type ty problem hty hquotes =>
    refine ⟨rfl, or_iff_not_imp_left.mpr fun hmessage => ?_⟩
    obtain ⟨text, hquoted, hspread⟩ : ∃ text, problem.quoted? = some text ∧ ¬ OneLine text := by
      simpa [Problem.oneLine_message_iff, Diagnostic.ofProblem] using hmessage
    exact ⟨item, hitem, ty, text, hty, hquotes text hquoted, hspread, problem, hquoted, rfl⟩
  | @pattern m pat ty s problem hm hparam hquotes =>
    refine ⟨rfl, .inl ((Problem.oneLine_message_iff problem).mpr fun text hquoted => ?_)⟩
    cases hquotes text hquoted

/-! ## Lines -/

/-- A place as it is shown behind the name of its file. -/
def Span.place (s : Span) : String :=
  match s.line, s.column with
  | some line, some column => toString line ++ ":" ++ toString column
  | _, _ => "?:?"

theorem Span.oneLine_place (s : Span) : OneLine s.place := by
  unfold place
  split
  · have hcolon : OneLine ":" := by decide
    simp only [OneLine.append_iff, OneLine.toString_int, hcolon, and_self]
  · decide

namespace Command

/-- **A finding is shown by its source, its place there, its severity and its message.** -/
def Finding.IsShown (p : Finding) : Prop :=
  p.diagnostic.line p.source = p.source ++ ":" ++ p.diagnostic.span.place ++ ": " ++
    p.diagnostic.severity ++ ": " ++ p.diagnostic.message

theorem Finding.isShown_of_span {d : Diagnostic} {name : String} (hname : name ≠ "")
    {line column : Int} (hfile : d.span.file = some name) (hline : d.span.line = some line)
    (hcolumn : d.span.column = some column) : Finding.IsShown ⟨d, name⟩ := by
  have hempty : name.isEmpty = false := by simpa using hname
  have hformat : d.span.format = name ++ ":" ++ d.span.place := by
    simp only [Span.format, Span.formatParts, Span.place, hfile, hline, hcolumn, hempty,
      Bool.false_eq_true, if_false, Option.getD_some]
    rfl
  have hknown : d.span.isKnown = true := by rw [Span.isKnown, hline, Option.isSome_some]
  simp only [IsShown, Diagnostic.line, Span.fillFile_of_file hfile, hknown, if_true, hformat]

variable {levels : Int} {lookup : SourcePath → Source} {name : String} {source : Source}
  {d : Diagnostic}

namespace Source.Yields

/-- **What is found in a source is shown at its place there**, or where there is none, by question
marks. -/
theorem isShown (h : source.Yields levels name d) (hname : name ≠ "") :
    Finding.IsShown ⟨d, name⟩ := by
  cases h with
  | missing =>
    have hmarks : (":?:?" : String) = ":" ++ "?:?" := by decide
    show name ++ ":?:?" ++ ": " ++ _ ++ ": " ++ _ = name ++ ":" ++ "?:?" ++ ": " ++ _ ++ ": " ++ _
    rw [hmarks, ← String.append_assoc]
  | unread e => exact Finding.isShown_of_span hname rfl rfl rfl
  | planned read reported =>
    obtain ⟨text, hparse⟩ := Source.parse_of_read? read
    obtain ⟨e, hspan⟩ := DeclFile.spans_of_report hparse levels _ reported
    have hfile : d.span.file = some name := by
      rw [hspan]
      simp [Extent.toSpan, Option.filter, hname]
    exact Finding.isShown_of_span hname hfile (congrArg Span.line hspan)
      (congrArg Span.column hspan)

/-- **What is found in a source is told in one line**, unless it is about an opaque type that is
not. -/
theorem oneLine (h : source.Yields levels name d) (hname : OneLine name) :
    d.severity = "error" ∧ (OneLine d.message ∨ ∃ decls ∈ source.read? name, decls.Spreads d) := by
  cases h with
  | missing =>
    refine ⟨rfl,
      .inl ((Problem.oneLine_message_iff (.missingSource name)).mpr fun text htext => ?_)⟩
    exact Option.some.inj htext ▸ hname
  | unread e => exact ⟨rfl, .inl e.oneLine_message⟩
  | planned read reported =>
    obtain ⟨hseverity, hmessage⟩ := DeclFile.oneLine_or_spreads _ levels d reported
    exact ⟨hseverity, hmessage.imp_right fun hspreads => ⟨_, read, hspreads⟩⟩

/-- Where a source is tight, the line about what is found in it is one. -/
theorem oneLine_line (h : source.Yields levels name d) (hname : name ≠ "") (hline : OneLine name)
    (htight : ∀ decls ∈ source.read? name, decls.Tight) : OneLine (d.line name) := by
  obtain ⟨hseverity, hmessage⟩ := h.oneLine hline
  have hmessage : OneLine d.message := by
    rcases hmessage with hmessage | ⟨decls, hread, hspreads⟩
    · exact hmessage
    · exact absurd hspreads ((htight decls hread).not_spreads d)
  have hwords : OneLine ":" ∧ OneLine ": " ∧ OneLine "error" := by decide
  have hshown : d.line name = _ := h.isShown hname
  rw [hshown]
  simp only [OneLine.append_iff, hline, hseverity, hmessage, hwords, Span.oneLine_place, and_self]

end Source.Yields

/-- The findings of several sources are what each of them yields. -/
theorem Findings.yields_ofSources {paths : List SourcePath} {f : Findings}
    (h : ofSources levels lookup paths = .ok f) :
    ∀ p ∈ f.problems, ∃ path ∈ paths, p.source = path.text ∧
      (lookup path).Yields levels path.text p.diagnostic := by
  induction paths generalizing f with
  | nil =>
    cases h
    exact List.forall_mem_nil _
  | cons path rest ih =>
    rw [ofSources] at h
    cases hfirst : ofSource levels path.text (lookup path) with
    | error fault =>
      rw [hfirst] at h
      cases h
    | ok first =>
      cases hrest : ofSources levels lookup rest with
      | error fault =>
        rw [hfirst, hrest] at h
        cases h
      | ok more =>
        rw [hfirst, hrest] at h
        cases h
        intro p hp
        rcases List.mem_append.mp hp with hp | hp
        · exact ⟨path, List.mem_cons_self, yields_ofSource hfirst p hp⟩
        · obtain ⟨path', hpath', hyields⟩ := ih hrest p hp
          exact ⟨path', List.mem_cons_of_mem _ hpath', hyields⟩

/-- **Lines of text are read back** as they were written, if each of them is one. -/
theorem splitOn_unlines {lines : List String} (h : ∀ l ∈ lines, OneLine l) :
    (unlines lines).toList.splitOn '\n' = lines.map String.toList ++ [[]] := by
  induction lines with
  | nil => rfl
  | cons l rest ih =>
    obtain ⟨hl, hrest⟩ := List.forall_mem_cons.mp h
    have hunlines : (unlines (l :: rest)).toList = l.toList ++ '\n' :: (unlines rest).toList := by
      rw [unlines, List.map_cons, String.join_cons, String.toList_append, String.toList_append,
        List.append_assoc]
      rfl
    have hnone : ∀ c ∈ l.toList, (c == '\n') = false := by
      intro c hc
      exact beq_eq_false_iff_ne.mpr fun hfeed => hl (hfeed ▸ hc)
    rw [hunlines, List.splitOn, List.splitOnP_append_cons_of_forall_mem hnone '\n' rfl,
      List.map_cons, List.cons_append, ← ih hrest]
    rfl

/-! ## The names of sources -/

namespace SourcePath

theorem mem_of_mem_pieces {c : Char} {cs piece : List Char} (h : piece ∈ pieces cs)
    (hc : c ∈ piece) : c ∈ cs := by
  induction cs generalizing piece with
  | nil =>
    obtain rfl := List.mem_singleton.mp h
    exact hc
  | cons d cs ih =>
    rw [pieces] at h
    split at h
    · rcases List.mem_cons.mp h with rfl | h
      · cases hc
      · exact List.mem_cons_of_mem _ (ih h hc)
    · split at h
      · obtain rfl := List.mem_singleton.mp h
        exact List.mem_cons.mpr (.inl (List.mem_singleton.mp hc))
      next first rest hpieces =>
        rcases List.mem_cons.mp h with rfl | h
        · rcases List.mem_cons.mp hc with rfl | hc
          · exact List.mem_cons_self
          · exact List.mem_cons_of_mem _ (ih (hpieces ▸ List.mem_cons_self) hc)
        · exact List.mem_cons_of_mem _ (ih (hpieces ▸ List.mem_cons_of_mem _ h) hc)

theorem oneLine_joined {sep : String} (hsep : OneLine sep) :
    {ss : List String} → (∀ s ∈ ss, OneLine s) →
    OneLine (Text.joined sep ss)
  | [], _ => (by decide : OneLine "")
  | [_], h => h _ List.mem_cons_self
  | s :: t :: rest, h => by
    obtain ⟨hs, hrest⟩ := List.forall_mem_cons.mp h
    rw [Text.joined_cons_cons, OneLine.append_iff, OneLine.append_iff]
    exact ⟨⟨hs, hsep⟩, oneLine_joined hsep hrest⟩

/-- The path of a name of one line is shown in one line. -/
theorem oneLine_text {name : String} (h : OneLine name) : OneLine (ofString name).text := by
  have hroot (start : PathRoot) : OneLine start.text := by cases start <;> decide
  unfold text
  split
  · decide
  · refine OneLine.append_iff.mpr ⟨hroot _, oneLine_joined (by decide) fun piece hpiece => ?_⟩
    obtain ⟨cs, hcs, rfl⟩ := List.mem_map.mp (List.mem_filter.mp hpiece).1
    exact OneLine.ofList_iff.mpr fun hfeed => h (mem_of_mem_pieces hcs hfeed)

theorem joined_ne_empty (sep : String) : {ss : List String} → ss ≠ [] → (∀ s ∈ ss, s ≠ "") →
    Text.joined sep ss ≠ ""
  | [], hne, _ => absurd rfl hne
  | [_], _, h => h _ List.mem_cons_self
  | s :: t :: rest, _, h => by
    rw [Text.joined_cons_cons, String.append_assoc]
    exact fun hempty => h s List.mem_cons_self (String.append_eq_empty_iff.mp hempty).1

/-- The path of a source is never shown as nothing. -/
theorem text_ne_empty (name : String) : (ofString name).text ≠ "" := by
  have hnames : ∀ piece ∈ (ofString name).names, piece ≠ "" := by
    intro piece hpiece
    have hkept := (List.mem_filter.mp hpiece).2
    rw [Bool.and_eq_true, decide_eq_true_eq] at hkept
    exact hkept.1
  unfold text
  split
  next => decide
  next hsomewhere =>
    rw [Ne, String.append_eq_empty_iff, not_and]
    intro hstart
    refine joined_ne_empty "/" (fun hnil => hsomewhere ⟨?_, hnil⟩) hnames
    cases hroot : (ofString name).root with
    | here => rfl
    | root | doubled =>
      rw [hroot] at hstart
      exact absurd hstart (by decide)

end SourcePath

/-! ## Runs -/

/-- **Diagnostics are told in one line each**, but for opaque types that are written over several.
The message about a text that cannot be read is one line; so is every message about what has been
read, or it quotes the text of an opaque type that is not.  And in a run that shows its findings as
text, on sources with names of one line and without such types, what is written about the findings
has one line for each of them, which names the source, the place there, the severity and the
message. -/
theorem oneLine_throughout (file : Option String) (text : String) :
    (∀ d ∈ (DeclFile.collect file text).2, OneLine d.message) ∧
    (∀ decls ∈ (DeclFile.collect file text).1, ∀ (levels : Int),
      ∀ d ∈ ((decls.plan levels).run .collect).reports, OneLine d.message ∨ decls.Spreads d) ∧
    ∀ {args : List String} {o : Options} {lookup : SourcePath → Source} {out : Output},
      Options.ofArgs args = .ok o → o.json = false → (∀ source ∈ o.sources, OneLine source) →
      (∀ path ∈ o.paths, ∀ decls ∈ (lookup path).read? path.text, decls.Tight) →
      run args lookup = .ok out →
      ∃ f, Findings.ofSources o.levels lookup o.paths = .ok f ∧ (∀ p ∈ f.problems, p.IsShown) ∧
        out.stderr.toList.splitOn '\n' =
          (f.problems.map fun p => (p.diagnostic.line p.source).toList) ++ [[]] := by
  refine ⟨DeclFile.oneLine_of_collect file text, fun decls _ levels d hd =>
    (decls.oneLine_or_spreads levels d hd).2, ?_⟩
  intro args o lookup out hoptions hjson hsources htight hrun
  rw [run_of_options hoptions, Options.run] at hrun
  cases hfindings : Findings.ofSources o.levels lookup o.paths with
  | error fault =>
    rw [hfindings] at hrun
    cases hrun
  | ok f =>
    rw [hfindings, hjson] at hrun
    cases hrun
    have hshown : ∀ p ∈ f.problems, p.IsShown ∧ OneLine (p.diagnostic.line p.source) := by
      rintro ⟨d, source⟩ hp
      obtain ⟨path, hpath, rfl, hyields⟩ := Findings.yields_ofSources hfindings _ hp
      obtain ⟨name, hname, rfl⟩ := List.mem_map.mp hpath
      have hne := SourcePath.text_ne_empty name
      have hline := SourcePath.oneLine_text (hsources name hname)
      exact ⟨hyields.isShown hne, hyields.oneLine_line hne hline (htight _ hpath)⟩
    refine ⟨f, rfl, fun p hp => (hshown p hp).1, ?_⟩
    show (unlines f.problemLines).toList.splitOn '\n' = _
    rw [Findings.problemLines,
      splitOn_unlines (List.forall_mem_map.mpr fun p hp => (hshown p hp).2), List.map_map]
    rfl

/-- A file with an opaque type, and one that is no declaration. -/
def macroFiles : FileTree :=
  [⟨["a.rs"], "trait T \x7b fn f(x: m!(u8)); \x7d".toUTF8.toList⟩,
    ⟨["b.rs"], "trait".toUTF8.toList⟩]

/-- The second is told about in one line, and a run on both and on a missing one fails and writes
one line for each of its findings. -/
theorem macroFiles_oneLine :
    (∀ d ∈ (DeclFile.collect (some "b.rs") "trait").2, OneLine d.message) ∧
    ∃ o out f, Options.ofArgs ["a.rs", "no.rs", "b.rs"] = .ok o ∧
      run ["a.rs", "no.rs", "b.rs"] macroFiles.lookup = .ok out ∧
      Findings.ofSources o.levels macroFiles.lookup o.paths = .ok f ∧
      out.exitCode = 1 ∧ (∀ p ∈ f.problems, p.IsShown) ∧
      out.stderr.toList.splitOn '\n' =
        (f.problems.map fun p => (p.diagnostic.line p.source).toList) ++ [[]] := by
  have hoptions :
      Options.ofArgs ["a.rs", "no.rs", "b.rs"] = .ok ⟨["a.rs", "no.rs", "b.rs"], 2, false⟩ := by
    decide +kernel
  obtain ⟨out, hrun, hcode⟩ := exists_of_toOption
    (e := run ["a.rs", "no.rs", "b.rs"] macroFiles.lookup)
    (f := Output.exitCode) (b := 1) (by decide +kernel)
  obtain ⟨hunread, -, hruns⟩ := oneLine_throughout (some "b.rs") "trait"
  obtain ⟨f, hfindings, hshown, hstderr⟩ := hruns hoptions rfl (by decide) (by decide +kernel) hrun
  exact ⟨hunread, _, out, f, hoptions, hrun, hfindings, hcode, hshown, hstderr⟩

/-- A macro that is written over two lines is told about in two. -/
theorem spreadMacro_spreads :
    ∃ decls, DeclFile.collect none "trait T \x7b fn f(x: m!(\n)); \x7d" = (some decls, []) ∧
      ∃ d ∈ ((decls.plan 2).run .collect).reports, ¬ OneLine d.message := by
  obtain ⟨decls, hparse, hspread⟩ := exists_of_toOption
    (e := DeclFile.parse none "trait T \x7b fn f(x: m!(\n)); \x7d")
    (f := fun decls => ((decls.plan 2).run .collect).reports.any fun d =>
      !decide (OneLine d.message))
    (b := true) (by decide +kernel)
  obtain ⟨d, hd, hmessage⟩ := List.any_eq_true.mp hspread
  refine ⟨decls, by rw [DeclFile.collect, hparse], d, hd, ?_⟩
  simpa using hmessage

end Command

end TraitMock
