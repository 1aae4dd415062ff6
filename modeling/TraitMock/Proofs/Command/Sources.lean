import TraitMock.Command.Run
import TraitMock.Proofs.Mock.Spans

/-!
# Proofs/Command/Sources — a run treats each of its sources by itself

The findings of several sources are those of each, one behind the other, and what a run writes
depends on its findings alone.  So whatever a run prints about a source, it prints about it in any
company (`run_sources`): the plans and the diagnostics stand behind one another in the order of the
sources, and the exit code is the greatest that any of them has alone.

That a diagnostic names its source is the one thing to be seen inside: an item is reported on in the
file that was read (`DeclFile.standsIn_of_parse`), and that file has the name of the source.
-/

namespace TraitMock

/-! ## Reading a JSON object -/

/-- The member of an object under a name. -/
def Json.field? (name : String) : Json → Option Json
  | .object members => members.lookup name
  | _ => none

/-- A diagnostic shows its severity. -/
@[simp] theorem Diagnostic.severity_toJson (d : Diagnostic) (source : String) :
    (d.toJson source).field? "severity" = some (.str d.severity) := rfl

/-- A diagnostic shows its file, and its source where it has none. -/
@[simp] theorem Diagnostic.file_toJson (d : Diagnostic) (source : String) :
    (d.toJson source).field? "file" = some (.str (d.span.file.getD source)) := rfl

/-! ## Where a file is reported on -/

/-- **A file that has been read is reported on at known places** under its own name; an empty name
counts as none. -/
theorem DeclFile.spans_of_report {name text : String} {decls : DeclFile}
    (h : DeclFile.parse (some name) text = .ok decls) (levels : Int) :
    (decls.plan levels).ReportsIn fun s =>
      ∃ e : Extent, s = e.toSpan ((some name).filter fun name => !name.isEmpty) := by
  refine reports_planItems fun item hitem d hd => ?_
  obtain ⟨e, -, hspans⟩ := DeclFile.standsIn_of_parse h item hitem
  obtain ⟨e', -, hspan⟩ := Item.reportsIn_plan hspans d hd
  exact ⟨e', hspan⟩

namespace Command

/-! ## Findings behind one another -/

namespace Findings

variable {levels : Int} {lookup : SourcePath → Source}

/-- The findings of several runs, one behind the other. -/
def concat (fs : List Findings) : Findings := fs.foldr (· ++ ·) {}

theorem plans_concat (fs : List Findings) : (concat fs).plans = fs.flatMap plans := by
  induction fs with
  | nil => rfl
  | cons f fs ih => exact congrArg (f.plans ++ ·) ih

theorem problems_concat (fs : List Findings) : (concat fs).problems = fs.flatMap problems := by
  induction fs with
  | nil => rfl
  | cons f fs ih => exact congrArg (f.problems ++ ·) ih

/-- There is an error among findings if there is one on either side. -/
theorem exitCode_append (a b : Findings) : (a ++ b).exitCode = max a.exitCode b.exitCode := by
  have herror : (a ++ b).hasError = (a.hasError || b.hasError) := by
    simp only [hasError, Diagnostic.anyError, problems_append, List.map_append, List.any_append]
  unfold exitCode
  rw [herror]
  cases a.hasError <;> cases b.hasError <;> rfl

/-- **The exit code of several runs is the greatest of theirs.** -/
theorem exitCode_concat (fs : List Findings) :
    (concat fs).exitCode = (fs.map exitCode).foldr max 0 := by
  induction fs with
  | nil => rfl
  | cons f fs ih => exact (exitCode_append f (concat fs)).trans (congrArg (max f.exitCode) ih)

theorem concat_singleton (f : Findings) : concat [f] = f := by
  show append f {} = f
  simp only [append, List.append_nil]

/-- **Several sources give the findings of each**, if each of them gives findings. -/
theorem ofSources_eq_concat {paths : List SourcePath} {found : SourcePath → Findings}
    (h : ∀ path ∈ paths, ofSource levels path.text (lookup path) = .ok (found path)) :
    ofSources levels lookup paths = .ok (concat (paths.map found)) := by
  induction paths with
  | nil => rfl
  | cons path rest ih =>
    obtain ⟨hpath, hrest⟩ := List.forall_mem_cons.mp h
    rw [ofSources, hpath, ih hrest]
    rfl

end Findings

/-! ## What is found in a source -/

/-- **The declarations that a source holds**, read under a name. -/
def Source.read? (name : String) : Source → Option DeclFile
  | .file bytes =>
    match Text.decodeUtf8 bytes with
    | .ok cs => (DeclFile.parse (some name) (String.ofList (Text.unifyLineEnds cs))).toOption
    | .error _ => none
  | _ => none

theorem Source.parse_of_read? {name : String} {source : Source} {decls : DeclFile}
    (h : source.read? name = some decls) : ∃ text, DeclFile.parse (some name) text = .ok decls := by
  unfold read? at h
  split at h
  next bytes =>
    split at h
    next cs _ =>
      obtain ⟨decls', hparse, rfl⟩ := exists_of_toOption (f := id) (by rwa [Option.map_id])
      exact ⟨_, hparse⟩
    next => cases h
  next => cases h

/-- **What can be found in a source** of a name: that it is missing, why it cannot be read, or what
is reported while its declarations are planned. -/
inductive Source.Yields (levels : Int) (name : String) (source : Source) : Diagnostic → Prop
  | missing : Yields levels name source (.ofProblem (.missingSource name) { file := some name })
  | unread (e : SyntaxError) : Yields levels name source (e.toDiagnostic (some name))
  | planned {decls : DeclFile} {d : Diagnostic} (read : source.read? name = some decls)
      (reported : d ∈ ((decls.plan levels).run .collect).reports) : Yields levels name source d

namespace Findings

/-- The findings of a text are its syntax error, or what is reported on its declarations. -/
theorem problems_ofText {name text : String} {f : Findings} (h : ofText levels name text = .ok f) :
    (∃ e : SyntaxError, f.problems = [⟨e.toDiagnostic (some name), name⟩]) ∨
      ∃ decls, DeclFile.parse (some name) text = .ok decls ∧
        f.problems = ((decls.plan levels).run .collect).reports.map (⟨·, name⟩) := by
  unfold ofText DeclFile.collect at h
  cases hparse : DeclFile.parse (some name) text with
  | error e =>
    rw [hparse] at h
    cases h
    exact .inl ⟨e, rfl⟩
  | ok decls =>
    simp only [hparse] at h
    cases hplans : ((decls.plan levels).run .collect).result with
    | error fault =>
      rw [hplans] at h
      cases h
    | ok plans =>
      rw [hplans] at h
      cases h
      exact .inr ⟨decls, rfl, rfl⟩

/-- **Where the findings of a source come from**, whichever of the ways of failing it takes. -/
theorem yields_ofSource {name : String} {source : Source} {f : Findings}
    (h : ofSource levels name source = .ok f) :
    ∀ p ∈ f.problems, p.source = name ∧ source.Yields levels name p.diagnostic := by
  cases source with
  | missing =>
    cases h
    exact List.forall_mem_singleton.mpr ⟨rfl, .missing⟩
  | folder => cases h
  | file bytes =>
    cases hdecode : Text.decodeUtf8 bytes with
    | error e =>
      simp only [ofSource, hdecode] at h
      cases h
    | ok cs =>
      simp only [ofSource, hdecode] at h
      cases htext : ofText levels name (String.ofList (Text.unifyLineEnds cs)) with
      | error fault =>
        simp only [htext] at h
        cases h
      | ok g =>
        simp only [htext] at h
        cases h
        rcases problems_ofText htext with ⟨e, hproblems⟩ | ⟨decls, hparse, hproblems⟩
        · rw [hproblems]
          exact List.forall_mem_singleton.mpr ⟨rfl, .unread e⟩
        · rw [hproblems]
          have hread : (Source.file bytes).read? name = some decls := by
            simp only [Source.read?, hdecode, hparse]
            rfl
          exact List.forall_mem_map.mpr fun d hd => ⟨rfl, .planned hread hd⟩

/-- **Findings are about a source**: each problem is shown with the name of that source. -/
def About (name : String) (f : Findings) : Prop :=
  ∀ p ∈ f.problems, p.diagnostic.span.file.getD p.source = name

/-- **What is found in a source is about it.** -/
theorem about_ofSource {name : String} {source : Source} {f : Findings}
    (h : ofSource levels name source = .ok f) : f.About name := by
  rintro ⟨d, shown⟩ hp
  obtain ⟨rfl, hyields⟩ : shown = name ∧ source.Yields levels name d := yields_ofSource h _ hp
  cases hyields with
  | missing => rfl
  | unread e => rfl
  | planned read reported =>
    obtain ⟨text, hparse⟩ := Source.parse_of_read? read
    obtain ⟨e, hspan⟩ := DeclFile.spans_of_report hparse levels _ reported
    rw [hspan]
    by_cases hname : shown = "" <;> simp [Extent.toSpan, Option.filter, hname]

end Findings

/-! ## What is printed -/

/-- **A run prints a report**: one line of JSON that shows its exit code, plans, and diagnostics,
and nothing beside it. -/
structure Output.Reports (out : Output) (code : Nat) (plans diagnostics : List Json) : Prop where
  exitCode : out.exitCode = code
  stdout : out.stdout = unlines [(Json.object [("exit_code", .int code), ("plans", .list plans),
    ("diagnostics", .list diagnostics)]).render]
  stderr : out.stderr = ""

namespace Findings

/-- The plans of findings as they are printed. -/
def shownPlans (f : Findings) : List Json := f.plans.map MockPlan.toJson

/-- The diagnostics of findings as they are printed. -/
def shownProblems (f : Findings) : List Json := f.problems.map fun p => p.diagnostic.toJson p.source

theorem reports_output (f : Findings) :
    (f.output true).Reports f.exitCode f.shownPlans f.shownProblems := ⟨rfl, rfl, rfl⟩

theorem exitCode_output (f : Findings) (json : Bool) : (f.output json).exitCode = f.exitCode := by
  cases json <;> rfl

theorem shownPlans_concat (fs : List Findings) :
    (concat fs).shownPlans = fs.flatMap shownPlans := by
  rw [shownPlans, plans_concat, List.map_flatMap]
  rfl

theorem shownProblems_concat (fs : List Findings) :
    (concat fs).shownProblems = fs.flatMap shownProblems := by
  rw [shownProblems, problems_concat, List.map_flatMap]
  rfl

/-- **A run fails exactly if it shows an error.** -/
theorem exitCode_eq_one_iff {f : Findings} :
    f.exitCode = 1 ↔ ∃ d ∈ f.shownProblems, d.field? "severity" = some (.str "error") := by
  have herror : f.exitCode = 1 ↔ f.hasError = true := by
    unfold exitCode
    cases f.hasError <;> simp
  rw [herror]
  simp [hasError, Diagnostic.anyError, Diagnostic.isError, shownProblems]

theorem About.shown {name : String} {f : Findings} (h : f.About name) :
    ∀ d ∈ f.shownProblems, d.field? "file" = some (.str name) := by
  intro d hd
  obtain ⟨p, hp, rfl⟩ := List.mem_map.mp hd
  rw [Diagnostic.file_toJson, h p hp]

end Findings

/-! ## Runs -/

variable {levels : Int} {lookup : SourcePath → Source} {args : List String} {json : Bool}

theorem run_of_options {o : Options} (h : Options.ofArgs args = .ok o) :
    run args lookup = o.run lookup := by
  rw [run, h]

/-- What is found in the source of a name, where anything is. -/
def foundIn (levels : Int) (lookup : SourcePath → Source) (source : String) : Findings :=
  let path := SourcePath.ofString source
  (Findings.ofSource levels path.text (lookup path)).toOption.getD {}

/-- The source of a name can be read and planned. -/
def IsFound (levels : Int) (lookup : SourcePath → Source) (source : String) : Prop :=
  let path := SourcePath.ofString source
  Findings.ofSource levels path.text (lookup path) = .ok (foundIn levels lookup source)

/-- A run on one source ends only if the source can be read and planned. -/
theorem isFound_of_run {source : String} {out : Output}
    (hoptions : Options.ofArgs args = .ok ⟨[source], levels, json⟩)
    (hrun : run args lookup = .ok out) : IsFound levels lookup source := by
  rw [run_of_options hoptions] at hrun
  cases hsource : Findings.ofSource levels (SourcePath.ofString source).text
      (lookup (SourcePath.ofString source)) with
  | ok f =>
    simp only [IsFound, foundIn, hsource]
    rfl
  | error fault =>
    simp only [Options.run, Options.paths, List.map_cons, List.map_nil, Findings.ofSources,
      hsource] at hrun
    cases hrun

/-- **A run on sources that can be read and planned** writes what is found in them, one behind the
other. -/
theorem run_eq_output {sources : List String}
    (hoptions : Options.ofArgs args = .ok ⟨sources, levels, json⟩)
    (h : ∀ source ∈ sources, IsFound levels lookup source) :
    run args lookup =
      .ok ((Findings.concat (sources.map (foundIn levels lookup))).output json) := by
  let found (path : SourcePath) : Findings :=
    (Findings.ofSource levels path.text (lookup path)).toOption.getD {}
  have hsources : Findings.ofSources levels lookup (sources.map SourcePath.ofString) =
      .ok (Findings.concat ((sources.map SourcePath.ofString).map found)) :=
    Findings.ofSources_eq_concat (List.forall_mem_map.mpr h)
  rw [run_of_options hoptions, Options.run, Options.paths, hsources, List.map_map]
  rfl

/-- **The command line treats its sources independently.**  Let each of some sources, alone and with
the same number of levels, be run to the end.  Then there are a code, plans and diagnostics for
each, which a run on that source alone prints as JSON; every run on all of them ends too, its exit
code is the greatest of theirs, as JSON it prints that code and their plans and diagnostics in the
order of the sources, and its code is one exactly if one of these diagnostics is an error.  Every
diagnostic names the source it came from. -/
theorem run_sources {sources : List String}
    (h : ∀ source ∈ sources, ∃ args json out,
      Options.ofArgs args = .ok ⟨[source], levels, json⟩ ∧ run args lookup = .ok out) :
    ∃ (code : String → Nat) (plans diagnostics : String → List Json),
      (∀ source ∈ sources,
        (∀ args, Options.ofArgs args = .ok ⟨[source], levels, true⟩ →
          ∃ out, run args lookup = .ok out ∧
            out.Reports (code source) (plans source) (diagnostics source)) ∧
        ∀ d ∈ diagnostics source, d.field? "file" = some (.str (SourcePath.ofString source).text)) ∧
      ∀ args json, Options.ofArgs args = .ok ⟨sources, levels, json⟩ →
        ∃ out, run args lookup = .ok out ∧ out.exitCode = (sources.map code).foldr max 0 ∧
          (out.exitCode = 1 ↔
            ∃ d ∈ sources.flatMap diagnostics, d.field? "severity" = some (.str "error")) ∧
          (json = true →
            out.Reports out.exitCode (sources.flatMap plans) (sources.flatMap diagnostics)) := by
  have hfound : ∀ source ∈ sources, IsFound levels lookup source := by
    intro source hsource
    obtain ⟨args, json, out, hoptions, hrun⟩ := h source hsource
    exact isFound_of_run hoptions hrun
  let found := foundIn levels lookup
  refine ⟨fun source => (found source).exitCode, fun source => (found source).shownPlans,
    fun source => (found source).shownProblems, fun source hsource => ⟨fun args hoptions => ?_, ?_⟩,
    fun args json hoptions => ?_⟩
  · refine ⟨_, run_eq_output hoptions (List.forall_mem_singleton.mpr (hfound source hsource)), ?_⟩
    rw [List.map_singleton, Findings.concat_singleton]
    exact Findings.reports_output (found source)
  · exact (Findings.about_ofSource (hfound source hsource)).shown
  · let all := Findings.concat (sources.map found)
    have hcode : all.exitCode = (sources.map fun source => (found source).exitCode).foldr max 0 :=
      (Findings.exitCode_concat _).trans (by rw [List.map_map]; rfl)
    have hplans : all.shownPlans = sources.flatMap fun source => (found source).shownPlans :=
      (Findings.shownPlans_concat _).trans (List.flatMap_map ..)
    have hproblems :
        all.shownProblems = sources.flatMap fun source => (found source).shownProblems :=
      (Findings.shownProblems_concat _).trans (List.flatMap_map ..)
    refine ⟨all.output json, run_eq_output hoptions hfound, ?_⟩
    rw [Findings.exitCode_output, ← hplans, ← hproblems]
    refine ⟨hcode, Findings.exitCode_eq_one_iff, ?_⟩
    rintro rfl
    exact all.reports_output

/-- A file with a declaration, and one that is no declaration. -/
def mixedFiles : FileTree :=
  [⟨["a.rs"], "trait Foo \x7b fn f(&self, x: u8); \x7d".toUTF8.toList⟩,
    ⟨["b.rs"], "trait".toUTF8.toList⟩]

/-- Names of sources among which one is missing, one is no declaration, and one stands twice. -/
def mixedSources : List String := ["a.rs", "no.rs", "b.rs", "a.rs"]

/-- A run on such sources shows what a run on each of them shows. -/
theorem mixedSources_run :
    (∀ source ∈ mixedSources, ∃ args json out,
      Options.ofArgs args = .ok ⟨[source], 2, json⟩ ∧ run args mixedFiles.lookup = .ok out) ∧
    ∃ (out : Output) (plans diagnostics : String → List Json),
      run ("--json" :: mixedSources) mixedFiles.lookup = .ok out ∧
      out.Reports out.exitCode
        (plans "a.rs" ++ (plans "no.rs" ++ (plans "b.rs" ++ plans "a.rs")))
        (diagnostics "a.rs" ++
          (diagnostics "no.rs" ++ (diagnostics "b.rs" ++ diagnostics "a.rs"))) ∧
      ∀ d ∈ diagnostics "no.rs", d.field? "file" = some (.str "no.rs") := by
  have hruns : ∀ source ∈ mixedSources, ∃ args json out,
      Options.ofArgs args = .ok ⟨[source], 2, json⟩ ∧ run args mixedFiles.lookup = .ok out := by
    intro source hsource
    have hends : (run [source] mixedFiles.lookup).toOption.map (fun _ => ()) = some () ∧
        Options.ofArgs [source] = .ok ⟨[source], 2, false⟩ := by
      revert source
      decide +kernel
    obtain ⟨out, hrun, -⟩ := exists_of_toOption hends.1
    exact ⟨[source], false, out, hends.2, hrun⟩
  obtain ⟨code, plans, diagnostics, halone, hall⟩ := run_sources hruns
  obtain ⟨out, hrun, -, -, hreports⟩ := hall ("--json" :: mixedSources) true (by decide +kernel)
  refine ⟨hruns, out, plans, diagnostics, hrun, ?_, (halone "no.rs" (by simp [mixedSources])).2⟩
  simpa [mixedSources] using hreports rfl

end Command

end TraitMock
