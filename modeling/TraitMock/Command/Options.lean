import TraitMock.Command.Word
import TraitMock.Mock.Plan

/-!
# Command/Options — what a command line asks for

The words are read from left to right.  The sources are one run of plain words; a plain word behind
the end of that run is left over, and so is a word that looks like an option and is none.  Of
several things that are wrong, the leftmost is told; only when the whole line has been read it is
told that there is no source, then what was left over, then that there are too few levels.
-/

namespace TraitMock.Command

/-- **What a command line asks for.** -/
structure Options where
  sources : List String
  levels : Int
  json : Bool
  deriving DecidableEq, Repr

/-- **Why a command line asks for no run.** -/
inductive Stop
  /-- The help is asked for. -/
  | help
  /-- The command line is wrong. -/
  | misuse (cause : Misuse)
  /-- The number of levels is a `--`, which counts as no value at all. -/
  | uncountedLevels
  deriving DecidableEq, Repr

/-- What has been read so far. -/
structure Reading where
  sources : List String := []
  /-- Whether the run of sources is still going on. -/
  inSources : Bool := false
  /-- The number of levels, unless a `--` was given in its place. -/
  levels : Option Int := some defaultLevels
  json : Bool := false
  /-- The words left over. -/
  surplus : List String := []

namespace Reading

/-- Whether a plain word would be a source. -/
def takesSource (r : Reading) : Bool := r.sources.isEmpty || r.inSources

/-- Reading a plain word. -/
def addPlain (r : Reading) (text : String) : Reading :=
  if r.takesSource then { r with sources := r.sources ++ [text], inSources := true }
  else { r with surplus := r.surplus ++ [text] }

/-- Reading the separator: it is no source, but it does not end their run either. -/
def addSeparator (r : Reading) : Reading :=
  if r.takesSource then r else { r with surplus := r.surplus ++ [separatorText] }

/-- The run of sources ends at an option. -/
def endSources (r : Reading) : Reading := { r with inSources := false }

/-- Reading the number of levels. -/
def setLevels (r : Reading) (value : String) : Except Stop Reading :=
  if value = separatorText then .ok { r.endSources with levels := none }
  else
    match Text.decimal? value with
    | some levels => .ok { r.endSources with levels := some levels }
    | none => .error (.misuse (.noNumber .levels value))

end Reading

/-- **What comes of `-h` with letters behind it**: each further `h` asks for the help once more, and
what begins with any other letter is a value that nothing takes.  An empty value is one too. -/
def Stop.ofShort (tail : List Char) : Stop :=
  let value := tail.dropWhile (· = 'h')
  if tail ≠ [] ∧ value = [] then .help
  else .misuse (.ignoredValue .help (String.ofList value))

/-- The help is asked for by one or more `h`. -/
theorem Stop.ofShort_eq_help_iff {tail : List Char} :
    ofShort tail = .help ↔ tail ≠ [] ∧ ∀ c ∈ tail, c = 'h' := by
  have hnil : ∀ cs : List Char, cs.dropWhile (· = 'h') = [] ↔ ∀ c ∈ cs, c = 'h' := by
    intro cs
    induction cs with
    | nil => simp
    | cons c cs ih => by_cases h : c = 'h' <;> simp [h, ih]
  simp [ofShort, hnil]

/-- **Reading words from left to right.** -/
def Reading.add (r : Reading) : List Word → Except Stop Reading
  | [] => .ok r
  | .plain text :: rest => (r.addPlain text).add rest
  | .separator :: rest => r.addSeparator.add rest
  | .unknown text :: rest =>
    { r.endSources with surplus := r.surplus ++ [text] }.add rest
  | .short tail :: _ => .error (Stop.ofShort tail)
  | .option .help none :: _ => .error .help
  | .option .json none :: rest => { r.endSources with json := true }.add rest
  | .option .levels (some value) :: rest => do (← r.setLevels value).add rest
  | .option .levels none :: .plain value :: rest => do (← r.setLevels value).add rest
  | .option .levels none :: _ => .error (.misuse (.lacksValue .levels))
  | .option name (some value) :: _ => .error (.misuse (.ignoredValue name value))

/-- What has been read at the end of the line. -/
def Reading.finish (r : Reading) : Except Stop Options :=
  if r.sources.isEmpty then .error (.misuse .noSource)
  else if !r.surplus.isEmpty then .error (.misuse (.unrecognized r.surplus))
  else
    match r.levels with
    | none => .error .uncountedLevels
    | some levels =>
      if levels < 1 then .error (.misuse .levelsBelowOne)
      else .ok ⟨r.sources, levels, r.json⟩

/-- **Reading a command line.** -/
def Options.ofArgs (args : List String) : Except Stop Options := do
  let words ← (words args).mapError .misuse
  (← Reading.add {} words).finish

/-- **A line is accepted** exactly if it names a source, leaves nothing over, and asks for at least
one level; its options are then what has been read. -/
theorem Reading.finish_eq_ok_iff {r : Reading} {o : Options} :
    r.finish = .ok o ↔ r.sources ≠ [] ∧ r.surplus = [] ∧ 1 ≤ o.levels ∧
      r.levels = some o.levels ∧ o.sources = r.sources ∧ o.json = r.json := by
  obtain ⟨sources, inSources, levels, json, surplus⟩ := r
  obtain ⟨sources', levels', json'⟩ := o
  rcases sources with _ | ⟨source, sources⟩
  · simp [finish]
  rcases surplus with _ | ⟨word, surplus⟩
  · rcases levels with _ | levels
    · simp [finish]
    · by_cases h : levels < 1
      · simp only [finish, List.isEmpty_cons, Bool.false_eq_true, if_false, List.isEmpty_nil,
          Bool.not_true, h, if_true]
        constructor
        · rintro ⟨⟩
        · rintro ⟨-, -, hle, heq, -, -⟩
          cases heq
          omega
      · simp only [finish, List.isEmpty_cons, Bool.false_eq_true, if_false, List.isEmpty_nil,
          Bool.not_true, h]
        constructor
        · rintro ⟨⟩
          simp only [ne_eq, reduceCtorEq, not_false_eq_true, and_true, true_and]
          omega
        · rintro ⟨-, -, -, heq, hs, hj⟩
          simp_all
  · simp [finish]

end TraitMock.Command
