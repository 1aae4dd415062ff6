import Mathlib.Data.List.TakeWhile
import Mathlib.Tactic.SplitIfs
import TraitMock.Report.Diagnostic

/-!
# Proofs/Report/OneLine — problems that are told in one line

Whatever a message quotes is on one line: a token stands in quotes, with its line feeds escaped, of
a message about a character only the first line is kept, and all else is numbers and fixed wording
(`SyntaxError.oneLine_message`, `Problem.oneLine_message`).  Only the text of an opaque type is put
into a message as it was written.
-/

namespace TraitMock

/-- **A text of one line**: it has no line feed in it. -/
def OneLine (s : String) : Prop := '\n' ∉ s.toList

instance (s : String) : Decidable (OneLine s) := inferInstanceAs (Decidable ('\n' ∉ s.toList))

namespace OneLine

@[simp] theorem append_iff {s t : String} : OneLine (s ++ t) ↔ OneLine s ∧ OneLine t := by
  simp only [OneLine, String.toList_append, List.mem_append, not_or]

theorem ofList_iff {cs : List Char} : OneLine (String.ofList cs) ↔ '\n' ∉ cs := by
  rw [OneLine, String.toList_ofList]

theorem join {ss : List String} (h : ∀ s ∈ ss, OneLine s) : OneLine (String.join ss) := by
  rw [OneLine, String.toList_join, List.mem_flatMap]
  rintro ⟨s, hs, hfeed⟩
  exact h s hs hfeed

/-! ## Numbers -/

/-- No digit of a number ends a line. -/
theorem notMem_toDigits {b : Nat} (hb : 1 < b) (n : Nat) : '\n' ∉ Nat.toDigits b n := by
  have hdigit (d : Nat) : '\n' ≠ d.digitChar := (Nat.digitChar_ne '\n' (by decide)).symm
  induction n using Nat.strongRecOn with
  | ind n ih =>
    rw [Nat.toDigits_eq_if hb]
    split
    next => exact List.not_mem_cons_of_ne_of_not_mem (hdigit n) List.not_mem_nil
    next hn =>
      have hless : n / b < n := Nat.div_lt_self (by omega) hb
      rw [List.mem_append, List.mem_singleton, not_or]
      exact ⟨ih _ hless, hdigit _⟩

@[simp] theorem toString_nat (n : Nat) : OneLine (toString n) := by
  rw [Nat.toString_eq_ofList_toDigits, ofList_iff]
  exact notMem_toDigits (by decide) n

@[simp] theorem toString_int (n : Int) : OneLine (toString n) := by
  cases n with
  | ofNat n => exact toString_nat n
  | negSucc n => exact append_iff.mpr ⟨by decide, toString_nat (n + 1)⟩

/-! ## Quoted texts -/

theorem hex (width n : Nat) : OneLine (Text.hex width n) := by
  rw [Text.hex, ofList_iff, List.mem_append, not_or]
  refine ⟨fun h => ?_, notMem_toDigits (by decide) n⟩
  exact absurd (List.eq_of_mem_replicate h) (by decide)

theorem codeEscape (c : Char) : OneLine (Text.codeEscape c) := by
  unfold Text.codeEscape
  split
  · exact append_iff.mpr ⟨by decide, hex _ _⟩
  · split
    · exact append_iff.mpr ⟨by decide, hex _ _⟩
    · exact append_iff.mpr ⟨by decide, hex _ _⟩

theorem quoteChar {quote : Char} (hquote : quote ≠ '\n') (c : Char) :
    OneLine (Text.quoteChar quote c) := by
  unfold Text.quoteChar
  split_ifs with hself htab hfeed hreturn hprint
  · rw [ofList_iff]
    rcases hself with rfl | rfl
    · simp [hquote.symm]
    · decide
  · decide
  · decide
  · decide
  · simpa [OneLine] using Ne.symm hfeed
  · exact codeEscape c

/-- **A quoted text is on one line.** -/
@[simp] theorem quoted (s : String) : OneLine (Text.quoted s) := by
  have hquote : Text.quoteFor s ≠ '\n' := by
    unfold Text.quoteFor
    split <;> decide
  have hsingle : OneLine (String.singleton (Text.quoteFor s)) := by
    simpa [OneLine] using hquote.symm
  unfold Text.quoted
  refine append_iff.mpr ⟨append_iff.mpr ⟨hsingle, join ?_⟩, hsingle⟩
  exact List.forall_mem_map.mpr fun c _ => quoteChar hquote c

/-- The first line of a text is on one line. -/
@[simp] theorem firstLine (s : String) : OneLine (Text.firstLine s) := by
  rw [Text.firstLine, ofList_iff]
  intro h
  exact absurd (List.mem_takeWhile_imp h) (by decide)

end OneLine

/-! ## Messages -/

/-- **A syntax error is told in one line**, whatever is quoted of the text. -/
theorem SyntaxError.oneLine_message (e : SyntaxError) : OneLine e.message := by
  cases e with
  | unexpectedToken token =>
    have hwords : OneLine "Unexpected token Token(" ∧ OneLine ", " ∧ OneLine ") at line " ∧
      OneLine ", column " ∧ OneLine "." := by decide +kernel
    show OneLine ("Unexpected token Token(" ++ Text.quoted token.kind.label ++ ", " ++
      Text.quoted token.text ++ ") at line " ++ toString token.extent.start.line ++ ", column " ++
      toString token.extent.start.column ++ ".")
    simp only [OneLine.append_iff, OneLine.quoted, OneLine.toString_nat, hwords, and_self]
  | unexpectedChar c pos => exact OneLine.firstLine _

namespace Problem

/-- **What a message quotes as it was written.** -/
def quoted? : Problem → Option String
  | .opaqueType text | .opaqueReturn text | .missingSource text => some text
  | _ => none

/-- **A problem is told in one line** if what it quotes as it was written is on one line, and only
then. -/
theorem oneLine_message_iff (problem : Problem) :
    OneLine problem.message ↔ ∀ text ∈ problem.quoted?, OneLine text := by
  cases problem with
  | syntactic e => exact iff_of_true e.oneLine_message nofun
  | opaqueType text =>
    have hwords : OneLine "type `" ∧ OneLine "` is not supported in this position" := by
      decide +kernel
    show OneLine ("type `" ++ text ++ "` is not supported in this position") ↔ _
    simp only [quoted?, OneLine.append_iff, hwords, true_and, and_true, Option.mem_some_iff,
      forall_eq']
  | opaqueReturn text =>
    have hwords : OneLine "type `" ∧ OneLine "` is not supported as a return type" := by
      decide +kernel
    show OneLine ("type `" ++ text ++ "` is not supported as a return type") ↔ _
    simp only [quoted?, OneLine.append_iff, hwords, true_and, and_true, Option.mem_some_iff,
      forall_eq']
  | missingSource path =>
    have hwords : OneLine "source not found: " := by decide +kernel
    show OneLine ("source not found: " ++ path) ↔ _
    simp only [quoted?, OneLine.append_iff, hwords, true_and, Option.mem_some_iff, forall_eq']
  | _ => exact iff_of_true (by decide +kernel) nofun

end Problem

end TraitMock
