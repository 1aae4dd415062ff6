import Mathlib.Data.List.Induction
import TraitMock.Proofs.Syntax.Nesting

/-!
# Proofs/Syntax/Excerpt — what stands between two places of a text

Every character of a text has a place, which is read off the characters in front of it: lines end at
line feeds alone, and lines and columns count from one.  So two places cut an excerpt out of a text,
and the one between the two ends of a word is that word (`excerpt_eq_of_append`).
-/

namespace TraitMock

/-- **The place of a character**, by its index: its line is one more than there are line feeds in
front of it, and its column one more than there are characters behind the last of these. -/
def placeAt (text : List Char) (i : Nat) : Pos :=
  let front := text.take i
  ⟨front.count '\n' + 1, (front.reverse.takeWhile (· ≠ '\n')).length + 1⟩

instance : DecidableLE Pos := fun p q =>
  inferInstanceAs (Decidable (p.line < q.line ∨ p.line = q.line ∧ p.column ≤ q.column))

instance : DecidableLT Pos := fun _ _ => decidable_of_iff' _ lt_iff_le_not_ge

/-- **The characters of a text between two places**, the second one excluded. -/
def excerpt (text : List Char) (e : Extent) : List Char :=
  (text.zipIdx.filter fun (_, i) => e.start ≤ placeAt text i ∧ placeAt text i < e.stop).map Prod.fst

/-! ## Places in order -/

theorem Pos.lt_next (p : Pos) (c : Char) : p < p.next c := by
  refine lt_iff_le_not_ge.mpr ⟨p.le_next c, ?_⟩
  rw [next]
  split <;> simp only [le_iff] <;> omega

/-- Characters lead forward, if there are any. -/
theorem Pos.lt_after (p : Pos) {cs : List Char} (h : cs ≠ []) : p < p.after cs := by
  cases cs with
  | nil => exact absurd rfl h
  | cons c cs => exact (p.lt_next c).trans_le ((p.next c).le_after cs)

/-- Counting from character to character gives the place behind all of them. -/
theorem Pos.after_eq (front : List Char) :
    ({} : Pos).after front =
      ⟨front.count '\n' + 1, (front.reverse.takeWhile (· ≠ '\n')).length + 1⟩ := by
  induction front using List.reverseRecOn with
  | nil => rfl
  | append_singleton front c ih =>
    rw [after_append, after_cons, after_nil, ih, next, List.count_append, List.reverse_append,
      List.reverse_singleton, List.singleton_append]
    by_cases h : c = '\n'
    · simp [h]
    · simp [h]

/-- The place behind the front of a text. -/
theorem placeAt_append (front rest : List Char) :
    placeAt (front ++ rest) front.length = ({} : Pos).after front := by
  rw [placeAt, List.take_left, Pos.after_eq]

theorem placeAt_eq_after (text : List Char) (i : Nat) :
    placeAt text i = ({} : Pos).after (text.take i) := by
  rw [placeAt, Pos.after_eq]

variable {text : List Char} {i j : Nat}

theorem placeAt_mono (h : i ≤ j) : placeAt text i ≤ placeAt text j := by
  obtain ⟨n, rfl⟩ := Nat.exists_eq_add_of_le h
  rw [placeAt_eq_after, placeAt_eq_after, List.take_add, Pos.after_append]
  exact Pos.le_after _ _

theorem placeAt_lt (h : i < j) (hj : j ≤ text.length) : placeAt text i < placeAt text j := by
  obtain ⟨n, rfl⟩ := Nat.exists_eq_add_of_lt h
  rw [placeAt_eq_after, placeAt_eq_after, Nat.add_assoc, List.take_add, Pos.after_append]
  refine Pos.lt_after _ fun hnil => ?_
  have hlength := congrArg List.length hnil
  simp only [List.length_take, List.length_drop, List.length_nil] at hlength
  omega

/-! ## Excerpts -/

/-- **The excerpt between the two ends of a word is the word.** -/
theorem excerpt_eq_of_append (front word rest : List Char) :
    excerpt (front ++ (word ++ rest)) ⟨({} : Pos).after front, ({} : Pos).after (front ++ word)⟩ =
      word := by
  let text := front ++ (word ++ rest)
  have hstart : ({} : Pos).after front = placeAt text front.length := (placeAt_append front _).symm
  have hstop : ({} : Pos).after (front ++ word) = placeAt text (front.length + word.length) := by
    rw [← List.length_append, ← placeAt_append (front ++ word) rest, List.append_assoc]
  have hlength : text.length = front.length + (word.length + rest.length) := by
    rw [List.length_append, List.length_append]
  let between (x : Char × Nat) : Bool := placeAt text front.length ≤ placeAt text x.2 ∧
    placeAt text x.2 < placeAt text (front.length + word.length)
  have hfront : front.zipIdx.filter between = [] := by
    refine List.filter_eq_nil_iff.mpr fun x hx hbetween => ?_
    have hlt : x.2 < front.length := by
      have := (List.mem_zipIdx hx).2.1
      omega
    exact (placeAt_lt hlt (by omega)).not_ge (of_decide_eq_true hbetween).1
  have hword :
      (word.zipIdx (0 + front.length)).filter between = word.zipIdx (0 + front.length) := by
    refine List.filter_eq_self.mpr fun x hx => decide_eq_true ?_
    obtain ⟨hle, hlt, -⟩ := List.mem_zipIdx hx
    exact ⟨placeAt_mono (by omega), placeAt_lt (by omega) (by omega)⟩
  have hrest : (rest.zipIdx (0 + front.length + word.length)).filter between = [] := by
    refine List.filter_eq_nil_iff.mpr fun x hx hbetween => ?_
    obtain ⟨hle, -, -⟩ := List.mem_zipIdx hx
    exact (placeAt_mono (by omega)).not_gt (of_decide_eq_true hbetween).2
  rw [hstart, hstop]
  change (text.zipIdx.filter between).map Prod.fst = word
  rw [List.zipIdx_append, List.zipIdx_append, List.filter_append, List.filter_append, hfront,
    hword, hrest, List.nil_append, List.append_nil, List.zipIdx_map_fst]

example : excerpt "a\n  b\u00e9 c".toList ⟨⟨2, 3⟩, ⟨2, 5⟩⟩ = ['b', '\u00e9'] := by decide

/-- A text spells its tokens at their places. -/
theorem Token.ReadFrom.excerpt {t : Token} (h : t.ReadFrom text) :
    excerpt text t.extent = t.text.toList := by
  obtain ⟨-, front, rest, rfl, hextent⟩ := h
  rw [hextent, excerpt_eq_of_append]

end TraitMock
