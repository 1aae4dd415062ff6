import Mathlib.Data.List.Basic
import TraitMock.Proofs.Syntax.Lexeme

/-!
# Proofs/Syntax/Pattern — the arguments of a macro as a pattern and as a group

The grammar gives the arguments of a macro by a pattern for a matcher that tries one way after the
other: a parenthesis, any number of pieces, each of them one character that is no parenthesis or
else parentheses with such characters alone between them, and a closing parenthesis
(`Pattern.group`).  `Terminal.scanGroup` counts parentheses instead.  Both take the same: there is
at most one way for the pattern to match, which is what the count takes (`Pattern.rests_group`), and
this is the group that the first parenthesis opens, up to where it is closed, if parentheses are
never nested more than two deep in it (`Pattern.mem_rests_group_iff`).
-/

namespace TraitMock

/-! ## Patterns -/

/-- **A pattern** for a matcher that tries one way after the other. -/
inductive Pattern
  /-- One character of a class. -/
  | one (accepts : Char → Bool)
  | seq (first second : Pattern)
  /-- Either of two, of which the first is tried first. -/
  | either (first second : Pattern)
  /-- Any number, more of which are tried before fewer. -/
  | many (body : Pattern)

namespace Pattern

/-- **Any number of steps**, more before fewer, none of which may leave everything. -/
def repeated (step : List Char → List (List Char)) : (fuel : Nat) → List Char → List (List Char)
  | 0, cs => [cs]
  | fuel + 1, cs =>
    ((step cs).filter fun rest => rest.length < cs.length).flatMap (repeated step fuel) ++ [cs]

/-- **What the matches of a pattern leave** of a text at whose front they stand, in the order in
which they are tried.  The first one is the match that is found. -/
def rests : Pattern → List Char → List (List Char)
  | .one _, [] => []
  | .one accepts, c :: cs => if accepts c then [cs] else []
  | .seq first second, cs => (first.rests cs).flatMap second.rests
  | .either first second, cs => first.rests cs ++ second.rests cs
  | .many body, cs => repeated body.rests cs.length cs

theorem repeated_nil (step : List Char → List (List Char)) (fuel : Nat) :
    repeated step fuel [] = [[]] := by
  cases fuel with
  | zero => rfl
  | succ fuel => simp [repeated]

/-- As many steps as there are characters are enough. -/
theorem repeated_congr (step : List Char → List (List Char)) {fuel fuel' : Nat} {cs : List Char}
    (h : cs.length ≤ fuel) (h' : cs.length ≤ fuel') :
    repeated step fuel cs = repeated step fuel' cs := by
  induction fuel generalizing fuel' cs with
  | zero =>
    obtain rfl := List.eq_nil_of_length_eq_zero (Nat.le_zero.mp h)
    rw [repeated_nil, repeated_nil]
  | succ fuel ih =>
    cases fuel' with
    | zero =>
      obtain rfl := List.eq_nil_of_length_eq_zero (Nat.le_zero.mp h')
      rw [repeated_nil, repeated_nil]
    | succ fuel' =>
      rw [repeated, repeated]
      congr 1
      refine List.flatMap_congr fun rest hrest => ?_
      have hlt : rest.length < cs.length := of_decide_eq_true (List.mem_filter.mp hrest).2
      exact ih (by omega) (by omega)

/-- **Any number is one and then any number, or none.** -/
theorem rests_many (body : Pattern) (cs : List Char) :
    (many body).rests cs =
      ((body.rests cs).filter fun rest => rest.length < cs.length).flatMap (many body).rests ++
        [cs] := by
  rw [rests, repeated_congr body.rests (Nat.le_refl _) (Nat.le_succ _), repeated]
  congr 1
  refine List.flatMap_congr fun rest hrest => ?_
  have hlt : rest.length < cs.length := of_decide_eq_true (List.mem_filter.mp hrest).2
  rw [rests]
  exact repeated_congr body.rests hlt.le (Nat.le_refl _)

/-- **A match leaves no more than there was.** -/
theorem length_le_of_mem_rests : ∀ {p : Pattern} {cs rest : List Char},
    rest ∈ p.rests cs → rest.length ≤ cs.length
  | .one _, [], _, h => nomatch h
  | .one accepts, c :: cs, rest, h => by
    rw [rests] at h
    split at h
    · obtain rfl := List.mem_singleton.mp h
      exact Nat.le_succ _
    · cases h
  | .seq first second, cs, rest, h => by
    obtain ⟨middle, hfirst, hsecond⟩ := List.mem_flatMap.mp h
    exact (length_le_of_mem_rests hsecond).trans (length_le_of_mem_rests hfirst)
  | .either first second, cs, rest, h => by
    rcases List.mem_append.mp h with h | h
    · exact length_le_of_mem_rests h
    · exact length_le_of_mem_rests h
  | .many body, cs, rest, h => by
    -- Every step but the last leaves less.
    induction hn : cs.length using Nat.strong_induction_on generalizing cs with
    | _ n ih =>
      subst hn
      rw [rests_many, List.mem_append, List.mem_flatMap, List.mem_singleton] at h
      rcases h with ⟨middle, hmiddle, hrest⟩ | rfl
      · have hlt : middle.length < cs.length := of_decide_eq_true (List.mem_filter.mp hmiddle).2
        exact (ih _ hlt middle hrest rfl).trans hlt.le
      · exact Nat.le_refl _

/-! ## The pattern of a group -/

/-- A character that is no parenthesis. -/
def plain : Pattern := .one fun c => c != '(' && c != ')'

/-- Characters that are no parentheses, and then a closing one. -/
def flat : Pattern := .seq (.many plain) (.one (· == ')'))

/-- A character that is no parenthesis, or parentheses with such characters alone between them. -/
def piece : Pattern := .either plain (.seq (.one (· == '(')) flat)

/-- Pieces, and then a closing parenthesis. -/
def nested : Pattern := .seq (.many piece) (.one (· == ')'))

/-- **The arguments of a macro.** -/
def group : Pattern := .seq (.one (· == '(')) nested

/-- In front of a character no text of plain characters ends but the empty one, unless the character
is plain as well. -/
theorem rests_many_plain_cons (c : Char) (cs : List Char) :
    (many plain).rests (c :: cs) =
      (if c ≠ '(' ∧ c ≠ ')' then (many plain).rests cs else []) ++ [c :: cs] := by
  rw [rests_many]
  by_cases hc : c ≠ '(' ∧ c ≠ ')'
  · simp [plain, rests, hc]
  · have hplain : plain.rests (c :: cs) = [] := by
      rw [plain, rests, if_neg (by simpa using hc)]
    rw [hplain, if_neg hc]
    rfl

/-- Flat text is gone through to the first parenthesis, which must close it. -/
theorem rests_flat_cons (c : Char) (cs : List Char) :
    flat.rests (c :: cs) = if c = ')' then [cs] else if c = '(' then [] else flat.rests cs := by
  rw [flat, rests, rests_many_plain_cons]
  by_cases hclose : c = ')'
  · simp [rests, hclose]
  · by_cases hopen : c = '('
    · simp [rests, hopen]
    · simp [rests, hclose, hopen]

/-- Nested text is gone through to its closing parenthesis, and flat text behind each opening
one. -/
theorem rests_nested_cons (c : Char) (cs : List Char) :
    nested.rests (c :: cs) =
      if c = ')' then [cs] else if c = '(' then (flat.rests cs).flatMap nested.rests
      else nested.rests cs := by
  have hpiece : piece.rests (c :: cs) =
      if c = ')' then [] else if c = '(' then flat.rests cs else [cs] := by
    by_cases hclose : c = ')'
    · simp [piece, plain, rests, hclose]
    · by_cases hopen : c = '('
      · simp [piece, plain, rests, hopen]
      · simp [piece, plain, rests, hclose, hopen]
  rw [nested, rests, rests_many, hpiece]
  by_cases hclose : c = ')'
  · simp [rests, hclose]
  · by_cases hopen : c = '('
    · -- Whatever is left behind a piece is less than there was.
      have hfilter :
          (flat.rests cs).filter (fun rest => rest.length < (c :: cs).length) = flat.rests cs :=
        List.filter_eq_self.mpr fun rest hrest =>
          decide_eq_true (Nat.lt_succ_of_le (length_le_of_mem_rests hrest))
      rw [if_neg hclose, if_pos hopen, if_neg hclose, if_pos hopen, hfilter, List.flatMap_append,
        List.flatMap_assoc]
      simp [rests, hopen]
    · simp [rests, hclose, hopen]

open Terminal in
/-- **Counting parentheses takes what the pattern takes**, inside a group and inside the parentheses
in it. -/
theorem rests_eq_scanGroup (cs : List Char) :
    nested.rests cs = ((scanGroup 1 cs).map Prod.snd).toList ∧
      (flat.rests cs).flatMap nested.rests = ((scanGroup 2 cs).map Prod.snd).toList := by
  induction cs with
  | nil => exact ⟨rfl, rfl⟩
  | cons c cs ih =>
    rw [rests_nested_cons, rests_flat_cons, scanGroup, scanGroup]
    by_cases hclose : c = ')'
    · simp [hclose, ih.1, Function.comp_def]
    · by_cases hopen : c = '('
      · simp [hopen, ih.2, Function.comp_def]
      · simp [hclose, hopen, ih.1, ih.2, Function.comp_def]

/-- **A group is matched in one way at most**, and counting parentheses takes the same. -/
theorem rests_group (cs : List Char) :
    group.rests cs = ((Terminal.scanGroup 0 cs).map Prod.snd).toList := by
  cases cs with
  | nil => rfl
  | cons c cs =>
    by_cases hopen : c = '('
    · simp [group, rests, Terminal.scanGroup, hopen, (rests_eq_scanGroup cs).1, Function.comp_def]
    · simp [group, rests, Terminal.scanGroup, hopen]

end Pattern

/-! ## Groups -/

/-- **How many more parentheses are opened than closed** in a text. -/
def depth (cs : List Char) : Int := cs.count '(' - cs.count ')'

/-- **A group**: the parenthesis that begins it is closed at its end, and not before. -/
structure IsGroup (word : List Char) : Prop where
  opened : word.head? = some '('
  unclosed : ∀ front, front <+: word → front ≠ [] → front ≠ word → 0 < depth front
  closed : depth word = 0

/-- **Parentheses are nested at most two deep** in a text. -/
def NestedInTwo (word : List Char) : Prop := ∀ front, front <+: word → depth front ≤ 2

theorem depth_append (front behind : List Char) :
    depth (front ++ behind) = depth front + depth behind := by
  simp only [depth, List.count_append]
  omega

theorem depth_cons (c : Char) (cs : List Char) : depth (c :: cs) = depth [c] + depth cs :=
  depth_append [c] cs

@[simp] theorem depth_nil : depth [] = 0 := rfl

@[simp] theorem depth_open : depth ['('] = 1 := rfl

@[simp] theorem depth_close : depth [')'] = -1 := rfl

theorem depth_plain {c : Char} (hopen : c ≠ '(') (hclose : c ≠ ')') : depth [c] = 0 := by
  simp [depth, hopen, hclose]

namespace IsGroup

variable {word word' rest rest' : List Char}

/-- **No more than one group stands at a place**: where it is closed is given by where it is
opened. -/
theorem eq_of_append_eq (h : IsGroup word) (h' : IsGroup word')
    (heq : word ++ rest = word' ++ rest') : word = word' := by
  -- Of two groups that stand at one place one goes on behind the other, which is closed.
  have heq_of_le {word word' : List Char} (h : IsGroup word) (h' : IsGroup word')
      (hle : word <+: word') : word = word' := by
    by_contra hne
    have hnil : word ≠ [] := by
      rintro rfl
      exact nomatch h.opened
    exact absurd h.closed (Int.ne_of_gt (h'.unclosed word hle hnil hne))
  rcases List.prefix_or_prefix_of_prefix ⟨rest, heq⟩ ⟨rest', rfl⟩ with hle | hle
  · exact heq_of_le h h' hle
  · exact (heq_of_le h' h hle).symm

/-- **A group ends in the parenthesis that closes it.** -/
theorem getLast?_eq (h : IsGroup word) : word.getLast? = some ')' := by
  obtain rfl | ⟨front, c, rfl⟩ := List.eq_nil_or_concat' word
  · exact nomatch h.opened
  have hunclosed : 0 < depth front := by
    by_cases hnil : front = []
    · subst hnil
      obtain rfl : c = '(' := Option.some.inj h.opened
      exact absurd h.closed (by decide)
    · exact h.unclosed front (List.prefix_append front [c]) hnil (by simp)
  have hclosed := h.closed
  rw [depth_append] at hclosed
  rw [List.getLast?_concat]
  by_contra hne
  have hclose : c ≠ ')' := fun heq => hne (congrArg some heq)
  by_cases hopen : c = '('
  · rw [hopen, depth_open] at hclosed
    omega
  · rw [depth_plain hopen hclose] at hclosed
    omega

end IsGroup

/-- **What closes a number of open parentheses**: all are closed at its end and not before, and
there are never more than two. -/
structure Closes (d : Int) (word : List Char) : Prop where
  unclosed : ∀ front, front <+: word → front ≠ word → 0 < d + depth front
  bounded : ∀ front, front <+: word → d + depth front ≤ 2
  closed : d + depth word = 0

namespace Closes

variable {d : Int} {c : Char} {word : List Char}

theorem nil_iff : Closes d [] ↔ d = 0 := by
  constructor
  · intro h
    simpa using h.closed
  · rintro rfl
    refine ⟨fun front hfront hne => absurd (List.prefix_nil.mp hfront) hne,
      fun front hfront => ?_, rfl⟩
    rw [List.prefix_nil.mp hfront]
    decide

/-- Where no parenthesis is open, nothing is left to close. -/
theorem zero_iff : Closes 0 word ↔ word = [] := by
  constructor
  · intro h
    by_contra hne
    exact absurd (h.unclosed [] List.nil_prefix (Ne.symm hne)) (by decide)
  · rintro rfl
    exact nil_iff.mpr rfl

theorem not_three : ¬ Closes 3 word := fun h => absurd (h.bounded [] List.nil_prefix) (by decide)

/-- **From character to character.** -/
theorem cons_iff (hpos : 0 < d) (hle : d ≤ 2) :
    Closes d (c :: word) ↔ Closes (d + depth [c]) word := by
  constructor
  · intro h
    have hcons {front : List Char} (hfront : front <+: word) : (c :: front) <+: (c :: word) :=
      List.cons_prefix_cons.mpr ⟨rfl, hfront⟩
    refine ⟨fun front hfront hne => ?_, fun front hfront => ?_, ?_⟩
    · rw [Int.add_assoc, ← depth_cons]
      exact h.unclosed _ (hcons hfront) fun heq => hne (List.cons.inj heq).2
    · rw [Int.add_assoc, ← depth_cons]
      exact h.bounded _ (hcons hfront)
    · rw [Int.add_assoc, ← depth_cons]
      exact h.closed
  · intro h
    refine ⟨fun front hfront hne => ?_, fun front hfront => ?_, ?_⟩
    · rcases List.prefix_cons_iff.mp hfront with rfl | ⟨front, rfl, htail⟩
      · simpa using hpos
      · rw [depth_cons, ← Int.add_assoc]
        exact h.unclosed front htail fun heq => hne (heq ▸ rfl)
    · rcases List.prefix_cons_iff.mp hfront with rfl | ⟨front, rfl, htail⟩
      · simpa using hle
      · rw [depth_cons, ← Int.add_assoc]
        exact h.bounded front htail
    · rw [depth_cons, ← Int.add_assoc]
      exact h.closed

/-- What closes something at the front of a text that begins with a character. -/
theorem append_cons_iff {cs rest : List Char} (hpos : 0 < d) (hle : d ≤ 2) :
    c :: cs = word ++ rest ∧ Closes d word ↔
      ∃ body, word = c :: body ∧ cs = body ++ rest ∧ Closes (d + depth [c]) body := by
  constructor
  · rintro ⟨hcs, hcloses⟩
    rcases word with _ | ⟨c', body⟩
    · have hzero := nil_iff.mp hcloses
      omega
    · obtain ⟨rfl, htail⟩ := List.cons.inj hcs
      exact ⟨body, rfl, htail, (cons_iff hpos hle).mp hcloses⟩
  · rintro ⟨body, rfl, rfl, hcloses⟩
    exact ⟨rfl, (cons_iff hpos hle).mpr hcloses⟩

/-- **What closes the parenthesis that begins a group.** -/
theorem one_iff : Closes 1 word ↔ IsGroup ('(' :: word) ∧ NestedInTwo ('(' :: word) := by
  constructor
  · intro h
    refine ⟨⟨rfl, fun front hfront hne hproper => ?_, ?_⟩, fun front hfront => ?_⟩
    · rcases List.prefix_cons_iff.mp hfront with rfl | ⟨front, rfl, htail⟩
      · exact absurd rfl hne
      · rw [depth_cons, depth_open]
        exact h.unclosed front htail fun heq => hproper (heq ▸ rfl)
    · rw [depth_cons, depth_open]
      exact h.closed
    · rcases List.prefix_cons_iff.mp hfront with rfl | ⟨front, rfl, htail⟩
      · decide
      · rw [depth_cons, depth_open]
        exact h.bounded front htail
  · rintro ⟨hgroup, hnested⟩
    have hdepth (front : List Char) : 1 + depth front = depth ('(' :: front) := by
      rw [depth_cons, depth_open]
    have hcons {front : List Char} (hfront : front <+: word) : ('(' :: front) <+: ('(' :: word) :=
      List.cons_prefix_cons.mpr ⟨rfl, hfront⟩
    refine ⟨fun front hfront hne => ?_, fun front hfront => ?_, ?_⟩
    · rw [hdepth]
      exact hgroup.unclosed _ (hcons hfront) (List.cons_ne_nil _ _) fun heq =>
        hne (List.cons.inj heq).2
    · rw [hdepth]
      exact hnested _ (hcons hfront)
    · rw [hdepth]
      exact hgroup.closed

end Closes

namespace Terminal

/-- A character in front of a word that is found. -/
theorem map_cons_eq_some_iff {c : Char} {found : Option (List Char × List Char)}
    {f : List Char × List Char → List Char × List Char} {word rest : List Char}
    (hf : ∀ body rest, f (body, rest) = (c :: body, rest)) :
    found.map f = some (word, rest) ↔ ∃ body, word = c :: body ∧ found = some (body, rest) := by
  rcases found with _ | ⟨body, rest'⟩
  · simp
  · simp [hf, eq_comm]

/-- **What is scanned inside a group** closes what is open. -/
theorem scanGroup_eq_some_iff_closes {d : Nat} {cs word rest : List Char} (hpos : 0 < d)
    (hle : d ≤ 2) : scanGroup d cs = some (word, rest) ↔ cs = word ++ rest ∧ Closes d word := by
  induction cs generalizing d word with
  | nil =>
    refine iff_of_false (by rintro ⟨⟩) ?_
    rintro ⟨hnil, hcloses⟩
    obtain ⟨rfl, -⟩ := List.append_eq_nil_iff.mp hnil.symm
    have hzero := Closes.nil_iff.mp hcloses
    omega
  | cons c cs ih =>
    rw [Closes.append_cons_iff (by omega) (by omega), scanGroup]
    by_cases hopen : c = '('
    · subst hopen
      rw [if_pos rfl]
      obtain rfl | rfl : d = 1 ∨ d = 2 := by omega
      · rw [if_pos (by decide), map_cons_eq_some_iff fun _ _ => rfl]
        exact exists_congr fun body => and_congr_right fun _ => ih (by decide) (by decide)
      · rw [if_neg (by decide)]
        refine iff_of_false (by rintro ⟨⟩) ?_
        rintro ⟨_, -, -, hcloses⟩
        exact Closes.not_three hcloses
    · rw [if_neg hopen, if_neg (by omega)]
      by_cases hclose : c = ')'
      · subst hclose
        rw [if_pos rfl]
        obtain rfl | rfl : d = 1 ∨ d = 2 := by omega
        · rw [if_pos rfl]
          have hzero {body : List Char} : Closes ((1 : Nat) + depth [')']) body ↔ body = [] := by
            rw [depth_close]
            exact Closes.zero_iff
          simp only [hzero, Option.some.injEq, Prod.mk.injEq]
          constructor
          · rintro ⟨rfl, rfl⟩
            exact ⟨[], rfl, rfl, rfl⟩
          · rintro ⟨body, rfl, rfl, rfl⟩
            exact ⟨rfl, rfl⟩
        · rw [if_neg (by decide), map_cons_eq_some_iff fun _ _ => rfl]
          exact exists_congr fun body => and_congr_right fun _ => ih (by decide) (by decide)
      · rw [if_neg hclose, map_cons_eq_some_iff fun _ _ => rfl, depth_plain hopen hclose,
          Int.add_zero]
        exact exists_congr fun body => and_congr_right fun _ => ih hpos hle

/-- **The arguments of a macro are a group** at the front of a text, with parentheses nested at most
two deep in it. -/
theorem scanGroup_eq_some_iff {cs word rest : List Char} :
    scanGroup 0 cs = some (word, rest) ↔ cs = word ++ rest ∧ IsGroup word ∧ NestedInTwo word := by
  constructor
  · intro h
    cases cs with
    | nil => cases h
    | cons c cs =>
      rw [scanGroup] at h
      split at h
      · next hopen =>
        subst hopen
        rw [if_pos (by decide), Option.map_eq_some_iff] at h
        obtain ⟨⟨body, rest⟩, hbody, ⟨⟩⟩ := h
        obtain ⟨rfl, hcloses⟩ := (scanGroup_eq_some_iff_closes (by decide) (by decide)).mp hbody
        exact ⟨rfl, Closes.one_iff.mp hcloses⟩
      · cases h
  · rintro ⟨rfl, hgroup, hnested⟩
    obtain ⟨body, rfl⟩ := List.head?_eq_some_iff.mp hgroup.opened
    have hbody : scanGroup 1 (body ++ rest) = some (body, rest) :=
      (scanGroup_eq_some_iff_closes (by decide) (by decide)).mpr
        ⟨rfl, Closes.one_iff.mpr ⟨hgroup, hnested⟩⟩
    rw [List.cons_append, scanGroup, if_pos rfl, if_pos (by decide), hbody]
    rfl

end Terminal

/-- **The pattern of a group matches** exactly the groups, with parentheses nested at most two deep
in them. -/
theorem Pattern.mem_rests_group_iff {cs rest : List Char} :
    rest ∈ group.rests cs ↔ ∃ word, cs = word ++ rest ∧ IsGroup word ∧ NestedInTwo word := by
  rw [rests_group, Option.mem_toList, Option.map_eq_some_iff]
  constructor
  · rintro ⟨⟨word, _⟩, hscan, rfl⟩
    exact ⟨word, Terminal.scanGroup_eq_some_iff.mp hscan⟩
  · rintro ⟨word, h⟩
    exact ⟨(word, rest), Terminal.scanGroup_eq_some_iff.mpr h, rfl⟩

end TraitMock
