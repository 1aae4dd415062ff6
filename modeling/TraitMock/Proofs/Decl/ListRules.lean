import TraitMock.Proofs.Decl.Writing

/-!
# Proofs/Decl/ListRules — lists are written again member by member

The further members of every list are read by two rules of one kind, so one theorem is about all of
them (`more_rewrites`).  The lists with their first member follow.
-/

namespace TraitMock

open Text Parts

-- What the actions of the grammar do with optional parts, and how marks are spelled.
attribute [simp] Grammar.only Grammar.orNil Grammar.listed Grammar.orEmpty Terminal.spelling?

/-- What holds of two rules holds of the rules that they are. -/
theorem Rule.Rewrites.pair {r r' : Rule} (h : r.Rewrites declared) (h' : r'.Rewrites declared) :
    ∀ x ∈ [r, r'], x.Rewrites declared := by
  rintro x hx
  rcases List.mem_pair.mp hx with rfl | rfl
  · exact h
  · exact h'

/-- **The further members of a list are written again**: each behind the mark `t`, with blanks about
the mark as `front` and `gap` say. -/
theorem more_rewrites {n m : Nonterminal} (t : Terminal) (front gap : Bool)
    (members : n.Val → List m.Val) (ofList : List m.Val → n.Val)
    (hmembers : ∀ xs, members (ofList xs) = xs)
    (htext : ∀ xs, n.text xs = followed ((if front then " " else "") ++
      (t.spelling?.getD "" ++ if gap then " " else "")) ((members xs).map m.text))
    (hback : ∀ xs ys, n.BackAs xs ys ↔ List.Forall₂ m.BackAs (members xs) (members ys))
    (hsound : ∀ xs x, n.Sound (ofList (xs ++ [x])))
    (hwritten : (∀ xs, n.Written xs) ∧ ∀ x, m.Written x)
    (hfits : fits [front, gap] [.term t, .phrase m] = true ∧
      fits [false, front, gap] [.phrase n, .term t, .phrase m] = true) :
    Rule.Rewrites declared ⟨n, mark t <| phrase m done, fun _ (x, _) => ofList [x]⟩ ∧
      Rule.Rewrites declared ⟨n, phrase n <| mark t <| phrase m done,
        fun _ (xs, x, _) => ofList (members xs ++ [x])⟩ := by
  constructor
  · rintro - place ⟨x, ⟨⟩⟩ -
    refine ⟨hsound [] x, fun _ => ⟨(x, ()), .of_text ⟨hwritten.2 x, trivial⟩ _ hfits.1 ?_ ?_⟩⟩
    · cases front <;> cases gap <;> simp [-Nonterminal.text, htext, hmembers, followed]
    · rintro - ⟨y, ⟨⟩⟩ ⟨hxy, -⟩
      simpa [-Nonterminal.BackAs, hback, hmembers] using hxy
  · rintro - place ⟨xs, x, ⟨⟩⟩ -
    refine ⟨hsound _ x, fun _ => ⟨(xs, x, ()),
      .of_text ⟨hwritten.1 xs, hwritten.2 x, trivial⟩ _ hfits.2 ?_ ?_⟩⟩
    · cases front <;> cases gap <;> simp [-Nonterminal.text, htext, hmembers, followed_concat]
    · rintro - ⟨ys, y, ⟨⟩⟩ ⟨hxs, hxy, -⟩
      rw [declared_back, hback] at hxs ⊢
      rw [hmembers, hmembers]
      exact List.rel_append hxs (.cons hxy .nil)

theorem moreParams_rewrites : ∀ r ∈ Grammar.moreParams, r.Rewrites declared := by
  have h := more_rewrites (n := .moreParams) (m := .param) .comma false true id id
    (fun _ => rfl) (fun _ => rfl) (fun _ _ => Iff.rfl) (fun _ _ => by simp)
    ⟨fun _ => trivial, fun _ => trivial⟩ ⟨rfl, rfl⟩
  exact .pair h.1 h.2

theorem morePatterns_rewrites : ∀ r ∈ Grammar.morePatterns, r.Rewrites declared := by
  have h := more_rewrites (n := .morePatterns) (m := .pattern) .comma false true id id
    (fun _ => rfl) (fun _ => rfl) (fun _ _ => Iff.rfl) (fun _ _ => by simp)
    ⟨fun _ => trivial, fun _ => trivial⟩ ⟨rfl, rfl⟩
  exact .pair h.1 h.2

theorem moreGenericParams_rewrites : ∀ r ∈ Grammar.moreGenericParams, r.Rewrites declared := by
  have h := more_rewrites (n := .moreGenericParams) (m := .genericParam) .comma false true id id
    (fun _ => rfl) (fun _ => rfl) (fun _ _ => Iff.rfl) (fun _ _ => by simp)
    ⟨fun _ => trivial, fun _ => trivial⟩ ⟨rfl, rfl⟩
  exact .pair h.1 h.2

theorem morePredicates_rewrites : ∀ r ∈ Grammar.morePredicates, r.Rewrites declared := by
  have h := more_rewrites (n := .morePredicates) (m := .predicate) .comma false true id id
    (fun _ => rfl) (fun _ => rfl) (fun _ _ => Iff.rfl) (fun _ _ => by simp)
    ⟨fun _ => trivial, fun _ => trivial⟩ ⟨rfl, rfl⟩
  exact .pair h.1 h.2

theorem moreBounds_rewrites : ∀ r ∈ Grammar.moreBounds, r.Rewrites declared := by
  have h := more_rewrites (n := .moreBounds) (m := .bound) .plus true true id id
    (fun _ => rfl) (fun _ => rfl) (fun _ _ => Iff.rfl) (fun _ _ => by simp)
    ⟨fun _ => trivial, fun _ => trivial⟩ ⟨rfl, rfl⟩
  exact .pair h.1 h.2

theorem moreTypes_rewrites : ∀ r ∈ Grammar.moreTypes, r.Rewrites declared := by
  have h := more_rewrites (n := .moreTypes) (m := .type) .comma false true id id
    (fun _ => rfl) (fun _ => rfl) (fun _ _ => Iff.rfl) (fun _ _ => by simp)
    ⟨fun _ => trivial, fun _ => trivial⟩ ⟨rfl, rfl⟩
  exact .pair h.1 h.2

theorem moreSegments_rewrites : ∀ r ∈ Grammar.moreSegments, r.Rewrites declared := by
  have h := more_rewrites (n := .moreSegments) (m := .segment) .pathSep false false id id
    (fun _ => rfl) (fun _ => rfl) (fun _ _ => Iff.rfl) (fun _ _ => by simp)
    ⟨fun _ => trivial, fun _ => trivial⟩ ⟨rfl, rfl⟩
  exact .pair h.1 h.2

theorem moreGenericArgs_rewrites : ∀ r ∈ Grammar.moreGenericArgs, r.Rewrites declared := by
  have h := more_rewrites (n := .moreGenericArgs) (m := .genericArg) .comma false true id id
    (fun _ => rfl) (fun _ => rfl) (fun _ _ => Iff.rfl) (fun _ _ => by simp)
    ⟨fun _ => trivial, fun _ => trivial⟩ ⟨rfl, rfl⟩
  exact .pair h.1 h.2

/-! ## Options that come back -/

section Options

variable {α : Type} {R : α → α → Prop}

/-- What may be left out is there again, or not. -/
theorem isSome_back {o o' : Option α} (h : Option.Rel R o o') : o'.isSome = o.isSome := by
  cases h <;> rfl

/-- What may be left out comes back. -/
theorem only_back {o o' : Option (α × Unit)} (h : Option.Rel (fun a b => R a.1 b.1 ∧ True) o o') :
    Option.Rel R (Grammar.only o) (Grammar.only o') := by
  cases h with
  | none => exact .none
  | some h => exact .some h.1

/-- The members of an optional list come back member by member. -/
theorem orNil_back {o o' : Option (List α × Unit)}
    (h : Option.Rel (fun a b => List.Forall₂ R a.1 b.1 ∧ True) o o') :
    List.Forall₂ R (Grammar.orNil o) (Grammar.orNil o') := by
  cases h with
  | none => exact .nil
  | some h => exact h.1

/-- An optional list that comes back as it was is the same list. -/
theorem orNil_eq_of_back {o o' : Option (List α × Unit)}
    (h : Option.Rel (fun a b => b.1 = a.1 ∧ True) o o') : Grammar.orNil o' = Grammar.orNil o := by
  cases h with
  | none => rfl
  | some h => exact h.1

end Options

/-! ## Lifetimes -/

/-- A lifetime is written as its token. -/
theorem renderLifetime_lifetime {t : Token} (h : Terminal.lifetime.Spells t.text) :
    renderLifetime t.lifetime = t.text := by
  cases hcs : t.text.toList with
  | nil => simp [Terminal.Spells, hcs, Terminal.scan, Terminal.scanLifetime] at h
  | cons c cs =>
    simp only [Terminal.Spells, hcs, Terminal.scan, Terminal.scanLifetime] at h
    split at h
    · next hc =>
      rw [← String.toList_inj, hcs, hc]
      simp [renderLifetime, Token.lifetime, hcs, Terminal.quoteMark]
    · simp at h

/-- Lifetimes whose tokens are spelled alike are the same. -/
theorem Token.lifetime_eq {t u : Token} (h : u.text = t.text) : u.lifetime = t.lifetime := by
  rw [Token.lifetime, Token.lifetime, h]

/-- A lifetime that may be left out comes back. -/
theorem lifetime_back {o o' : Option (Token × Unit)}
    (h : Option.Rel (fun a b => b.1.text = a.1.text ∧ True) o o') :
    (Grammar.only o').map Token.lifetime = (Grammar.only o).map Token.lifetime := by
  cases h with
  | none => rfl
  | some h => exact congrArg some (Token.lifetime_eq h.1)

theorem moreLifetimes_rewrites : ∀ r ∈ Grammar.moreLifetimes, r.Rewrites declared := by
  refine .pair ?_ ?_
  · rintro - place ⟨t, ⟨⟩⟩ ⟨ht, -⟩
    refine ⟨trivial, fun _ => ⟨(t, ()), .of_text trivial [true, true] rfl ?_ ?_⟩⟩
    · simp [followed, renderLifetime_lifetime ht]
    · rintro - ⟨u, ⟨⟩⟩ ⟨htu, -⟩
      simp [Token.lifetime_eq htu]
  · rintro - place ⟨names, t, ⟨⟩⟩ ⟨-, ht, -⟩
    refine ⟨trivial, fun _ => ⟨(names, t, ()),
      .of_text ⟨trivial, trivial⟩ [false, true, true] rfl ?_ ?_⟩⟩
    · simp [followed_concat, renderLifetime_lifetime ht]
    · rintro - ⟨_, u, ⟨⟩⟩ ⟨rfl, htu, -⟩
      simp [Token.lifetime_eq htu]

theorem lifetimeBounds_rewrites : ∀ r ∈ Grammar.lifetimeBounds, r.Rewrites declared := by
  refine List.forall_mem_singleton.mpr ?_
  rintro - place ⟨t, _ | ⟨names, ⟨⟩⟩, ⟨⟩⟩ ⟨ht, -⟩
  · refine ⟨by simp, fun _ => ⟨(t, none, ()), .of_text trivial [] rfl ?_ ?_⟩⟩
    · simp [renderLifetimes, renderLifetime_lifetime ht]
    · rintro - ⟨u, _ | _, ⟨⟩⟩ ⟨htu, h⟩
      · simp [Token.lifetime_eq htu]
      · exact h.elim
  · refine ⟨by simp, fun _ => ⟨(t, some (names, ()), ()),
      .of_text ⟨⟨trivial, trivial⟩, trivial⟩ [] rfl ?_ ?_⟩⟩
    · simp [renderLifetimes, joined_cons_eq, renderLifetime_lifetime ht]
    · rintro - ⟨u, _ | ⟨_, ⟨⟩⟩, ⟨⟩⟩ ⟨htu, h⟩
      · exact h.elim
      · obtain ⟨⟨rfl, -⟩, -⟩ := h
        simp [Token.lifetime_eq htu]

theorem bounds_rewrites : ∀ r ∈ Grammar.bounds, r.Rewrites declared := by
  refine List.forall_mem_singleton.mpr ?_
  rintro - place ⟨x, _ | ⟨xs, ⟨⟩⟩, ⟨⟩⟩ -
  · refine ⟨by simp, fun _ => ⟨(x, none, ()), .of_text ⟨trivial, trivial⟩ [] rfl ?_ ?_⟩⟩
    · simp [renderBounds, renderBoundList_eq_map]
    · rintro - ⟨y, _ | _, ⟨⟩⟩ ⟨hxy, h⟩
      · exact .cons hxy .nil
      · exact h.elim
  · refine ⟨by simp, fun _ => ⟨(x, some (xs, ()), ()),
      .of_text ⟨trivial, ⟨trivial, trivial⟩, trivial⟩ [] rfl ?_ ?_⟩⟩
    · simp [renderBounds, renderBoundList_eq_map, joined_cons_eq]
    · rintro - ⟨y, _ | ⟨ys, ⟨⟩⟩, ⟨⟩⟩ ⟨hxy, h⟩
      · exact h.elim
      · exact .cons hxy h.1.1

end TraitMock
