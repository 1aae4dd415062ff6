import Mathlib.Data.List.Induction
import TraitMock.Proofs.Decl.Alike

/-!
# Proofs/Decl/Merge — merging generics is an ordered union by keys

A union keeps its left list and adds what is new in the right one: `unionBy_eq` says which members
these are, without the run of the union.  From what the keys of a union are (`hasKey_unionBy`) it
follows that unions can be grouped at will (`unionBy_assoc`) and take up nothing twice
(`unionBy_absorb`).

* `Generics.merge_laws` — so merging generics is associative and takes up nothing twice, with or
  without brackets and where clauses on either side.
* `Generics.keyedUnion_merge` — in brackets, parameters and predicates are each an ordered union by
  keys.
-/

namespace TraitMock

/-! ## Unions by keys -/

section Union

variable {α : Type} {same : α → α → Bool}

/-- **Whether one of some members has the key of a given one.** -/
def hasKey (same : α → α → Bool) (xs : List α) (z : α) : Bool := xs.any (same · z)

@[simp] theorem hasKey_nil (z : α) : hasKey same [] z = false := rfl

/-- A key is in a list if it is that of the first member or in the rest. -/
@[simp] theorem hasKey_cons (x : α) (xs : List α) (z : α) :
    hasKey same (x :: xs) z = (same x z || hasKey same xs z) := List.any_cons

/-- A key is in joined lists if it is in the one or the other. -/
@[simp] theorem hasKey_append (xs ys : List α) (z : α) :
    hasKey same (xs ++ ys) z = (hasKey same xs z || hasKey same ys z) := List.any_append

/-- **What a list adds to another**: its members with a key that no member of the other list has,
and none that stands before them in their own. -/
def newBy (same : α → α → Bool) (xs ys : List α) : List α :=
  (ys.zipIdx.filter fun (y, j) => !hasKey same xs y && !hasKey same (ys.take j) y).map Prod.fst

/-- A member behind the others is new if its key is. -/
theorem newBy_concat (xs ys : List α) (y : α) :
    newBy same xs (ys ++ [y]) =
      newBy same xs ys ++ if hasKey same xs y || hasKey same ys y then [] else [y] := by
  have hfront : ∀ {y' j}, (y', j) ∈ ys.zipIdx → (ys ++ [y]).take j = ys.take j := fun hplace =>
    List.take_append_of_le_length (Nat.le_of_lt (List.snd_lt_of_mem_zipIdx hplace))
  rw [newBy, newBy, List.zipIdx_append, List.filter_append, List.map_append]
  congr 1
  · refine congrArg _ (List.filter_congr ?_)
    rintro ⟨y', j⟩ hplace
    dsimp only
    rw [hfront hplace]
  · simp only [List.zipIdx_singleton, List.filter_singleton, Nat.zero_add, List.take_left']
    cases hasKey same xs y <;> cases hasKey same ys y <;> rfl

/-- A union takes up one more member unless it has its key already. -/
theorem unionBy_concat (xs ys : List α) (y : α) :
    unionBy same xs (ys ++ [y]) =
      if hasKey same (unionBy same xs ys) y then unionBy same xs ys
      else unionBy same xs ys ++ [y] := unionBy_append same xs ys [y]

/-- Where the left side has different keys, so has the union. -/
theorem pairwise_unionBy {xs : List α} (hxs : xs.Pairwise fun a b => same a b = false)
    (ys : List α) : (unionBy same xs ys).Pairwise fun a b => same a b = false := by
  induction ys using List.reverseRecOn with
  | nil => exact hxs
  | append_singleton ys y ih =>
    rw [unionBy_concat]
    split
    · exact ih
    · next hnew =>
      refine List.pairwise_append.mpr ⟨ih, List.pairwise_singleton _ _, ?_⟩
      rintro a ha b hb
      obtain rfl := List.mem_singleton.mp hb
      exact Bool.eq_false_iff.mpr fun hab => hnew (List.any_eq_true.mpr ⟨a, ha, hab⟩)

/-- What has all its keys in the left side adds nothing. -/
theorem unionBy_of_hasKey {xs ys : List α} (h : ∀ y ∈ ys, hasKey same xs y = true) :
    unionBy same xs ys = xs := by
  induction ys using List.reverseRecOn with
  | nil => rfl
  | append_singleton ys y ih =>
    obtain ⟨hys, hy⟩ := List.forall_mem_append.mp h
    rw [unionBy_concat, ih hys, if_pos (hy y (List.mem_singleton_self y))]

variable (hsame : Equivalence fun a b => same a b = true)

include hsame

/-- The key of a member is in the list. -/
theorem hasKey_of_mem {xs : List α} {x : α} (h : x ∈ xs) : hasKey same xs x = true :=
  List.any_eq_true.mpr ⟨x, h, hsame.refl x⟩

/-- **The keys of a union** are those of its two sides. -/
theorem hasKey_unionBy (xs ys : List α) (z : α) :
    hasKey same (unionBy same xs ys) z = (hasKey same xs z || hasKey same ys z) := by
  induction ys using List.reverseRecOn with
  | nil => simp
  | append_singleton ys y ih =>
    rw [unionBy_concat]
    split
    · next hold =>
      -- What is left out has the key of a member that is there.
      have hthere : same y z = true → hasKey same (unionBy same xs ys) z = true := by
        intro hyz
        obtain ⟨u, hu, huy⟩ := List.any_eq_true.mp hold
        exact List.any_eq_true.mpr ⟨u, hu, hsame.trans huy hyz⟩
      rw [ih] at hthere ⊢
      cases hyz : same y z with
      | false => simp [hyz]
      | true => simp only [hthere hyz, hasKey_append, hasKey_cons, hyz, Bool.true_or, Bool.or_true]
    · simp [ih, Bool.or_assoc]

/-- **A union is its left side, and behind it what is new in the right one.** -/
theorem unionBy_eq (xs ys : List α) : unionBy same xs ys = xs ++ newBy same xs ys := by
  induction ys using List.reverseRecOn with
  | nil => exact (List.append_nil xs).symm
  | append_singleton ys y ih =>
    rw [unionBy_concat, newBy_concat, hasKey_unionBy hsame, ih, ← List.append_assoc]
    split
    · rw [List.append_nil]
    · rfl

/-- A union with itself takes up nothing. -/
theorem unionBy_self (xs : List α) : unionBy same xs xs = xs :=
  unionBy_of_hasKey fun _ => hasKey_of_mem hsame

/-- **A union takes up nothing twice.** -/
theorem unionBy_absorb (xs ys : List α) :
    unionBy same (unionBy same xs ys) ys = unionBy same xs ys :=
  unionBy_of_hasKey fun y hy => by
    rw [hasKey_unionBy hsame, hasKey_of_mem hsame hy, Bool.or_true]

/-- **Unions can be grouped at will.** -/
theorem unionBy_assoc (xs ys zs : List α) :
    unionBy same (unionBy same xs ys) zs = unionBy same xs (unionBy same ys zs) := by
  induction zs using List.reverseRecOn with
  | nil => rfl
  | append_singleton zs z ih =>
    rw [unionBy_concat, unionBy_concat, ih]
    by_cases hold : hasKey same (unionBy same ys zs) z = true
    · have hunion : hasKey same (unionBy same xs (unionBy same ys zs)) z = true := by
        rw [hasKey_unionBy hsame, hold, Bool.or_true]
      rw [if_pos hold, if_pos hunion]
    · rw [if_neg hold, unionBy_concat]

end Union

/-- **An ordered union by keys.** -/
structure KeyedUnion {α : Type} (same : α → α → Bool) (xs ys zs : List α) : Prop where
  /-- It is the left side as it is, and behind it what the right one adds, in its order. -/
  members : zs = xs ++ newBy same xs ys
  /-- It has the keys of both sides. -/
  keys : ∀ z, hasKey same zs z = (hasKey same xs z || hasKey same ys z)
  /-- What has a key of the left side is a member of the left side. -/
  left : ∀ z ∈ zs, hasKey same xs z = true → z ∈ xs
  /-- If the keys of the left side are different, so are all. -/
  distinct : (xs.Pairwise fun a b => same a b = false) → zs.Pairwise fun a b => same a b = false

/-- The union of two lists by their keys is an ordered union of them. -/
theorem keyedUnion_unionBy {α : Type} {same : α → α → Bool}
    (hsame : Equivalence fun a b => same a b = true) (xs ys : List α) :
    KeyedUnion same xs ys (unionBy same xs ys) where
  members := unionBy_eq hsame xs ys
  keys := hasKey_unionBy hsame xs ys
  left z hz hkey := by
    rw [unionBy_eq hsame, List.mem_append] at hz
    rcases hz with hz | hz
    · exact hz
    · obtain ⟨⟨y, j⟩, hplace, rfl⟩ := List.mem_map.mp hz
      have hnew := (List.mem_filter.mp hplace).2
      dsimp only at hkey hnew
      rw [hkey] at hnew
      cases hnew
  distinct hxs := pairwise_unionBy hxs ys

/-! ## Keys of parameters and predicates -/

/-- Values that are told apart by what a function makes of them fall into classes. -/
theorem equivalence_of_iff {α β : Type} {same : α → α → Bool} {g : α → β}
    (h : ∀ a b, same a b = true ↔ g a = g b) : Equivalence fun a b => same a b = true where
  refl a := (h a a).mpr rfl
  symm {a b} hab := (h b a).mpr ((h a b).mp hab).symm
  trans {a b c} hab hbc := (h a c).mpr (((h a b).mp hab).trans ((h b c).mp hbc))

/-- To have one key is an equivalence of generic parameters. -/
theorem GenericParam.equivalence_sameKey :
    Equivalence fun a b : GenericParam => a.sameKey b = true :=
  equivalence_of_iff (g := GenericParam.key) fun _ _ => beq_iff_eq

/-- What a predicate is about, at another place. -/
def PredicateKey.moved (f : Span → Span) : PredicateKey → PredicateKey
  | .type ty => .type (ty.moved f)
  | .lifetime name => .lifetime name
  | .equal lhs => .equal (lhs.moved f)

/-- Two keys of predicates are alike if they are once their places are forgotten. -/
theorem PredicateKey.alike_iff (a b : PredicateKey) :
    a.alike b = true ↔ a.moved .forget = b.moved .forget := by
  cases a <;> cases b <;> simp [alike, moved, Ty.alike_iff]

/-- To have one key is an equivalence of predicates. -/
theorem Predicate.equivalence_sameKey : Equivalence fun a b : Predicate => a.sameKey b = true :=
  equivalence_of_iff (g := fun p => p.key.moved .forget) fun p q => p.key.alike_iff q.key

/-! ## Where clauses -/

/-- Merging with no `where` clause changes nothing. -/
theorem mergeWhere_none (x : Option (List Predicate)) : mergeWhere x none = x := by
  cases x <;> rfl

/-- Merging a `where` clause with itself changes nothing. -/
theorem mergeWhere_self : ∀ x : Option (List Predicate), mergeWhere x x = x
  | none => rfl
  | some xs => congrArg some (unionBy_self Predicate.equivalence_sameKey xs)

/-- Merging with a `where` clause twice is merging with it once. -/
theorem mergeWhere_absorb : ∀ x y : Option (List Predicate),
    mergeWhere (mergeWhere x y) y = mergeWhere x y
  | none, y => mergeWhere_self y
  | some _, none => rfl
  | some xs, some ys => congrArg some (unionBy_absorb Predicate.equivalence_sameKey xs ys)

/-- Merging `where` clauses can be grouped at will. -/
theorem mergeWhere_assoc : ∀ x y z : Option (List Predicate),
    mergeWhere (mergeWhere x y) z = mergeWhere x (mergeWhere y z)
  | none, _, _ => rfl
  | some _, none, _ => rfl
  | some _, some _, none => rfl
  | some xs, some ys, some zs =>
    congrArg some (unionBy_assoc Predicate.equivalence_sameKey xs ys zs)

/-! ## Generics -/

namespace Generics

variable {x y : Generics}

/-- Without brackets on the left, the right side is all there is. -/
theorem merge_of_bare_left (hx : x.hasBrackets = false) (y : Generics) : x.merge y = y :=
  merge_of_isEmpty_left (by rw [isEmpty, hx]; rfl) y

/-- Without brackets on the right, the left side is all there is, if it has brackets. -/
theorem merge_of_bare_right (hx : x.hasBrackets = true) (hy : y.hasBrackets = false) :
    x.merge y = x :=
  merge_of_isEmpty_right (by rw [isEmpty, hx]; rfl) (by rw [isEmpty, hy]; rfl)

/-- Generics in brackets are merged part by part. -/
theorem merge_of_hasBrackets (hx : x.hasBrackets = true) (hy : y.hasBrackets = true) :
    x.merge y =
      { params := unionBy GenericParam.sameKey x.params y.params
        whereClause := mergeWhere x.whereClause y.whereClause
        hasBrackets := true } := by
  simp [merge, mergeSide, isEmpty, hx, hy]

/-- Merging generics with themselves changes nothing. -/
theorem merge_self (x : Generics) : x.merge x = x := by
  cases hx : x.hasBrackets with
  | false => exact merge_of_bare_left hx x
  | true =>
    rw [merge_of_hasBrackets hx hx, unionBy_self GenericParam.equivalence_sameKey,
      mergeWhere_self, ← hx]

/-- **A merge takes up nothing twice.** -/
theorem merge_absorb (x y : Generics) : (x.merge y).merge y = x.merge y := by
  cases hx : x.hasBrackets with
  | false => rw [merge_of_bare_left hx, merge_self]
  | true =>
    cases hy : y.hasBrackets with
    | false => rw [merge_of_bare_right hx hy, merge_of_bare_right hx hy]
    | true =>
      rw [merge_of_hasBrackets hx hy, merge_of_hasBrackets rfl hy,
        unionBy_absorb GenericParam.equivalence_sameKey, mergeWhere_absorb]

/-- **Merges can be grouped at will.**  A side without brackets drops out of either grouping, and
where all three have some, parameters and predicates are united. -/
theorem merge_assoc (x y z : Generics) : (x.merge y).merge z = x.merge (y.merge z) := by
  cases hx : x.hasBrackets with
  | false => rw [merge_of_bare_left hx, merge_of_bare_left hx]
  | true =>
    cases hy : y.hasBrackets with
    | false => rw [merge_of_bare_right hx hy, merge_of_bare_left hy]
    | true =>
      have hxy : (x.merge y).hasBrackets = true := by rw [merge_of_hasBrackets hx hy]
      cases hz : z.hasBrackets with
      | false => rw [merge_of_bare_right hxy hz, merge_of_bare_right hy hz]
      | true =>
        rw [merge_of_hasBrackets hxy hz, merge_of_hasBrackets hx hy, merge_of_hasBrackets hy hz,
          merge_of_hasBrackets hx rfl, unionBy_assoc GenericParam.equivalence_sameKey,
          mergeWhere_assoc]

/-- **Merging generics is associative, and takes up nothing twice**, whatever brackets and where
clauses there are and whatever is declared more than once.  No generics at all are the identity. -/
theorem merge_laws (x y z : Generics) :
    (x.merge y).merge z = x.merge (y.merge z) ∧ (x.merge y).merge y = x.merge y ∧ x.merge x = x ∧
      ({} : Generics).merge x = x :=
  ⟨merge_assoc x y z, merge_absorb x y, merge_self x, merge_of_bare_left rfl x⟩

/-- **In brackets, a merge is an ordered union by keys**: of the parameters, and of the predicates
where both sides have a where clause.  Where only one side has one, it is kept. -/
theorem keyedUnion_merge (hx : x.hasBrackets = true) (hy : y.hasBrackets = true) :
    (x.merge y).hasBrackets = true ∧
      KeyedUnion GenericParam.sameKey x.params y.params (x.merge y).params ∧
      (∀ ps ∈ x.whereClause, ∀ qs ∈ y.whereClause, ∃ rs ∈ (x.merge y).whereClause,
        KeyedUnion Predicate.sameKey ps qs rs) ∧
      (x.whereClause = none → (x.merge y).whereClause = y.whereClause) ∧
      (y.whereClause = none → (x.merge y).whereClause = x.whereClause) := by
  rw [merge_of_hasBrackets hx hy]
  refine ⟨rfl, keyedUnion_unionBy GenericParam.equivalence_sameKey _ _, fun ps hps qs hqs => ?_,
    fun hnone => ?_, fun hnone => ?_⟩
  · refine ⟨unionBy Predicate.sameKey ps qs, ?_,
      keyedUnion_unionBy Predicate.equivalence_sameKey ps qs⟩
    rw [hps, hqs]
    rfl
  · rw [hnone]
    rfl
  · rw [hnone, mergeWhere_none]

/-- `<T: Clone, 'a>` with `where T: Debug, 'a: 'b` -/
def clonable : Generics where
  params :=
    [.type ⟨"T", {}⟩ [.trait (.ofIdents [⟨"Clone", {}⟩]) false] none, .lifetime ⟨"a", {}⟩ []]
  whereClause := some [.bounded (.path (.ofIdents [⟨"T", {}⟩]) {})
    [.trait (.ofIdents [⟨"Debug", {}⟩]) false], .outlives "a" ["b"]]
  hasBrackets := true

/-- `<T: Copy, U, 'a, U, const T: usize>` with `where 'a: 'c, U: T, T: U` -/
def copyable : Generics where
  params :=
    [.type ⟨"T", {}⟩ [.trait (.ofIdents [⟨"Copy", {}⟩]) false] none, .type ⟨"U", {}⟩ [] none,
      .lifetime ⟨"a", {}⟩ [], .type ⟨"U", {}⟩ [] none,
    .const ⟨"T", {}⟩ (.path (.ofIdents [⟨"usize", {}⟩]) {})]
  whereClause := some [.outlives "a" ["c"],
    .bounded (.path (.ofIdents [⟨"U", {}⟩]) {}) [.trait (.ofIdents [⟨"T", {}⟩]) false],
    .bounded (.path (.ofIdents [⟨"T", {}⟩]) {}) [.trait (.ofIdents [⟨"U", {}⟩]) false]]
  hasBrackets := true

/-- The bounds of the left side stay, and what the right side says again is left out. -/
theorem clonable_copyable_union :
    clonable.hasBrackets = true ∧ copyable.hasBrackets = true ∧
      (clonable.merge copyable).render = "<T: Clone, 'a, U, const T: usize>" ∧
      (clonable.merge copyable).renderWhere = "where T: Debug, 'a: 'b, U: T" ∧
      KeyedUnion GenericParam.sameKey clonable.params copyable.params
        (clonable.merge copyable).params ∧
      ∃ ps ∈ clonable.whereClause, ∃ qs ∈ copyable.whereClause,
        ∃ rs ∈ (clonable.merge copyable).whereClause, KeyedUnion Predicate.sameKey ps qs rs := by
  obtain ⟨-, hparams, hclauses, -⟩ := keyedUnion_merge (x := clonable) (y := copyable) rfl rfl
  exact ⟨rfl, rfl, by decide +kernel, by decide +kernel, hparams, _, rfl, _, rfl,
    hclauses _ rfl _ rfl⟩

end Generics

end TraitMock
