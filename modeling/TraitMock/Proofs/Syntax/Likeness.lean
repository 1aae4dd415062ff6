import Mathlib.Data.List.Forall2
import TraitMock.Proofs.Syntax.Induction

/-!
# Proofs/Syntax/Likeness — two runs side by side

A `Likeness` says when two values of one phrase are alike.  A rule respects it if it makes like
values of like values, whatever the two places, as long as these correspond (`Rule.Respects`).  Then
two stacks that differ in positions and values only go through the same reductions and shifts, and
stay so:

* `Machine.shift_alike` — a token is shifted onto like stacks, or onto neither.
* `Machine.finish_alike` — at the end of the text, like stacks give like values.
-/

namespace TraitMock

/-- **When two values of a phrase are alike.** -/
abbrev Likeness := (n : Nonterminal) → n.Val → n.Val → Prop

/-- **When two extents correspond**: it goes over to the extent from one token to another, and to
the point before a token. -/
structure Corresponds (R : Extent → Extent → Prop) : Prop where
  join : ∀ {a a' b b' : Extent}, R a a' → R b b' → R ⟨a.start, b.stop⟩ ⟨a'.start, b'.stop⟩
  point : ∀ {a a' : Extent}, R a a' → R ⟨a.start, a.start⟩ ⟨a'.start, a'.start⟩

variable {R : Extent → Extent → Prop} {L : Likeness}

/-! ## Like values -/

/-- **Two tokens correspond**: one lexeme, at corresponding places. -/
@[mk_iff]
structure Token.Alike (R : Extent → Extent → Prop) (t t' : Token) : Prop where
  kind : t.kind = t'.kind
  text : t.text = t'.text
  extent : R t.extent t'.extent

/-- **Two places correspond**: they are of one file. -/
@[mk_iff]
structure Place.Alike (R : Extent → Extent → Prop) (p p' : Place) : Prop where
  file : p.file = p'.file
  extent : R p.extent p'.extent

/-- Two values of a symbol are alike. -/
def Symbol.Alike (R : Extent → Extent → Prop) (L : Likeness) : (x : Symbol) → x.Val → x.Val → Prop
  | .term _, t, t' => t.Alike R t'
  | .phrase n, v, v' => L n v v'

/-- The values of two sequences are alike. -/
def Symbol.AllAlike (R : Extent → Extent → Prop) (L : Likeness) :
    (xs : List Symbol) → Symbol.Vals xs → Symbol.Vals xs → Prop
  | [], _, _ => True
  | x :: xs, (v, vs), (v', vs') => x.Alike R L v v' ∧ AllAlike R L xs vs vs'

/-- Two optional values are alike: both are absent, or both are there and alike. -/
def OptionAlike {α : Type} (A : α → α → Prop) : Option α → Option α → Prop
  | none, none => True
  | some a, some a' => A a a'
  | _, _ => False

/-- **What the parts of a rule mean is alike.** -/
def Parts.Alike (R : Extent → Extent → Prop) (L : Likeness) : (p : Parts) → p.Val → p.Val → Prop
  | .done, _, _ => True
  | .mark _ rest, vals, vals' => rest.Alike R L vals vals'
  | .token _ rest, vals, vals' => vals.1.Alike R vals'.1 ∧ rest.Alike R L vals.2 vals'.2
  | .phrase n rest, vals, vals' => L n vals.1 vals'.1 ∧ rest.Alike R L vals.2 vals'.2
  | .maybe inner rest, vals, vals' =>
    OptionAlike (inner.Alike R L) vals.1 vals'.1 ∧ rest.Alike R L vals.2 vals'.2

/-- **A rule respects a likeness**: of like parts it makes like values. -/
def Rule.Respects (R : Extent → Extent → Prop) (L : Likeness) (r : Rule) : Prop :=
  ∀ (place place' : Place) (vals vals' : r.parts.Val), place.Alike R place' →
    r.parts.Alike R L vals vals' → L r.lhs (r.action place vals) (r.action place' vals')

/-! ## The other way round -/

/-- Tokens are alike either way round. -/
theorem Token.Alike.flip {t t' : Token} (h : t.Alike R t') : t'.Alike (flip R) t :=
  ⟨h.kind.symm, h.text.symm, h.extent⟩

/-- Places are alike either way round. -/
theorem Place.Alike.flip {p p' : Place} (h : p.Alike R p') : p'.Alike (flip R) p :=
  ⟨h.file.symm, h.extent⟩

/-- What is read for a symbol is alike either way round. -/
theorem Symbol.Alike.flip : ∀ {x : Symbol} {v v' : x.Val}, x.Alike R L v v' →
    x.Alike (flip R) (fun n => flip (L n)) v' v
  | .term _, _, _, h => Token.Alike.flip h
  | .phrase _, _, _, h => h

/-- Options are alike either way round if their values are. -/
theorem OptionAlike.flip {α : Type} {A B : α → α → Prop} (hA : ∀ {a a'}, A a a' → B a' a) :
    ∀ {o o' : Option α}, OptionAlike A o o' → OptionAlike B o' o
  | none, none, _ => trivial
  | some _, some _, h => hA h

/-- What is read for the parts of a rule is alike either way round. -/
theorem Parts.alike_flip : ∀ (p : Parts) {vals vals' : p.Val}, p.Alike R L vals vals' →
    p.Alike (flip R) (fun n => flip (L n)) vals' vals
  | .done, _, _, _ => trivial
  | .mark _ rest, _, _, h => alike_flip rest h
  | .token _ rest, _, _, h => ⟨Token.Alike.flip h.1, alike_flip rest h.2⟩
  | .phrase _ rest, _, _, h => ⟨h.1, alike_flip rest h.2⟩
  | .maybe inner rest, _, _, h => ⟨OptionAlike.flip (alike_flip inner) h.1, alike_flip rest h.2⟩

/-- **A rule that respects a likeness** respects it the other way round too. -/
theorem Rule.Respects.flip {r : Rule} (h : r.Respects R L) :
    r.Respects (flip R) fun n => flip (L n) :=
  fun place place' vals vals' hplace hvals =>
    h place' place vals' vals (Place.Alike.flip hplace) (Parts.alike_flip _ hvals)

/-- Extents correspond either way round. -/
theorem Corresponds.flip (h : Corresponds R) : Corresponds (flip R) :=
  ⟨fun ha hb => h.join ha hb, fun ha => h.point ha⟩

/-- What is alike for a sequence of symbols is so for both ends of it. -/
theorem Symbol.AllAlike.split : ∀ {xs ys : List Symbol} {vs vs' : Symbol.Vals (xs ++ ys)},
    Symbol.AllAlike R L (xs ++ ys) vs vs' →
      Symbol.AllAlike R L xs (Symbol.Vals.split xs vs).1 (Symbol.Vals.split xs vs').1 ∧
        Symbol.AllAlike R L ys (Symbol.Vals.split xs vs).2 (Symbol.Vals.split xs vs').2
  | [], _, _, _, h => ⟨trivial, h⟩
  | _ :: _, _, (_, _), (_, _), ⟨hx, hrest⟩ => ⟨⟨hx, hrest.split.1⟩, hrest.split.2⟩

/-- **From a choice of the options to the rule.** -/
theorem Parts.alike_of_reading : ∀ (p : Parts) (reading : Parts.Reading p.Val)
    {vs vs' : Symbol.Vals reading.rhs}, reading ∈ p.readings →
      Symbol.AllAlike R L reading.rhs vs vs' → p.Alike R L (reading.value vs) (reading.value vs')
  | .done, _, _, _, _, _ => trivial
  | .mark _ rest, _, _, _, hmem, h => by
    obtain ⟨r, hr, rfl⟩ := List.mem_map.mp hmem
    exact alike_of_reading rest r hr h.2
  | .token _ rest, _, _, _, hmem, h => by
    obtain ⟨r, hr, rfl⟩ := List.mem_map.mp hmem
    exact ⟨h.1, alike_of_reading rest r hr h.2⟩
  | .phrase _ rest, _, _, _, hmem, h => by
    obtain ⟨r, hr, rfl⟩ := List.mem_map.mp hmem
    exact ⟨h.1, alike_of_reading rest r hr h.2⟩
  | .maybe inner rest, _, _, _, hmem, h => by
    rcases List.mem_append.mp hmem with hmem | hmem
    · obtain ⟨r, hr, rfl⟩ := List.mem_map.mp hmem
      exact ⟨trivial, alike_of_reading rest r hr h⟩
    · obtain ⟨i, hi, hmem⟩ := List.mem_flatMap.mp hmem
      obtain ⟨r, hr, rfl⟩ := List.mem_map.mp hmem
      exact ⟨alike_of_reading inner i hi h.split.1, alike_of_reading rest r hr h.split.2⟩

/-! ## Like stacks -/

/-- **Two frames correspond**: one state, one symbol, like values, corresponding extents. -/
inductive Frame.Alike (R : Extent → Extent → Prop) (L : Likeness) : Frame → Frame → Prop
  | mk {state : Nat} {x : Symbol} {v v' : x.Val} {e e' : Extent} : x.Alike R L v v' →
    R e e' → Frame.Alike R L ⟨state, x, v, e⟩ ⟨state, x, v', e'⟩

/-- **Two stacks correspond**, frame by frame. -/
abbrev StacksAlike (R : Extent → Extent → Prop) (L : Likeness) : List Frame → List Frame → Prop :=
  List.Forall₂ (Frame.Alike R L)

/-- Stacks are alike either way round. -/
theorem StacksAlike.flip {stack stack' : List Frame} (h : StacksAlike R L stack stack') :
    StacksAlike (flip R) (fun n => flip (L n)) stack' stack := by
  refine List.Forall₂.flip (h.imp fun _ _ hframe => ?_)
  cases hframe with
  | mk hvalue hextent => exact .mk hvalue.flip hextent

namespace Machine

variable {file : Option String} {entry : Entry} {here here' : Pos} {stack stack' : List Frame}

/-- **Like stacks are in one state**, since states are no matter of places. -/
theorem top_alike (h : StacksAlike R L stack stack') : top entry stack' = top entry stack := by
  cases h with
  | nil => rfl
  | cons hframe _ => cases hframe; rfl

/-- So they do the same in front of a terminal. -/
theorem action?_alike (h : StacksAlike R L stack stack') (t : Terminal) :
    action? entry stack' t = action? entry stack t := by
  rw [action?, action?, top_alike h]

/-- They go on with the same terminals, too. -/
theorem accepts_alike (h : StacksAlike R L stack stack') :
    accepts entry stack' = accepts entry stack := by
  funext t
  rw [accepts, accepts, action?_alike h]

/-- What is read for a symbol on one of two like frames is alike on the other. -/
theorem value?_alike {a b : Frame} (h : a.Alike R L b) {x : Symbol} {v : x.Val}
    (hv : a.value? x = some v) : ∃ v', b.value? x = some v' ∧ x.Alike R L v v' := by
  cases h with
  | @mk state y u u' e e' hu _ =>
    rw [Frame.value?] at hv ⊢
    split at hv
    · next hy =>
      cases hy
      cases hv
      exact ⟨u', dif_pos rfl, hu⟩
    · cases hv

/-- What is read for symbols on one of two like stacks is alike on the other. -/
theorem values?_alike : ∀ {rhs : List Symbol} {frames frames' : List Frame}
    {vals : Symbol.Vals rhs},
    StacksAlike R L frames frames' → values? rhs frames = some vals →
      ∃ vals', values? rhs frames' = some vals' ∧ Symbol.AllAlike R L rhs vals vals'
  | [], _, _, _, .nil, _ => ⟨(), rfl, trivial⟩
  | [], _, _, _, .cons _ _, hvals => by cases hvals
  | _ :: _, _, _, _, .nil, hvals => by cases hvals
  | x :: rhs, _, _, vals, .cons hframe hrest, hvals => by
    simp only [values?, Option.bind_eq_bind, Option.bind_eq_some_iff] at hvals ⊢
    obtain ⟨v, hv, vs, hvs, heq⟩ := hvals
    obtain rfl : (v, vs) = vals := Option.some.inj heq
    obtain ⟨v', hv', halike⟩ := value?_alike hframe hv
    obtain ⟨vs', hvs', hall⟩ := values?_alike hrest hvs
    exact ⟨(v', vs'), ⟨v', hv', vs', hvs', rfl⟩, halike, hall⟩

/-- The extents of like frames correspond. -/
theorem extent_alike {a b : Frame} (h : a.Alike R L b) : R a.extent b.extent := by
  cases h with
  | mk _ hextent => exact hextent

/-- The extents of the last of like frames correspond. -/
theorem getLast_alike {frames frames' : List Frame} (h : StacksAlike R L frames frames') :
    ∀ (hne : frames ≠ []) (hne' : frames' ≠ []),
      R (frames.getLast hne).extent (frames'.getLast hne').extent := by
  induction h with
  | nil => exact fun hne => absurd rfl hne
  | @cons a b as bs hframe hrest ih =>
    intro _ _
    cases hrest with
    | nil => exact extent_alike hframe
    | cons _ _ => exact ih (List.cons_ne_nil _ _) (List.cons_ne_nil _ _)

/-- The extents from the first to the last of like frames correspond. -/
theorem extentOf_alike (hR : Corresponds R) {frames frames' : List Frame}
    (hhere : R ⟨here, here⟩ ⟨here', here'⟩) (h : StacksAlike R L frames frames') :
    R (extentOf here frames) (extentOf here' frames') := by
  cases h with
  | nil => exact hhere
  | cons hframe hrest =>
    exact hR.join (extent_alike hframe)
      (getLast_alike (.cons hframe hrest) (List.cons_ne_nil _ _) (List.cons_ne_nil _ _))

/-- **A reduction on like stacks** is the same one and gives like stacks. -/
theorem reduce_alike (hR : Corresponds R) (hrules : ∀ r ∈ Grammar.rules, r.Respects R L) {i : Nat}
    {next : List Frame} (hhere : R ⟨here, here⟩ ⟨here', here'⟩) (h : StacksAlike R L stack stack')
    (hreduce : reduce file entry here i stack = some next) :
    ∃ next', reduce file entry here' i stack' = some next' ∧ StacksAlike R L next next' := by
  simp only [reduce, Option.bind_eq_bind, Option.bind_eq_some_iff] at hreduce ⊢
  obtain ⟨p, hp, vals, hvals, st, hst, g, hg, heq⟩ := hreduce
  obtain rfl := Option.some.inj heq
  have hframes :
      StacksAlike R L (stack.take p.rhs.length).reverse (stack'.take p.rhs.length).reverse :=
    List.rel_reverse (List.forall₂_take _ h)
  have hrest : StacksAlike R L (stack.drop p.rhs.length) (stack'.drop p.rhs.length) :=
    List.forall₂_drop _ h
  obtain ⟨vals', hvals', hall⟩ := values?_alike hframes hvals
  have hst' : Table.states[top entry (stack'.drop p.rhs.length)]? = some st := by
    rw [top_alike hrest]
    exact hst
  have hextent := extentOf_alike hR hhere hframes
  obtain ⟨r, hr, reading, hreading, rfl⟩ := Rule.of_production hp
  refine ⟨_, ⟨_, hp, vals', hvals', st, hst', g, hg, rfl⟩, .cons ?_ hrest⟩
  exact .mk (hrules r hr _ _ _ _ ⟨rfl, hextent⟩
    (Parts.alike_of_reading _ reading hreading hall)) hextent

/-- **Reducing before like tokens.** -/
theorem settle_alike (hR : Corresponds R) (hrules : ∀ r ∈ Grammar.rules, r.Respects R L)
    {token token' : Token} (htoken : token.Alike R token') {fuel target : Nat} {next : List Frame}
    (h : StacksAlike R L stack stack')
    (hsettle : settle file entry token fuel stack = some (target, next)) :
    ∃ next', settle file entry token' fuel stack' = some (target, next') ∧
      StacksAlike R L next next' := by
  induction fuel generalizing stack stack' with
  | zero => exact nomatch hsettle
  | succ fuel ih =>
    rw [settle_succ] at hsettle ⊢
    rw [← htoken.kind, action?_alike h]
    split at hsettle
    · cases hsettle
    · cases hsettle
      exact ⟨stack', rfl, h⟩
    · obtain ⟨middle, hreduce, hsettle⟩ := Option.bind_eq_some_iff.mp hsettle
      obtain ⟨middle', hreduce', hmiddle⟩ :=
        reduce_alike hR hrules (hR.point htoken.extent) h hreduce
      rw [hreduce']
      exact ih hmiddle hsettle

/-- **Like tokens are shifted onto like stacks.** -/
theorem shift_alike (hR : Corresponds R) (hrules : ∀ r ∈ Grammar.rules, r.Respects R L)
    {token token' : Token} (htoken : token.Alike R token') {next : List Frame}
    (h : StacksAlike R L stack stack') (hshift : shift file entry stack token = some next) :
    ∃ next', shift file entry stack' token' = some next' ∧ StacksAlike R L next next' := by
  obtain ⟨⟨target, rest⟩, hsettle, rfl⟩ := Option.map_eq_some_iff.mp hshift
  obtain ⟨rest', hsettle', hrest⟩ := settle_alike hR hrules htoken h hsettle
  obtain ⟨kind, text, extent⟩ := token
  obtain ⟨kind', text', extent'⟩ := token'
  obtain rfl : kind = kind' := htoken.kind
  refine ⟨⟨target, .term kind, ⟨kind, text', extent'⟩, extent'⟩ :: rest', ?_,
    .cons (.mk htoken htoken.extent) hrest⟩
  rw [shift, reductionBound, ← h.length_eq, ← reductionBound, hsettle']
  rfl

/-- Of two like stacks, the one has a result if the other has, and a like one. -/
theorem result?_alike {v : entry.phrase.Val} (h : StacksAlike R L stack stack')
    (hresult : result? entry stack = some v) :
    ∃ v', result? entry stack' = some v' ∧ L entry.phrase v v' := by
  obtain ⟨frame, rfl, hvalue⟩ := eq_singleton_of_result? hresult
  obtain ⟨frame', rest', hframe, hrest, rfl⟩ := List.forall₂_cons_left_iff.mp h
  cases hrest
  exact value?_alike hframe hvalue

/-- Where one of two like stacks is not yet the whole phrase, neither is the other. -/
theorem result?_eq_none_of_alike (h : StacksAlike R L stack stack')
    (hresult : result? entry stack = none) : result? entry stack' = none := by
  by_contra hsome
  obtain ⟨v', hv'⟩ := Option.ne_none_iff_exists'.mp hsome
  obtain ⟨frame', rfl, hvalue⟩ := eq_singleton_of_result? hv'
  obtain ⟨frame, rest, hframe, hrest, rfl⟩ := List.forall₂_cons_right_iff.mp h
  cases hrest
  cases hframe with
  | @mk state x u u' e e' _ _ =>
    have hx : x = .phrase entry.phrase := congrArg Frame.symbol (eq_of_value? hvalue)
    subst hx
    exact absurd hresult (by simp [result?, Frame.value?])

/-- **At the end of the text**, like stacks give like values. -/
theorem finish_alike (hR : Corresponds R) (hrules : ∀ r ∈ Grammar.rules, r.Respects R L)
    (hhere : R ⟨here, here⟩ ⟨here', here'⟩) {fuel : Nat} {v : entry.phrase.Val}
    (h : StacksAlike R L stack stack') (hfinish : finish file entry here fuel stack = some v) :
    ∃ v', finish file entry here' fuel stack' = some v' ∧ L entry.phrase v v' := by
  induction fuel generalizing stack stack' with
  | zero => exact nomatch hfinish
  | succ fuel ih =>
    rw [finish_succ] at hfinish ⊢
    cases hresult : result? entry stack with
    | some value =>
      rw [hresult] at hfinish
      obtain rfl := Option.some.inj hfinish
      obtain ⟨v', hv', halike⟩ := result?_alike h hresult
      exact ⟨v', by rw [hv'], halike⟩
    | none =>
      rw [hresult] at hfinish
      rw [result?_eq_none_of_alike h hresult, action?_alike h]
      cases haction : action? entry stack .endOfText with
      | none => simp [haction] at hfinish
      | some action =>
        cases action with
        | shift t => simp [haction] at hfinish
        | reduce i =>
          simp only [haction] at hfinish ⊢
          obtain ⟨middle, hreduce, hfinish⟩ := Option.bind_eq_some_iff.mp hfinish
          obtain ⟨middle', hreduce', hmiddle⟩ := reduce_alike hR hrules hhere h hreduce
          rw [hreduce']
          exact ih hmiddle hfinish

end Machine

end TraitMock
