import Mathlib.Data.List.Induction
import TraitMock.Decl.Reroot
import TraitMock.Proofs.Walk.Parts

/-!
# Proofs/Decl/Scope — the module that a visibility reaches up to

A module is known by the names that lead down to it from the root of the crate, and a path of plain
names leads from one module to another: `crate` in front of it goes to the root, `self` stays,
`super` goes up to the parent, any other name goes down.

* `ModulePath.follow_supers` — as many steps up as there are names below a module lead back to it.
* `Visibility.scope_reroot` — a visibility that is re-rooted reaches, from below, as far as it did
  where it was written.
-/

namespace TraitMock

/-- **A module**, by the names that lead to it from the root of the crate. -/
abbrev ModulePath : Type := List String

namespace ModulePath

/-- **Taking one name**: `self` stays, `super` goes to the parent, which the root does not have, and
any other name goes down. -/
def step (m : ModulePath) (name : String) : Option ModulePath :=
  if name = hereName then some m
  else if name = superName then if m.isEmpty then none else some m.dropLast
  else some (m ++ [name])

/-- Taking names from left to right. -/
def follow (m : ModulePath) : List String → Option ModulePath
  | [] => some m
  | name :: rest => do (← m.step name).follow rest

/-- **Where a path leads** from a module; only in front does `crate` lead to the root. -/
def resolve (m : ModulePath) : List String → Option ModulePath
  | [] => some m
  | name :: rest => if name = crateName then follow [] rest else m.follow (name :: rest)

variable {m : ModulePath}

@[simp] theorem step_here : m.step hereName = some m := rfl

@[simp] theorem step_super_concat (m : ModulePath) (name : String) :
    step (m ++ [name]) superName = some m := by
  simp [step, superName, hereName]

/-- **Climbing undoes descending**: as many steps up as there are names below a module lead to
it. -/
theorem follow_supers (m : ModulePath) (below rest : List String) :
    follow (m ++ below) (List.replicate below.length superName ++ rest) = m.follow rest := by
  induction below using List.reverseRecOn with
  | nil => rw [List.append_nil]; rfl
  | append_singleton below name ih =>
    rw [← List.append_assoc, List.length_append, List.length_singleton, List.replicate_succ,
      List.cons_append, follow, step_super_concat]
    exact ih

/-- A path that begins with `self` leads where the rest of it is followed to. -/
theorem resolve_here (rest : List String) : m.resolve (hereName :: rest) = m.follow rest := by
  rw [resolve, if_neg (by decide), follow, step_here]
  rfl

/-- Where `crate` is not in front, a path is followed name by name. -/
theorem resolve_of_head? {names : List String} (h : names.head? ≠ some crateName) :
    m.resolve names = m.follow names := by
  cases names with
  | nil => rfl
  | cons name rest => exact if_neg fun hname => h (congrArg some hname)

/-- Behind `crate` the place of a path does not matter. -/
theorem resolve_crate {names : List String} (h : names.head? = some crateName) (m' : ModulePath) :
    m.resolve names = m'.resolve names := by
  cases names with
  | nil => cases h
  | cons name rest =>
    obtain rfl := Option.some.inj h
    rw [resolve, resolve, if_pos rfl, if_pos rfl]

/-- From some modules below, a path with that many steps up in front leads where the rest of it is
followed to. -/
theorem resolve_supers {below : List String} (h : below ≠ []) (m : ModulePath)
    (rest : List String) :
    resolve (m ++ below) (List.replicate below.length superName ++ rest) = m.follow rest := by
  obtain ⟨n, hn⟩ := Nat.exists_eq_succ_of_ne_zero (mt List.length_eq_zero_iff.mp h)
  rw [resolve_of_head? (by simp [hn, List.replicate_succ, superName, crateName]), follow_supers]

end ModulePath

/-! ## Paths and their names -/

theorem supers_names (levels : Nat) (span : Span) :
    (supers levels span).map (·.ident.name) = List.replicate levels superName :=
  List.map_replicate

theorem Path.head?_names (path : Path) : path.names.head? = path.firstName? := by
  rw [names, firstName?, List.head?_map]

/-- The names of a re-rooted path: steps up, and the path without a leading `self`. -/
theorem Path.names_reroot (levels : Nat) (path : Path) :
    (path.reroot levels).names = List.replicate levels superName ++
      if path.firstName? = some hereName then path.names.drop 1 else path.names := by
  rw [reroot, names, List.map_append, supers_names]
  split
  · rw [List.map_drop, names]
  · rfl

/-- **A re-rooted path leads, from below, where it led before.** -/
theorem Path.resolve_reroot {path : Path} {below : List String} (hbelow : below ≠ [])
    (hcrate : path.firstName? ≠ some crateName) (m : ModulePath) :
    ModulePath.resolve (m ++ below) (path.reroot below.length).names = m.resolve path.names := by
  rw [names_reroot, ModulePath.resolve_supers hbelow]
  split
  next hhere =>
    -- A leading `self` stays in the module that the steps up lead to.
    rw [← head?_names, List.head?_eq_some_iff] at hhere
    obtain ⟨rest, hrest⟩ := hhere
    rw [hrest, ModulePath.resolve_here, List.drop_one, List.tail_cons]
  next => rw [ModulePath.resolve_of_head? (path.head?_names ▸ hcrate)]

/-! ## Visibilities -/

/-- **The path that a visibility is restricted to**; without a keyword it is the module itself, to
which the empty path leads.  Public visibilities are not restricted to a path. -/
def Visibility.restriction? : Visibility → Option Path
  | .inherited => some ⟨[], false⟩
  | .restricted path _ => some path
  | _ => none

/-- **The module that a visibility reaches up to**, written in a given one. -/
def Visibility.scope (vis : Visibility) (m : ModulePath) : Option ModulePath :=
  vis.restriction?.bind fun path => m.resolve path.names

/-- A restricted visibility reaches, from some modules below, as far as it did before. -/
theorem Visibility.scope_rerootBy {vis : Visibility} (hvis : vis.restriction?.isSome)
    {below : List String} (hbelow : below ≠ []) (m : ModulePath) :
    ((vis.rerootBy below.length).apply vis).scope (m ++ below) = vis.scope m := by
  cases vis with
  | inherited =>
    have hup := ModulePath.resolve_supers hbelow m []
    rw [List.append_nil, ← supers_names below.length .unknown] at hup
    exact hup
  | restricted path hasIn =>
    by_cases hcrate : path.firstName? = some crateName
    · rw [rerootBy, if_pos hcrate]
      exact ModulePath.resolve_crate (path.head?_names.trans hcrate) _
    · rw [rerootBy, if_neg hcrate]
      exact Path.resolve_reroot hbelow hcrate m
  | pub | crate | unknown => cases hvis

/-- A visibility that has been re-rooted reaches from below as far as it did. -/
theorem Visibility.scope_of_reroot {vis : Visibility} {levels : Int} {e : Edit Visibility}
    (h : vis.reroot levels = .ok e) (hvis : vis.restriction?.isSome) (m below : ModulePath)
    (hbelow : (below.length : Int) = levels) : (e.apply vis).scope (m ++ below) = vis.scope m := by
  unfold reroot at h
  split at h
  next => cases h
  next hlevels =>
    obtain rfl := Except.ok.inj h
    have hne : below ≠ [] := List.ne_nil_of_length_pos (by omega)
    have hcount : levels.toNat = below.length := by omega
    rw [hcount]
    exact scope_rerootBy hvis hne m

/-- **Re-rooting keeps what a visibility reaches**: seen from `levels` modules below, a restricted
one without a leading colon, or one without a keyword, reaches as far as it did where it was
written, or nowhere if it did so there.  What is public stays as it is, and there is nothing to be
seen from less than one module below. -/
theorem Visibility.scope_reroot (vis : Visibility) (levels : Int) :
    (levels < 1 → vis.reroot levels = .error (.levelsBelowOne levels)) ∧
    (1 ≤ levels → ∃ e, vis.reroot levels = .ok e ∧
      (vis = .pub ∨ vis = .crate → e = .keep) ∧
      ∀ path ∈ vis.restriction?, path.leadingColon = false →
        ∀ (m : ModulePath) (below : List String), (below.length : Int) = levels →
          (e.apply vis).scope (m ++ below) = vis.scope m) := by
  refine ⟨fun hlow => if_pos hlow, fun hlevels => ?_⟩
  have hreroot : vis.reroot levels = .ok _ := if_neg (Int.not_lt.mpr hlevels)
  refine ⟨_, hreroot, ?_, fun path hpath _ => scope_of_reroot hreroot (Option.isSome_of_mem hpath)⟩
  rintro (rfl | rfl) <;> rfl

/-- Three modules below `a::b`, the visibility `pub(in self::super::c)` reaches `a::c` again; at the
root it reaches nothing, and it is not re-rooted by no level at all. -/
theorem scope_reroot_selfSuper :
    let vis : Visibility := .restricted (.ofIdents [⟨"self", {}⟩, ⟨"super", {}⟩, ⟨"c", {}⟩]) true
    vis.reroot 0 = .error (.levelsBelowOne 0) ∧
    ∃ e, vis.reroot 3 = .ok e ∧
      (e.apply vis).scope (["a", "b"] ++ ["x", "y", "z"]) = some ["a", "c"] ∧
      (e.apply vis).scope ([] ++ ["x", "y", "z"]) = none := by
  intro vis
  obtain ⟨e, he, -, hscope⟩ := (Visibility.scope_reroot vis 3).2 (by decide)
  refine ⟨(Visibility.scope_reroot vis 0).1 (by decide), e, he, ?_, ?_⟩
  · rw [hscope _ rfl rfl ["a", "b"] ["x", "y", "z"] rfl]
    decide
  · rw [hscope _ rfl rfl [] ["x", "y", "z"] rfl]
    decide

end TraitMock
