import Mathlib.Logic.Basic
import Mathlib.Logic.Relation
import Mathlib.Tactic.Tauto
import TraitMock.Proofs.Decl.ListRules
import TraitMock.Proofs.Decl.ReadParts
import TraitMock.Proofs.Decl.RoundTrip
import TraitMock.Proofs.Syntax.Excerpt
import TraitMock.Syntax.Parse

/-!
# Proofs/Decl/Nodes — where everything that has a span stands

A `Node` is something in a declaration that has a span: an identifier, a type, a pattern, a
parameter, a method, an item.  Its children are the nodes inside it with no other node between,
whatever there is between them that has no span of its own: paths, arguments, bounds, generics,
visibilities.

In a file that has been read, the text spells every identifier between the two ends of its span, and
the span of every node lies inside that of the node around it (`DeclFile.exact_of_parse`).
-/

namespace TraitMock

/-- **Something that has a span.** -/
inductive Node
  | ident (ident : Ident)
  /-- The name of a declared lifetime, which is written behind a quote. -/
  | lifetime (ident : Ident)
  | type (ty : Ty)
  | pat (pat : Pat)
  | param (param : Param)
  | method (m : Method)
  | item (item : Item)

/-! ## What nodes consist of -/

/-- The nodes of an argument in angle brackets. -/
def GenericArg.nodes : GenericArg → List Node
  | .type ty => [.type ty]
  | .binding ident ty => [.ident ident, .type ty]
  | .lifetime _ | .const _ => []

/-- The nodes of what is applied to a path segment. -/
def SegmentArgs.nodes : SegmentArgs → List Node
  | .none => []
  | .angle args => args.flatMap GenericArg.nodes
  | .call inputs output => inputs.map .type ++ output.toList.map .type

/-- The nodes of a path segment. -/
def Segment.nodes (s : Segment) : List Node := .ident s.ident :: s.args.nodes

/-- The nodes of a path. -/
def Path.nodes (path : Path) : List Node := path.segments.flatMap Segment.nodes

/-- The nodes of a bound. -/
def Bound.nodes : Bound → List Node
  | .trait path _ => path.nodes
  | .outlives _ => []

/-- The nodes inside a type. -/
def Ty.nodes : Ty → List Node
  | .slice elem _ | .array elem _ _ | .pointer elem _ _ | .reference elem _ _ _ | .paren elem _
  | .group elem _ => [.type elem]
  | .tuple elems _ => elems.map .type
  | .function inputs output _ => inputs.map .type ++ output.toList.map .type
  | .traitObject bounds _ | .implTrait bounds _ => bounds.flatMap Bound.nodes
  | .path inner _ => inner.nodes
  | .qualified self _ inner _ => .type self :: inner.nodes
  | .infer _ | .never _ | .macroCall _ _ | .verbatim _ _ | .unknown _ => []

/-- The nodes inside a pattern. -/
def Pat.nodes : Pat → List Node
  | .ident i _ _ sub _ => .ident i :: sub.toList.map .pat
  | .tuple elems _ => elems.map .pat
  | .wild _ | .unknown _ => []

/-- The nodes inside a parameter. -/
def Param.nodes : Param → List Node
  | .receiver _ _ _ _ => []
  | .typed pat ty _ => [.pat pat, .type ty]

/-- The place of a parameter. -/
def Param.span : Param → Span
  | .receiver _ _ _ s | .typed _ _ s => s

/-- The nodes of a declared parameter. -/
def GenericParam.nodes : GenericParam → List Node
  | .type ident bounds default =>
    .ident ident :: bounds.flatMap Bound.nodes ++ default.toList.map .type
  | .lifetime ident _ => [.lifetime ident]
  | .const ident ty => [.ident ident, .type ty]

/-- The nodes of a condition. -/
def Predicate.nodes : Predicate → List Node
  | .bounded ty bounds => .type ty :: bounds.flatMap Bound.nodes
  | .outlives _ _ => []
  | .equal lhs rhs => [.type lhs, .type rhs]

/-- The nodes of generics. -/
def Generics.nodes (g : Generics) : List Node :=
  g.params.flatMap GenericParam.nodes ++ (g.whereClause.getD []).flatMap Predicate.nodes

/-- The nodes of a visibility. -/
def Visibility.nodes : Visibility → List Node
  | .restricted path _ => path.nodes
  | _ => []

/-- The nodes inside a method. -/
def Method.nodes (m : Method) : List Node :=
  m.vis.nodes ++ .ident m.ident :: m.generics.nodes ++ m.params.map .param ++
    m.output.toList.map .type

/-- The nodes inside an item. -/
def Item.nodes : Item → List Node
  | .traitDecl d => d.vis.nodes ++ .ident d.ident :: d.generics.nodes ++ d.methods.map .method
  | .implDecl d =>
    .type d.selfTy :: d.traitPath.elim [] Path.nodes ++ d.generics.nodes ++ d.methods.map .method

namespace Node

/-- The place of a node. -/
def span : Node → Span
  | ident i | lifetime i => i.span
  | type ty => ty.span
  | pat p => p.span
  | param p => p.span
  | method m => m.span
  | item i => i.span

/-- **The nodes right inside a node.** -/
def children : Node → List Node
  | ident _ | lifetime _ => []
  | type ty => ty.nodes
  | pat p => p.nodes
  | param p => p.nodes
  | method m => m.nodes
  | item i => i.nodes

/-- **A node inside another**, however deep, or that one itself. -/
abbrev Below : Node → Node → Prop := Relation.ReflTransGen fun outer inner => inner ∈ outer.children

end Node

/-! ## Nodes in their places -/

/-- **A span covers an extent**, in whatever file. -/
def Span.Covers (s : Span) (e : Extent) : Prop := ∃ file, s = e.toSpan file

/-- **What the text in the extent of a node has to do with it**: it spells an identifier, and a
lifetime behind a quote.  The type that an implementation without a trait is for stands in the place
of the whole item. -/
def Node.Exact (text : List Char) (e : Extent) : Node → Prop
  | .ident i => excerpt text e = i.name.toList
  | .lifetime i => excerpt text e = '\'' :: i.name.toList
  | .item (.implDecl d) => d.traitPath = none → d.selfTy.span = d.span
  | _ => True

/-- **A node stands inside an extent** of a text, and so does, inside the node, all that it consists
of. -/
inductive Node.Placed (text : List Char) : Extent → Node → Prop
  | mk {node : Node} {e outer : Extent} : node.span.Covers e → e.Inside outer → node.Exact text e →
    (∀ child ∈ node.children, child.Placed text e) → node.Placed text outer

variable {text : List Char} {file : Option String} {e : Extent}

theorem Node.Placed.mono {node : Node} {e' : Extent} (he : e.Inside e') (h : node.Placed text e) :
    node.Placed text e' := by
  cases h with
  | mk hspan hinside hexact hchildren => exact .mk hspan (hinside.trans he) hexact hchildren

/-- Whatever is below a node that is in its place is in its own. -/
theorem Node.Placed.of_below {node inner : Node} (h : node.Placed text e)
    (hinner : node.Below inner) : ∃ e', inner.Placed text e' := by
  induction hinner with
  | refl => exact ⟨e, h⟩
  | tail _ hchild ih =>
    obtain ⟨_, ih⟩ := ih
    cases ih with
    | mk _ _ _ hchildren => exact ⟨_, hchildren _ hchild⟩

/-! ## What the rules build -/

/-- The nodes of what a phrase stands for. -/
def Nonterminal.nodes : (n : Nonterminal) → n.Val → List Node
  | .items, xs | .declFile, xs => xs.map .item
  | .item, x | .traitItem, x | .implItem, x => [.item x]
  | .methods, xs => xs.map .method
  | .method, x => [.method x]
  | .moreParams, xs | .params, xs => xs.map .param
  | .param, x | .receiver, x => [.param x]
  | .morePatterns, xs => xs.map .pat
  | .pattern, x => [.pat x]
  | .visTarget, x | .pathIdent, x => [.ident x]
  | .moreLifetimes, _ | .lifetimeBounds, _ | .arrayLength, _ => []
  | .visibility, x => Visibility.nodes x
  | .generics, x => Generics.nodes x
  | .moreGenericParams, xs => xs.flatMap GenericParam.nodes
  | .genericParam, x => GenericParam.nodes x
  | .morePredicates, xs | .whereClause, xs => xs.flatMap Predicate.nodes
  | .predicate, x => Predicate.nodes x
  | .moreBounds, xs | .bounds, xs => xs.flatMap Bound.nodes
  | .bound, x => Bound.nodes x
  | .moreTypes, xs => xs.map .type
  | .typeOnly, x | .type, x | .typeNoBounds, x | .refTarget, x | .qualifiedType, x => [.type x]
  | .path, x => Path.nodes x
  | .moreSegments, xs => xs.flatMap Segment.nodes
  | .segment, x => Segment.nodes x
  | .segmentArgs, x => SegmentArgs.nodes x
  | .moreGenericArgs, xs => xs.flatMap GenericArg.nodes
  | .genericArg, x => GenericArg.nodes x

/-- **A node that a rule builds at a place**: it is no identifier, and it has the span of the
place. -/
def Node.BuiltAt (s : Span) : Node → Prop
  | .ident _ | .lifetime _ => False
  | .item (.implDecl d) => d.span = s ∧ (d.traitPath = none → d.selfTy.span = s)
  | node => node.span = s

/-- **A rule builds nodes with a property**: from nodes and identifiers that have it, where every
node that is built at the place of the rule has it as soon as its children do. -/
def Rule.Builds (P : Node → Prop) (r : Rule) : Prop :=
  ∀ (place : Place) (vals : r.parts.Val),
    (∀ node : Node, node.BuiltAt place.span → (∀ child ∈ node.children, P child) → P node) →
    r.parts.All
      (fun kind t => P (.ident (place.ident t)) ∧
        (kind = .lifetime → P (.lifetime (place.lifetimeIdent t))))
      (fun n v => ∀ node ∈ n.nodes v, P node) vals →
    ∀ node ∈ r.lhs.nodes (r.action place vals), P node

/-- All of some rules build nodes with a property. -/
def RulesBuild (P : Node → Prop) (rules : List Rule) : Prop := ∀ r ∈ rules, r.Builds P

variable {P : Node → Prop}

theorem forall_mem_toList {α : Type} {Q : α → Prop} {o : Option α} :
    (∀ x ∈ o.toList, Q x) ↔ ∀ x ∈ o, Q x := by
  cases o <;> simp

namespace Grammar

-- It is enough to see what the nodes are of what a plain rule builds, and so with the atomic types.
theorem plain_build : RulesBuild P (plainRules ++ atomicType) := by
  refine List.forall_iff_forall_mem.mp ?_
  repeat' apply And.intro
  all_goals
    intro place vals hbuilt
    first
    | intro h
      refine List.forall_mem_singleton.mpr (hbuilt _ ?_ ?_)
      · exact rfl
      revert h
    | skip
    simp only [Parts.Val, Parts.All, Nonterminal.Val, Nonterminal.nodes, Node.children,
      Ty.nodes, Path.nodes, Segment.nodes, SegmentArgs.nodes, GenericArg.nodes, Bound.nodes,
      Param.nodes, Pat.nodes, Visibility.nodes, Generics.nodes, GenericParam.nodes, Predicate.nodes,
      Path.ofIdents, List.forall_mem_flatMap, List.forall_mem_map, forall_mem_toList,
      forall_mem_only, forall_mem_orNil, forall_mem_listed, forall_mem_orEmpty, forall_mem_bind,
      List.append_nil, List.map_cons, List.map_nil, List.flatMap_cons, List.flatMap_nil,
      List.forall_mem_cons, List.forall_mem_append, List.not_mem_nil, Option.getD_none, forall₂_and,
      imp_self, and_self, and_true, true_and, implies_true, IsEmpty.forall_iff]
    try tauto

theorem segment_builds : RulesBuild P segment := by
  refine List.forall_mem_singleton.mpr ?_
  rintro place ⟨ident, args, ⟨⟩⟩ - ⟨hident, hargs, -⟩
  refine List.forall_mem_cons.mpr ⟨List.forall_mem_singleton.mp hident, ?_⟩
  exact getD_of_forall (P := fun args : SegmentArgs => ∀ node ∈ args.nodes, P node)
    (fun u hu => (hargs u hu).1) (List.forall_mem_nil _)

theorem qualifiedType_builds : RulesBuild P qualifiedType := by
  refine List.forall_mem_singleton.mpr ?_
  rintro place ⟨ty, path, first, more, ⟨⟩⟩ hbuilt ⟨hty, hpath, hfirst, hmore, -⟩
  refine List.forall_mem_singleton.mpr (hbuilt (.type _) rfl ?_)
  refine List.forall_mem_cons.mpr ⟨List.forall_mem_singleton.mp hty, ?_⟩
  refine List.forall_mem_flatMap.mpr
    (List.forall_mem_append.mpr ⟨List.forall_mem_flatMap.mp hpath, ?_⟩)
  exact forall_mem_listed.mpr ⟨hfirst, fun u hu => List.forall_mem_flatMap.mp (hmore u hu).1⟩

/-- The nodes of what is declared in front of the members of an item or a method. -/
theorem nodes_declared {generics : Option (Generics × Unit)}
    {clause : Option (List Predicate × Unit)}
    (hgenerics : ∀ u ∈ generics, ∀ node ∈ u.1.nodes, P node)
    (hclause : ∀ u ∈ clause, ∀ node ∈ u.1.flatMap Predicate.nodes, P node) :
    ∀ node ∈ (((only generics).getD {}).withWhere (only clause)).nodes, P node := by
  have hbare : ∀ node ∈ ((only generics).getD {}).nodes, P node :=
    getD_of_forall (P := fun g : Generics => ∀ node ∈ g.nodes, P node) hgenerics
      (List.forall_mem_nil _)
  cases clause with
  | none => exact hbare
  | some u => exact List.forall_mem_append.mpr ⟨(List.forall_mem_append.mp hbare).1, hclause u rfl⟩

/-- The nodes of a visibility that may be left out. -/
theorem nodes_visibility {vis : Option (Visibility × Unit)}
    (h : ∀ u ∈ vis, ∀ node ∈ u.1.nodes, P node) :
    ∀ node ∈ ((only vis).getD .inherited).nodes, P node :=
  getD_of_forall (P := fun v : Visibility => ∀ node ∈ v.nodes, P node) h (List.forall_mem_nil _)

/-- The members of an item. -/
theorem nodes_members {methods : Option (List Method × Unit)}
    (h : ∀ u ∈ methods, ∀ node ∈ u.1.map Node.method, P node) :
    ∀ node ∈ (orNil methods).map Node.method, P node :=
  List.forall_mem_map.mpr (forall_mem_orNil.mpr fun u hu => List.forall_mem_map.mp (h u hu))

theorem method_builds : RulesBuild P method := by
  refine List.forall_mem_singleton.mpr ?_
  rintro place ⟨vis, name, generics, params, output, clause, ⟨⟩⟩ hbuilt h
  simp only [Parts.All, Nonterminal.nodes, and_true, List.forall_mem_singleton] at h
  obtain ⟨hvis, ⟨hname, -⟩, hgenerics, hparams, houtput, hclause⟩ := h
  refine List.forall_mem_singleton.mpr (hbuilt (.method _) rfl ?_)
  simp only [Node.children, Method.nodes, List.forall_mem_append, List.forall_mem_cons,
    List.forall_mem_map, forall_mem_orNil, forall_mem_toList, forall_mem_only]
  exact ⟨⟨⟨nodes_visibility hvis, hname, nodes_declared hgenerics hclause⟩,
    fun u hu => List.forall_mem_map.mp (hparams u hu)⟩, houtput⟩

theorem traitItem_builds : RulesBuild P traitItem := by
  refine List.forall_mem_singleton.mpr ?_
  rintro place ⟨vis, name, generics, supers, clause, methods, ⟨⟩⟩ hbuilt h
  simp only [Parts.All, Nonterminal.nodes, and_true] at h
  obtain ⟨hvis, ⟨hname, -⟩, hgenerics, -, hclause, hmethods⟩ := h
  refine List.forall_mem_singleton.mpr (hbuilt (.item (.traitDecl _)) rfl ?_)
  simp only [Node.children, Item.nodes, List.forall_mem_append, List.forall_mem_cons]
  exact ⟨⟨nodes_visibility hvis, hname, nodes_declared hgenerics hclause⟩, nodes_members hmethods⟩

theorem implItem_builds : RulesBuild P implItem := by
  refine List.forall_mem_singleton.mpr ?_
  rintro place ⟨generics, path, target, clause, methods, ⟨⟩⟩ hbuilt h
  simp only [Parts.All, Nonterminal.nodes, and_true, List.forall_mem_singleton] at h
  obtain ⟨hgenerics, hpath, htarget, hclause, hmethods⟩ := h
  refine List.forall_mem_singleton.mpr (hbuilt (.item (.implDecl _)) ⟨rfl, fun htrait => ?_⟩ ?_)
  · rw [Option.map_eq_none_iff.mp htrait]
    rfl
  simp only [Node.children, Item.nodes, List.forall_mem_append, List.forall_mem_cons]
  refine ⟨⟨⟨?_, ?_⟩, nodes_declared hgenerics hclause⟩, nodes_members hmethods⟩
  · exact getD_of_forall (P := fun ty : Ty => P (.type ty)) htarget (hbuilt (.type _) rfl hpath)
  · cases target with
    | none => exact List.forall_mem_nil _
    | some _ => exact hpath

/-- **Every rule builds nodes** out of nodes. -/
theorem rules_build : RulesBuild P rules := by
  obtain ⟨hplain, hatomic⟩ := List.forall_mem_append.mp (plain_build (P := P))
  exact forall_rules hplain hatomic traitItem_builds implItem_builds method_builds
    qualifiedType_builds segment_builds

end Grammar

/-! ## What has been read -/

/-- **That all nodes of a phrase stand inside its extent**, where tokens are those of a text. -/
def placedNodes (text : List Char) : Placing where
  Reads t := t.ReadFrom text
  Holds n v e := ∀ node ∈ n.nodes v, node.Placed text e
  mono hinside h node hnode := (h node hnode).mono hinside

/-- The identifier that a token spells is in its place. -/
theorem Placing.Takes.ident {kind : Terminal} {t : Token} (h : (placedNodes text).Takes e kind t)
    (place : Place) : (Node.ident (place.ident t)).Placed text e :=
  .mk ⟨place.file, rfl⟩ h.inside h.reads.excerpt (List.forall_mem_nil _)

/-- The identifier that a lifetime token spells is in its place, behind its quote. -/
theorem Placing.Takes.lifetimeIdent {t : Token} (h : (placedNodes text).Takes e .lifetime t)
    (place : Place) : (Node.lifetime (place.lifetimeIdent t)).Placed text e := by
  refine .mk ⟨place.file, rfl⟩ h.inside ?_ (List.forall_mem_nil _)
  have hspells : Terminal.lifetime.Spells t.text := h.kind ▸ h.reads.1
  refine h.reads.excerpt.trans ?_
  rw [← renderLifetime_lifetime hspells, renderLifetime, String.toList_append]
  rfl

/-- A node that is built at the place of an extent is in its place there. -/
theorem Node.BuiltAt.placed {node : Node} (h : node.BuiltAt (Place.span ⟨file, e⟩))
    (he : e.start ≤ e.stop) (hchildren : ∀ child ∈ node.children, child.Placed text e) :
    node.Placed text e := by
  cases node with
  | ident | lifetime => exact h.elim
  | item item =>
    cases item with
    | traitDecl d => exact .mk ⟨_, h⟩ (.refl he) trivial hchildren
    | implDecl d =>
      exact .mk ⟨_, h.1⟩ (.refl he) (fun htrait => (h.2 htrait).trans h.1.symm) hchildren
  | _ => exact .mk ⟨_, h⟩ (.refl he) trivial hchildren

/-- **Source positions are exact.**  Everything in a file that has been read stands where its span
says: the text spells each identifier between the two ends of its span, a declared lifetime behind
its quote, and the span of each node holds those of all that is inside it.  The type that an
implementation without a trait is for has the span of the item. -/
theorem DeclFile.exact_of_parse {text : String} {decls : DeclFile}
    (h : DeclFile.parse file text = .ok decls) :
    ∀ item ∈ decls.items, ∀ node, (Node.item item).Below node →
      ∃ e, node.span.Covers e ∧ node.Exact text.toList e ∧
        ∀ child ∈ node.children, ∃ e', child.span.Covers e' ∧ e'.Inside e := by
  have hrules : ∀ r ∈ Grammar.rules, r.Places (placedNodes text.toList) file := by
    intro r hr e vals he hvals
    refine Grammar.rules_build r hr ⟨file, e⟩ vals (fun node hbuilt => hbuilt.placed he) ?_
    refine hvals.mono (fun kind t ht => ⟨ht.ident _, ?_⟩) fun n v hv => hv
    rintro rfl
    exact ht.lifetimeIdent _
  obtain ⟨e, hitems⟩ :=
    Machine.placed_of_parse hrules (fun _ ht => ht) (DeclFile.parse_eq_ok_iff.mp h).1
  intro item hitem node hnode
  obtain ⟨_, hplaced⟩ := (hitems _ (List.mem_map.mpr ⟨item, hitem, rfl⟩)).of_below hnode
  cases hplaced with
  | mk hspan _ hexact hchildren =>
    refine ⟨_, hspan, hexact, fun child hchild => ?_⟩
    cases hchildren child hchild with
    | mk hspan hinside _ _ => exact ⟨_, hspan, hinside⟩

/-- A trait behind a comment, with a lifetime of its own, on two lines. -/
theorem commentedLifetime_exact :
    ∃ decls item,
      DeclFile.parse none "// \u00e9\ntrait T<'a>\r\n\x7b fn f(x: &'a u8); \x7d" = .ok decls ∧
      item ∈ decls.items ∧ item.span.Covers ⟨⟨2, 1⟩, ⟨3, 21⟩⟩ ∧
      ∀ node, (Node.item item).Below node → ∃ e, node.span.Covers e ∧
        node.Exact "// \u00e9\ntrait T<'a>\r\n\x7b fn f(x: &'a u8); \x7d".toList e ∧
        ∀ child ∈ node.children, ∃ e', child.span.Covers e' ∧ e'.Inside e := by
  obtain ⟨decls, hparse, hspans⟩ := exists_of_toOption
    (e := DeclFile.parse none "// \u00e9\ntrait T<'a>\r\n\x7b fn f(x: &'a u8); \x7d")
    (f := fun decls => decls.items.map Item.span)
    (b := [(⟨⟨2, 1⟩, ⟨3, 21⟩⟩ : Extent).toSpan none]) (by decide +kernel)
  obtain ⟨item, hitems, hspan⟩ := List.map_eq_singleton_iff.mp hspans
  have hitem : item ∈ decls.items := by
    rw [hitems]
    exact List.mem_singleton_self item
  exact ⟨decls, item, hparse, hitem, ⟨none, hspan⟩, DeclFile.exact_of_parse hparse item hitem⟩

end TraitMock
