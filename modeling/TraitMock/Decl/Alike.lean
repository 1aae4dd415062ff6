import TraitMock.Decl.Item

/-!
# Decl/Alike — equality of trees whatever their places

Two trees are alike when they agree in everything but spans.  This is the equality of declarations:
what was read from two places is the same declaration if its shape is the same.
-/

namespace TraitMock

/-- Two identifiers are alike when they are spelled alike. -/
def Ident.alike (a b : Ident) : Bool := a.name == b.name

/-- Two optional values are alike when both are absent or both are there and alike. -/
def alikeOption {α : Type} (alike : α → α → Bool) : Option α → Option α → Bool
  | none, none => true
  | some a, some b => alike a b
  | _, _ => false

/-! ## Types and paths -/

mutual

/-- **Two types are alike.** -/
def Ty.alike : Ty → Ty → Bool
  | .slice a _, .slice b _ => a.alike b
  | .array a m _, .array b n _ => a.alike b && m == n
  | .pointer a m _, .pointer b n _ => a.alike b && m == n
  | .reference a l m _, .reference b k n _ => a.alike b && l == k && m == n
  | .tuple as _, .tuple bs _ => alikeTypes as bs
  | .paren a _, .paren b _ => a.alike b
  | .group a _, .group b _ => a.alike b
  | .function as a _, .function bs b _ => alikeTypes as bs && alikeOutput a b
  | .traitObject as _, .traitObject bs _ => alikeBounds as bs
  | .implTrait as _, .implTrait bs _ => alikeBounds as bs
  | .infer _, .infer _ => true
  | .never _, .never _ => true
  | .macroCall s _, .macroCall t _ => s == t
  | .verbatim s _, .verbatim t _ => s == t
  | .path p _, .path q _ => p.alike q
  | .qualified a i p _, .qualified b j q _ => a.alike b && i == j && p.alike q
  | .unknown s, .unknown t => s == t
  | _, _ => false

/-- Two lists of types are alike. -/
def alikeTypes : List Ty → List Ty → Bool
  | [], [] => true
  | a :: as, b :: bs => a.alike b && alikeTypes as bs
  | _, _ => false

/-- Two result types are alike. -/
def alikeOutput : Option Ty → Option Ty → Bool
  | none, none => true
  | some a, some b => a.alike b
  | _, _ => false

/-- **Two paths are alike.** -/
def Path.alike : Path → Path → Bool
  | ⟨as, a⟩, ⟨bs, b⟩ => alikeSegments as bs && a == b

/-- Two lists of segments are alike. -/
def alikeSegments : List Segment → List Segment → Bool
  | [], [] => true
  | a :: as, b :: bs => a.alike b && alikeSegments as bs
  | _, _ => false

/-- Two segments are alike. -/
def Segment.alike : Segment → Segment → Bool
  | ⟨i, a⟩, ⟨j, b⟩ => i.alike j && a.alike b

/-- What is applied to two segments is alike. -/
def SegmentArgs.alike : SegmentArgs → SegmentArgs → Bool
  | .none, .none => true
  | .angle as, .angle bs => alikeGenericArgs as bs
  | .call as a, .call bs b => alikeTypes as bs && alikeOutput a b
  | _, _ => false

/-- Two lists of generic arguments are alike. -/
def alikeGenericArgs : List GenericArg → List GenericArg → Bool
  | [], [] => true
  | a :: as, b :: bs => a.alike b && alikeGenericArgs as bs
  | _, _ => false

/-- Two generic arguments are alike. -/
def GenericArg.alike : GenericArg → GenericArg → Bool
  | .type a, .type b => a.alike b
  | .lifetime s, .lifetime t => s == t
  | .binding i a, .binding j b => i.alike j && a.alike b
  | .const s, .const t => s == t
  | _, _ => false

/-- **Two bounds are alike.** -/
def Bound.alike : Bound → Bound → Bool
  | .trait p m, .trait q n => p.alike q && m == n
  | .outlives s, .outlives t => s == t
  | _, _ => false

/-- Two lists of bounds are alike. -/
def alikeBounds : List Bound → List Bound → Bool
  | [], [] => true
  | a :: as, b :: bs => a.alike b && alikeBounds as bs
  | _, _ => false

end

/-! ## Generics and visibilities -/

/-- Two parameters are alike. -/
def GenericParam.alike : GenericParam → GenericParam → Bool
  | .type i as a, .type j bs b => i.alike j && alikeBounds as bs && alikeOutput a b
  | .lifetime i as, .lifetime j bs => i.alike j && as == bs
  | .const i a, .const j b => i.alike j && a.alike b
  | _, _ => false

/-- Two predicates are alike. -/
def Predicate.alike : Predicate → Predicate → Bool
  | .bounded a as, .bounded b bs => a.alike b && alikeBounds as bs
  | .outlives s as, .outlives t bs => s == t && as == bs
  | .equal a c, .equal b d => a.alike b && c.alike d
  | _, _ => false

/-- Two where clauses are alike. -/
def alikeClauses (as bs : List Predicate) : Bool := as.isEqv bs Predicate.alike

/-- **Two generics are alike**, down to their brackets. -/
def Generics.alike (g h : Generics) : Bool :=
  g.params.isEqv h.params GenericParam.alike &&
    alikeOption alikeClauses g.whereClause h.whereClause && g.hasBrackets == h.hasBrackets

/-- **Two visibilities are alike.** -/
def Visibility.alike : Visibility → Visibility → Bool
  | .inherited, .inherited | .pub, .pub | .crate, .crate => true
  | .unknown s, .unknown t => s == t
  | .restricted p m, .restricted q n => p.alike q && m == n
  | _, _ => false

/-! ## Methods and items -/

mutual

/-- Two patterns are alike. -/
def Pat.alike : Pat → Pat → Bool
  | .ident i r m a _, .ident j s n b _ => i.alike j && r == s && m == n && alikeSub a b
  | .wild _, .wild _ => true
  | .tuple as _, .tuple bs _ => alikePats as bs
  | .unknown s, .unknown t => s == t
  | _, _ => false

/-- Two patterns behind bindings are alike. -/
def alikeSub : Option Pat → Option Pat → Bool
  | none, none => true
  | some a, some b => a.alike b
  | _, _ => false

/-- Two lists of patterns are alike. -/
def alikePats : List Pat → List Pat → Bool
  | [], [] => true
  | a :: as, b :: bs => a.alike b && alikePats as bs
  | _, _ => false

end

/-- Two parameters of methods are alike. -/
def Param.alike : Param → Param → Bool
  | .receiver k m l _, .receiver k' n l' _ => k == k' && m == n && l == l'
  | .typed p a _, .typed q b _ => p.alike q && a.alike b
  | _, _ => false

/-- Two expressions are alike. -/
def Expr.alike : Expr → Expr → Bool
  | .name i _, .name j _ => i.alike j
  | .ref a m _, .ref b n _ => a.alike b && m == n
  | .unknown s, .unknown t => s == t
  | _, _ => false

/-- **Two methods are alike.** -/
def Method.alike (m n : Method) : Bool :=
  m.ident.alike n.ident && m.params.isEqv n.params Param.alike && alikeOutput m.output n.output &&
    m.generics.alike n.generics && m.vis.alike n.vis

/-- Two traits are alike. -/
def TraitDecl.alike (s t : TraitDecl) : Bool :=
  s.ident.alike t.ident && s.generics.alike t.generics && s.vis.alike t.vis &&
    s.methods.isEqv t.methods Method.alike

/-- Two implementations are alike. -/
def ImplDecl.alike (s t : ImplDecl) : Bool :=
  s.selfTy.alike t.selfTy && alikeOption Path.alike s.traitPath t.traitPath &&
    s.generics.alike t.generics && s.methods.isEqv t.methods Method.alike

/-- **Two items are alike.** -/
def Item.alike : Item → Item → Bool
  | .traitDecl s, .traitDecl t => s.alike t
  | .implDecl s, .implDecl t => s.alike t
  | _, _ => false

/-- **Two declaration files are alike**, the file they name included. -/
def DeclFile.alike (a b : DeclFile) : Bool := a.items.isEqv b.items Item.alike && a.file == b.file

end TraitMock
