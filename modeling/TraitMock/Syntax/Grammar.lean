import TraitMock.Syntax.Rule

/-!
# Syntax/Grammar — the grammar of declarations

Each rule stands under the line that describes it: words in quotes are keywords and marks, `[x]` is
optional, and `x*`, `x+` are lists.  A list is built from its left end by rules of its own.  The
order of the rules numbers the productions (`productions`), and the parse table refers to them by
these numbers.
-/

namespace TraitMock.Grammar

open Parts

/-- The value of an optional single phrase or token. -/
def only {α : Type} (o : Option (α × Unit)) : Option α := o.map (·.1)

/-- The members of an optional list. -/
def orNil {α : Type} (o : Option (List α × Unit)) : List α := (only o).getD []

/-- The members of a list given by its first member and the optional further ones. -/
def listed {α : Type} (first : α) (more : Option (List α × Unit)) : List α := first :: orNil more

/-- An optional list with an optional mark behind its last member. -/
def orEmpty {α : Type} (o : Option (α × Option (List α × Unit) × Option Unit × Unit)) : List α :=
  match o with
  | none => []
  | some (first, more, _) => listed first more

/-! ## Lists -/

/-- items: item+ -/
def items : List Rule :=
  [⟨.items, phrase .item done, fun _ (x, _) => [x]⟩,
   ⟨.items, phrase .items <| phrase .item done, fun _ (xs, x, _) => xs ++ [x]⟩]

/-- methods: method+ -/
def methods : List Rule :=
  [⟨.methods, phrase .method done, fun _ (x, _) => [x]⟩,
   ⟨.methods, phrase .methods <| phrase .method done, fun _ (xs, x, _) => xs ++ [x]⟩]

/-- moreParams: ("," param)+ -/
def moreParams : List Rule :=
  [⟨.moreParams, mark .comma <| phrase .param done, fun _ (x, _) => [x]⟩,
   ⟨.moreParams, phrase .moreParams <| mark .comma <| phrase .param done,
    fun _ (xs, x, _) => xs ++ [x]⟩]

/-- morePatterns: ("," pattern)+ -/
def morePatterns : List Rule :=
  [⟨.morePatterns, mark .comma <| phrase .pattern done, fun _ (x, _) => [x]⟩,
   ⟨.morePatterns, phrase .morePatterns <| mark .comma <| phrase .pattern done,
    fun _ (xs, x, _) => xs ++ [x]⟩]

/-- moreGenericParams: ("," genericParam)+ -/
def moreGenericParams : List Rule :=
  [⟨.moreGenericParams, mark .comma <| phrase .genericParam done, fun _ (x, _) => [x]⟩,
   ⟨.moreGenericParams, phrase .moreGenericParams <| mark .comma <| phrase .genericParam done,
    fun _ (xs, x, _) => xs ++ [x]⟩]

/-- moreLifetimes: ("+" LIFETIME)+ -/
def moreLifetimes : List Rule :=
  [⟨.moreLifetimes, mark .plus <| token .lifetime done, fun _ (x, _) => [x.lifetime]⟩,
   ⟨.moreLifetimes, phrase .moreLifetimes <| mark .plus <| token .lifetime done,
    fun _ (xs, x, _) => xs ++ [x.lifetime]⟩]

/-- morePredicates: ("," predicate)+ -/
def morePredicates : List Rule :=
  [⟨.morePredicates, mark .comma <| phrase .predicate done, fun _ (x, _) => [x]⟩,
   ⟨.morePredicates, phrase .morePredicates <| mark .comma <| phrase .predicate done,
    fun _ (xs, x, _) => xs ++ [x]⟩]

/-- moreBounds: ("+" bound)+ -/
def moreBounds : List Rule :=
  [⟨.moreBounds, mark .plus <| phrase .bound done, fun _ (x, _) => [x]⟩,
   ⟨.moreBounds, phrase .moreBounds <| mark .plus <| phrase .bound done,
    fun _ (xs, x, _) => xs ++ [x]⟩]

/-- moreTypes: ("," type)+ -/
def moreTypes : List Rule :=
  [⟨.moreTypes, mark .comma <| phrase .type done, fun _ (x, _) => [x]⟩,
   ⟨.moreTypes, phrase .moreTypes <| mark .comma <| phrase .type done,
    fun _ (xs, x, _) => xs ++ [x]⟩]

/-- moreSegments: ("::" segment)+ -/
def moreSegments : List Rule :=
  [⟨.moreSegments, mark .pathSep <| phrase .segment done, fun _ (x, _) => [x]⟩,
   ⟨.moreSegments, phrase .moreSegments <| mark .pathSep <| phrase .segment done,
    fun _ (xs, x, _) => xs ++ [x]⟩]

/-- moreGenericArgs: ("," genericArg)+ -/
def moreGenericArgs : List Rule :=
  [⟨.moreGenericArgs, mark .comma <| phrase .genericArg done, fun _ (x, _) => [x]⟩,
   ⟨.moreGenericArgs, phrase .moreGenericArgs <| mark .comma <| phrase .genericArg done,
    fun _ (xs, x, _) => xs ++ [x]⟩]

/-! ## Items -/

/-- declFile: item* -/
def declFile : List Rule :=
  [⟨.declFile, maybe (phrase .items done) done, fun _ (items, _) => orNil items⟩]

/-- typeOnly: type -/
def typeOnly : List Rule :=
  [⟨.typeOnly, phrase .type done, fun _ (ty, _) => ty⟩]

/-- item: traitItem | implItem -/
def item : List Rule :=
  [⟨.item, phrase .traitItem done, fun _ (item, _) => item⟩,
   ⟨.item, phrase .implItem done, fun _ (item, _) => item⟩]

/-- traitItem: [visibility] "trait" NAME [generics] [":" bounds] [whereClause] "{" method* "}" —
the bounds say nothing about the methods and are not kept. -/
def traitItem : List Rule :=
  [⟨.traitItem,
    maybe (phrase .visibility done) <| mark .traitKw <| token .name <|
      maybe (phrase .generics done) <| maybe (mark .colon <| phrase .bounds done) <|
      maybe (phrase .whereClause done) <| mark .lbrace <| maybe (phrase .methods done) <|
      mark .rbrace done,
    fun place (vis, name, generics, _, clause, methods, _) =>
      .traitDecl
        { ident := place.ident name
          generics := ((only generics).getD {}).withWhere (only clause)
          vis := (only vis).getD .inherited
          methods := orNil methods
          span := place.span }⟩]

/-- implItem: "impl" [generics] path ["for" type] [whereClause] "{" method* "}" — without `for`, the
path is the type itself, and it stands at the place of the whole item. -/
def implItem : List Rule :=
  [⟨.implItem,
    mark .implKw <| maybe (phrase .generics done) <| phrase .path <|
      maybe (mark .forKw <| phrase .type done) <| maybe (phrase .whereClause done) <|
      mark .lbrace <| maybe (phrase .methods done) <| mark .rbrace done,
    fun place (generics, path, target, clause, methods, _) =>
      .implDecl
        { selfTy := (only target).getD (.path path place.span)
          traitPath := target.map fun _ => path
          generics := ((only generics).getD {}).withWhere (only clause)
          methods := orNil methods
          span := place.span }⟩]

/-- method: [visibility] "fn" NAME [generics] "(" [params] ")" ["->" type] [whereClause] ";" -/
def method : List Rule :=
  [⟨.method,
    maybe (phrase .visibility done) <| mark .fnKw <| token .name <|
      maybe (phrase .generics done) <| mark .lparen <| maybe (phrase .params done) <|
      mark .rparen <| maybe (mark .arrow <| phrase .type done) <|
      maybe (phrase .whereClause done) <| mark .semicolon done,
    fun place (vis, name, generics, params, output, clause, _) =>
      { ident := place.ident name
        params := orNil params
        output := only output
        generics := ((only generics).getD {}).withWhere (only clause)
        vis := (only vis).getD .inherited
        span := place.span }⟩]

/-! ## Parameters -/

/-- params: param ("," param)* [","] -/
def params : List Rule :=
  [⟨.params, phrase .param <| maybe (phrase .moreParams done) <| maybe (mark .comma done) done,
    fun _ (first, more, _) => listed first more⟩]

/-- param: receiver | pattern ":" type -/
def param : List Rule :=
  [⟨.param, phrase .receiver done, fun _ (receiver, _) => receiver⟩,
   ⟨.param, phrase .pattern <| mark .colon <| phrase .type done,
    fun place (pat, ty, _) => .typed pat ty place.span⟩]

/-- receiver: "&" [LIFETIME] ["mut"] "self" | ["mut"] "self" -/
def receiver : List Rule :=
  [⟨.receiver,
    mark .amp <| maybe (token .lifetime done) <| maybe (mark .mutKw done) <| mark .selfKw done,
    fun place (lifetime, isMut, _) =>
      .receiver (if isMut.isSome then .refMut else .ref) false
        ((only lifetime).map (·.lifetime)) place.span⟩,
   ⟨.receiver, maybe (mark .mutKw done) <| mark .selfKw done,
    fun place (isMut, _) => .receiver .value isMut.isSome none place.span⟩]

/-- pattern: ["ref"] ["mut"] NAME ["@" pattern] | "_" | "(" [pattern ("," pattern)* [","]] ")" -/
def pattern : List Rule :=
  [⟨.pattern,
    maybe (mark .refKw done) <| maybe (mark .mutKw done) <| token .name <|
      maybe (mark .atMark <| phrase .pattern done) done,
    fun place (byRef, isMut, name, sub, _) =>
      .ident (place.ident name) byRef.isSome isMut.isSome (only sub) place.span⟩,
   ⟨.pattern, mark .underscore done, fun place _ => .wild place.span⟩,
   ⟨.pattern,
    mark .lparen <|
      maybe (phrase .pattern <| maybe (phrase .morePatterns done) <|
        maybe (mark .comma done) done) <|
      mark .rparen done,
    fun place (elems, _) => .tuple (orEmpty elems) place.span⟩]

/-! ## Visibility -/

/-- visibility: "pub" | "pub" "(" visTarget ")" | "pub" "(" "in" path ")" | "crate" -/
def visibility : List Rule :=
  [⟨.visibility, mark .pubKw done, fun _ _ => .pub⟩,
   ⟨.visibility, mark .pubKw <| mark .lparen <| phrase .visTarget <| mark .rparen done,
    fun _ (target, _) => .restricted (.ofIdents [target]) false⟩,
   ⟨.visibility, mark .pubKw <| mark .lparen <| mark .inKw <| phrase .path <| mark .rparen done,
    fun _ (path, _) => .restricted path true⟩,
   ⟨.visibility, mark .crateKw done, fun _ _ => .crate⟩]

/-- visTarget: "crate" | "self" | NAME -/
def visTarget : List Rule :=
  [⟨.visTarget, token .crateKw done, fun place (t, _) => place.ident t⟩,
   ⟨.visTarget, token .selfKw done, fun place (t, _) => place.ident t⟩,
   ⟨.visTarget, token .name done, fun place (t, _) => place.ident t⟩]

/-! ## Generics -/

/-- generics: "<" [genericParam ("," genericParam)* [","]] ">" -/
def generics : List Rule :=
  [⟨.generics,
    mark .less <|
      maybe (phrase .genericParam <| maybe (phrase .moreGenericParams done) <|
        maybe (mark .comma done) done) <|
      mark .greater done,
    fun _ (params, _) => { params := orEmpty params, hasBrackets := true }⟩]

/-- genericParam: NAME [":" [bounds]] ["=" type] | LIFETIME [":" lifetimeBounds]
| "const" NAME ":" type -/
def genericParam : List Rule :=
  [⟨.genericParam,
    token .name <| maybe (mark .colon <| maybe (phrase .bounds done) done) <|
      maybe (mark .equal <| phrase .type done) done,
    fun place (name, bounds, default, _) =>
      .type (place.ident name) (orNil (bounds.bind (·.1))) (only default)⟩,
   ⟨.genericParam, token .lifetime <| maybe (mark .colon <| phrase .lifetimeBounds done) done,
    fun place (name, bounds, _) => .lifetime (place.lifetimeIdent name) (orNil bounds)⟩,
   ⟨.genericParam, mark .constKw <| token .name <| mark .colon <| phrase .type done,
    fun place (name, ty, _) => .const (place.ident name) ty⟩]

/-- lifetimeBounds: LIFETIME ("+" LIFETIME)* -/
def lifetimeBounds : List Rule :=
  [⟨.lifetimeBounds, token .lifetime <| maybe (phrase .moreLifetimes done) done,
    fun _ (first, more, _) => listed first.lifetime more⟩]

/-- whereClause: "where" [predicate ("," predicate)* [","]] -/
def whereClause : List Rule :=
  [⟨.whereClause,
    mark .whereKw <|
      maybe (phrase .predicate <| maybe (phrase .morePredicates done) <|
        maybe (mark .comma done) done) done,
    fun _ (predicates, _) => orEmpty predicates⟩]

/-- predicate: type ":" [bounds] | LIFETIME ":" [lifetimeBounds] | type "=" type -/
def predicate : List Rule :=
  [⟨.predicate, phrase .type <| mark .colon <| maybe (phrase .bounds done) done,
    fun _ (ty, bounds, _) => .bounded ty (orNil bounds)⟩,
   ⟨.predicate, token .lifetime <| mark .colon <| maybe (phrase .lifetimeBounds done) done,
    fun _ (name, bounds, _) => .outlives name.lifetime (orNil bounds)⟩,
   ⟨.predicate, phrase .type <| mark .equal <| phrase .type done,
    fun _ (lhs, rhs, _) => .equal lhs rhs⟩]

/-- bounds: bound ("+" bound)* -/
def bounds : List Rule :=
  [⟨.bounds, phrase .bound <| maybe (phrase .moreBounds done) done,
    fun _ (first, more, _) => listed first more⟩]

/-- bound: path | "?" path | LIFETIME -/
def bound : List Rule :=
  [⟨.bound, phrase .path done, fun _ (path, _) => .trait path false⟩,
   ⟨.bound, mark .question <| phrase .path done, fun _ (path, _) => .trait path true⟩,
   ⟨.bound, token .lifetime done, fun _ (name, _) => .outlives name.lifetime⟩]

/-! ## Types -/

/-- type: typeNoBounds | "impl" bounds | "dyn" bounds -/
def type : List Rule :=
  [⟨.type, phrase .typeNoBounds done, fun _ (ty, _) => ty⟩,
   ⟨.type, mark .implKw <| phrase .bounds done,
    fun place (bounds, _) => .implTrait bounds place.span⟩,
   ⟨.type, mark .dynKw <| phrase .bounds done,
    fun place (bounds, _) => .traitObject bounds place.span⟩]

/-- typeNoBounds: path | qualifiedType | "&" [LIFETIME] ["mut"] refTarget
| "*" "const" typeNoBounds | "*" "mut" typeNoBounds | "[" type "]" | "[" type ";" arrayLength "]" -/
def typeNoBounds : List Rule :=
  [⟨.typeNoBounds, phrase .path done, fun place (path, _) => .path path place.span⟩,
   ⟨.typeNoBounds, phrase .qualifiedType done, fun _ (ty, _) => ty⟩,
   ⟨.typeNoBounds,
    mark .amp <| maybe (token .lifetime done) <| maybe (mark .mutKw done) <|
      phrase .refTarget done,
    fun place (lifetime, isMut, elem, _) =>
      .reference elem ((only lifetime).map (·.lifetime)) isMut.isSome place.span⟩,
   ⟨.typeNoBounds, mark .star <| mark .constKw <| phrase .typeNoBounds done,
    fun place (elem, _) => .pointer elem false place.span⟩,
   ⟨.typeNoBounds, mark .star <| mark .mutKw <| phrase .typeNoBounds done,
    fun place (elem, _) => .pointer elem true place.span⟩,
   ⟨.typeNoBounds, mark .lbracket <| phrase .type <| mark .rbracket done,
    fun place (elem, _) => .slice elem place.span⟩,
   ⟨.typeNoBounds,
    mark .lbracket <| phrase .type <| mark .semicolon <| phrase .arrayLength <|
      mark .rbracket done,
    fun place (elem, length, _) => .array elem length place.span⟩]

/-- typeNoBounds: "(" ")" | "(" type "," ")" | "(" type ("," type)+ [","] ")" | "(" type ")" -/
def groupedType : List Rule :=
  [⟨.typeNoBounds, mark .lparen <| mark .rparen done, fun place _ => .tuple [] place.span⟩,
   ⟨.typeNoBounds, mark .lparen <| phrase .type <| mark .comma <| mark .rparen done,
    fun place (elem, _) => .tuple [elem] place.span⟩,
   ⟨.typeNoBounds,
    mark .lparen <| phrase .type <| phrase .moreTypes <| maybe (mark .comma done) <|
      mark .rparen done,
    fun place (first, more, _) => .tuple (first :: more) place.span⟩,
   ⟨.typeNoBounds, mark .lparen <| phrase .type <| mark .rparen done,
    fun place (elem, _) => .paren elem place.span⟩]

/-- typeNoBounds: "!" | "_" | "fn" "(" [type ("," type)* [","]] ")" ["->" typeNoBounds]
| NAME "!" MACRO_ARGS -/
def atomicType : List Rule :=
  [⟨.typeNoBounds, mark .bang done, fun place _ => .never place.span⟩,
   ⟨.typeNoBounds, mark .underscore done, fun place _ => .infer place.span⟩,
   ⟨.typeNoBounds,
    mark .fnKw <| mark .lparen <|
      maybe (phrase .type <| maybe (phrase .moreTypes done) <| maybe (mark .comma done) done) <|
      mark .rparen <| maybe (mark .arrow <| phrase .typeNoBounds done) done,
    fun place (inputs, output, _) => .function (orEmpty inputs) (only output) place.span⟩,
   ⟨.typeNoBounds, token .name <| mark .bang <| token .macroArgs done,
    fun place (name, args, _) => .macroCall (name.text ++ "!" ++ args.text) place.span⟩]

/-- refTarget: typeNoBounds | "dyn" path -/
def refTarget : List Rule :=
  [⟨.refTarget, phrase .typeNoBounds done, fun _ (ty, _) => ty⟩,
   ⟨.refTarget, mark .dynKw <| phrase .path done,
    fun place (path, _) => .traitObject [.trait path false] place.span⟩]

/-- qualifiedType: "<" type "as" path ">" "::" segment ("::" segment)* — the segments of the trait
come first. -/
def qualifiedType : List Rule :=
  [⟨.qualifiedType,
    mark .less <| phrase .type <| mark .asKw <| phrase .path <| mark .greater <|
      mark .pathSep <| phrase .segment <| maybe (phrase .moreSegments done) done,
    fun place (ty, path, first, more, _) =>
      .qualified ty path.segments.length ⟨path.segments ++ listed first more, false⟩ place.span⟩]

/-- arrayLength: INT | NAME -/
def arrayLength : List Rule :=
  [⟨.arrayLength, token .int done, fun _ (t, _) => t.text⟩,
   ⟨.arrayLength, token .name done, fun _ (t, _) => t.text⟩]

/-! ## Paths -/

/-- path: segment ("::" segment)* -/
def path : List Rule :=
  [⟨.path, phrase .segment <| maybe (phrase .moreSegments done) done,
    fun _ (first, more, _) => ⟨listed first more, false⟩⟩]

/-- segment: pathIdent [segmentArgs] -/
def segment : List Rule :=
  [⟨.segment, phrase .pathIdent <| maybe (phrase .segmentArgs done) done,
    fun _ (ident, args, _) => ⟨ident, (only args).getD .none⟩⟩]

/-- pathIdent: NAME | "self" | "crate" -/
def pathIdent : List Rule :=
  [⟨.pathIdent, token .name done, fun place (t, _) => place.ident t⟩,
   ⟨.pathIdent, token .selfKw done, fun place (t, _) => place.ident t⟩,
   ⟨.pathIdent, token .crateKw done, fun place (t, _) => place.ident t⟩]

/-- segmentArgs: "<" [genericArg ("," genericArg)* [","]] ">"
| "(" [type ("," type)* [","]] ")" ["->" typeNoBounds] -/
def segmentArgs : List Rule :=
  [⟨.segmentArgs,
    mark .less <|
      maybe (phrase .genericArg <| maybe (phrase .moreGenericArgs done) <|
        maybe (mark .comma done) done) <|
      mark .greater done,
    fun _ (args, _) => .angle (orEmpty args)⟩,
   ⟨.segmentArgs,
    mark .lparen <|
      maybe (phrase .type <| maybe (phrase .moreTypes done) <| maybe (mark .comma done) done) <|
      mark .rparen <| maybe (mark .arrow <| phrase .typeNoBounds done) done,
    fun _ (inputs, output, _) => .call (orEmpty inputs) (only output)⟩]

/-- genericArg: type | LIFETIME | NAME "=" type | INT -/
def genericArg : List Rule :=
  [⟨.genericArg, phrase .type done, fun _ (ty, _) => .type ty⟩,
   ⟨.genericArg, token .lifetime done, fun _ (name, _) => .lifetime name.lifetime⟩,
   ⟨.genericArg, token .name <| mark .equal <| phrase .type done,
    fun place (name, ty, _) => .binding (place.ident name) ty⟩,
   ⟨.genericArg, token .int done, fun _ (t, _) => .const t.text⟩]

/-! ## The whole grammar -/

/-- **The rules**, in the order that numbers their productions. -/
def rules : List Rule :=
  items ++ methods ++ moreParams ++ morePatterns ++ moreGenericParams ++ moreLifetimes ++
  morePredicates ++ moreBounds ++ moreTypes ++ moreSegments ++ moreGenericArgs ++
  declFile ++ typeOnly ++ item ++ traitItem ++ implItem ++ method ++ params ++ param ++ receiver ++
  pattern ++ visibility ++ visTarget ++ generics ++ genericParam ++ lifetimeBounds ++
  whereClause ++ predicate ++ bounds ++ bound ++ type ++ typeNoBounds ++ groupedType ++
  atomicType ++ refTarget ++ qualifiedType ++ arrayLength ++ path ++ segment ++ pathIdent ++
  segmentArgs ++ genericArg

/-- **The productions** of all rules. -/
def productions : Array Production := (rules.flatMap Rule.productions).toArray

end TraitMock.Grammar
