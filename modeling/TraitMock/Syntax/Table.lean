import TraitMock.Syntax.Symbol

/-!
# Syntax/Table — the parse table of the grammar

The LALR(1) automaton of the grammar, one `State` a line, in the order of their numbers.  A state
says on which terminals it shifts and to which state, which productions it reduces on which
terminals, and where it goes once a phrase is complete.  The first five states are the starts of the
five kinds of texts (`Entry`).  Where a shift and a reduction are both possible, the table holds the
shift: a path inside a call signature, `F() -> a::b`, reaches as far as it can.
-/

namespace TraitMock

/-- **One state of the automaton.** -/
structure State where
  shifts : List (Terminal × Nat)
  reductions : List (Nat × List Terminal)
  gotos : List (Nonterminal × Nat)
  deriving Inhabited

/-- What a state does on a terminal. -/
inductive Action
  /-- Take the token and go on in the given state. -/
  | shift (state : Nat)
  /-- Replace the right-hand side of the production of the given number. -/
  | reduce (production : Nat)
  deriving DecidableEq, Repr

namespace State

/-- The action of a state on a terminal, if it has one. -/
def action? (s : State) (t : Terminal) : Option Action :=
  match s.shifts.lookup t with
  | some target => some (.shift target)
  | none => (s.reductions.find? fun r => r.2.contains t).map fun r => .reduce r.1

/-- The state that follows a complete phrase. -/
def goto? (s : State) (n : Nonterminal) : Option Nat := s.gotos.lookup n

/-- **A state accepts a terminal** if it has any action on it. -/
def accepts (s : State) (t : Terminal) : Bool := (s.action? t).isSome

end State

/-- **The kinds of texts that can be read.** -/
inductive Entry
  | declFile | type | method | generics | visibility
  deriving DecidableEq, Repr

namespace Entry

/-- The phrase that a whole text is. -/
def phrase : Entry → Nonterminal
  | .declFile => .declFile
  | .type => .typeOnly
  | .method => .method
  | .generics => .generics
  | .visibility => .visibility

/-- The state in which reading begins. -/
def start : Entry → Nat
  | .declFile => 0
  | .type => 1
  | .method => 2
  | .generics => 3
  | .visibility => 4

end Entry

namespace Table

open Terminal

/-! ## The sets of terminals that reductions look at -/

/-- What may follow an item. -/
def behindItem : List Terminal :=
  [endOfText, crateKw, implKw, pubKw, traitKw]

/-- What may follow a path segment or a type that needs no brackets. -/
def behindSegment : List Terminal :=
  [endOfText, asKw, colon, comma, equal, forKw, lbrace, greater, plus, rparen, rbracket,
   semicolon, whereKw, pathSep]

/-- What may follow a method, in a body or alone. -/
def behindMethod : List Terminal :=
  [endOfText, crateKw, fnKw, pubKw, rbrace]

/-- What may follow a member of an angle-bracket list. -/
def behindAngleMember : List Terminal :=
  [comma, greater]

/-- What may follow a member of a parenthesised list. -/
def behindParenMember : List Terminal :=
  [comma, rparen]

/-- What may follow a pattern. -/
def behindPattern : List Terminal :=
  [colon, comma, rparen]

/-- What may follow a parenthesised list. -/
def behindParenList : List Terminal :=
  [rparen]

/-- What may follow a predicate. -/
def behindPredicate : List Terminal :=
  [comma, lbrace, semicolon]

/-- What may follow a type or a list of bounds. -/
def behindType : List Terminal :=
  [endOfText, asKw, colon, comma, equal, lbrace, greater, rparen, rbracket, semicolon, whereKw]

/-- What may follow a bound. -/
def behindBound : List Terminal :=
  [endOfText, asKw, colon, comma, equal, lbrace, greater, plus, rparen, rbracket, semicolon,
   whereKw]

/-- What may follow generics. -/
def behindGenerics : List Terminal :=
  [endOfText, colon, crateKw, lbrace, lparen, name, selfKw, whereKw]

/-- What may follow a where clause. -/
def behindWhere : List Terminal :=
  [lbrace, semicolon]

/-- What may follow a visibility. -/
def behindVisibility : List Terminal :=
  [endOfText, fnKw, traitKw]

/-- What may follow the name of a path segment. -/
def behindPathIdent : List Terminal :=
  [endOfText, asKw, colon, comma, equal, forKw, lbrace, less, lparen, greater, plus, rparen,
   rbracket, semicolon, whereKw, pathSep]

/-- What may follow a path. -/
def behindPath : List Terminal :=
  [endOfText, asKw, colon, comma, equal, forKw, lbrace, greater, plus, rparen, rbracket,
   semicolon, whereKw]

/-- What may follow a whole text. -/
def behindText : List Terminal :=
  [endOfText]

/-- What may follow the methods of a body. -/
def behindMethods : List Terminal :=
  [crateKw, fnKw, pubKw, rbrace]

/-- What may follow the length of an array. -/
def behindLength : List Terminal :=
  [rbracket]

/-- What may follow the bounds of a lifetime. -/
def behindLifetimeBounds : List Terminal :=
  [comma, lbrace, greater, semicolon]

/-- What may follow a lifetime in such bounds. -/
def behindLifetime : List Terminal :=
  [comma, lbrace, greater, plus, semicolon]

/-- What may follow a name that may begin a generic argument. -/
def behindArgName : List Terminal :=
  [comma, less, lparen, greater, pathSep]

/-! ## The states -/

/-- The states 0 to 39. -/
def statesFrom0 : List State :=
  [⟨[(.crateKw, 14), (.traitKw, 10), (.implKw, 12), (.pubKw, 13)], [(22, behindText)],
     [(.items, 6), (.declFile, 5), (.item, 7), (.traitItem, 8), (.implItem, 9), (.visibility, 11)]⟩,
   ⟨[(.name, 29), (.crateKw, 34), (.implKw, 18), (.selfKw, 33), (.dynKw, 19), (.fnKw, 28),
     (.amp, 22), (.bang, 26), (.less, 31), (.lparen, 25), (.lbracket, 24), (.star, 23),
     (.underscore, 27)], [], [(.typeOnly, 15), (.type, 16), (.typeNoBounds, 17),
     (.qualifiedType, 21), (.path, 20), (.segment, 30), (.pathIdent, 32)]⟩,
   ⟨[(.crateKw, 14), (.pubKw, 13), (.fnKw, 36)], [], [(.method, 35), (.visibility, 37)]⟩,
   ⟨[(.less, 39)], [], [(.generics, 38)]⟩,
   ⟨[(.crateKw, 14), (.pubKw, 13)], [], [(.visibility, 40)]⟩,
   ⟨[], [], []⟩,
   ⟨[(.crateKw, 14), (.traitKw, 10), (.implKw, 12), (.pubKw, 13)], [(23, behindText)],
     [(.item, 41), (.traitItem, 8), (.implItem, 9), (.visibility, 11)]⟩,
   ⟨[], [(0, behindItem)], []⟩,
   ⟨[], [(25, behindItem)], []⟩,
   ⟨[], [(26, behindItem)], []⟩,
   ⟨[(.name, 42)], [], []⟩,
   ⟨[(.traitKw, 43)], [], []⟩,
   ⟨[(.name, 46), (.crateKw, 34), (.selfKw, 33), (.less, 39)], [], [(.generics, 45), (.path, 44),
     (.segment, 30), (.pathIdent, 32)]⟩,
   ⟨[(.lparen, 47)], [(133, behindVisibility)], []⟩,
   ⟨[], [(136, behindVisibility)], []⟩,
   ⟨[], [], []⟩,
   ⟨[], [(24, behindText)], []⟩,
   ⟨[], [(171, behindType)], []⟩,
   ⟨[(.lifetime, 52), (.name, 46), (.crateKw, 34), (.selfKw, 33), (.question, 51)], [],
     [(.bounds, 48), (.bound, 49), (.path, 50), (.segment, 30), (.pathIdent, 32)]⟩,
   ⟨[(.lifetime, 52), (.name, 46), (.crateKw, 34), (.selfKw, 33), (.question, 51)], [],
     [(.bounds, 53), (.bound, 49), (.path, 50), (.segment, 30), (.pathIdent, 32)]⟩,
   ⟨[], [(174, behindSegment)], []⟩,
   ⟨[], [(175, behindSegment)], []⟩,
   ⟨[(.lifetime, 56), (.name, 29), (.crateKw, 34), (.selfKw, 33), (.dynKw, 58), (.mutKw, 55),
     (.fnKw, 28), (.amp, 22), (.bang, 26), (.less, 31), (.lparen, 25), (.lbracket, 24), (.star, 23),
     (.underscore, 27)], [], [(.typeNoBounds, 57), (.refTarget, 54), (.qualifiedType, 21),
     (.path, 20), (.segment, 30), (.pathIdent, 32)]⟩,
   ⟨[(.constKw, 59), (.mutKw, 60)], [], []⟩,
   ⟨[(.name, 29), (.crateKw, 34), (.implKw, 18), (.selfKw, 33), (.dynKw, 19), (.fnKw, 28),
     (.amp, 22), (.bang, 26), (.less, 31), (.lparen, 25), (.lbracket, 24), (.star, 23),
     (.underscore, 27)], [], [(.type, 61), (.typeNoBounds, 17), (.qualifiedType, 21), (.path, 20),
     (.segment, 30), (.pathIdent, 32)]⟩,
   ⟨[(.name, 29), (.crateKw, 34), (.implKw, 18), (.selfKw, 33), (.dynKw, 19), (.fnKw, 28),
     (.amp, 22), (.bang, 26), (.less, 31), (.lparen, 25), (.lbracket, 24), (.rparen, 62),
     (.star, 23), (.underscore, 27)], [], [(.type, 63), (.typeNoBounds, 17), (.qualifiedType, 21),
     (.path, 20), (.segment, 30), (.pathIdent, 32)]⟩,
   ⟨[], [(189, behindSegment)], []⟩,
   ⟨[], [(190, behindSegment)], []⟩,
   ⟨[(.lparen, 64)], [], []⟩,
   ⟨[(.bang, 65)], [(212, behindPathIdent)], []⟩,
   ⟨[(.pathSep, 67)], [(208, behindPath)], [(.moreSegments, 66)]⟩,
   ⟨[(.name, 29), (.crateKw, 34), (.implKw, 18), (.selfKw, 33), (.dynKw, 19), (.fnKw, 28),
     (.amp, 22), (.bang, 26), (.less, 31), (.lparen, 25), (.lbracket, 24), (.star, 23),
     (.underscore, 27)], [], [(.type, 68), (.typeNoBounds, 17), (.qualifiedType, 21), (.path, 20),
     (.segment, 30), (.pathIdent, 32)]⟩,
   ⟨[(.less, 70), (.lparen, 71)], [(210, behindSegment)], [(.segmentArgs, 69)]⟩,
   ⟨[], [(213, behindPathIdent)], []⟩,
   ⟨[], [(214, behindPathIdent)], []⟩,
   ⟨[], [], []⟩,
   ⟨[(.name, 72)], [], []⟩,
   ⟨[(.fnKw, 73)], [], []⟩,
   ⟨[], [], []⟩,
   ⟨[(.lifetime, 77), (.name, 76), (.constKw, 78), (.greater, 74)], [], [(.genericParam, 75)]⟩]

/-- The states 40 to 79. -/
def statesFrom40 : List State :=
  [⟨[], [], []⟩,
   ⟨[], [(1, behindItem)], []⟩,
   ⟨[(.whereKw, 83), (.colon, 81), (.lbrace, 79), (.less, 39)], [], [(.generics, 82),
     (.whereClause, 80)]⟩,
   ⟨[(.name, 84)], [], []⟩,
   ⟨[(.whereKw, 83), (.forKw, 87), (.lbrace, 85)], [], [(.whereClause, 86)]⟩,
   ⟨[(.name, 46), (.crateKw, 34), (.selfKw, 33)], [], [(.path, 88), (.segment, 30),
     (.pathIdent, 32)]⟩,
   ⟨[], [(212, behindPathIdent)], []⟩,
   ⟨[(.name, 93), (.crateKw, 91), (.selfKw, 92), (.inKw, 90)], [], [(.visTarget, 89)]⟩,
   ⟨[], [(172, behindType)], []⟩,
   ⟨[(.plus, 95)], [(166, behindType)], [(.moreBounds, 94)]⟩,
   ⟨[], [(168, behindBound)], []⟩,
   ⟨[(.name, 46), (.crateKw, 34), (.selfKw, 33)], [], [(.path, 96), (.segment, 30),
     (.pathIdent, 32)]⟩,
   ⟨[], [(170, behindBound)], []⟩,
   ⟨[], [(173, behindType)], []⟩,
   ⟨[], [(176, behindSegment)], []⟩,
   ⟨[(.name, 29), (.crateKw, 34), (.selfKw, 33), (.dynKw, 58), (.fnKw, 28), (.amp, 22),
     (.bang, 26), (.less, 31), (.lparen, 25), (.lbracket, 24), (.star, 23), (.underscore, 27)], [],
     [(.typeNoBounds, 57), (.refTarget, 97), (.qualifiedType, 21), (.path, 20), (.segment, 30),
     (.pathIdent, 32)]⟩,
   ⟨[(.name, 29), (.crateKw, 34), (.selfKw, 33), (.dynKw, 58), (.mutKw, 99), (.fnKw, 28),
     (.amp, 22), (.bang, 26), (.less, 31), (.lparen, 25), (.lbracket, 24), (.star, 23),
     (.underscore, 27)], [], [(.typeNoBounds, 57), (.refTarget, 98), (.qualifiedType, 21),
     (.path, 20), (.segment, 30), (.pathIdent, 32)]⟩,
   ⟨[], [(202, behindSegment)], []⟩,
   ⟨[(.name, 46), (.crateKw, 34), (.selfKw, 33)], [], [(.path, 100), (.segment, 30),
     (.pathIdent, 32)]⟩,
   ⟨[(.name, 29), (.crateKw, 34), (.selfKw, 33), (.fnKw, 28), (.amp, 22), (.bang, 26), (.less, 31),
     (.lparen, 25), (.lbracket, 24), (.star, 23), (.underscore, 27)], [], [(.typeNoBounds, 101),
     (.qualifiedType, 21), (.path, 20), (.segment, 30), (.pathIdent, 32)]⟩,
   ⟨[(.name, 29), (.crateKw, 34), (.selfKw, 33), (.fnKw, 28), (.amp, 22), (.bang, 26), (.less, 31),
     (.lparen, 25), (.lbracket, 24), (.star, 23), (.underscore, 27)], [], [(.typeNoBounds, 102),
     (.qualifiedType, 21), (.path, 20), (.segment, 30), (.pathIdent, 32)]⟩,
   ⟨[(.rbracket, 103), (.semicolon, 104)], [], []⟩,
   ⟨[], [(184, behindSegment)], []⟩,
   ⟨[(.comma, 105), (.rparen, 107)], [], [(.moreTypes, 106)]⟩,
   ⟨[(.name, 29), (.crateKw, 34), (.implKw, 18), (.selfKw, 33), (.dynKw, 19), (.fnKw, 28),
     (.amp, 22), (.bang, 26), (.less, 31), (.lparen, 25), (.lbracket, 24), (.rparen, 108),
     (.star, 23), (.underscore, 27)], [], [(.type, 109), (.typeNoBounds, 17), (.qualifiedType, 21),
     (.path, 20), (.segment, 30), (.pathIdent, 32)]⟩,
   ⟨[(.macroArgs, 110)], [], []⟩,
   ⟨[(.pathSep, 111)], [(209, behindPath)], []⟩,
   ⟨[(.name, 46), (.crateKw, 34), (.selfKw, 33)], [], [(.segment, 112), (.pathIdent, 32)]⟩,
   ⟨[(.asKw, 113)], [], []⟩,
   ⟨[], [(211, behindSegment)], []⟩,
   ⟨[(.lifetime, 117), (.name, 118), (.int, 119), (.crateKw, 34), (.implKw, 18), (.selfKw, 33),
     (.dynKw, 19), (.fnKw, 28), (.amp, 22), (.bang, 26), (.less, 31), (.lparen, 25),
     (.lbracket, 24), (.greater, 114), (.star, 23), (.underscore, 27)], [],
     [(.type, 116), (.typeNoBounds, 17), (.qualifiedType, 21), (.path, 20), (.segment, 30),
       (.pathIdent, 32), (.genericArg, 115)]⟩,
   ⟨[(.name, 29), (.crateKw, 34), (.implKw, 18), (.selfKw, 33), (.dynKw, 19), (.fnKw, 28),
     (.amp, 22), (.bang, 26), (.less, 31), (.lparen, 25), (.lbracket, 24), (.rparen, 120),
     (.star, 23), (.underscore, 27)], [], [(.type, 121), (.typeNoBounds, 17), (.qualifiedType, 21),
     (.path, 20), (.segment, 30), (.pathIdent, 32)]⟩,
   ⟨[(.less, 39), (.lparen, 122)], [], [(.generics, 123)]⟩,
   ⟨[(.name, 124)], [], []⟩,
   ⟨[], [(140, behindGenerics)], []⟩,
   ⟨[(.comma, 126), (.greater, 125)], [], [(.moreGenericParams, 127)]⟩,
   ⟨[(.colon, 129), (.equal, 128)], [(145, behindAngleMember)], []⟩,
   ⟨[(.colon, 130)], [(151, behindAngleMember)], []⟩,
   ⟨[(.name, 131)], [], []⟩,
   ⟨[(.crateKw, 14), (.pubKw, 13), (.fnKw, 36), (.rbrace, 132)], [], [(.methods, 133),
     (.method, 134), (.visibility, 37)]⟩]

/-- The states 80 to 119. -/
def statesFrom80 : List State :=
  [⟨[(.lbrace, 135)], [], []⟩,
   ⟨[(.lifetime, 52), (.name, 46), (.crateKw, 34), (.selfKw, 33), (.question, 51)], [],
     [(.bounds, 136), (.bound, 49), (.path, 50), (.segment, 30), (.pathIdent, 32)]⟩,
   ⟨[(.whereKw, 83), (.colon, 139), (.lbrace, 137)], [], [(.whereClause, 138)]⟩,
   ⟨[(.lifetime, 142), (.name, 29), (.crateKw, 34), (.implKw, 18), (.selfKw, 33), (.dynKw, 19),
     (.fnKw, 28), (.amp, 22), (.bang, 26), (.less, 31), (.lparen, 25), (.lbracket, 24), (.star, 23),
     (.underscore, 27)], [(156, behindWhere)],
     [(.predicate, 140), (.type, 141), (.typeNoBounds, 17), (.qualifiedType, 21), (.path, 20),
       (.segment, 30), (.pathIdent, 32)]⟩,
   ⟨[(.whereKw, 83), (.colon, 145), (.lbrace, 143), (.less, 39)], [], [(.generics, 146),
     (.whereClause, 144)]⟩,
   ⟨[(.crateKw, 14), (.pubKw, 13), (.fnKw, 36), (.rbrace, 147)], [], [(.methods, 148),
     (.method, 134), (.visibility, 37)]⟩,
   ⟨[(.lbrace, 149)], [], []⟩,
   ⟨[(.name, 29), (.crateKw, 34), (.implKw, 18), (.selfKw, 33), (.dynKw, 19), (.fnKw, 28),
     (.amp, 22), (.bang, 26), (.less, 31), (.lparen, 25), (.lbracket, 24), (.star, 23),
     (.underscore, 27)], [], [(.type, 150), (.typeNoBounds, 17), (.qualifiedType, 21), (.path, 20),
     (.segment, 30), (.pathIdent, 32)]⟩,
   ⟨[(.whereKw, 83), (.forKw, 153), (.lbrace, 151)], [], [(.whereClause, 152)]⟩,
   ⟨[(.rparen, 154)], [], []⟩,
   ⟨[(.name, 46), (.crateKw, 34), (.selfKw, 33)], [], [(.path, 155), (.segment, 30),
     (.pathIdent, 32)]⟩,
   ⟨[], [(137, behindParenList)], []⟩,
   ⟨[], [(138, behindParenList)], []⟩,
   ⟨[], [(139, behindParenList)], []⟩,
   ⟨[(.plus, 156)], [(167, behindType)], []⟩,
   ⟨[(.lifetime, 52), (.name, 46), (.crateKw, 34), (.selfKw, 33), (.question, 51)], [],
     [(.bound, 157), (.path, 50), (.segment, 30), (.pathIdent, 32)]⟩,
   ⟨[], [(169, behindBound)], []⟩,
   ⟨[], [(177, behindSegment)], []⟩,
   ⟨[], [(178, behindSegment)], []⟩,
   ⟨[(.name, 29), (.crateKw, 34), (.selfKw, 33), (.dynKw, 58), (.fnKw, 28), (.amp, 22),
     (.bang, 26), (.less, 31), (.lparen, 25), (.lbracket, 24), (.star, 23), (.underscore, 27)], [],
     [(.typeNoBounds, 57), (.refTarget, 158), (.qualifiedType, 21), (.path, 20), (.segment, 30),
     (.pathIdent, 32)]⟩,
   ⟨[], [(203, behindSegment)], []⟩,
   ⟨[], [(180, behindSegment)], []⟩,
   ⟨[], [(181, behindSegment)], []⟩,
   ⟨[], [(182, behindSegment)], []⟩,
   ⟨[(.name, 161), (.int, 160)], [], [(.arrayLength, 159)]⟩,
   ⟨[(.name, 29), (.crateKw, 34), (.implKw, 18), (.selfKw, 33), (.dynKw, 19), (.fnKw, 28),
     (.amp, 22), (.bang, 26), (.less, 31), (.lparen, 25), (.lbracket, 24), (.rparen, 163),
     (.star, 23), (.underscore, 27)], [], [(.type, 162), (.typeNoBounds, 17), (.qualifiedType, 21),
     (.path, 20), (.segment, 30), (.pathIdent, 32)]⟩,
   ⟨[(.comma, 164), (.rparen, 165)], [], []⟩,
   ⟨[], [(188, behindSegment)], []⟩,
   ⟨[(.arrow, 166)], [(191, behindSegment)], []⟩,
   ⟨[(.comma, 168), (.rparen, 167)], [], [(.moreTypes, 169)]⟩,
   ⟨[], [(201, behindSegment)], []⟩,
   ⟨[(.name, 46), (.crateKw, 34), (.selfKw, 33)], [], [(.segment, 170), (.pathIdent, 32)]⟩,
   ⟨[], [(18, behindSegment)], []⟩,
   ⟨[(.name, 46), (.crateKw, 34), (.selfKw, 33)], [], [(.path, 171), (.segment, 30),
     (.pathIdent, 32)]⟩,
   ⟨[], [(215, behindSegment)], []⟩,
   ⟨[(.comma, 173), (.greater, 172)], [], [(.moreGenericArgs, 174)]⟩,
   ⟨[], [(230, behindAngleMember)], []⟩,
   ⟨[], [(231, behindAngleMember)], []⟩,
   ⟨[(.bang, 65), (.equal, 175)], [(212, behindArgName)], []⟩,
   ⟨[], [(233, behindAngleMember)], []⟩]

/-- The states 120 to 159. -/
def statesFrom120 : List State :=
  [⟨[(.arrow, 176)], [(220, behindSegment)], []⟩,
   ⟨[(.comma, 178), (.rparen, 177)], [], [(.moreTypes, 179)]⟩,
   ⟨[(.name, 188), (.selfKw, 186), (.mutKw, 187), (.refKw, 189), (.amp, 185), (.lparen, 191),
     (.rparen, 180), (.underscore, 190)], [], [(.params, 181), (.param, 182), (.receiver, 183),
     (.pattern, 184)]⟩,
   ⟨[(.lparen, 192)], [], []⟩,
   ⟨[(.less, 39), (.lparen, 193)], [], [(.generics, 194)]⟩,
   ⟨[], [(141, behindGenerics)], []⟩,
   ⟨[(.lifetime, 77), (.name, 76), (.constKw, 78), (.greater, 196)], [], [(.genericParam, 195)]⟩,
   ⟨[(.comma, 197), (.greater, 198)], [], []⟩,
   ⟨[(.name, 29), (.crateKw, 34), (.implKw, 18), (.selfKw, 33), (.dynKw, 19), (.fnKw, 28),
     (.amp, 22), (.bang, 26), (.less, 31), (.lparen, 25), (.lbracket, 24), (.star, 23),
     (.underscore, 27)], [], [(.type, 199), (.typeNoBounds, 17), (.qualifiedType, 21), (.path, 20),
     (.segment, 30), (.pathIdent, 32)]⟩,
   ⟨[(.lifetime, 52), (.name, 46), (.crateKw, 34), (.selfKw, 33), (.equal, 200), (.question, 51)],
     [(147, behindAngleMember)], [(.bounds, 201), (.bound, 49), (.path, 50), (.segment, 30),
     (.pathIdent, 32)]⟩,
   ⟨[(.lifetime, 203)], [], [(.lifetimeBounds, 202)]⟩,
   ⟨[(.colon, 204)], [], []⟩,
   ⟨[], [(27, behindItem)], []⟩,
   ⟨[(.crateKw, 14), (.pubKw, 13), (.fnKw, 36), (.rbrace, 206)], [], [(.method, 205),
     (.visibility, 37)]⟩,
   ⟨[], [(2, behindMethods)], []⟩,
   ⟨[(.crateKw, 14), (.pubKw, 13), (.fnKw, 36), (.rbrace, 207)], [], [(.methods, 208),
     (.method, 134), (.visibility, 37)]⟩,
   ⟨[(.whereKw, 83), (.lbrace, 209)], [], [(.whereClause, 210)]⟩,
   ⟨[(.crateKw, 14), (.pubKw, 13), (.fnKw, 36), (.rbrace, 211)], [], [(.methods, 212),
     (.method, 134), (.visibility, 37)]⟩,
   ⟨[(.lbrace, 213)], [], []⟩,
   ⟨[(.lifetime, 52), (.name, 46), (.crateKw, 34), (.selfKw, 33), (.question, 51)], [],
     [(.bounds, 214), (.bound, 49), (.path, 50), (.segment, 30), (.pathIdent, 32)]⟩,
   ⟨[(.comma, 215)], [(157, behindWhere)], [(.morePredicates, 216)]⟩,
   ⟨[(.colon, 217), (.equal, 218)], [], []⟩,
   ⟨[(.colon, 219)], [], []⟩,
   ⟨[(.crateKw, 14), (.pubKw, 13), (.fnKw, 36), (.rbrace, 220)], [], [(.methods, 221),
     (.method, 134), (.visibility, 37)]⟩,
   ⟨[(.lbrace, 222)], [], []⟩,
   ⟨[(.lifetime, 52), (.name, 46), (.crateKw, 34), (.selfKw, 33), (.question, 51)], [],
     [(.bounds, 223), (.bound, 49), (.path, 50), (.segment, 30), (.pathIdent, 32)]⟩,
   ⟨[(.whereKw, 83), (.colon, 226), (.lbrace, 224)], [], [(.whereClause, 225)]⟩,
   ⟨[], [(59, behindItem)], []⟩,
   ⟨[(.crateKw, 14), (.pubKw, 13), (.fnKw, 36), (.rbrace, 227)], [], [(.method, 205),
     (.visibility, 37)]⟩,
   ⟨[(.crateKw, 14), (.pubKw, 13), (.fnKw, 36), (.rbrace, 228)], [], [(.methods, 229),
     (.method, 134), (.visibility, 37)]⟩,
   ⟨[(.whereKw, 83), (.lbrace, 230)], [], [(.whereClause, 231)]⟩,
   ⟨[(.crateKw, 14), (.pubKw, 13), (.fnKw, 36), (.rbrace, 232)], [], [(.methods, 233),
     (.method, 134), (.visibility, 37)]⟩,
   ⟨[(.lbrace, 234)], [], []⟩,
   ⟨[(.name, 29), (.crateKw, 34), (.implKw, 18), (.selfKw, 33), (.dynKw, 19), (.fnKw, 28),
     (.amp, 22), (.bang, 26), (.less, 31), (.lparen, 25), (.lbracket, 24), (.star, 23),
     (.underscore, 27)], [], [(.type, 235), (.typeNoBounds, 17), (.qualifiedType, 21), (.path, 20),
     (.segment, 30), (.pathIdent, 32)]⟩,
   ⟨[], [(134, behindVisibility)], []⟩,
   ⟨[(.rparen, 236)], [], []⟩,
   ⟨[(.lifetime, 52), (.name, 46), (.crateKw, 34), (.selfKw, 33), (.question, 51)], [],
     [(.bound, 237), (.path, 50), (.segment, 30), (.pathIdent, 32)]⟩,
   ⟨[], [(14, behindBound)], []⟩,
   ⟨[], [(179, behindSegment)], []⟩,
   ⟨[(.rbracket, 238)], [], []⟩]

/-- The states 160 to 199. -/
def statesFrom160 : List State :=
  [⟨[], [(206, behindLength)], []⟩,
   ⟨[], [(207, behindLength)], []⟩,
   ⟨[], [(16, behindParenMember)], []⟩,
   ⟨[], [(185, behindSegment)], []⟩,
   ⟨[(.name, 29), (.crateKw, 34), (.implKw, 18), (.selfKw, 33), (.dynKw, 19), (.fnKw, 28),
     (.amp, 22), (.bang, 26), (.less, 31), (.lparen, 25), (.lbracket, 24), (.rparen, 240),
     (.star, 23), (.underscore, 27)], [], [(.type, 239), (.typeNoBounds, 17), (.qualifiedType, 21),
     (.path, 20), (.segment, 30), (.pathIdent, 32)]⟩,
   ⟨[], [(186, behindSegment)], []⟩,
   ⟨[(.name, 29), (.crateKw, 34), (.selfKw, 33), (.fnKw, 28), (.amp, 22), (.bang, 26), (.less, 31),
     (.lparen, 25), (.lbracket, 24), (.star, 23), (.underscore, 27)], [], [(.typeNoBounds, 241),
     (.qualifiedType, 21), (.path, 20), (.segment, 30), (.pathIdent, 32)]⟩,
   ⟨[(.arrow, 242)], [(193, behindSegment)], []⟩,
   ⟨[(.name, 29), (.crateKw, 34), (.implKw, 18), (.selfKw, 33), (.dynKw, 19), (.fnKw, 28),
     (.amp, 22), (.bang, 26), (.less, 31), (.lparen, 25), (.lbracket, 24), (.rparen, 243),
     (.star, 23), (.underscore, 27)], [], [(.type, 162), (.typeNoBounds, 17), (.qualifiedType, 21),
     (.path, 20), (.segment, 30), (.pathIdent, 32)]⟩,
   ⟨[(.comma, 244), (.rparen, 245)], [], []⟩,
   ⟨[], [(19, behindSegment)], []⟩,
   ⟨[(.greater, 246)], [], []⟩,
   ⟨[], [(216, behindSegment)], []⟩,
   ⟨[(.lifetime, 117), (.name, 118), (.int, 119), (.crateKw, 34), (.implKw, 18), (.selfKw, 33),
     (.dynKw, 19), (.fnKw, 28), (.amp, 22), (.bang, 26), (.less, 31), (.lparen, 25),
     (.lbracket, 24), (.greater, 248), (.star, 23), (.underscore, 27)], [],
     [(.type, 116), (.typeNoBounds, 17), (.qualifiedType, 21), (.path, 20), (.segment, 30),
       (.pathIdent, 32), (.genericArg, 247)]⟩,
   ⟨[(.comma, 249), (.greater, 250)], [], []⟩,
   ⟨[(.name, 29), (.crateKw, 34), (.implKw, 18), (.selfKw, 33), (.dynKw, 19), (.fnKw, 28),
     (.amp, 22), (.bang, 26), (.less, 31), (.lparen, 25), (.lbracket, 24), (.star, 23),
     (.underscore, 27)], [], [(.type, 251), (.typeNoBounds, 17), (.qualifiedType, 21), (.path, 20),
     (.segment, 30), (.pathIdent, 32)]⟩,
   ⟨[(.name, 29), (.crateKw, 34), (.selfKw, 33), (.fnKw, 28), (.amp, 22), (.bang, 26), (.less, 31),
     (.lparen, 25), (.lbracket, 24), (.star, 23), (.underscore, 27)], [], [(.typeNoBounds, 252),
     (.qualifiedType, 21), (.path, 20), (.segment, 30), (.pathIdent, 32)]⟩,
   ⟨[(.arrow, 253)], [(222, behindSegment)], []⟩,
   ⟨[(.name, 29), (.crateKw, 34), (.implKw, 18), (.selfKw, 33), (.dynKw, 19), (.fnKw, 28),
     (.amp, 22), (.bang, 26), (.less, 31), (.lparen, 25), (.lbracket, 24), (.rparen, 254),
     (.star, 23), (.underscore, 27)], [], [(.type, 162), (.typeNoBounds, 17), (.qualifiedType, 21),
     (.path, 20), (.segment, 30), (.pathIdent, 32)]⟩,
   ⟨[(.comma, 255), (.rparen, 256)], [], []⟩,
   ⟨[(.whereKw, 83), (.arrow, 259), (.semicolon, 257)], [], [(.whereClause, 258)]⟩,
   ⟨[(.rparen, 260)], [], []⟩,
   ⟨[(.comma, 261)], [(107, behindParenList)], [(.moreParams, 262)]⟩,
   ⟨[], [(111, behindParenMember)], []⟩,
   ⟨[(.colon, 263)], [], []⟩,
   ⟨[(.lifetime, 266), (.selfKw, 264), (.mutKw, 265)], [], []⟩,
   ⟨[], [(117, behindParenMember)], []⟩,
   ⟨[(.name, 268), (.selfKw, 267)], [], []⟩,
   ⟨[(.atMark, 269)], [(119, behindPattern)], []⟩,
   ⟨[(.name, 270), (.mutKw, 271)], [], []⟩,
   ⟨[], [(127, behindPattern)], []⟩,
   ⟨[(.name, 188), (.mutKw, 274), (.refKw, 189), (.lparen, 191), (.rparen, 272),
     (.underscore, 190)], [], [(.pattern, 273)]⟩,
   ⟨[(.name, 188), (.selfKw, 186), (.mutKw, 187), (.refKw, 189), (.amp, 185), (.lparen, 191),
     (.rparen, 275), (.underscore, 190)], [], [(.params, 276), (.param, 182), (.receiver, 183),
     (.pattern, 184)]⟩,
   ⟨[(.name, 188), (.selfKw, 186), (.mutKw, 187), (.refKw, 189), (.amp, 185), (.lparen, 191),
     (.rparen, 277), (.underscore, 190)], [], [(.params, 278), (.param, 182), (.receiver, 183),
     (.pattern, 184)]⟩,
   ⟨[(.lparen, 279)], [], []⟩,
   ⟨[], [(8, behindAngleMember)], []⟩,
   ⟨[], [(142, behindGenerics)], []⟩,
   ⟨[(.lifetime, 77), (.name, 76), (.constKw, 78), (.greater, 281)], [], [(.genericParam, 280)]⟩,
   ⟨[], [(143, behindGenerics)], []⟩,
   ⟨[], [(146, behindAngleMember)], []⟩]

/-- The states 200 to 239. -/
def statesFrom200 : List State :=
  [⟨[(.name, 29), (.crateKw, 34), (.implKw, 18), (.selfKw, 33), (.dynKw, 19), (.fnKw, 28),
     (.amp, 22), (.bang, 26), (.less, 31), (.lparen, 25), (.lbracket, 24), (.star, 23),
     (.underscore, 27)], [], [(.type, 282), (.typeNoBounds, 17), (.qualifiedType, 21), (.path, 20),
     (.segment, 30), (.pathIdent, 32)]⟩,
   ⟨[(.equal, 283)], [(149, behindAngleMember)], []⟩,
   ⟨[], [(152, behindAngleMember)], []⟩,
   ⟨[(.plus, 285)], [(154, behindLifetimeBounds)], [(.moreLifetimes, 284)]⟩,
   ⟨[(.name, 29), (.crateKw, 34), (.implKw, 18), (.selfKw, 33), (.dynKw, 19), (.fnKw, 28),
     (.amp, 22), (.bang, 26), (.less, 31), (.lparen, 25), (.lbracket, 24), (.star, 23),
     (.underscore, 27)], [], [(.type, 286), (.typeNoBounds, 17), (.qualifiedType, 21), (.path, 20),
     (.segment, 30), (.pathIdent, 32)]⟩,
   ⟨[], [(3, behindMethods)], []⟩,
   ⟨[], [(28, behindItem)], []⟩,
   ⟨[], [(29, behindItem)], []⟩,
   ⟨[(.crateKw, 14), (.pubKw, 13), (.fnKw, 36), (.rbrace, 287)], [], [(.method, 205),
     (.visibility, 37)]⟩,
   ⟨[(.crateKw, 14), (.pubKw, 13), (.fnKw, 36), (.rbrace, 288)], [], [(.methods, 289),
     (.method, 134), (.visibility, 37)]⟩,
   ⟨[(.lbrace, 290)], [], []⟩,
   ⟨[], [(35, behindItem)], []⟩,
   ⟨[(.crateKw, 14), (.pubKw, 13), (.fnKw, 36), (.rbrace, 291)], [], [(.method, 205),
     (.visibility, 37)]⟩,
   ⟨[(.crateKw, 14), (.pubKw, 13), (.fnKw, 36), (.rbrace, 292)], [], [(.methods, 293),
     (.method, 134), (.visibility, 37)]⟩,
   ⟨[(.whereKw, 83), (.lbrace, 294)], [], [(.whereClause, 295)]⟩,
   ⟨[(.lifetime, 142), (.name, 29), (.crateKw, 34), (.implKw, 18), (.selfKw, 33), (.dynKw, 19),
     (.fnKw, 28), (.amp, 22), (.bang, 26), (.less, 31), (.lparen, 25), (.lbracket, 24), (.star, 23),
     (.underscore, 27)], [(158, behindWhere)],
     [(.predicate, 296), (.type, 141), (.typeNoBounds, 17), (.qualifiedType, 21), (.path, 20),
       (.segment, 30), (.pathIdent, 32)]⟩,
   ⟨[(.comma, 297)], [(159, behindWhere)], []⟩,
   ⟨[(.lifetime, 52), (.name, 46), (.crateKw, 34), (.selfKw, 33), (.question, 51)],
     [(161, behindPredicate)], [(.bounds, 298), (.bound, 49), (.path, 50), (.segment, 30),
     (.pathIdent, 32)]⟩,
   ⟨[(.name, 29), (.crateKw, 34), (.implKw, 18), (.selfKw, 33), (.dynKw, 19), (.fnKw, 28),
     (.amp, 22), (.bang, 26), (.less, 31), (.lparen, 25), (.lbracket, 24), (.star, 23),
     (.underscore, 27)], [], [(.type, 299), (.typeNoBounds, 17), (.qualifiedType, 21), (.path, 20),
     (.segment, 30), (.pathIdent, 32)]⟩,
   ⟨[(.lifetime, 203)], [(163, behindPredicate)], [(.lifetimeBounds, 300)]⟩,
   ⟨[], [(43, behindItem)], []⟩,
   ⟨[(.crateKw, 14), (.pubKw, 13), (.fnKw, 36), (.rbrace, 301)], [], [(.method, 205),
     (.visibility, 37)]⟩,
   ⟨[(.crateKw, 14), (.pubKw, 13), (.fnKw, 36), (.rbrace, 302)], [], [(.methods, 303),
     (.method, 134), (.visibility, 37)]⟩,
   ⟨[(.whereKw, 83), (.lbrace, 304)], [], [(.whereClause, 305)]⟩,
   ⟨[(.crateKw, 14), (.pubKw, 13), (.fnKw, 36), (.rbrace, 306)], [], [(.methods, 307),
     (.method, 134), (.visibility, 37)]⟩,
   ⟨[(.lbrace, 308)], [], []⟩,
   ⟨[(.lifetime, 52), (.name, 46), (.crateKw, 34), (.selfKw, 33), (.question, 51)], [],
     [(.bounds, 309), (.bound, 49), (.path, 50), (.segment, 30), (.pathIdent, 32)]⟩,
   ⟨[], [(60, behindItem)], []⟩,
   ⟨[], [(61, behindItem)], []⟩,
   ⟨[(.crateKw, 14), (.pubKw, 13), (.fnKw, 36), (.rbrace, 310)], [], [(.method, 205),
     (.visibility, 37)]⟩,
   ⟨[(.crateKw, 14), (.pubKw, 13), (.fnKw, 36), (.rbrace, 311)], [], [(.methods, 312),
     (.method, 134), (.visibility, 37)]⟩,
   ⟨[(.lbrace, 313)], [], []⟩,
   ⟨[], [(67, behindItem)], []⟩,
   ⟨[(.crateKw, 14), (.pubKw, 13), (.fnKw, 36), (.rbrace, 314)], [], [(.method, 205),
     (.visibility, 37)]⟩,
   ⟨[(.crateKw, 14), (.pubKw, 13), (.fnKw, 36), (.rbrace, 315)], [], [(.methods, 316),
     (.method, 134), (.visibility, 37)]⟩,
   ⟨[(.whereKw, 83), (.lbrace, 317)], [], [(.whereClause, 318)]⟩,
   ⟨[], [(135, behindVisibility)], []⟩,
   ⟨[], [(15, behindBound)], []⟩,
   ⟨[], [(183, behindSegment)], []⟩,
   ⟨[], [(17, behindParenMember)], []⟩]

/-- The states 240 to 279. -/
def statesFrom240 : List State :=
  [⟨[], [(187, behindSegment)], []⟩,
   ⟨[], [(192, behindSegment)], []⟩,
   ⟨[(.name, 29), (.crateKw, 34), (.selfKw, 33), (.fnKw, 28), (.amp, 22), (.bang, 26), (.less, 31),
     (.lparen, 25), (.lbracket, 24), (.star, 23), (.underscore, 27)], [], [(.typeNoBounds, 319),
     (.qualifiedType, 21), (.path, 20), (.segment, 30), (.pathIdent, 32)]⟩,
   ⟨[(.arrow, 320)], [(195, behindSegment)], []⟩,
   ⟨[(.name, 29), (.crateKw, 34), (.implKw, 18), (.selfKw, 33), (.dynKw, 19), (.fnKw, 28),
     (.amp, 22), (.bang, 26), (.less, 31), (.lparen, 25), (.lbracket, 24), (.rparen, 321),
     (.star, 23), (.underscore, 27)], [], [(.type, 239), (.typeNoBounds, 17), (.qualifiedType, 21),
     (.path, 20), (.segment, 30), (.pathIdent, 32)]⟩,
   ⟨[(.arrow, 322)], [(197, behindSegment)], []⟩,
   ⟨[(.pathSep, 323)], [], []⟩,
   ⟨[], [(20, behindAngleMember)], []⟩,
   ⟨[], [(217, behindSegment)], []⟩,
   ⟨[(.lifetime, 117), (.name, 118), (.int, 119), (.crateKw, 34), (.implKw, 18), (.selfKw, 33),
     (.dynKw, 19), (.fnKw, 28), (.amp, 22), (.bang, 26), (.less, 31), (.lparen, 25),
     (.lbracket, 24), (.greater, 325), (.star, 23), (.underscore, 27)], [],
     [(.type, 116), (.typeNoBounds, 17), (.qualifiedType, 21), (.path, 20), (.segment, 30),
       (.pathIdent, 32), (.genericArg, 324)]⟩,
   ⟨[], [(218, behindSegment)], []⟩,
   ⟨[], [(232, behindAngleMember)], []⟩,
   ⟨[], [(221, behindSegment)], []⟩,
   ⟨[(.name, 29), (.crateKw, 34), (.selfKw, 33), (.fnKw, 28), (.amp, 22), (.bang, 26), (.less, 31),
     (.lparen, 25), (.lbracket, 24), (.star, 23), (.underscore, 27)], [], [(.typeNoBounds, 326),
     (.qualifiedType, 21), (.path, 20), (.segment, 30), (.pathIdent, 32)]⟩,
   ⟨[(.arrow, 327)], [(224, behindSegment)], []⟩,
   ⟨[(.name, 29), (.crateKw, 34), (.implKw, 18), (.selfKw, 33), (.dynKw, 19), (.fnKw, 28),
     (.amp, 22), (.bang, 26), (.less, 31), (.lparen, 25), (.lbracket, 24), (.rparen, 328),
     (.star, 23), (.underscore, 27)], [], [(.type, 239), (.typeNoBounds, 17), (.qualifiedType, 21),
     (.path, 20), (.segment, 30), (.pathIdent, 32)]⟩,
   ⟨[(.arrow, 329)], [(226, behindSegment)], []⟩,
   ⟨[], [(75, behindMethod)], []⟩,
   ⟨[(.semicolon, 330)], [], []⟩,
   ⟨[(.name, 29), (.crateKw, 34), (.implKw, 18), (.selfKw, 33), (.dynKw, 19), (.fnKw, 28),
     (.amp, 22), (.bang, 26), (.less, 31), (.lparen, 25), (.lbracket, 24), (.star, 23),
     (.underscore, 27)], [], [(.type, 331), (.typeNoBounds, 17), (.qualifiedType, 21), (.path, 20),
     (.segment, 30), (.pathIdent, 32)]⟩,
   ⟨[(.whereKw, 83), (.arrow, 334), (.semicolon, 332)], [], [(.whereClause, 333)]⟩,
   ⟨[(.name, 188), (.selfKw, 186), (.mutKw, 187), (.refKw, 189), (.amp, 185), (.lparen, 191),
     (.underscore, 190)], [(108, behindParenList)], [(.param, 335), (.receiver, 183),
     (.pattern, 184)]⟩,
   ⟨[(.comma, 336)], [(109, behindParenList)], []⟩,
   ⟨[(.name, 29), (.crateKw, 34), (.implKw, 18), (.selfKw, 33), (.dynKw, 19), (.fnKw, 28),
     (.amp, 22), (.bang, 26), (.less, 31), (.lparen, 25), (.lbracket, 24), (.star, 23),
     (.underscore, 27)], [], [(.type, 337), (.typeNoBounds, 17), (.qualifiedType, 21), (.path, 20),
     (.segment, 30), (.pathIdent, 32)]⟩,
   ⟨[], [(113, behindParenMember)], []⟩,
   ⟨[(.selfKw, 338)], [], []⟩,
   ⟨[(.selfKw, 339), (.mutKw, 340)], [], []⟩,
   ⟨[], [(118, behindParenMember)], []⟩,
   ⟨[(.atMark, 341)], [(121, behindPattern)], []⟩,
   ⟨[(.name, 188), (.mutKw, 274), (.refKw, 189), (.lparen, 191), (.underscore, 190)], [],
     [(.pattern, 342)]⟩,
   ⟨[(.atMark, 343)], [(123, behindPattern)], []⟩,
   ⟨[(.name, 344)], [], []⟩,
   ⟨[], [(128, behindPattern)], []⟩,
   ⟨[(.comma, 346), (.rparen, 345)], [], [(.morePatterns, 347)]⟩,
   ⟨[(.name, 268)], [], []⟩,
   ⟨[(.whereKw, 83), (.arrow, 350), (.semicolon, 348)], [], [(.whereClause, 349)]⟩,
   ⟨[(.rparen, 351)], [], []⟩,
   ⟨[(.whereKw, 83), (.arrow, 354), (.semicolon, 352)], [], [(.whereClause, 353)]⟩,
   ⟨[(.rparen, 355)], [], []⟩,
   ⟨[(.name, 188), (.selfKw, 186), (.mutKw, 187), (.refKw, 189), (.amp, 185), (.lparen, 191),
     (.rparen, 356), (.underscore, 190)], [], [(.params, 357), (.param, 182), (.receiver, 183),
     (.pattern, 184)]⟩]

/-- The states 280 to 319. -/
def statesFrom280 : List State :=
  [⟨[], [(9, behindAngleMember)], []⟩,
   ⟨[], [(144, behindGenerics)], []⟩,
   ⟨[], [(148, behindAngleMember)], []⟩,
   ⟨[(.name, 29), (.crateKw, 34), (.implKw, 18), (.selfKw, 33), (.dynKw, 19), (.fnKw, 28),
     (.amp, 22), (.bang, 26), (.less, 31), (.lparen, 25), (.lbracket, 24), (.star, 23),
     (.underscore, 27)], [], [(.type, 358), (.typeNoBounds, 17), (.qualifiedType, 21), (.path, 20),
     (.segment, 30), (.pathIdent, 32)]⟩,
   ⟨[(.plus, 359)], [(155, behindLifetimeBounds)], []⟩,
   ⟨[(.lifetime, 360)], [], []⟩,
   ⟨[], [(153, behindAngleMember)], []⟩,
   ⟨[], [(30, behindItem)], []⟩,
   ⟨[], [(31, behindItem)], []⟩,
   ⟨[(.crateKw, 14), (.pubKw, 13), (.fnKw, 36), (.rbrace, 361)], [], [(.method, 205),
     (.visibility, 37)]⟩,
   ⟨[(.crateKw, 14), (.pubKw, 13), (.fnKw, 36), (.rbrace, 362)], [], [(.methods, 363),
     (.method, 134), (.visibility, 37)]⟩,
   ⟨[], [(36, behindItem)], []⟩,
   ⟨[], [(37, behindItem)], []⟩,
   ⟨[(.crateKw, 14), (.pubKw, 13), (.fnKw, 36), (.rbrace, 364)], [], [(.method, 205),
     (.visibility, 37)]⟩,
   ⟨[(.crateKw, 14), (.pubKw, 13), (.fnKw, 36), (.rbrace, 365)], [], [(.methods, 366),
     (.method, 134), (.visibility, 37)]⟩,
   ⟨[(.lbrace, 367)], [], []⟩,
   ⟨[], [(12, behindPredicate)], []⟩,
   ⟨[(.lifetime, 142), (.name, 29), (.crateKw, 34), (.implKw, 18), (.selfKw, 33), (.dynKw, 19),
     (.fnKw, 28), (.amp, 22), (.bang, 26), (.less, 31), (.lparen, 25), (.lbracket, 24), (.star, 23),
     (.underscore, 27)], [(160, behindWhere)],
     [(.predicate, 368), (.type, 141), (.typeNoBounds, 17), (.qualifiedType, 21), (.path, 20),
       (.segment, 30), (.pathIdent, 32)]⟩,
   ⟨[], [(162, behindPredicate)], []⟩,
   ⟨[], [(165, behindPredicate)], []⟩,
   ⟨[], [(164, behindPredicate)], []⟩,
   ⟨[], [(44, behindItem)], []⟩,
   ⟨[], [(45, behindItem)], []⟩,
   ⟨[(.crateKw, 14), (.pubKw, 13), (.fnKw, 36), (.rbrace, 369)], [], [(.method, 205),
     (.visibility, 37)]⟩,
   ⟨[(.crateKw, 14), (.pubKw, 13), (.fnKw, 36), (.rbrace, 370)], [], [(.methods, 371),
     (.method, 134), (.visibility, 37)]⟩,
   ⟨[(.lbrace, 372)], [], []⟩,
   ⟨[], [(51, behindItem)], []⟩,
   ⟨[(.crateKw, 14), (.pubKw, 13), (.fnKw, 36), (.rbrace, 373)], [], [(.method, 205),
     (.visibility, 37)]⟩,
   ⟨[(.crateKw, 14), (.pubKw, 13), (.fnKw, 36), (.rbrace, 374)], [], [(.methods, 375),
     (.method, 134), (.visibility, 37)]⟩,
   ⟨[(.whereKw, 83), (.lbrace, 376)], [], [(.whereClause, 377)]⟩,
   ⟨[], [(62, behindItem)], []⟩,
   ⟨[], [(63, behindItem)], []⟩,
   ⟨[(.crateKw, 14), (.pubKw, 13), (.fnKw, 36), (.rbrace, 378)], [], [(.method, 205),
     (.visibility, 37)]⟩,
   ⟨[(.crateKw, 14), (.pubKw, 13), (.fnKw, 36), (.rbrace, 379)], [], [(.methods, 380),
     (.method, 134), (.visibility, 37)]⟩,
   ⟨[], [(68, behindItem)], []⟩,
   ⟨[], [(69, behindItem)], []⟩,
   ⟨[(.crateKw, 14), (.pubKw, 13), (.fnKw, 36), (.rbrace, 381)], [], [(.method, 205),
     (.visibility, 37)]⟩,
   ⟨[(.crateKw, 14), (.pubKw, 13), (.fnKw, 36), (.rbrace, 382)], [], [(.methods, 383),
     (.method, 134), (.visibility, 37)]⟩,
   ⟨[(.lbrace, 384)], [], []⟩,
   ⟨[], [(194, behindSegment)], []⟩]

/-- The states 320 to 359. -/
def statesFrom320 : List State :=
  [⟨[(.name, 29), (.crateKw, 34), (.selfKw, 33), (.fnKw, 28), (.amp, 22), (.bang, 26), (.less, 31),
     (.lparen, 25), (.lbracket, 24), (.star, 23), (.underscore, 27)], [], [(.typeNoBounds, 385),
     (.qualifiedType, 21), (.path, 20), (.segment, 30), (.pathIdent, 32)]⟩,
   ⟨[(.arrow, 386)], [(199, behindSegment)], []⟩,
   ⟨[(.name, 29), (.crateKw, 34), (.selfKw, 33), (.fnKw, 28), (.amp, 22), (.bang, 26), (.less, 31),
     (.lparen, 25), (.lbracket, 24), (.star, 23), (.underscore, 27)], [], [(.typeNoBounds, 387),
     (.qualifiedType, 21), (.path, 20), (.segment, 30), (.pathIdent, 32)]⟩,
   ⟨[(.name, 46), (.crateKw, 34), (.selfKw, 33)], [], [(.segment, 388), (.pathIdent, 32)]⟩,
   ⟨[], [(21, behindAngleMember)], []⟩,
   ⟨[], [(219, behindSegment)], []⟩,
   ⟨[], [(223, behindSegment)], []⟩,
   ⟨[(.name, 29), (.crateKw, 34), (.selfKw, 33), (.fnKw, 28), (.amp, 22), (.bang, 26), (.less, 31),
     (.lparen, 25), (.lbracket, 24), (.star, 23), (.underscore, 27)], [], [(.typeNoBounds, 389),
     (.qualifiedType, 21), (.path, 20), (.segment, 30), (.pathIdent, 32)]⟩,
   ⟨[(.arrow, 390)], [(228, behindSegment)], []⟩,
   ⟨[(.name, 29), (.crateKw, 34), (.selfKw, 33), (.fnKw, 28), (.amp, 22), (.bang, 26), (.less, 31),
     (.lparen, 25), (.lbracket, 24), (.star, 23), (.underscore, 27)], [], [(.typeNoBounds, 391),
     (.qualifiedType, 21), (.path, 20), (.segment, 30), (.pathIdent, 32)]⟩,
   ⟨[], [(76, behindMethod)], []⟩,
   ⟨[(.whereKw, 83), (.semicolon, 392)], [], [(.whereClause, 393)]⟩,
   ⟨[], [(79, behindMethod)], []⟩,
   ⟨[(.semicolon, 394)], [], []⟩,
   ⟨[(.name, 29), (.crateKw, 34), (.implKw, 18), (.selfKw, 33), (.dynKw, 19), (.fnKw, 28),
     (.amp, 22), (.bang, 26), (.less, 31), (.lparen, 25), (.lbracket, 24), (.star, 23),
     (.underscore, 27)], [], [(.type, 395), (.typeNoBounds, 17), (.qualifiedType, 21), (.path, 20),
     (.segment, 30), (.pathIdent, 32)]⟩,
   ⟨[], [(4, behindParenMember)], []⟩,
   ⟨[(.name, 188), (.selfKw, 186), (.mutKw, 187), (.refKw, 189), (.amp, 185), (.lparen, 191),
     (.underscore, 190)], [(110, behindParenList)], [(.param, 396), (.receiver, 183),
     (.pattern, 184)]⟩,
   ⟨[], [(112, behindParenMember)], []⟩,
   ⟨[], [(114, behindParenMember)], []⟩,
   ⟨[], [(115, behindParenMember)], []⟩,
   ⟨[(.selfKw, 397)], [], []⟩,
   ⟨[(.name, 188), (.mutKw, 274), (.refKw, 189), (.lparen, 191), (.underscore, 190)], [],
     [(.pattern, 398)]⟩,
   ⟨[], [(120, behindPattern)], []⟩,
   ⟨[(.name, 188), (.mutKw, 274), (.refKw, 189), (.lparen, 191), (.underscore, 190)], [],
     [(.pattern, 399)]⟩,
   ⟨[(.atMark, 400)], [(125, behindPattern)], []⟩,
   ⟨[], [(129, behindPattern)], []⟩,
   ⟨[(.name, 188), (.mutKw, 274), (.refKw, 189), (.lparen, 191), (.rparen, 402),
     (.underscore, 190)], [], [(.pattern, 401)]⟩,
   ⟨[(.comma, 403), (.rparen, 404)], [], []⟩,
   ⟨[], [(83, behindMethod)], []⟩,
   ⟨[(.semicolon, 405)], [], []⟩,
   ⟨[(.name, 29), (.crateKw, 34), (.implKw, 18), (.selfKw, 33), (.dynKw, 19), (.fnKw, 28),
     (.amp, 22), (.bang, 26), (.less, 31), (.lparen, 25), (.lbracket, 24), (.star, 23),
     (.underscore, 27)], [], [(.type, 406), (.typeNoBounds, 17), (.qualifiedType, 21), (.path, 20),
     (.segment, 30), (.pathIdent, 32)]⟩,
   ⟨[(.whereKw, 83), (.arrow, 409), (.semicolon, 407)], [], [(.whereClause, 408)]⟩,
   ⟨[], [(91, behindMethod)], []⟩,
   ⟨[(.semicolon, 410)], [], []⟩,
   ⟨[(.name, 29), (.crateKw, 34), (.implKw, 18), (.selfKw, 33), (.dynKw, 19), (.fnKw, 28),
     (.amp, 22), (.bang, 26), (.less, 31), (.lparen, 25), (.lbracket, 24), (.star, 23),
     (.underscore, 27)], [], [(.type, 411), (.typeNoBounds, 17), (.qualifiedType, 21), (.path, 20),
     (.segment, 30), (.pathIdent, 32)]⟩,
   ⟨[(.whereKw, 83), (.arrow, 414), (.semicolon, 412)], [], [(.whereClause, 413)]⟩,
   ⟨[(.whereKw, 83), (.arrow, 417), (.semicolon, 415)], [], [(.whereClause, 416)]⟩,
   ⟨[(.rparen, 418)], [], []⟩,
   ⟨[], [(150, behindAngleMember)], []⟩,
   ⟨[(.lifetime, 419)], [], []⟩]

/-- The states 360 to 399. -/
def statesFrom360 : List State :=
  [⟨[], [(10, behindLifetime)], []⟩,
   ⟨[], [(32, behindItem)], []⟩,
   ⟨[], [(33, behindItem)], []⟩,
   ⟨[(.crateKw, 14), (.pubKw, 13), (.fnKw, 36), (.rbrace, 420)], [], [(.method, 205),
     (.visibility, 37)]⟩,
   ⟨[], [(38, behindItem)], []⟩,
   ⟨[], [(39, behindItem)], []⟩,
   ⟨[(.crateKw, 14), (.pubKw, 13), (.fnKw, 36), (.rbrace, 421)], [], [(.method, 205),
     (.visibility, 37)]⟩,
   ⟨[(.crateKw, 14), (.pubKw, 13), (.fnKw, 36), (.rbrace, 422)], [], [(.methods, 423),
     (.method, 134), (.visibility, 37)]⟩,
   ⟨[], [(13, behindPredicate)], []⟩,
   ⟨[], [(46, behindItem)], []⟩,
   ⟨[], [(47, behindItem)], []⟩,
   ⟨[(.crateKw, 14), (.pubKw, 13), (.fnKw, 36), (.rbrace, 424)], [], [(.method, 205),
     (.visibility, 37)]⟩,
   ⟨[(.crateKw, 14), (.pubKw, 13), (.fnKw, 36), (.rbrace, 425)], [], [(.methods, 426),
     (.method, 134), (.visibility, 37)]⟩,
   ⟨[], [(52, behindItem)], []⟩,
   ⟨[], [(53, behindItem)], []⟩,
   ⟨[(.crateKw, 14), (.pubKw, 13), (.fnKw, 36), (.rbrace, 427)], [], [(.method, 205),
     (.visibility, 37)]⟩,
   ⟨[(.crateKw, 14), (.pubKw, 13), (.fnKw, 36), (.rbrace, 428)], [], [(.methods, 429),
     (.method, 134), (.visibility, 37)]⟩,
   ⟨[(.lbrace, 430)], [], []⟩,
   ⟨[], [(64, behindItem)], []⟩,
   ⟨[], [(65, behindItem)], []⟩,
   ⟨[(.crateKw, 14), (.pubKw, 13), (.fnKw, 36), (.rbrace, 431)], [], [(.method, 205),
     (.visibility, 37)]⟩,
   ⟨[], [(70, behindItem)], []⟩,
   ⟨[], [(71, behindItem)], []⟩,
   ⟨[(.crateKw, 14), (.pubKw, 13), (.fnKw, 36), (.rbrace, 432)], [], [(.method, 205),
     (.visibility, 37)]⟩,
   ⟨[(.crateKw, 14), (.pubKw, 13), (.fnKw, 36), (.rbrace, 433)], [], [(.methods, 434),
     (.method, 134), (.visibility, 37)]⟩,
   ⟨[], [(196, behindSegment)], []⟩,
   ⟨[(.name, 29), (.crateKw, 34), (.selfKw, 33), (.fnKw, 28), (.amp, 22), (.bang, 26), (.less, 31),
     (.lparen, 25), (.lbracket, 24), (.star, 23), (.underscore, 27)], [], [(.typeNoBounds, 435),
     (.qualifiedType, 21), (.path, 20), (.segment, 30), (.pathIdent, 32)]⟩,
   ⟨[], [(198, behindSegment)], []⟩,
   ⟨[(.pathSep, 67)], [(204, behindPath)], [(.moreSegments, 436)]⟩,
   ⟨[], [(225, behindSegment)], []⟩,
   ⟨[(.name, 29), (.crateKw, 34), (.selfKw, 33), (.fnKw, 28), (.amp, 22), (.bang, 26), (.less, 31),
     (.lparen, 25), (.lbracket, 24), (.star, 23), (.underscore, 27)], [], [(.typeNoBounds, 437),
     (.qualifiedType, 21), (.path, 20), (.segment, 30), (.pathIdent, 32)]⟩,
   ⟨[], [(227, behindSegment)], []⟩,
   ⟨[], [(77, behindMethod)], []⟩,
   ⟨[(.semicolon, 438)], [], []⟩,
   ⟨[], [(80, behindMethod)], []⟩,
   ⟨[(.whereKw, 83), (.semicolon, 439)], [], [(.whereClause, 440)]⟩,
   ⟨[], [(5, behindParenMember)], []⟩,
   ⟨[], [(116, behindParenMember)], []⟩,
   ⟨[], [(122, behindPattern)], []⟩,
   ⟨[], [(124, behindPattern)], []⟩]

/-- The states 400 to 439. -/
def statesFrom400 : List State :=
  [⟨[(.name, 188), (.mutKw, 274), (.refKw, 189), (.lparen, 191), (.underscore, 190)], [],
     [(.pattern, 441)]⟩,
   ⟨[], [(6, behindParenMember)], []⟩,
   ⟨[], [(130, behindPattern)], []⟩,
   ⟨[(.name, 188), (.mutKw, 274), (.refKw, 189), (.lparen, 191), (.rparen, 443),
     (.underscore, 190)], [], [(.pattern, 442)]⟩,
   ⟨[], [(131, behindPattern)], []⟩,
   ⟨[], [(84, behindMethod)], []⟩,
   ⟨[(.whereKw, 83), (.semicolon, 444)], [], [(.whereClause, 445)]⟩,
   ⟨[], [(87, behindMethod)], []⟩,
   ⟨[(.semicolon, 446)], [], []⟩,
   ⟨[(.name, 29), (.crateKw, 34), (.implKw, 18), (.selfKw, 33), (.dynKw, 19), (.fnKw, 28),
     (.amp, 22), (.bang, 26), (.less, 31), (.lparen, 25), (.lbracket, 24), (.star, 23),
     (.underscore, 27)], [], [(.type, 447), (.typeNoBounds, 17), (.qualifiedType, 21), (.path, 20),
     (.segment, 30), (.pathIdent, 32)]⟩,
   ⟨[], [(92, behindMethod)], []⟩,
   ⟨[(.whereKw, 83), (.semicolon, 448)], [], [(.whereClause, 449)]⟩,
   ⟨[], [(95, behindMethod)], []⟩,
   ⟨[(.semicolon, 450)], [], []⟩,
   ⟨[(.name, 29), (.crateKw, 34), (.implKw, 18), (.selfKw, 33), (.dynKw, 19), (.fnKw, 28),
     (.amp, 22), (.bang, 26), (.less, 31), (.lparen, 25), (.lbracket, 24), (.star, 23),
     (.underscore, 27)], [], [(.type, 451), (.typeNoBounds, 17), (.qualifiedType, 21), (.path, 20),
     (.segment, 30), (.pathIdent, 32)]⟩,
   ⟨[], [(99, behindMethod)], []⟩,
   ⟨[(.semicolon, 452)], [], []⟩,
   ⟨[(.name, 29), (.crateKw, 34), (.implKw, 18), (.selfKw, 33), (.dynKw, 19), (.fnKw, 28),
     (.amp, 22), (.bang, 26), (.less, 31), (.lparen, 25), (.lbracket, 24), (.star, 23),
     (.underscore, 27)], [], [(.type, 453), (.typeNoBounds, 17), (.qualifiedType, 21), (.path, 20),
     (.segment, 30), (.pathIdent, 32)]⟩,
   ⟨[(.whereKw, 83), (.arrow, 456), (.semicolon, 454)], [], [(.whereClause, 455)]⟩,
   ⟨[], [(11, behindLifetime)], []⟩,
   ⟨[], [(34, behindItem)], []⟩,
   ⟨[], [(40, behindItem)], []⟩,
   ⟨[], [(41, behindItem)], []⟩,
   ⟨[(.crateKw, 14), (.pubKw, 13), (.fnKw, 36), (.rbrace, 457)], [], [(.method, 205),
     (.visibility, 37)]⟩,
   ⟨[], [(48, behindItem)], []⟩,
   ⟨[], [(49, behindItem)], []⟩,
   ⟨[(.crateKw, 14), (.pubKw, 13), (.fnKw, 36), (.rbrace, 458)], [], [(.method, 205),
     (.visibility, 37)]⟩,
   ⟨[], [(54, behindItem)], []⟩,
   ⟨[], [(55, behindItem)], []⟩,
   ⟨[(.crateKw, 14), (.pubKw, 13), (.fnKw, 36), (.rbrace, 459)], [], [(.method, 205),
     (.visibility, 37)]⟩,
   ⟨[(.crateKw, 14), (.pubKw, 13), (.fnKw, 36), (.rbrace, 460)], [], [(.methods, 461),
     (.method, 134), (.visibility, 37)]⟩,
   ⟨[], [(66, behindItem)], []⟩,
   ⟨[], [(72, behindItem)], []⟩,
   ⟨[], [(73, behindItem)], []⟩,
   ⟨[(.crateKw, 14), (.pubKw, 13), (.fnKw, 36), (.rbrace, 462)], [], [(.method, 205),
     (.visibility, 37)]⟩,
   ⟨[], [(200, behindSegment)], []⟩,
   ⟨[(.pathSep, 111)], [(205, behindPath)], []⟩,
   ⟨[], [(229, behindSegment)], []⟩,
   ⟨[], [(78, behindMethod)], []⟩,
   ⟨[], [(81, behindMethod)], []⟩]

/-- The states 440 to 479. -/
def statesFrom440 : List State :=
  [⟨[(.semicolon, 463)], [], []⟩,
   ⟨[], [(126, behindPattern)], []⟩,
   ⟨[], [(7, behindParenMember)], []⟩,
   ⟨[], [(132, behindPattern)], []⟩,
   ⟨[], [(85, behindMethod)], []⟩,
   ⟨[(.semicolon, 464)], [], []⟩,
   ⟨[], [(88, behindMethod)], []⟩,
   ⟨[(.whereKw, 83), (.semicolon, 465)], [], [(.whereClause, 466)]⟩,
   ⟨[], [(93, behindMethod)], []⟩,
   ⟨[(.semicolon, 467)], [], []⟩,
   ⟨[], [(96, behindMethod)], []⟩,
   ⟨[(.whereKw, 83), (.semicolon, 468)], [], [(.whereClause, 469)]⟩,
   ⟨[], [(100, behindMethod)], []⟩,
   ⟨[(.whereKw, 83), (.semicolon, 470)], [], [(.whereClause, 471)]⟩,
   ⟨[], [(103, behindMethod)], []⟩,
   ⟨[(.semicolon, 472)], [], []⟩,
   ⟨[(.name, 29), (.crateKw, 34), (.implKw, 18), (.selfKw, 33), (.dynKw, 19), (.fnKw, 28),
     (.amp, 22), (.bang, 26), (.less, 31), (.lparen, 25), (.lbracket, 24), (.star, 23),
     (.underscore, 27)], [], [(.type, 473), (.typeNoBounds, 17), (.qualifiedType, 21), (.path, 20),
     (.segment, 30), (.pathIdent, 32)]⟩,
   ⟨[], [(42, behindItem)], []⟩,
   ⟨[], [(50, behindItem)], []⟩,
   ⟨[], [(56, behindItem)], []⟩,
   ⟨[], [(57, behindItem)], []⟩,
   ⟨[(.crateKw, 14), (.pubKw, 13), (.fnKw, 36), (.rbrace, 474)], [], [(.method, 205),
     (.visibility, 37)]⟩,
   ⟨[], [(74, behindItem)], []⟩,
   ⟨[], [(82, behindMethod)], []⟩,
   ⟨[], [(86, behindMethod)], []⟩,
   ⟨[], [(89, behindMethod)], []⟩,
   ⟨[(.semicolon, 475)], [], []⟩,
   ⟨[], [(94, behindMethod)], []⟩,
   ⟨[], [(97, behindMethod)], []⟩,
   ⟨[(.semicolon, 476)], [], []⟩,
   ⟨[], [(101, behindMethod)], []⟩,
   ⟨[(.semicolon, 477)], [], []⟩,
   ⟨[], [(104, behindMethod)], []⟩,
   ⟨[(.whereKw, 83), (.semicolon, 478)], [], [(.whereClause, 479)]⟩,
   ⟨[], [(58, behindItem)], []⟩,
   ⟨[], [(90, behindMethod)], []⟩,
   ⟨[], [(98, behindMethod)], []⟩,
   ⟨[], [(102, behindMethod)], []⟩,
   ⟨[], [(105, behindMethod)], []⟩,
   ⟨[(.semicolon, 480)], [], []⟩]

/-- The states 480 to 480. -/
def statesFrom480 : List State :=
  [⟨[], [(106, behindMethod)], []⟩]

/-- **All states**, by their numbers. -/
def states : Array State :=
  (statesFrom0 ++ statesFrom40 ++ statesFrom80 ++ statesFrom120 ++ statesFrom160 ++
    statesFrom200 ++ statesFrom240 ++ statesFrom280 ++ statesFrom320 ++ statesFrom360 ++
    statesFrom400 ++ statesFrom440 ++ statesFrom480).toArray

end Table

end TraitMock
