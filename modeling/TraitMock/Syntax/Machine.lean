import TraitMock.Syntax.Grammar
import TraitMock.Syntax.Lexer
import TraitMock.Syntax.Table

/-!
# Syntax/Machine — reading a text by the parse table

The machine keeps a stack of `Frame`s, each the value of one symbol with the state behind it.  For
every token it first reduces as long as the table says so and then shifts; the lexer is told what
the state on top accepts *before* those reductions.  A reduction takes the frames of a right-hand
side off the stack and applies the action of the production to their values (`Machine.reduce`).
-/

namespace TraitMock

/-- **A symbol that has been read**: its value, where it stands, and the state behind it. -/
structure Frame where
  state : Nat
  symbol : Symbol
  value : symbol.Val
  extent : Extent

/-- The value of a frame, if it is one of the given symbol. -/
def Frame.value? (frame : Frame) (s : Symbol) : Option s.Val :=
  if h : frame.symbol = s then some (h ▸ frame.value) else none

namespace Machine

/-- The state on top of a stack. -/
def top (entry : Entry) : List Frame → Nat
  | [] => entry.start
  | frame :: _ => frame.state

/-- The values of frames that stand for a right-hand side. -/
def values? : (rhs : List Symbol) → List Frame → Option (Symbol.Vals rhs)
  | [], [] => some ()
  | s :: rhs, frame :: frames => do return (← frame.value? s, ← values? rhs frames)
  | _, _ => none

/-- The extent of a sequence of frames; an empty one stands at `here`. -/
def extentOf (here : Pos) : List Frame → Extent
  | [] => ⟨here, here⟩
  | frame :: frames => ⟨frame.extent.start, ((frame :: frames).getLast (by simp)).extent.stop⟩

/-- The action of the state on top of a stack. -/
def action? (entry : Entry) (stack : List Frame) (t : Terminal) : Option Action :=
  Table.states[top entry stack]?.bind (·.action? t)

/-- What the state on top of a stack accepts. -/
def accepts (entry : Entry) (stack : List Frame) (t : Terminal) : Bool :=
  (action? entry stack t).isSome

/-- **A reduction** by the production of the given number: the frames of its right-hand side make
way for one frame of its left-hand side. -/
def reduce (file : Option String) (entry : Entry) (here : Pos) (production : Nat)
    (stack : List Frame) : Option (List Frame) := do
  let p ← Grammar.productions[production]?
  let frames := (stack.take p.rhs.length).reverse
  let rest := stack.drop p.rhs.length
  let vals ← values? p.rhs frames
  let state ← Table.states[top entry rest]?
  let target ← state.goto? p.lhs
  let extent := extentOf here frames
  return ⟨target, .phrase p.lhs, p.action ⟨file, extent⟩ vals, extent⟩ :: rest

/-- How many reductions can follow each other on a stack: a reduction that does not shorten the
stack replaces one phrase by one that contains it, and no chain of these is longer than twelve. -/
def reductionBound (stack : List Frame) : Nat := 12 * (stack.length + 1)

/-- **Reducing before a token**: the stack on which it is shifted, and the state behind it. -/
def settle (file : Option String) (entry : Entry) (token : Token) :
    (fuel : Nat) → List Frame → Option (Nat × List Frame)
  | 0, _ => none
  | fuel + 1, stack =>
    match action? entry stack token.kind with
    | none => none
    | some (.shift target) => some (target, stack)
    | some (.reduce production) =>
      (reduce file entry token.extent.start production stack).bind (settle file entry token fuel)

/-- Taking a token onto the stack. -/
def shift (file : Option String) (entry : Entry) (stack : List Frame) (token : Token) :
    Option (List Frame) :=
  (settle file entry token (reductionBound stack) stack).map fun (target, rest) =>
    ⟨target, .term token.kind, token, token.extent⟩ :: rest

/-- The value of a stack that holds exactly the phrase of a whole text. -/
def result? (entry : Entry) : List Frame → Option entry.phrase.Val
  | [frame] => frame.value? (.phrase entry.phrase)
  | _ => none

/-- **Reducing at the end of the text** until the whole text is one phrase. -/
def finish (file : Option String) (entry : Entry) (here : Pos) :
    (fuel : Nat) → List Frame → Option entry.phrase.Val
  | 0, _ => none
  | fuel + 1, stack =>
    match result? entry stack with
    | some value => some value
    | none =>
      match action? entry stack .endOfText with
      | some (.reduce production) =>
        (reduce file entry here production stack).bind (finish file entry here fuel)
      | _ => none

/-- The end of a text as a token: it has no text of its own and points to the last token. -/
def endToken (last : Option Token) : Token :=
  let start := (last.map (·.extent.start)).getD {}
  ⟨.endOfText, "", ⟨start, start⟩⟩

/-- **Reading a text** from `pos` on, `fuel` tokens at most. -/
def run (file : Option String) (entry : Entry) :
    (fuel : Nat) → List Frame → (last : Option Token) → Pos → List Char →
      Except SyntaxError entry.phrase.Val
  | 0, _, last, _, _ => .error (.unexpectedToken (endToken last))
  | fuel + 1, stack, last, pos, cs =>
    match Lexer.next (accepts entry stack) pos cs with
    | .error e => .error e
    | .ok none =>
      match finish file entry pos (reductionBound stack) stack with
      | some value => .ok value
      | none => .error (.unexpectedToken (endToken last))
    | .ok (some (token, rest)) =>
      match shift file entry stack token with
      | some stack => run file entry fuel stack (some token) token.extent.stop rest
      | none => .error (.unexpectedToken token)

/-- **Reading a whole text** of the given kind. -/
def parse (file : Option String) (entry : Entry) (text : List Char) :
    Except SyntaxError entry.phrase.Val :=
  run file entry (text.length + 1) [] none {} text

end Machine

end TraitMock
