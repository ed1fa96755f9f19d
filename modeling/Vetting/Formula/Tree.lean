import Vetting.Formula.Token

/-!
Contract: the structure of an expression.

Owns:
- the operators of a tree, their precedence and their number of operands;
- placing an operator into a tree by its precedence;
- sequences `a, b` and `a; b`, and parentheses;
- the tree of a list of tokens.

Does not own: the meaning of a tree (`Vetting.Formula.Evaluation`).

A tree grows at its right edge.  A new operator goes down along the last operands
as long as it binds tighter than they do; where it does not, it takes the operand
that stands there as its own first one.  Operands are kept newest first, so that
the right edge is at the head.

A list of open trees holds the current one first: one for each open parenthesis,
and above it the sequences begun inside.  Counts of operands are checked only
when a tree is evaluated.
-/

namespace Vetting.Formula

inductive Operator where
  /-- A whole expression, or one in parentheses. -/
  | group
  | add
  | sub
  | neg
  | mul
  | div
  | mod
  | exp
  | eq
  | neq
  | gt
  | lt
  | geq
  | leq
  | and
  | or
  | not
  | assign (combined : Bool)
  | tuple
  | chain
  | constant (value : Value)
  /-- A name that is assigned to. -/
  | target (name : String)
  | variable (name : String)
  | call (name : String)
deriving Inhabited

namespace Operator

/-- An operator of a higher precedence binds tighter. -/
def precedence : Operator → Nat
  | .group | .constant _ | .target _ | .variable _ => 200
  | .call _ => 190
  | .exp => 120
  | .neg | .not => 110
  | .mul | .div | .mod => 100
  | .add | .sub => 95
  | .eq | .neq | .gt | .lt | .geq | .leq => 80
  | .and => 75
  | .or => 70
  | .assign _ => 50
  | .tuple => 40
  | .chain => 0

/-- Whether a chain of operators of this precedence groups from the left. -/
def groupsLeft : Operator → Bool
  | .assign false | .call _ => false
  | _ => true

def isSequence : Operator → Bool
  | .tuple | .chain => true
  | _ => false

def isGroup : Operator → Bool
  | .group => true
  | _ => false

/-- Operators with one operand, which go to the right edge whatever stands there. -/
def isUnary : Operator → Bool
  | .neg | .not | .call _ => true
  | _ => false

/-- How many operands an operator takes; sequences take any number. -/
def operandCount? : Operator → Option Nat
  | .tuple | .chain => none
  | .group | .neg | .not | .call _ => some 1
  | .constant _ | .target _ | .variable _ => some 0
  | _ => some 2

def isLeaf (operator : Operator) : Bool := operator.operandCount? == some 0

/-- Whether an operator that stands below `upper` may go below it. -/
def goesBelow (upper lower : Operator) : Bool :=
  upper.precedence < lower.precedence || lower.isUnary ||
    (upper.precedence == lower.precedence && !upper.groupsLeft && !lower.groupsLeft)

end Operator

/-- An operator with its operands, newest first. -/
inductive Tree where
  | node (operator : Operator) (operands : List Tree)
deriving Inhabited

namespace Tree

def operator : Tree → Operator
  | .node operator _ => operator

def operands : Tree → List Tree
  | .node _ operands => operands

/-- An operator without operands. -/
def leaf (operator : Operator) : Tree := .node operator []

/-- An empty expression. -/
def blank : Tree := leaf .group

/-- Adds a tree as the newest operand. -/
def push : Tree → Tree → Tree
  | .node operator operands, operand => .node operator (operand :: operands)

/-- Places a new tree at the right edge of a tree. -/
def place : Tree → Tree → Except Fault Tree
  | .node operator operands, new =>
    if operator.isLeaf then .error .appendedToLeaf
    else if operator.operandCount? == some operands.length then
      match operands with
      | [] => .error .appendedToLeaf
      | last :: earlier =>
        if last.operator.goesBelow new.operator then
          match last.place new with
          | .ok last => .ok (.node operator (last :: earlier))
          | .error fault => .error fault
        else if new.operator.isLeaf then .error .appendedToLeaf
        else if operator.isGroup && (!earlier.isEmpty || new.operator.isGroup) then
          .error .juxtaposedParenthesis
        else if new.operator.isGroup && (!new.operands.isEmpty || last.operator.isGroup) then
          .error .juxtaposedParenthesis
        else .ok (.node operator (new.push last :: earlier))
    else .ok (.node operator (new :: operands))

end Tree

/-- The operator or constant a token stands for, given the tokens around it. -/
def operatorOf (token : Token) (next : Option Token) (afterValue : Bool) : Operator :=
  match token with
  | .plus => .add
  | .minus => if afterValue then .sub else .neg
  | .star => .mul
  | .slash => .div
  | .percent => .mod
  | .hat => .exp
  | .eq => .eq
  | .neq => .neq
  | .gt => .gt
  | .lt => .lt
  | .geq => .geq
  | .leq => .leq
  | .and => .and
  | .or => .or
  | .not => .not
  | .assign combined => .assign combined
  | .comma => .tuple
  | .semicolon => .chain
  | .constant value => .constant value
  | .name name =>
    match next with
    | none => .variable name
    | some next =>
      if next.isAssignment then .target name
      else if next.beginsValue then .call name
      else .variable name
  | .opening | .closing => .group

/-- Ends the sequences above the innermost open parenthesis. -/
def endSequences : List Tree → Except Fault (List Tree)
  | [] => .error .unopenedParenthesis
  | top :: below =>
    if top.operator.isSequence then go top below else .ok (top :: below)
where
  go (sequence : Tree) : List Tree → Except Fault (List Tree)
    | [] => .error .unopenedParenthesis
    | next :: below =>
      let joined := next.push sequence
      if joined.operator.isSequence then go joined below else .ok (joined :: below)

/-- Ends the trees that bind tighter than a new sequence.  Parentheses bind tighter, even the whole
expression, so there has to be a sequence that does not. -/
def endTighter (goal : Operator) (top : Tree) : List Tree → Except Fault (Tree × List Tree)
  | [] => .error .unopenedParenthesis
  | next :: below =>
    if next.operator.precedence > goal.precedence then endTighter goal (next.push top) below
    else .ok (top, next :: below)

/-- Begins or continues a sequence. -/
def placeSequence (operator : Operator) (top : Tree) (below : List Tree) :
    Except Fault (List Tree) :=
  if top.operator.isSequence && top.operator.precedence == operator.precedence then
    .ok (top.push Tree.blank :: below)
  else if top.operator.isGroup then
    .ok (((Tree.leaf operator).push top).push Tree.blank :: Tree.blank :: below)
  else if top.operator.precedence < operator.precedence then
    match top with
    | .node upper (last :: earlier) =>
      .ok (((Tree.leaf operator).push last).push Tree.blank :: .node upper earlier :: below)
    | .node upper [] => .ok ((Tree.leaf operator).push Tree.blank :: .node upper [] :: below)
  else do
    let (root, rest) ← endTighter operator top below
    return (Tree.leaf operator).push root :: rest

/-- Places a finished tree into the current one. -/
def placeTree (new : Tree) : List Tree → Except Fault (List Tree)
  | [] => .error .unopenedParenthesis
  | top :: below =>
    if new.operator.isSequence then placeSequence new.operator top below
    else if top.operator.isSequence then
      match top with
      | .node operator (last :: earlier) => do
        return .node operator ((← last.place new) :: earlier) :: below
      | .node operator [] => .ok (.node operator [new] :: below)
    else do return (← top.place new) :: below

/-- Takes in one token. -/
def placeToken (open_ : List Tree) (token : Token) (next : Option Token) (afterValue : Bool) :
    Except Fault (List Tree) :=
  match token with
  | .opening => .ok (Tree.blank :: open_)
  | .closing =>
    if open_.length ≤ 1 then .error .unopenedParenthesis
    else do
      match ← endSequences open_ with
      | group :: rest => placeTree group rest
      | [] => .error .unopenedParenthesis
  | token => placeTree (Tree.leaf (operatorOf token next afterValue)) open_

/-- Takes in tokens from left to right. -/
def placeTokens (open_ : List Tree) (afterValue : Bool) : List Token → Except Fault (List Tree)
  | [] => .ok open_
  | token :: rest => do
    let open_ ← placeToken open_ token rest.head? afterValue
    placeTokens open_ token.endsValue rest

/-- The tree of an expression. -/
def parse (expression : String) : Except Fault Tree := do
  let open_ ← placeTokens [Tree.blank] false (← tokens expression)
  match ← endSequences open_ with
  | [tree] => return tree
  | [] => .error .unopenedParenthesis
  | _ => .error .unclosedParenthesis

end Vetting.Formula
