/-
Reading the text of an update expression.

The text is gone through piece by piece, a piece being a maximal run of word characters or
any other single character.  Outside parentheses a comma ends an operand, and a keyword
ends a clause and begins the next; the rest is text of the current operand.  A keyword
glued to what stands before it, `#SET` or `a.SET`, is such text.  Every operand must have
something in it, and is kept without the blanks around it.
-/
import ItemStore.Error
import ItemStore.Text.Alphanumeric
import ItemStore.Text.Blank

namespace ItemStore

namespace ClauseText

/-- Cuts characters into maximal runs of word characters and other single characters. -/
def pieces : List Char → List (List Char)
  | [] => []
  | c :: cs =>
    match pieces cs with
    | (d :: ds) :: rest =>
      if Text.isWordLike c && Text.isWordLike d then (c :: d :: ds) :: rest
      else [c] :: (d :: ds) :: rest
    | rest => [c] :: rest

/-- How far the reading has come. -/
structure State where
  /-- The number of characters read. -/
  position : Nat := 0
  /-- The last character read. -/
  previous : Option Char := none
  /-- The number of parentheses open. -/
  depth : Nat := 0
  /-- The clause begun, and what has been read of its current operand. -/
  current : Option (Keyword × List Char) := none
  /-- The operands that are complete. -/
  clauses : Clauses := ∅

namespace State

/-- Takes text into the current operand; before the first clause only blanks may stand. -/
def take (s : State) (cs : List Char) : Except Error State :=
  match s.current with
  | some (k, operand) => .ok { s with current := some (k, operand ++ cs) }
  | none =>
    if cs.all Text.isBlank then .ok s
    else .error (.expression (.leadingText (.ofList cs)))

/-- Completes the current operand. -/
def finishOperand (s : State) : Except Error State :=
  match s.current with
  | none => .error (.expression .leadingComma)
  | some (k, operand) =>
    let trimmed := Text.trimChars operand
    if trimmed.isEmpty then .error (.expression (.emptyOperand k))
    else .ok { s with
      current := some (k, [])
      clauses := s.clauses.push k (.ofList trimmed) }

/-- Completes the clause begun, if there is one. -/
def finishClause (s : State) : Except Error State :=
  if s.current.isSome then s.finishOperand else .ok s

/-- The characters after which a word is never a keyword. -/
def glues (c : Char) : Bool :=
  c == '#' || c == ':' || c == '.'

/-- The keyword that a piece is where it stands. -/
def keyword? (s : State) (piece : List Char) : Option Keyword :=
  if s.depth = 0 && !s.previous.any glues then Keyword.ofWord? (.ofList piece) else none

/-- What a piece does. -/
def act (s : State) (piece : List Char) : Except Error State :=
  match s.keyword? piece, piece with
  | some k, _ => do return { ← s.finishClause with current := some (k, []) }
  | none, ['('] => do return { ← s.take piece with depth := s.depth + 1 }
  | none, [')'] =>
    if s.depth = 0 then .error (.expression (.unbalancedClose s.position))
    else do return { ← s.take piece with depth := s.depth - 1 }
  | none, [','] => if s.depth = 0 then s.finishOperand else s.take piece
  | none, _ => s.take piece

/-- Reads one piece. -/
def step (s : State) (piece : List Char) : Except Error State := do
  let s' ← s.act piece
  return { s' with
    position := s.position + piece.length
    previous := piece.getLast? }

/-- What has been read when the text is over. -/
def finish (s : State) : Except Error Clauses :=
  if 0 < s.depth then .error (.expression .unbalancedOpen)
  else do return (← s.finishClause).clauses

end State

end ClauseText

/-- Reads the clauses of an update expression. -/
def Clauses.read (text : String) : Except Error Clauses := do
  (← (ClauseText.pieces text.toList).foldlM ClauseText.State.step {}).finish

end ItemStore
