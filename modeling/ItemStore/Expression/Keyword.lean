/-
The four actions of an update expression and the operands listed under each.
-/

namespace ItemStore

/-- The action of a clause of an update expression. -/
inductive Keyword
  | set | add | remove | delete
  deriving DecidableEq, Repr

namespace Keyword

/-- The order in which clauses are written. -/
def all : List Keyword :=
  [set, add, remove, delete]

def text : Keyword → String
  | set => "SET"
  | add => "ADD"
  | remove => "REMOVE"
  | delete => "DELETE"

/-- The keyword that a word spells; case counts. -/
def ofWord? (word : String) : Option Keyword :=
  all.find? fun k => k.text = word

end Keyword

/-- The operands of each action, in order. -/
structure Clauses where
  set : List String := []
  add : List String := []
  remove : List String := []
  delete : List String := []
  deriving DecidableEq, Repr

namespace Clauses

instance : EmptyCollection Clauses := ⟨{}⟩

/-- The operands of an action. -/
def operands (c : Clauses) : Keyword → List String
  | .set => c.set
  | .add => c.add
  | .remove => c.remove
  | .delete => c.delete

/-- Puts an operand after those the action has. -/
def push (c : Clauses) (k : Keyword) (operand : String) : Clauses :=
  match k with
  | .set => { c with set := c.set ++ [operand] }
  | .add => { c with add := c.add ++ [operand] }
  | .remove => { c with remove := c.remove ++ [operand] }
  | .delete => { c with delete := c.delete ++ [operand] }

/-- The action has a clause: one begins only with an operand. -/
def contains (c : Clauses) (k : Keyword) : Bool :=
  !(c.operands k).isEmpty

def isEmpty (c : Clauses) : Bool :=
  Keyword.all.all fun k => (c.operands k).isEmpty

/-- One clause per keyword that has operands, separated by spaces. -/
def render (clauses : List (Keyword × List String)) : String :=
  " ".intercalate <|
    (clauses.filter fun c => !c.2.isEmpty).map fun c => c.1.text ++ " " ++ ", ".intercalate c.2

/-- The text of an update expression: the clauses in their fixed order. -/
def statement (c : Clauses) : String :=
  render (Keyword.all.map fun k => (k, c.operands k))

@[simp] theorem operands_push (c : Clauses) (k k' : Keyword) (operand : String) :
    (c.push k operand).operands k' =
      c.operands k' ++ (if k' = k then [operand] else []) := by
  cases k <;> cases k' <;> simp [push, operands]

end Clauses

end ItemStore
