/-!
# Builtin procedures

The ten procedures that a fresh root frame binds: four that calculate, five that
compare, and one that gives back its last argument.
-/

namespace DecimalLisp

/-- What an arithmetic procedure does with two numbers. -/
inductive Operation where
  | add
  | subtract
  | multiply
  | divide
deriving DecidableEq, Repr

/-- What a comparing procedure asks of each two neighbours. -/
inductive Relation where
  | greater
  | less
  | atLeast
  | atMost
  | equal
deriving DecidableEq, Repr

/-- A builtin procedure. -/
inductive Builtin where
  /-- Calculates from left to right. -/
  | arithmetic (operation : Operation)
  /-- Compares neighbours. -/
  | comparison (relation : Relation)
  /-- Gives back its last argument. -/
  | sequence
deriving DecidableEq, Repr

namespace Operation

/-- The name an operation goes by. -/
def name : Operation → String
  | add => "+"
  | subtract => "-"
  | multiply => "*"
  | divide => "/"

end Operation

namespace Relation

/-- The name a relation goes by. -/
def name : Relation → String
  | greater => ">"
  | less => "<"
  | atLeast => ">="
  | atMost => "<="
  | equal => "="

end Relation

namespace Builtin

/-- The name a builtin is bound to. -/
def name : Builtin → String
  | arithmetic operation => operation.name
  | comparison relation => relation.name
  | sequence => "begin"

/-- All builtins, in the order in which they are bound. -/
def all : List Builtin :=
  [.arithmetic .add, .arithmetic .subtract, .arithmetic .multiply, .arithmetic .divide,
   .comparison .greater, .comparison .less, .comparison .atLeast, .comparison .atMost,
   .comparison .equal, .sequence]

/-- The builtin of a name. -/
def ofName? (name : String) : Option Builtin :=
  all.find? (·.name == name)

end Builtin

end DecimalLisp
