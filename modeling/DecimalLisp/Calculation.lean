import DecimalLisp.Decimal.Arithmetic
import DecimalLisp.Decimal.Order
import DecimalLisp.Fault

/-!
# Calculation

What the builtin procedures give for their arguments. Arithmetic folds its arguments
from the left and rounds after each step; the arguments themselves are taken exactly.
Comparison holds when it holds between each two neighbours. Arguments that are no
numbers are found first, then a wrong number of them.
-/

namespace DecimalLisp

namespace Operation

/-- The operation on two numbers, rounded. -/
def run (p : Precision) : Operation → Decimal → Decimal → Except ArithmeticFault Decimal
  | add => Decimal.add p
  | subtract => Decimal.subtract p
  | multiply => Decimal.multiply p
  | divide => Decimal.divide p

/-- The operation from left to right, up to the first step that fails. -/
def fold (p : Precision) (operation : Operation) :
    Decimal → List Decimal → Except ArithmeticFault Decimal
  | total, [] => .ok total
  | total, x :: rest =>
    match operation.run p total x with
    | .ok next => fold p operation next rest
    | .error fault => .error fault

/-- Where a fold over numbers starts and what it runs over. Sums and products start from
the number that changes nothing. So do differences and quotients of one number, which
are its negative and its reciprocal; others start from the first number. There are no
differences and quotients of no numbers. -/
def operands? : Operation → List Decimal → Option (Decimal × List Decimal)
  | add, xs => some (.ofNat 0, xs)
  | multiply, xs => some (.ofNat 1, xs)
  | subtract, [x] => some (.ofNat 0, [x])
  | divide, [x] => some (.ofNat 1, [x])
  | subtract, x :: rest => some (x, rest)
  | divide, x :: rest => some (x, rest)
  | subtract, [] => none
  | divide, [] => none

/-- The operation on any number of numbers. -/
def calculate (p : Precision) (operation : Operation) (xs : List Decimal) :
    Except Fault Decimal :=
  match operation.operands? xs with
  | none => .error (.tooFew (.arithmetic operation) 1)
  | some (start, rest) =>
    match operation.fold p start rest with
    | .ok result => .ok result
    | .error fault => .error (.arithmetic fault)

end Operation

namespace Relation

/-- Whether the relation holds between two numbers. -/
def holds (relation : Relation) (x y : Decimal) : Bool :=
  match relation, x.compareValue y with
  | greater, .gt => true
  | less, .lt => true
  | atLeast, .gt => true
  | atLeast, .eq => true
  | atMost, .lt => true
  | atMost, .eq => true
  | equal, .eq => true
  | _, _ => false

/-- Whether the relation holds between each two neighbours. -/
def chain (relation : Relation) : List Decimal → Bool
  | x :: y :: rest => relation.holds x y && chain relation (y :: rest)
  | _ => true

end Relation

namespace Builtin

/-- The numbers that all values are, or the first value that is none. -/
def numbers : List Value → Except Fault (List Decimal)
  | [] => .ok []
  | value :: rest =>
    match value.number? with
    | some x =>
      match numbers rest with
      | .ok xs => .ok (x :: xs)
      | .error fault => .error fault
    | none => .error (.notNumber value)

/-- The last of several arguments; without any the procedure has too few. -/
def last (procedure : Builtin) (least : Nat) (arguments : List Value) : Except Fault Value :=
  match arguments.getLast? with
  | some value => .ok value
  | none => .error (.tooFew procedure least)

/-- What a builtin procedure gives for its arguments. A comparison that holds gives its
last argument as it is, and the empty list if it does not hold. -/
def apply (p : Precision) : Builtin → List Value → Except Fault Value
  | .arithmetic operation, arguments =>
    match numbers arguments with
    | .error fault => .error fault
    | .ok xs =>
      match operation.calculate p xs with
      | .ok result => .ok (.number result)
      | .error fault => .error fault
  | .comparison relation, arguments =>
    match numbers arguments with
    | .error fault => .error fault
    | .ok xs =>
      if xs.length < 2 then .error (.tooFew (.comparison relation) 2)
      else if relation.chain xs then last (.comparison relation) 2 arguments
      else .ok .nil
  | .sequence, arguments => last .sequence 1 arguments

end Builtin

end DecimalLisp
