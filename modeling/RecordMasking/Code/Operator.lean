/-!
# Operators

How tightly the binary operators of code bind.  An operand belongs to the
tighter one of its neighbours; of two equally tight ones it belongs to the
left one, but for assignments, which group to the right.
-/

namespace RecordMasking.Code

/-- Kinds of operators, from the loosest to the tightest. -/
inductive Precedence where
  /-- Of no operator. -/
  | loosest
  | assignment
  | range
  | disjunction
  | conjunction
  | binding
  | comparison
  | bitOr
  | bitXor
  | bitAnd
  | shift
  | sum
  | product
  | cast
deriving DecidableEq, Repr

namespace Precedence

def rank : Precedence → Nat
  | .loosest => 0
  | .assignment => 1
  | .range => 2
  | .disjunction => 3
  | .conjunction => 4
  | .binding => 5
  | .comparison => 6
  | .bitOr => 7
  | .bitXor => 8
  | .bitAnd => 9
  | .shift => 10
  | .sum => 11
  | .product => 12
  | .cast => 13

/-- Whether an operator may stand in a term whose operators bind at least as
tightly as a base. -/
def admits (base precedence : Precedence) : Bool :=
  base.rank ≤ precedence.rank

/-- Whether the operand between two operators belongs to the second one. -/
def yieldsTo (first second : Precedence) : Bool :=
  first.rank < second.rank ||
    (first = .assignment && second = .assignment)

end Precedence

/-- The binary operators but for the plain assignment, ranges and casts;
longer ones stand before those that begin them. -/
def operators : List (String × Precedence) :=
  [("+=", .assignment), ("-=", .assignment), ("*=", .assignment),
    ("/=", .assignment), ("%=", .assignment), ("^=", .assignment),
    ("&=", .assignment), ("|=", .assignment), ("<<=", .assignment),
    (">>=", .assignment), ("&&", .conjunction), ("||", .disjunction),
    ("<<", .shift), (">>", .shift), ("==", .comparison), ("<=", .comparison),
    ("!=", .comparison), (">=", .comparison), ("+", .sum), ("-", .sum),
    ("*", .product), ("/", .product), ("%", .product), ("^", .bitXor),
    ("&", .bitAnd), ("|", .bitOr), ("<", .comparison), (">", .comparison)]

end RecordMasking.Code
