import MappedSql.Expression.Order
import MappedSql.Scope

/-!
# Evaluating expressions

The grammar, from the loosest to the tightest binding:

    or         := and (or and)*
    and        := not (and not)*
    not        := not not | comparison
    comparison := primary (compare primary)?
    primary    := literal | path | ( or )

An expression is evaluated as its tokens are read, so of several faults the leftmost is
reported. Both operands of `and` and `or` are evaluated, and these and `not` yield truth
values; a single operand passes its value through. A path that leads nowhere yields null.
Each function takes the tokens from where its phrase starts and gives back the value of the
phrase with the tokens after it.
-/

namespace MappedSql.Expression

/-- The value of a phrase and the tokens after it, of which there are fewer. -/
abbrev Phrase (ts : List Token) :=
  Except Fault (Argument × { rest : List Token // rest.length < ts.length })

/-- The value of a phrase with what may follow it, and the tokens after both. -/
abbrev Tail (ts : List Token) :=
  Except Fault (Argument × { rest : List Token // rest.length ≤ ts.length })

def Token.operand? (b : Bindings) : Token → Option Argument
  | .path p => some ((Scope.lookup? b p).getD .null)
  | .int n => some (.ofInt n)
  | .double d => some (.value (.double d))
  | .text s => some (.ofText s)
  | .null => some .null
  | .boolean value => some (.ofBool value)
  | _ => none

mutual

def orPhrase (b : Bindings) (ts : List Token) : Phrase ts := do
  let (left, ⟨rest, h⟩) ← andPhrase b ts
  let (value, ⟨after, h'⟩) ← orTail b left rest
  return (value, ⟨after, by omega⟩)
termination_by (ts.length, 5)

def orTail (b : Bindings) (left : Argument) (ts : List Token) : Tail ts :=
  match ts with
  | .or :: rest => do
    let (right, ⟨after, h⟩) ← andPhrase b rest
    let (value, ⟨after', h'⟩) ← orTail b (.ofBool (left.isTruthy || right.isTruthy)) after
    return (value, ⟨after', by simp only [List.length_cons]; omega⟩)
  | ts => return (left, ⟨ts, Nat.le_refl _⟩)
termination_by (ts.length, 0)

def andPhrase (b : Bindings) (ts : List Token) : Phrase ts := do
  let (left, ⟨rest, h⟩) ← notPhrase b ts
  let (value, ⟨after, h'⟩) ← andTail b left rest
  return (value, ⟨after, by omega⟩)
termination_by (ts.length, 4)

def andTail (b : Bindings) (left : Argument) (ts : List Token) : Tail ts :=
  match ts with
  | .and :: rest => do
    let (right, ⟨after, h⟩) ← notPhrase b rest
    let (value, ⟨after', h'⟩) ← andTail b (.ofBool (left.isTruthy && right.isTruthy)) after
    return (value, ⟨after', by simp only [List.length_cons]; omega⟩)
  | ts => return (left, ⟨ts, Nat.le_refl _⟩)
termination_by (ts.length, 0)

def notPhrase (b : Bindings) (ts : List Token) : Phrase ts :=
  match ts with
  | .not :: rest => do
    let (value, ⟨after, h⟩) ← notPhrase b rest
    return (.ofBool !value.isTruthy, ⟨after, by simp only [List.length_cons]; omega⟩)
  | ts => comparisonPhrase b ts
termination_by (ts.length, 3)

def comparisonPhrase (b : Bindings) (ts : List Token) : Phrase ts := do
  let (left, ⟨rest, h⟩) ← primaryPhrase b ts
  match rest, h with
  | .compare op :: rest, h =>
    have h : rest.length < ts.length := Nat.lt_of_succ_lt h
    let (right, ⟨after, h'⟩) ← primaryPhrase b rest
    let holds ← compareBy op left right
    return (.ofBool holds, ⟨after, Nat.lt_trans h' h⟩)
  | rest, h => return (left, ⟨rest, h⟩)
termination_by (ts.length, 2)

def primaryPhrase (b : Bindings) (ts : List Token) : Phrase ts :=
  match ts with
  | [] => throw .unexpectedEnd
  | .opening :: rest => do
    let (value, ⟨after, h⟩) ← orPhrase b rest
    match after, h with
    | .closing :: after, h =>
      return (value, ⟨after, by simp only [List.length_cons] at h ⊢; omega⟩)
    | _, _ => throw .missingParenthesis
  | token :: rest =>
    match token.operand? b with
    | some value => return (value, ⟨rest, by simp⟩)
    | none => throw (.unexpectedToken token)
termination_by (ts.length, 1)

end

def evaluateTokens (b : Bindings) (ts : List Token) : Except Fault Argument := do
  let (value, ⟨rest, _⟩) ← orPhrase b ts
  if rest.isEmpty then return value else throw .trailingInput

def evaluate (b : Bindings) (expression : String) : Except Fault Argument := do
  evaluateTokens b (← tokens expression)

end MappedSql.Expression
