import TableQuery.Text.Blank
import TableQuery.Text.Word

/-! Patterns for texts, and where they can end. A pattern started at one place of a text may end at
several; `ends` computes all of them, so that a match is found whenever there is one. -/
namespace TableQuery.Text

inductive ClassItem where
  | range (low high : Char)
  | digit (positive : Bool)
  | word (positive : Bool)
  | blank (positive : Bool)
  deriving Repr, DecidableEq

def ClassItem.holds (c : Char) : ClassItem → Bool
  | .range low high => low ≤ c && c ≤ high
  | .digit positive => (digitValue? c).isSome == positive
  | .word positive => isWord c == positive
  | .blank positive => isBlank c == positive

inductive Pattern where
  | empty
  /-- One character in, or not in, a class. -/
  | oneOf (negated : Bool) (items : List ClassItem)
  /-- Any character but a line end. -/
  | any
  | both (first second : Pattern)
  | either (first second : Pattern)
  /-- So many times, at most so many if a bound is given. -/
  | repeated (body : Pattern) (least : Nat) (most : Option Nat)
  | start
  /-- The end, or before a line end that is the last character. -/
  | finish
  | veryEnd
  /-- Between a word and something else, or not so. -/
  | wordEdge (positive : Bool)
  /-- What follows matches, or does not. -/
  | ahead (positive : Bool) (body : Pattern)
  deriving Repr

/-- A place in a text: the character before it and what follows. -/
structure Place where
  before : Option Char
  rest : List Char
  deriving DecidableEq

namespace Pattern

def advance (p : Place) (accepts : Char → Bool) : List Place :=
  match p.rest with
  | [] => []
  | c :: rest => if accepts c then [⟨some c, rest⟩] else []

def distinct (places : List Place) : List Place :=
  places.foldl
    (fun seen p =>
      if seen.any fun q => q.rest.length == p.rest.length then seen else seen ++ [p]) []

def reach (step : Place → List Place) : Nat → List Place → List Place
  | 0, places => places
  | rounds + 1, places => distinct (places ++ (reach step rounds places).flatMap step)

def rounds (step : Place → List Place) : Nat → List Place → List Place
  | 0, places => places
  | n + 1, places => rounds step n (distinct (places.flatMap step))

def atWordEdge (p : Place) : Bool :=
  let left := match p.before with | some c => isWord c | none => false
  let right := match p.rest with | c :: _ => isWord c | [] => false
  left != right

def ends : Pattern → Place → List Place
  | .empty, p => [p]
  | .oneOf negated items, p => advance p fun c => (items.any (ClassItem.holds c)) != negated
  | .any, p => advance p (· != '\n')
  | .both a b, p => distinct ((ends a p).flatMap (ends b))
  | .either a b, p => distinct (ends a p ++ ends b p)
  | .repeated body least most, p =>
    let start := rounds (ends body) least [p]
    let further := match most with
      | some m => min (m - least) (p.rest.length + 1)
      | none => p.rest.length + 1
    reach (ends body) further start
  | .start, p => if p.before.isNone then [p] else []
  | .finish, p => if p.rest.isEmpty || p.rest == ['\n'] then [p] else []
  | .veryEnd, p => if p.rest.isEmpty then [p] else []
  | .wordEdge positive, p => if atWordEdge p == positive then [p] else []
  | .ahead positive body, p => if (ends body p).isEmpty != positive then [p] else []

def matchesStart (pattern : Pattern) (s : String) : Bool :=
  !(pattern.ends ⟨none, s.toList⟩).isEmpty

end Pattern

end TableQuery.Text
