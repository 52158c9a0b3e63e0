/-! A cache of the latest answers. A question that was asked before gets the same answer; when there
is no room the answer that was not asked for longest is dropped. -/
namespace TableQuery

inductive Cache (α : Type) where
  /-- Answers are kept, the latest first, at most so many if there is a bound. -/
  | memory (bound : Option Nat) (kept : List (Nat × α)) (hits misses : Nat)
  /-- There are no answers at all. -/
  | nothing

namespace Cache

variable {α : Type}

def fresh (bound : Option Nat) : Cache α := .memory bound [] 0 0

def limit (bound : Option Nat) (kept : List (Nat × α)) : List (Nat × α) :=
  match bound with
  | some n => kept.take n
  | none => kept

/-- Asks for a key. The outcome is the kept answer, if there is one, and the cache with the question
counted. -/
def ask (key : Nat) : Cache α → Option α × Cache α
  | .memory bound kept hits misses =>
    match kept.lookup key with
    | some a =>
      (some a, .memory bound ((key, a) :: kept.filter fun k => k.1 != key) (hits + 1) misses)
    | none => (none, .memory bound kept hits (misses + 1))
  | .nothing => (none, .nothing)

def keep (key : Nat) (a : α) : Cache α → Cache α
  | .memory bound kept hits misses => .memory bound (limit bound ((key, a) :: kept)) hits misses
  | .nothing => .nothing

def clear : Cache α → Cache α
  | .memory bound _ _ _ => fresh bound
  | .nothing => .nothing

end Cache

end TableQuery
