import TableQuery.Grammar

/-! Which terminals can begin a text of a nonterminal. A set of terminals is a number whose bits are
its members. -/
namespace TableQuery

abbrev TerminalSet := Nat

def TerminalSet.single (i : Nat) : TerminalSet := 1 <<< i

def TerminalSet.holds (s : TerminalSet) (i : Nat) : Bool := Nat.testBit s i

/-- What can begin the text of a symbol, and whether the text can be empty. -/
structure Start where
  first : TerminalSet := 0
  empty : Bool := false
  deriving Repr, DecidableEq

abbrev Starts := Array Start

def Starts.ofSym (starts : Starts) : Sym → Start
  | .terminal i => { first := TerminalSet.single i }
  | .nonterminal i => starts[i]?.getD {}

def Starts.ofSyms (starts : Starts) : List Sym → Start
  | [] => { empty := true }
  | x :: rest =>
    let here := starts.ofSym x
    if here.empty then
      let later := starts.ofSyms rest
      { first := here.first ||| later.first, empty := later.empty }
    else here

namespace NumberedGrammar

def growStarts (g : NumberedGrammar) (starts : Starts) : Starts :=
  g.rules.foldl (fun starts r =>
    let found := starts.ofSyms r.body
    starts.modify r.head fun s =>
      { first := s.first ||| found.first, empty := s.empty || found.empty }) starts

def settleStarts (g : NumberedGrammar) : Nat → Starts → Starts
  | 0, starts => starts
  | fuel + 1, starts =>
    let grown := g.growStarts starts
    if grown == starts then starts else settleStarts g fuel grown

/-- The starts of the nonterminals. No shortest derivation is longer than there are nonterminals. -/
def starts (g : NumberedGrammar) : Starts :=
  let n := g.nonterminals.size
  g.settleStarts (n + 1) (Array.replicate n {})

end NumberedGrammar

end TableQuery
