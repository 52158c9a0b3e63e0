import TableQuery.Grammar.Lookahead

/-! The table of a reader: what to do in a state when a terminal is seen. Where a rule could end and
a terminal could also be read on, precedence decides. -/
namespace TableQuery

inductive Move where
  /-- The terminal is read and leads to a state. -/
  | shift (state : Nat)
  /-- A rule ends. -/
  | reduce (rule : Nat)
  /-- Precedence forbids to go on. -/
  | refuse
  deriving Repr, DecidableEq

structure MoveRow where
  moves : List (Nat × Move)
  gotos : List (Nat × Nat)
  /-- The rule that ends here whatever comes next, because nothing else can be done. -/
  always? : Option Nat
  deriving Repr

structure MoveTable where
  terminals : Array String
  rules : Array NumberedRule
  rows : Array MoveRow

def setMove (moves : List (Nat × Move)) (terminal : Nat) (move : Move) : List (Nat × Move) :=
  match moves with
  | [] => [(terminal, move)]
  | (t, m) :: rest =>
    if t == terminal then (t, move) :: rest else (t, m) :: setMove rest terminal move

namespace NumberedGrammar

def settle (g : NumberedGrammar) (terminal rule target : Nat) : Move :=
  let shift := g.precedences[terminal]?.getD {}
  let reduce := (g.rules[rule]?.map (·.precedence)).getD {}
  if shift.level < reduce.level then .reduce rule
  else if shift.level == reduce.level then
    match reduce.assoc with
    | .left => .reduce rule
    | .right => .shift target
    | .none => .refuse
  else .shift target

/-- Of two rules that could end, the one of lower rank; of equals the first. -/
def lowerRank (g : NumberedGrammar) (rule other : Nat) : Nat :=
  let rank (r : Nat) : Nat := (g.rules[r]?.map (·.rank)).getD 0
  if rank rule > rank other then other else rule

def addReduce (g : NumberedGrammar) (moves : List (Nat × Move)) (terminal rule : Nat) :
    List (Nat × Move) :=
  match moves.lookup terminal with
  | some (.shift target) => setMove moves terminal (g.settle terminal rule target)
  | some (.reduce other) => setMove moves terminal (.reduce (g.lowerRank other rule))
  | _ => setMove moves terminal (.reduce rule)

def addShift (g : NumberedGrammar) (moves : List (Nat × Move)) (terminal target : Nat) :
    List (Nat × Move) :=
  match moves.lookup terminal with
  | some (.reduce rule) => setMove moves terminal (g.settle terminal rule target)
  | some (.shift _) => moves
  | _ => setMove moves terminal (.shift target)

def addItem (g : NumberedGrammar) (state : ReaderState) (moves : List (Nat × Move)) (item : Item)
    (followers : TerminalSet) : List (Nat × Move) :=
  match g.expected? item with
  | some (.terminal t) =>
    match state.edges.lookup (.terminal t) with
    | some target => g.addShift moves t target
    | none => moves
  | some (.nonterminal _) => moves
  | none =>
    ((List.range g.terminals.size).filter followers.holds).foldl
      (fun moves t => g.addReduce moves t item.rule) moves

def row (g : NumberedGrammar) (starts : Starts) (state : ReaderState)
    (kernel : List TerminalSet) : MoveRow :=
  let sets := g.itemFollowers starts state kernel
  let moves := (state.items.toList.zip sets).foldl
    (fun moves (item, set) => g.addItem state moves item set) []
  { moves
    gotos := state.edges.filterMap fun (x, target) =>
      match x with
      | .nonterminal n => some (n, target)
      | .terminal _ => none
    always? :=
      match moves with
      | [(_, .reduce rule)] => if rule == 0 then none else some rule
      | _ => none }

end NumberedGrammar

def Grammar.table (grammar : Grammar) : MoveTable :=
  let g := grammar.numbered
  let starts := g.starts
  let states := g.states
  let followers := g.followers starts states
  { terminals := g.terminals
    rules := g.rules
    rows := ((List.range states.size).map fun i =>
      match states[i]? with
      | some state => g.row starts state (followers[i]?.getD [])
      | none => { moves := [], gotos := [], always? := none }).toArray }

end TableQuery
