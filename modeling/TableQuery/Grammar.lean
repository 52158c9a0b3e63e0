/-! Grammars whose conflicts are settled by precedence. Rules are written with names; the tables of
a grammar are made from its numbered form, where a terminal or a nonterminal is a number. -/
namespace TableQuery

inductive Assoc where
  | left
  | right
  | none
  deriving Repr, DecidableEq

structure Precedence where
  assoc : Assoc := .right
  level : Nat := 0
  deriving Repr, DecidableEq

/-- A rule: the head may be made of the symbols of the body. -/
structure Rule where
  head : String
  body : List String
  /-- The name whose precedence the rule has, if it is not that of its last terminal. -/
  binding : Option String := none
  /-- Of two rules that fit, the one of lower rank is taken. -/
  rank : Nat
  deriving Repr, DecidableEq

/-- A grammar. The names that are no rule's head are its terminals. -/
structure Grammar where
  start : String
  rules : List Rule
  /-- The precedences, the weakest first. -/
  levels : List (Assoc × List String)

inductive Sym where
  | terminal (i : Nat)
  | nonterminal (i : Nat)
  deriving Repr, DecidableEq

structure NumberedRule where
  head : Nat
  body : List Sym
  precedence : Precedence
  rank : Nat
  deriving Repr

def distinctNames (names : List String) : List String :=
  (names.foldl (fun (seen : Array String) n => if seen.contains n then seen else seen.push n)
    #[]).toList

/-- A grammar by number. Terminal 0 is the end of the text, rule 0 makes the whole text from the
start symbol. -/
structure NumberedGrammar where
  terminals : Array String
  nonterminals : Array String
  rules : Array NumberedRule
  /-- The rules of each nonterminal, in order. -/
  rulesOf : Array (List Nat)
  /-- The precedence of each terminal. -/
  precedences : Array Precedence

namespace Grammar

def precedenceOf (g : Grammar) (name : String) : Precedence :=
  match g.levels.findIdx? (fun level => level.2.contains name) with
  | some i => { assoc := (g.levels[i]?.map Prod.fst).getD .right, level := i + 1 }
  | none => {}

def numbered (g : Grammar) : NumberedGrammar :=
  let heads := distinctNames ("" :: g.rules.map (·.head))
  let terminals :=
    distinctNames ("" :: (g.rules.flatMap (·.body)).filter fun name => !heads.contains name)
  let symbol (name : String) : Sym :=
    match heads.idxOf? name with
    | some i => .nonterminal i
    | none => .terminal (terminals.idxOf name)
  let number (r : Rule) : NumberedRule :=
    let name := r.binding.or (r.body.reverse.find? fun name => !heads.contains name)
    { head := heads.idxOf r.head
      body := r.body.map symbol
      precedence := (name.map g.precedenceOf).getD {}
      rank := r.rank }
  let whole : NumberedRule := { head := 0, body := [symbol g.start], precedence := {}, rank := 0 }
  let rules := (whole :: g.rules.map number).toArray
  { terminals := terminals.toArray
    nonterminals := heads.toArray
    rules
    rulesOf := ((List.range heads.length).map fun head =>
      (List.range rules.size).filter fun i => rules[i]?.any fun r => r.head == head).toArray
    precedences := (terminals.map g.precedenceOf).toArray }

end Grammar

namespace NumberedGrammar

def body (g : NumberedGrammar) (rule : Nat) : List Sym := (g.rules[rule]?.map (·.body)).getD []

def head (g : NumberedGrammar) (rule : Nat) : Nat := (g.rules[rule]?.map (·.head)).getD 0

end NumberedGrammar

end TableQuery
