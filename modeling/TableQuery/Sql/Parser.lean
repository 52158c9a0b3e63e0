import TableQuery.Sql.Rules
import TableQuery.Sql.Token

/-! Reading a query. The reader keeps a stack of states, each with what was made of the part that
led to it. It looks at the next token only where the state leaves a choice. -/
namespace TableQuery.Sql

structure Reader where
  /-- The states and parts read so far, the latest first. Under them is the first state. -/
  stack : List (Nat × Attr) := []
  source : Source
  /-- The token that was looked at and not read yet; at the end of the text there is none. -/
  ahead : Option (Option Token) := none

inductive Progress where
  | more (reader : Reader)
  | done (node : Node)

namespace Reader

def state (r : Reader) : Nat := (r.stack.head?.map Prod.fst).getD 0

def row (r : Reader) : MoveRow :=
  table.rows[r.state]?.getD { moves := [], gotos := [], always? := none }

/-- Ends a rule: its parts come off the stack and what is made of them goes on it. -/
def reduce (r : Reader) (rule : Nat) : Except Fault Reader := do
  match table.rules[rule]? with
  | none => throw .failure
  | some numbered =>
    let n := numbered.body.length
    let value ← build (builds[rule]?.getD .nothing) ((r.stack.take n).reverse.map Prod.snd)
    let below : Reader := { r with stack := r.stack.drop n }
    match below.row.gotos.lookup numbered.head with
    | some target => return { below with stack := (target, value) :: below.stack }
    | none => throw .failure

def look (r : Reader) : Except Fault (Reader × Option Token) := do
  match r.ahead with
  | some token => return (r, token)
  | none =>
    match ← r.source.next with
    | some (token, rest) =>
      return ({ r with source := rest, ahead := some (some token) }, some token)
    | none => return ({ r with ahead := some none }, none)

def unexpected : Option Token → Fault
  | some token => .syntactic (.unexpected token.kind token.text)
  | none => .syntactic .unexpectedEnd

def terminalOf : Option Token → Option Nat
  | some token => table.terminals.idxOf? token.kind
  | none => some 0

/-- One step: a token is read, or a rule ends. -/
def step (r : Reader) : Except Fault Progress := do
  match r.row.always? with
  | some rule => return .more (← r.reduce rule)
  | none =>
    let (r, token) ← r.look
    match (terminalOf token).bind fun t => r.row.moves.lookup t with
    | some (.shift state) =>
      let value := (token.map fun t => Attr.text t.text).getD .nothing
      return .more { r with stack := (state, value) :: r.stack, ahead := none }
    | some (.reduce 0) =>
      match r.stack with
      | (_, .node n) :: _ => return .done n
      | _ => throw .failure
    | some (.reduce rule) => return .more (← r.reduce rule)
    | _ => throw (unexpected token)

def run : Nat → Reader → Except Fault Node
  | 0, _ => .error .failure
  | fuel + 1, r => do
    match ← r.step with
    | .more next => run fuel next
    | .done n => return n

end Reader

/-- The node of a query's text. The bound on the steps leaves room for all rules between two tokens.
-/
def parse (text : String) : Except Fault Node :=
  Reader.run (64 * (text.length + 2) + 1000) { source := Source.ofString text }

end TableQuery.Sql
