import TableQuery.Grammar.First
import TableQuery.Grammar.State

/-! Which terminals can follow a rule in a state. A rule that is under way takes what can follow it
along from the state where it began. -/
namespace TableQuery

abbrev Followers := Array (List TerminalSet)

namespace NumberedGrammar

/-- What can follow the nonterminals that begin in a state, after one more look at the items. -/
def growOpened (g : NumberedGrammar) (starts : Starts) (items : List Item)
    (kernel : List TerminalSet) (opened : Array TerminalSet) : Array TerminalSet :=
  match items with
  | [] => opened
  | item :: rest =>
    let (own, kernel) :=
      match kernel with
      | own :: kernel => (own, kernel)
      | [] => (opened[g.head item.rule]?.getD 0, [])
    let opened :=
      match g.expected? item with
      | some (.nonterminal n) =>
        let later := starts.ofSyms (g.afterExpected item)
        let given := if later.empty then later.first ||| own else later.first
        opened.modify n (· ||| given)
      | _ => opened
    growOpened g starts rest kernel opened

def settleOpened (g : NumberedGrammar) (starts : Starts) (items : List Item)
    (kernel : List TerminalSet) : Nat → Array TerminalSet → Array TerminalSet
  | 0, opened => opened
  | fuel + 1, opened =>
    let grown := g.growOpened starts items kernel opened
    if grown == opened then opened else settleOpened g starts items kernel fuel grown

/-- What can follow each item of a state, given what can follow those of its kernel. -/
def itemFollowers (g : NumberedGrammar) (starts : Starts) (state : ReaderState)
    (kernel : List TerminalSet) : List TerminalSet :=
  let items := state.items.toList
  let n := g.nonterminals.size
  let opened := g.settleOpened starts items kernel (n + 1) (Array.replicate n 0)
  kernel ++ (items.drop kernel.length).map fun item => opened[g.head item.rule]?.getD 0

def passOn (g : NumberedGrammar) (starts : Starts) (followers : Followers) (number : Nat)
    (state : ReaderState) : Followers :=
  let own := g.itemFollowers starts state (followers[number]?.getD [])
  let tagged := (state.items.toList.map g.expected?).zip own
  state.edges.foldl (fun followers (x, target) =>
    let given := tagged.filterMap fun (y, set) => if y == some x then some set else none
    followers.modify target fun sets => sets.zipWith (· ||| ·) given) followers

def growFollowers (g : NumberedGrammar) (starts : Starts) (states : Array ReaderState)
    (followers : Followers) : Followers :=
  (List.range states.size).foldl (fun followers i =>
    match states[i]? with
    | some state => g.passOn starts followers i state
    | none => followers) followers

def settleFollowers (g : NumberedGrammar) (starts : Starts) (states : Array ReaderState) :
    Nat → Followers → Followers
  | 0, followers => followers
  | fuel + 1, followers =>
    let grown := g.growFollowers starts states followers
    if grown == followers then followers else settleFollowers g starts states fuel grown

/-- What can follow each item of each kernel. The whole text is followed by its end. -/
def followers (g : NumberedGrammar) (starts : Starts) (states : Array ReaderState) : Followers :=
  let none := states.map fun state => state.kernel.map fun _ => (0 : TerminalSet)
  g.settleFollowers starts states (states.size + 1) (none.modify 0 fun _ => [TerminalSet.single 0])

end NumberedGrammar

end TableQuery
