import TableQuery.Grammar

/-! The states of a reader: the sets of rules that may be under way after some symbols were read. -/
namespace TableQuery

/-- A rule under way: how many symbols of its body were read. -/
structure Item where
  rule : Nat
  read : Nat
  deriving Repr, DecidableEq

/-- A state: the items that led to it, all items with those that may begin here, and where each
symbol leads to. -/
structure ReaderState where
  kernel : List Item
  items : Array Item
  edges : List (Sym × Nat)

namespace NumberedGrammar

def expected? (g : NumberedGrammar) (item : Item) : Option Sym := (g.body item.rule)[item.read]?

def afterExpected (g : NumberedGrammar) (item : Item) : List Sym :=
  (g.body item.rule).drop (item.read + 1)

/-- The items with those that may begin at one of them, in the order in which they are met. -/
def closeItems (g : NumberedGrammar) : Nat → Nat → Array Item → List Nat → Array Item
  | 0, _, items, _ => items
  | fuel + 1, i, items, opened =>
    match items[i]? with
    | none => items
    | some item =>
      match g.expected? item with
      | some (.nonterminal n) =>
        if opened.contains n then closeItems g fuel (i + 1) items opened
        else
          let fresh := ((g.rulesOf[n]?.getD []).map fun rule => Item.mk rule 0).toArray
          closeItems g fuel (i + 1) (items ++ fresh) (n :: opened)
      | _ => closeItems g fuel (i + 1) items opened

/-- All items of a state. There are at most as many as the kernel and the rules together. -/
def closure (g : NumberedGrammar) (kernel : List Item) : Array Item :=
  g.closeItems (kernel.length + g.rules.size + 1) 0 kernel.toArray []

def expectedSyms (g : NumberedGrammar) (items : Array Item) : List Sym :=
  (items.foldl (fun (seen : Array Sym) item =>
    match g.expected? item with
    | some x => if seen.contains x then seen else seen.push x
    | none => seen) #[]).toList

def kernelAfter (g : NumberedGrammar) (items : Array Item) (x : Sym) : List Item :=
  (items.filter fun item => g.expected? item == some x).toList.map fun item =>
    { item with read := item.read + 1 }

/-- The kernels known so far, with the symbol that leads to each, and where the symbols of one state
lead to. -/
def addEdges (g : NumberedGrammar) (items : Array Item) (kernels : Array (List Item)) :
    List Sym → Array (List Item) × List (Sym × Nat)
  | [] => (kernels, [])
  | x :: rest =>
    let kernel := g.kernelAfter items x
    match kernels.idxOf? kernel with
    | some target =>
      let (kernels, edges) := addEdges g items kernels rest
      (kernels, (x, target) :: edges)
    | none =>
      let target := kernels.size
      let (kernels, edges) := addEdges g items (kernels.push kernel) rest
      (kernels, (x, target) :: edges)

/-- The states of the kernels from a number on, and of all that are met on the way. -/
def exploreFrom (g : NumberedGrammar) :
    Nat → Array (List Item) → Array ReaderState → Array ReaderState
  | 0, _, states => states
  | fuel + 1, kernels, states =>
    match kernels[states.size]? with
    | none => states
    | some kernel =>
      let items := g.closure kernel
      let (kernels, edges) := g.addEdges items kernels (g.expectedSyms items)
      exploreFrom g fuel kernels (states.push { kernel, items, edges })

def stateBound : Nat := 5000

def states (g : NumberedGrammar) : Array ReaderState :=
  g.exploreFrom stateBound #[[{ rule := 0, read := 0 }]] #[]

end NumberedGrammar

end TableQuery
