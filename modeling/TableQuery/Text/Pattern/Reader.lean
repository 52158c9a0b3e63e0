import TableQuery.Decimal.Reader
import TableQuery.Fault
import TableQuery.Text.Pattern

/-! Patterns read from their written form. -/
namespace TableQuery.Text.Pattern

/-- A part of a written pattern. A place, unlike a character or a group, cannot be repeated. -/
structure Atom where
  pattern : Pattern
  isPlace : Bool

def single (c : Char) : Pattern := .oneOf false [.range c c]

def hexValue? (c : Char) : Option Nat :=
  if c.isDigit then some (c.toNat - 48)
  else if 'a' ≤ c && c ≤ 'f' then some (c.toNat - 87)
  else if 'A' ≤ c && c ≤ 'F' then some (c.toNat - 55)
  else none

def readHex? (count : Nat) (cs : List Char) : Option (Char × List Char) :=
  let digits := cs.take count
  if digits.length == count && digits.all fun c => (hexValue? c).isSome then
    let n := digits.foldl (fun n c => n * 16 + (hexValue? c).getD 0) 0
    some (Char.ofNat n, cs.drop count)
  else none

def classLetter? : Char → Option ClassItem
  | 'd' => some (.digit true)
  | 'D' => some (.digit false)
  | 'w' => some (.word true)
  | 'W' => some (.word false)
  | 's' => some (.blank true)
  | 'S' => some (.blank false)
  | _ => none

def controlLetter? : Char → Option Char
  | 'n' => some '\n'
  | 't' => some '\t'
  | 'r' => some '\r'
  | 'f' => some '\x0c'
  | 'v' => some '\x0b'
  | 'a' => some '\x07'
  | _ => none

def readEscape (c : Char) (rest : List Char) : Except Fault (Char × List Char) :=
  match controlLetter? c with
  | some d => .ok (d, rest)
  | none =>
    let hex? :=
      if c == 'x' then readHex? 2 rest
      else if c == 'u' then readHex? 4 rest
      else if c == 'U' then readHex? 8 rest
      else none
    match hex? with
    | some found => .ok found
    | none => if c.isAlphanum then .error .failure else .ok (c, rest)

/-- A member of a class between brackets: a class of its own or a single character. -/
def readMember : List Char → Except Fault ((ClassItem ⊕ Char) × List Char)
  | [] => .error .failure
  | ['\\'] => .error .failure
  | '\\' :: c :: rest =>
    match classLetter? c with
    | some item => .ok (.inl item, rest)
    | none =>
      if c == 'b' then .ok (.inr '\x08', rest)
      else do
        let (d, rest) ← readEscape c rest
        return (.inr d, rest)
  | c :: rest => .ok (.inr c, rest)

def readMembers : Nat → Bool → List Char → Except Fault (List ClassItem × List Char)
  | 0, _, _ => .error .failure
  | fuel + 1, isFirst, cs =>
    match cs with
    | [] => .error .failure
    | c :: rest =>
      if c == ']' && !isFirst then .ok ([], rest)
      else do
        let (low, rest) ← readMember cs
        let isRange := match rest with | '-' :: ']' :: _ => false | '-' :: _ => true | _ => false
        if isRange then
          let (high, rest) ← readMember (rest.drop 1)
          match low, high with
          | .inr a, .inr b =>
            if b < a then .error .failure
            else do
              let (items, rest) ← readMembers fuel false rest
              return (.range a b :: items, rest)
          | _, _ => .error .failure
        else do
          let item : ClassItem := match low with | .inl item => item | .inr c => .range c c
          let (items, rest) ← readMembers fuel false rest
          return (item :: items, rest)

def readBounds? (cs : List Char) : Option (Nat × Option Nat × List Char) :=
  let low := cs.takeWhile Char.isDigit
  let rest := cs.dropWhile Char.isDigit
  let number? (ds : List Char) : Option Nat := Decimal.readNat? ds
  match rest with
  | '}' :: rest => (number? low).map fun n => (n, some n, rest)
  | ',' :: rest =>
    let high := rest.takeWhile Char.isDigit
    match rest.dropWhile Char.isDigit with
    | '}' :: rest => some ((number? low).getD 0, number? high, rest)
    | _ => none
  | _ => none

def readRepetition? : List Char → Option (Nat × Option Nat × List Char)
  | '*' :: rest => some (0, none, rest)
  | '+' :: rest => some (1, none, rest)
  | '?' :: rest => some (0, some 1, rest)
  | '{' :: rest => readBounds? rest
  | _ => none

/-- A part with its repetition. A mark for the shortest one changes nothing; a second one is
refused. -/
def readRepeated (atom : Atom) (cs : List Char) : Except Fault (Pattern × List Char) :=
  match readRepetition? cs with
  | none => .ok (atom.pattern, cs)
  | some (least, most, rest) =>
    let tooFew : Bool := match most with | some m => m < least | none => false
    if atom.isPlace || tooFew then .error .failure
    else
      let rest := match rest with | '?' :: rest => rest | '+' :: rest => rest | rest => rest
      if (readRepetition? rest).isSome then .error .failure
      else .ok (.repeated atom.pattern least most, rest)

def readPlainAtom (cs : List Char) : Except Fault (Atom × List Char) :=
  match cs with
  | [] => .error .failure
  | ['\\'] => .error .failure
  | '\\' :: c :: rest =>
    match classLetter? c with
    | some item => .ok (⟨.oneOf false [item], false⟩, rest)
    | none =>
      if c == 'b' then .ok (⟨.wordEdge true, true⟩, rest)
      else if c == 'B' then .ok (⟨.wordEdge false, true⟩, rest)
      else if c == 'A' then .ok (⟨.start, true⟩, rest)
      else if c == 'Z' then .ok (⟨.veryEnd, true⟩, rest)
      else do
        let (d, rest) ← readEscape c rest
        return (⟨single d, false⟩, rest)
  | '.' :: rest => .ok (⟨.any, false⟩, rest)
  | '^' :: rest => .ok (⟨.start, true⟩, rest)
  | '$' :: rest => .ok (⟨.finish, true⟩, rest)
  | c :: rest =>
    if (readRepetition? cs).isSome then .error .failure else .ok (⟨single c, false⟩, rest)

/-- What a group is for, by the signs after its opening parenthesis. -/
inductive GroupRole where
  | plain
  | ahead (positive : Bool)

def readGroupRole : List Char → Except Fault (GroupRole × List Char)
  | '?' :: ':' :: rest => .ok (.plain, rest)
  | '?' :: '=' :: rest => .ok (.ahead true, rest)
  | '?' :: '!' :: rest => .ok (.ahead false, rest)
  | '?' :: 'P' :: '<' :: rest =>
    match rest.dropWhile isWord with
    | '>' :: rest => .ok (.plain, rest)
    | _ => .error .failure
  | '?' :: _ => .error .failure
  | rest => .ok (.plain, rest)

mutual

def readEither : Nat → List Char → Except Fault (Pattern × List Char)
  | 0, _ => .error .failure
  | fuel + 1, cs => do
    let (first, rest) ← readBoth fuel .empty cs
    match rest with
    | '|' :: rest =>
      let (second, rest) ← readEither fuel rest
      return (.either first second, rest)
    | rest => return (first, rest)

def readBoth : Nat → Pattern → List Char → Except Fault (Pattern × List Char)
  | 0, _, _ => .error .failure
  | fuel + 1, done, cs =>
    match cs with
    | [] => .ok (done, [])
    | c :: rest =>
      if c == '|' || c == ')' then .ok (done, cs)
      else do
        let (atom, rest) ←
          if c == '(' then readGroup fuel rest
          else if c == '[' then
            let (negated, body) := match rest with
              | '^' :: body => (true, body)
              | body => (false, body)
            let (items, rest) ← readMembers (body.length + 1) true body
            pure (⟨.oneOf negated items, false⟩, rest)
          else readPlainAtom cs
        let (part, rest) ← readRepeated atom rest
        readBoth fuel (.both done part) rest

def readGroup : Nat → List Char → Except Fault (Atom × List Char)
  | 0, _ => .error .failure
  | fuel + 1, cs => do
    let (role, cs) ← readGroupRole cs
    let (body, rest) ← readEither fuel cs
    match rest with
    | ')' :: rest =>
      match role with
      | .plain => return (⟨body, false⟩, rest)
      | .ahead positive => return (⟨.ahead positive body, false⟩, rest)
    | _ => .error .failure

end

def read (s : String) : Except Fault Pattern := do
  let cs := s.toList
  let (pattern, rest) ← readEither (2 * cs.length + 4) cs
  if rest.isEmpty then return pattern else .error .failure

end TableQuery.Text.Pattern
