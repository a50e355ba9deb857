import Pagewright.Shell.Expression

/-!
# Reading regular expressions

A regular expression is cut into tokens by the rules of its notation, of which the basic one marks
operators with a backslash and the extended one does not; the tokens are then read as a tree. An
operator that has nothing to repeat stands for itself.
-/

namespace Pagewright.Shell.Expression

inductive Token where
  | item (e : Expression)
  | opening (n : Nat)
  | closing
  | bar
  | repetition (least : Nat) (most : Option Nat)
  deriving DecidableEq, Repr

/-- A number of decimal digits, if there are any, and what follows it. -/
def count? (cs : List Char) : Option Nat × List Char :=
  let ds := cs.takeWhile Char.isDigit
  (if ds.isEmpty then none else some (ds.foldl (fun n d => n * 10 + (d.toNat - '0'.toNat)) 0),
    cs.drop ds.length)

def bounds? (extended : Bool) (cs : List Char) : Option (Nat × Option Nat × List Char) :=
  let close (cs : List Char) : Option (List Char) :=
    match extended, cs with
    | true, '\x7d' :: cs => some cs
    | false, '\\' :: '\x7d' :: cs => some cs
    | _, _ => none
  match count? cs with
  | (least, ',' :: cs) =>
    let (most, cs) := count? cs
    (close cs).map (least.getD 0, most, ·)
  | (some n, cs) => (close cs).map (n, some n, ·)
  | (none, _) => none

def wordSet (inverted : Bool) : Expression :=
  .among { inverted, ranges := [('0', '9'), ('A', 'Z'), ('_', '_'), ('a', 'z')] }

def spaceSet (inverted : Bool) : Expression :=
  .among { inverted, ranges := [('\t', '\r'), (' ', ' ')] }

def escaped (c : Char) : Expression :=
  match c with
  | 'n' => .char '\n'
  | 't' => .char '\t'
  | 'w' => wordSet false
  | 'W' => wordSet true
  | 's' => spaceSet false
  | 'S' => spaceSet true
  | 'b' => .edge true
  | 'B' => .edge false
  | '<' => .edge true
  | '>' => .edge true
  | c => if c.isDigit && c != '0' then .again (c.toNat - '0'.toNat) else .char c

/-- The operator that a sign stands for, and what follows it. -/
def operator? (extended : Bool) (groups : Nat) (sign : Char) (cs : List Char) :
    Option (Token × List Char) :=
  match sign with
  | '(' => some (.opening (groups + 1), cs)
  | ')' => some (.closing, cs)
  | '|' => some (.bar, cs)
  | '+' => some (.repetition 1 none, cs)
  | '?' => some (.repetition 0 (some 1), cs)
  | '\x7b' => (bounds? extended cs).map fun (least, most, cs) => (.repetition least most, cs)
  | _ => none

/-- The tokens of a text; `groups` have been opened, and `fresh` says that nothing stands before
that could be repeated. -/
def tokens (extended : Bool) : (fuel groups : Nat) → (fresh : Bool) → List Char → List Token
  | 0, _, _, _ => []
  | _, _, _, [] => []
  | fuel + 1, groups, fresh, c :: cs =>
    let put (e : Expression) (cs : List Char) : List Token :=
      .item e :: tokens extended fuel groups false cs
    let operate (t : Token) (cs : List Char) : List Token :=
      match t with
      | .opening n => t :: tokens extended fuel n true cs
      | .bar => t :: tokens extended fuel groups true cs
      | .repetition _ _ =>
        if fresh then put (.char c) cs else t :: tokens extended fuel groups false cs
      | t => t :: tokens extended fuel groups false cs
    let isEnd : Bool := match cs with
      | [] => true
      | '\\' :: ')' :: _ => true
      | '\\' :: '|' :: _ => true
      | _ => false
    match c with
    | '\\' =>
      match cs with
      | [] => put (.char '\\') []
      | e :: rest =>
        match if extended then none else operator? false groups e rest with
        | some (t, rest) => operate t rest
        | none => put (escaped e) rest
    | '.' => put .one cs
    | '*' => operate (.repetition 0 none) cs
    | '^' =>
      if extended || fresh then .item .start :: tokens extended fuel groups true cs
      else put (.char '^') cs
    | '$' => if extended || isEnd then put .finish cs else put (.char '$') cs
    | '[' =>
      match CharSet.read? '^' (cs.map (·, true)) with
      | some (set, rest) => put (.among set) (rest.map Prod.fst)
      | none => put (.char '[') cs
    | c =>
      match if extended then operator? true groups c cs else none with
      | some (t, rest) => operate t rest
      | none => put (.char c) cs

def repeatedBy (e : Expression) : List Token → Expression × List Token
  | .repetition least most :: ts => repeatedBy (.repeated least most e) ts
  | ts => (e, ts)

mutual

def readEither : (fuel : Nat) → List Token → Option (Expression × List Token)
  | 0, _ => none
  | fuel + 1, ts => do
    let (e, ts) ← readJoined fuel .empty ts
    match ts with
    | .bar :: ts =>
      let (other, ts) ← readEither fuel ts
      return (.either e other, ts)
    | ts => return (e, ts)

/-- Reads repeated items after the expression in front of them. -/
def readJoined : (fuel : Nat) → Expression → List Token → Option (Expression × List Token)
  | 0, _, _ => none
  | fuel + 1, front, ts => do
    let goOn (e : Expression) (ts : List Token) : Option (Expression × List Token) :=
      let (e, ts) := repeatedBy e ts
      readJoined fuel (.join front e) ts
    match ts with
    | .item e :: ts => goOn e ts
    | .opening n :: ts =>
      let (e, ts) ← readEither fuel ts
      match ts with
      | .closing :: ts => goOn (.group n e) ts
      | _ => none
    | ts => return (front, ts)

end

def read? (extended : Bool) (cs : List Char) : Option Expression := do
  let ts := tokens extended (cs.length + 1) 0 true cs
  let (e, rest) ← readEither (2 * ts.length + 2) ts
  if rest.isEmpty then return e else none

def literal (cs : List Char) : Expression :=
  cs.foldr (fun c e => .join (.char c) e) .empty

end Pagewright.Shell.Expression
