/-!
# Masks for files

Which rights new files and directories get. A mask is told by an octal number of the rights that are
held back, or by what each class of users may do.
-/

namespace Pagewright.Shell

/-- The rights that are given: reading `r`, writing `w` and using `x`, for the owner, the group and
all others. -/
structure FileMask where
  user : List Char := ['r', 'w', 'x']
  group : List Char := ['r', 'x']
  other : List Char := ['r', 'x']
  deriving DecidableEq, Repr

namespace FileMask

def get (m : FileMask) (who : Char) : List Char :=
  match who with
  | 'u' => m.user
  | 'g' => m.group
  | _ => m.other

/-- The mask with the rights of some classes of users changed; `a` stands for all of them. -/
def change (m : FileMask) (who : List Char) (f : List Char → List Char) : FileMask :=
  let isMeant (c : Char) : Bool := who.contains c || who.contains 'a' || who.isEmpty
  { user := if isMeant 'u' then f m.user else m.user
    group := if isMeant 'g' then f m.group else m.group
    other := if isMeant 'o' then f m.other else m.other }

/-- The rights that an octal digit does not hold back. -/
def ofDigit (d : Nat) : List Char :=
  [('r', 4), ('w', 2), ('x', 1)].filterMap fun (c, n) => if d / n % 2 = 0 then some c else none

/-- The octal digit that holds back all but some rights. -/
def toDigit (rights : List Char) : Nat :=
  [('r', 4), ('w', 2), ('x', 1)].foldl (fun d (c, n) => if rights.contains c then d else d + n) 0

def ofOctal? (s : String) : Option FileMask :=
  if !s.isEmpty && s.all fun c => '0' ≤ c && c ≤ '7' then
    match (s.toList.reverse ++ ['0', '0']).map fun c => ofDigit (c.toNat - '0'.toNat) with
    | other :: group :: user :: _ => some { user, group, other }
    | _ => none
  else none

def octal (m : FileMask) : String :=
  String.join ("0" :: [m.user, m.group, m.other].map fun rights => toString (toDigit rights))

def inWords (m : FileMask) : String :=
  let rights (who : Char) : String :=
    String.ofList (who :: '=' :: ['r', 'w', 'x'].filter (m.get who).contains)
  ",".intercalate [rights 'u', rights 'g', rights 'o']

/-- Carries out changes, each of a sign and of rights or a class of users that has them; `fuel`
bounds their number. -/
def act (who : List Char) : (fuel : Nat) → FileMask → List Char → Option FileMask
  | _, m, [] => some m
  | 0, _, _ => none
  | fuel + 1, m, sign :: cs =>
    let letters := cs.takeWhile fun c => ['r', 'w', 'x', 'X', 's'].contains c
    let (named, rest) := match letters, cs with
      | [], c :: rest => if ['u', 'g', 'o'].contains c then (m.get c, rest) else ([], cs)
      | letters, cs => (letters, cs.drop letters.length)
    let isUsed := [m.user, m.group, m.other].any (·.contains 'x')
    let given := named.map fun c => if c = 'X' && isUsed then 'x' else c
    match sign with
    | '=' => act who fuel (m.change who fun _ => given) rest
    | '+' => act who fuel (m.change who (· ++ given)) rest
    | '-' => act who fuel (m.change who (·.filter (!given.contains ·))) rest
    | _ => none

def changed? (m : FileMask) (s : String) : Option FileMask :=
  (s.splitOn ",").foldlM (fun m clause =>
    let who := clause.toList.takeWhile fun c => ['u', 'g', 'o', 'a'].contains c
    act who clause.length m (clause.toList.drop who.length)) m

end FileMask

end Pagewright.Shell
