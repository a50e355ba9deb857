import Pagewright.Shell.Session

/-!
# Home directories

A tilde at the start of a word stands for the home directory of the user, and with a name behind it
for that of the user of the name. In the value of a variable it may also stand behind a colon, as in
a list of directories.
-/

namespace Pagewright.Shell

def systemHomes : List (String × String) :=
  [("root", "/root"), ("daemon", "/usr/sbin"), ("bin", "/bin"), ("sys", "/dev"), ("sync", "/bin"),
    ("games", "/usr/games"), ("man", "/var/cache/man"), ("lp", "/var/spool/lpd"),
    ("mail", "/var/mail"), ("news", "/var/spool/news"), ("uucp", "/var/spool/uucp"),
    ("proxy", "/bin"), ("www-data", "/var/www"), ("backup", "/var/backups"),
    ("list", "/var/list"), ("irc", "/run/ircd"), ("nobody", "/nonexistent")]

/-- The home directory that a tilde with a name behind it stands for. -/
def Session.home? (s : Session) (user : String) : Option String :=
  if user.isEmpty then s.get? "HOME" else (systemHomes.find? (·.1 == user)).map Prod.snd

namespace Word

/-- The pieces of a plain text with home directories in the place of tildes: at its start when
`starts`, and behind colons when it is a list. A tilde counts only when nothing but its name stands
between it and a slash, a colon of a list or the end; `isLast` says that the end of the text is that
of the word. `fuel` bounds the number of colons. -/
def expandTildes (s : Session) (isList isLast : Bool) :
    (fuel : Nat) → (starts : Bool) → List Char → List Piece
  | 0, _, cs => [.plain (String.ofList cs)]
  | fuel + 1, starts, cs =>
    let goOn (kept : List Char) (cs : List Char) : List Piece :=
      let front := if isList then cs.takeWhile (· != ':') else cs
      match cs.drop front.length with
      | [] => if kept.isEmpty && front.isEmpty then [] else [.plain (String.ofList (kept ++ front))]
      | colon :: cs =>
        .plain (String.ofList (kept ++ front ++ [colon])) ::
          expandTildes s isList isLast fuel true cs
    match starts, cs with
    | true, '~' :: more =>
      let user := more.takeWhile fun c => c != '/' && !(isList && c == ':')
      let rest := more.drop user.length
      if rest.isEmpty && !isLast then goOn [] cs
      else
        match s.home? (String.ofList user) with
        | some home => (if home.isEmpty then [] else [.quoted [.plain home]]) ++ goOn [] rest
        | none => goOn ('~' :: user) rest
    | _, cs => goOn [] cs

/-- A word with home directories in the place of tildes in its plain pieces, of which the first one
may start with one. -/
def expandPieces (s : Session) (isList : Bool) : (starts : Bool) → Word → Word
  | _, [] => []
  | starts, .plain text :: rest =>
    expandTildes s isList rest.isEmpty (text.length + 1) starts text.toList ++
      (if isList then expandPieces s isList false rest else rest)
  | _, p :: rest => p :: (if isList then expandPieces s isList false rest else rest)

def atHome (w : Word) (s : Session) : Word :=
  expandPieces s false true w

def listAtHome (w : Word) (s : Session) : Word :=
  expandPieces s true true w

/-- A word of the form of an assignment with home directories in the value. -/
def valueAtHome (w : Word) (s : Session) : Word :=
  match w with
  | .plain text :: rest =>
    let name := text.toList.takeWhile (· != '=')
    match text.toList.drop name.length with
    | [] => w
    | sign :: value =>
      let front : Piece := .plain (String.ofList (name ++ [sign]))
      front :: listAtHome (.plain (String.ofList value) :: rest) s
  | _ => w

end Word

end Pagewright.Shell
