import Pagewright.Shell.Tool.Editor
import Pagewright.Shell.Tool.Files
import Pagewright.Shell.Tool.Lines
import Pagewright.Shell.Tool.Words

/-!
# Tools

The programs that a script may call, by name.
-/

namespace Pagewright.Shell.Tool

/-- The tools by name. -/
def all : List (String × Tool) :=
  [("basename", basename), ("cat", cat), ("cp", cp), ("cut", cut), ("dirname", dirname),
    ("echo", echo), ("false", idle 1), ("grep", grep), ("head", head),
    ("ls", ls), ("mkdir", mkdir), ("mv", mv), ("printenv", printenv), ("printf", printf),
    ("pwd", pwd), ("rev", rev), ("rm", rm), ("sed", sed), ("seq", seq), ("sleep", sleep),
    ("sort", sort), ("tail", tail), ("tee", tee), ("touch", touch), ("tr", tr), ("true", idle 0),
    ("uniq", uniq), ("wc", wc)]

/-- The tool of a name. -/
def find? (name : String) : Option Tool :=
  (all.find? (·.1 == name)).map Prod.snd

end Pagewright.Shell.Tool
