import BaseLang.Program.Condition
import BaseLang.Program.Format
import BaseLang.Program.Tool.Sed
import BaseLang.Program.Tool.Word

/-!
# Programs by name

* `Tool.table` : the programs by their names;
* `Tool.ofName?` : the program with a name.
-/

namespace BaseLang

namespace Tool

def silent (status : Nat) : Tool := fun _ fs => (.silent status, fs)

def table : List (String × Tool) :=
  [("true", silent 0), ("false", silent 1), ("echo", echo), ("printf", printfProgram), ("test", test),
   ("[", bracket), ("cat", cat), ("cp", cp), ("mv", mv), ("rm", rm), ("mkdir", mkdir), ("rmdir", rmdir),
   ("touch", touch), ("ls", ls), ("chmod", chmod), ("tee", tee), ("head", head), ("tail", tail), ("wc", wc),
   ("sort", sort), ("uniq", uniq), ("tr", tr), ("cut", cut), ("grep", grep), ("sed", sed), ("rev", rev),
   ("tac", tac), ("basename", basename), ("dirname", dirname), ("pwd", pwd), ("printenv", printenv),
   ("sleep", sleep), ("seq", seq), ("expr", expr), ("cmp", cmp), ("sync", silent 0),
   ("realpath", fun c => realpath (fun e path => c.fail 1 s!"{path}: {e.description}") c),
   ("readlink", fun c => realpath (fun _ _ => .silent 1) c)]

def ofName? (name : String) : Option Tool := List.lookup name table

end Tool

end BaseLang
