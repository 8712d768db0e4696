/-!
Texts made of lines.
-/

namespace BooleanCube.Text

def unlines (lines : List String) : String := String.join (lines.map (· ++ "\n"))

end BooleanCube.Text
