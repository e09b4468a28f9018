/-! # Joining texts -/

namespace Wiring.Text

/-- Texts one after the other, with a separator between each two. -/
def join (separator : String) (parts : List String) : String :=
  String.ofList (separator.toList.intercalate (parts.map String.toList))

def joinLines (lines : List String) : String := join "\n" lines

end Wiring.Text
