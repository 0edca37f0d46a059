/-!
# Columns

Text filled up with blanks to the width of a column. Text that is wider than
its column is left as it is.
-/

set_option autoImplicit false

namespace FiveStage.Text

def alignLeft (width : Nat) (s : String) : String :=
  String.ofList (s.toList.rightpad width ' ')

def alignRight (width : Nat) (s : String) : String :=
  String.ofList (s.toList.leftpad width ' ')

def lines (ls : List String) : String :=
  String.join (ls.map (· ++ "\n"))

end FiveStage.Text
