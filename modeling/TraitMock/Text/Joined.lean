/-!
# Text/Joined — texts joined by a separator
-/

namespace TraitMock.Text

/-- **Texts one behind the other**, with `sep` between any two. -/
def joined (sep : String) : List String → String
  | [] => ""
  | [s] => s
  | s :: t :: rest => s ++ sep ++ joined sep (t :: rest)

@[simp] theorem joined_nil (sep : String) : joined sep [] = "" := rfl

@[simp] theorem joined_singleton (sep s : String) : joined sep [s] = s := rfl

theorem joined_cons_cons (sep s t : String) (rest : List String) :
    joined sep (s :: t :: rest) = s ++ sep ++ joined sep (t :: rest) := rfl

end TraitMock.Text
