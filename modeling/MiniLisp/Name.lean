/-!
Names: texts with at least one character. A symbol is known by its name, and a scope carries a
name as the label of the form under evaluation.
-/

namespace MiniLisp

/-- A text that is not empty. -/
@[ext]
structure Name where
  text : String
  text_ne_empty : text ≠ "" := by decide
deriving DecidableEq

namespace Name

def ofString? (s : String) : Option Name :=
  if h : s = "" then none else some ⟨s, h⟩

def ofChars (cs : List Char) (h : cs ≠ []) : Name where
  text := String.ofList cs
  text_ne_empty := by simpa using h

@[simp]
theorem ofString?_text (n : Name) : ofString? n.text = some n := by
  simp [ofString?, n.text_ne_empty]

@[simp]
theorem toList_text_ofChars (cs : List Char) (h : cs ≠ []) : (ofChars cs h).text.toList = cs := by
  simp [ofChars]

end Name

end MiniLisp
