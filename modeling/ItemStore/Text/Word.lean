/-
Word characters.

A placeholder is written with ASCII letters, digits and the underscore only, whatever the
attribute it stands for is called.  `clean` is the part of a name that survives.
-/

namespace ItemStore.Text

/-- An ASCII letter or digit, or the underscore. -/
def isWord (c : Char) : Bool :=
  c.isAlphanum || c == '_'

/-- The word characters of a text, in order. -/
def clean (s : String) : String :=
  .ofList (s.toList.filter isWord)

end ItemStore.Text
