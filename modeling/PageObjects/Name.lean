import PageObjects.Text.Words

namespace PageObjects

/-- Words that cannot stand alone as a method name. -/
def reservedWords : List Text := [
  "break", "case", "catch", "class", "continue", "default", "delete", "do", "else", "export",
  "finally", "for", "function", "if", "import", "in", "new", "return", "switch", "this", "throw",
  "try", "var", "void", "while", "with"]

def upperFirst : Text → Text
  | [] => []
  | c :: r => c.toUpper :: r

/-- A name that is empty, reserved or starts with a digit is put behind `lead`. -/
def safeMethodName (name lead : Text) : Text :=
  if name.isEmpty || reservedWords.contains name || (name.head?.any isDigitSign) then
    lead ++ upperFirst name
  else name

/-- The name with a number behind it. -/
def numbered (name : Text) (k : Nat) : Text := name ++ Text.ofNat k

/-- The smallest number from two on whose numbered name is free. Among one more number than there
are taken names, one is free. -/
def firstFreeNumber (name : Text) (taken : List Text) : Nat :=
  (((List.range (taken.length + 1)).map (· + 2)).find?
    fun k => !taken.contains (numbered name k)).getD 2

/-- The name itself if it is free, else the name with the smallest free number. -/
def uniqueName (name : Text) (taken : List Text) : Text :=
  if taken.contains name then numbered name (firstFreeNumber name taken) else name

/-- Makes the names of a list unique in turn, starting from the names already taken; the taken
names are given back with the new ones in front. -/
def uniqueNames (taken : List Text) : List Text → List Text × List Text
  | [] => ([], taken)
  | name :: names =>
    let unique := uniqueName name taken
    let (rest, all) := uniqueNames (unique :: taken) names
    (unique :: rest, all)

end PageObjects
