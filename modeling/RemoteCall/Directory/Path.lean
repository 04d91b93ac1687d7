/-!
# Paths

A path is a slash, or slashes each followed by a name without slashes. The parent of a path is what
stands before its last slash, or the lone slash where nothing does.

The functions work on lists of characters; those on texts only convert.
-/

namespace RemoteCall.Directory.Path

/-- Whether two slashes stand side by side. -/
def hasGap : List Char → Bool
  | '/' :: '/' :: _ => true
  | _ :: rest => hasGap rest
  | [] => false

/-- Whether a text is a path. -/
def isValidChars (path : List Char) : Bool :=
  path.head? = some '/' && (path.length = 1 || path.getLast? ≠ some '/') && !hasGap path

/-- What stands before the last slash. -/
def parentChars? (path : List Char) : Option (List Char) :=
  match path.reverse.dropWhile (· ≠ '/') with
  | [] => none
  | [_] => if path.length = 1 then none else some ['/']
  | _ :: before => some before.reverse

/-- What stands before the name of a child of a path. -/
def stem (parent : List Char) : List Char :=
  if parent = ['/'] then parent else parent ++ ['/']

/-- The name under which a path stands directly below a parent. -/
def nameUnder? (parent path : List Char) : Option (List Char) :=
  let stem := stem parent
  let name := path.drop stem.length
  if stem.isPrefixOf path && !name.isEmpty && !name.contains '/' then some name else none

/-- The parents above a path, the nearest first, without the lone slash; `fuel` bounds their
number. -/
def parentsAbove : Nat → List Char → List (List Char)
  | 0, _ => []
  | fuel + 1, path =>
    match parentChars? path with
    | none => []
    | some parent => if parent = ['/'] then [] else parent :: parentsAbove fuel parent

/-- Whether a text is a path. -/
def isValid (path : String) : Bool :=
  isValidChars path.toList

/-- The parent of a path. -/
def parent? (path : String) : Option String :=
  (parentChars? path.toList).map String.ofList

/-- What stands before the name of a child of a path. -/
def stemOf (parent : String) : String :=
  String.ofList (stem parent.toList)

/-- The name under which a path stands directly below a parent. -/
def childName? (parent path : String) : Option String :=
  (nameUnder? parent.toList path.toList).map String.ofList

/-- The parents above a path, the nearest first, without the lone slash. -/
def ancestors (path : String) : List String :=
  (parentsAbove path.length path.toList).map String.ofList

/-- A text without the slashes at its end. -/
def withoutTail (path : String) : String :=
  String.ofList (path.toList.reverse.dropWhile (· = '/')).reverse

end RemoteCall.Directory.Path
