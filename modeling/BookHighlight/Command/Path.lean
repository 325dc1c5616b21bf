namespace BookHighlight.Command

def pathParts : List Char → List (List Char)
  | [] => [[]]
  | c :: rest =>
    match pathParts rest with
    | part :: parts => if c = '/' then [] :: part :: parts else (c :: part) :: parts
    | [] => [[c]]

def pathRoot : List Char → List Char
  | '/' :: '/' :: '/' :: _ => ['/']
  | '/' :: '/' :: _ => ['/', '/']
  | '/' :: _ => ['/']
  | _ => []

def normalPath (path : String) : String :=
  let parts := (pathParts path.toList).filter fun part => !part.isEmpty && part != ['.']
  let text := pathRoot path.toList ++ (parts.intersperse ['/']).flatten
  if text.isEmpty then "." else String.ofList text

def folderOf (path : String) : String :=
  let before := path.toList.reverse.dropWhile (· != '/')
  match before with
  | [] => "."
  | ['/'] => "/"
  | _ :: before => String.ofList before.reverse

end BookHighlight.Command
