/-
Dotted paths.

* `Path.join`, `Path.split?`: building a path and taking it apart;
* `Path.nest`: a mapping wrapped under every segment of a path;
* `Mapping.at?`: the value under a path of keys.
-/
import LayeredSettings.Value

namespace LayeredSettings

namespace Path

/-- A key below a path; the empty path adds nothing in front. -/
def join (path key : String) : String := if path.isEmpty then key else path ++ "." ++ key

/-- The parts of a text between separators: one part more than separators. -/
def parts (separator : Char) : List Char → List (List Char)
  | [] => [[]]
  | c :: rest =>
    if c = separator then [] :: parts separator rest
    else
      match parts separator rest with
      | [] => [[c]]
      | first :: others => (c :: first) :: others

/-- The parts of a path between its dots, empty ones included. -/
def segments (path : String) : List String := (parts '.' path.toList).map String.ofList

/-- The segments of a path, if none of them is empty. -/
def split? (path : String) : Option (List String) :=
  let ss := segments path
  if ss.all (fun s => !s.isEmpty) then some ss else none

/-- The text before the first separator and the text after it. -/
def cut? (separator : Char) (s : String) : Option (String × String) :=
  let cs := s.toList
  match cs.dropWhile (fun c => !(c == separator)) with
  | [] => none
  | _ :: rest =>
    some (String.ofList (cs.takeWhile fun c => !(c == separator)), String.ofList rest)

/-- The text before the last separator and the text after it. -/
def cutLast? (separator : Char) (s : String) : Option (String × String) :=
  let cs := s.toList.reverse
  match cs.dropWhile (fun c => !(c == separator)) with
  | [] => none
  | _ :: rest =>
    some (String.ofList rest.reverse,
      String.ofList (cs.takeWhile fun c => !(c == separator)).reverse)

/-- The rest of a text after a given beginning. -/
def strip? (beginning s : String) : Option String :=
  let b := beginning.toList
  let cs := s.toList
  if b.isPrefixOf cs then some (String.ofList (cs.drop b.length)) else none

/-- The mapping wrapped in one mapping for each segment of the path; empty
segments count for nothing. -/
def nest (path : String) (m : Mapping) : Mapping :=
  ((segments path).filter (fun s => !s.isEmpty)).foldr (fun s inner => [(s, .map inner)]) m

end Path

/-- The value under a path of keys, of at least one key. -/
def Mapping.at? (m : Mapping) : List String → Option Value
  | [] => none
  | [key] => m.lookup key
  | key :: rest =>
    match m.lookup key with
    | some (.map inner) => Mapping.at? inner rest
    | _ => none

end LayeredSettings
