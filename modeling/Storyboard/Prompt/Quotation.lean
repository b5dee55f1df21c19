import Storyboard.Text.Phrase
/-!
# Quoted text in a prompt

The words that an element is to show: text in quotes, or what follows the word text, title or
label up to a clause about place.
-/

namespace Storyboard.Quotation

open Text (search after? isWord isBlank endsWord)

/-- Text up to a closing mark, when there is some. -/
def upTo? (mark : Char) (cs : List Char) : Option (List Char × List Char) :=
  match cs.takeWhile (· ≠ mark), cs.dropWhile (· ≠ mark) with
  | [], _ => none
  | inner, _ :: rest => some (inner, rest)
  | _, [] => none

/-- Quoted text that starts here. Single quotes count at the edges of words only, so that
apostrophes never pair up. -/
def quotedAt (inside : Bool) : List Char → Option (List Char)
  | '"' :: rest => (upTo? '"' rest).map (·.1)
  | '\'' :: rest =>
    if inside then none
    else (upTo? '\'' rest).bind fun (inner, after) => if endsWord after then some inner else none
  | _ => none

/-- What follows the word text, title or label on the line. -/
def captionAt (inside : Bool) (cs : List Char) : Option (List Char) :=
  if inside then none
  else ["text", "title", "label"].findSome? fun word =>
    (after? word.toList cs).bind fun rest =>
      match rest with
      | c :: _ =>
        if isBlank c then
          match (rest.dropWhile isBlank).takeWhile (· ≠ '\n') with
          | [] => none
          | line => some line
        else none
      | [] => none

/-- A text up to the first word about place. -/
def beforeClause (inside : Bool) : List Char → List Char
  | [] => []
  | c :: rest =>
    let clause := !inside && ["with", "in", "on", "at"].any fun word =>
      ((after? word.toList (c :: rest)).map endsWord).getD false
    if clause then [] else c :: beforeClause (isWord c) rest

/-- The text that a prompt wants shown; `small` is the prompt in small letters and trimmed. -/
def content? (raw small : List Char) : Option String :=
  let quoted := ((search quotedAt false raw).map (Text.trimBy isBlank)).getD []
  if quoted ≠ [] then some (String.ofList quoted)
  else
    match search captionAt false small with
    | none => none
    | some line =>
      match Text.trimBy isBlank (beforeClause false line) with
      | [] => none
      | text => some (String.ofList text)

end Storyboard.Quotation
