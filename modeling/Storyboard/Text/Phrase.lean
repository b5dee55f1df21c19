import Storyboard.Text.Character
/-!
# Phrases in a text

Leftmost search in a text, with the knowledge of whether a word character stands just before,
and the occurrence of a phrase as whole words whatever the case of its letters.
-/

namespace Storyboard.Text

/-- The first answer that a rule gives, from left to right. A rule sees whether a word
character stands before the place it is asked about, and the text from there on. -/
def search {β : Type} (rule : Bool → List Char → Option β) (inside : Bool) :
    List Char → Option β
  | [] => rule inside []
  | c :: rest =>
    match rule inside (c :: rest) with
    | some answer => some answer
    | none => search rule (isWord c) rest

/-- What follows a phrase at the start of a text, letters taken by their folded form. -/
def afterFolded? : List Char → List Char → Option (List Char)
  | [], cs => some cs
  | _ :: _, [] => none
  | p :: ps, c :: cs => if fold c = p then afterFolded? ps cs else none

/-- What follows a phrase at the start of a text, letter by letter. -/
def after? : List Char → List Char → Option (List Char)
  | [], cs => some cs
  | _ :: _, [] => none
  | p :: ps, c :: cs => if c = p then after? ps cs else none

/-- No word character comes next. -/
def endsWord : List Char → Bool
  | [] => true
  | c :: _ => !isWord c

/-- A phrase stands at the start of a text as whole words. -/
def wholeAt (phrase : List Char) (inside : Bool) (cs : List Char) : Bool :=
  !inside && ((afterFolded? phrase cs).map endsWord).getD false

/-- A phrase occurs in a text as whole words. -/
def mentions (cs phrase : List Char) : Bool :=
  (search (fun inside cs => if wholeAt phrase inside cs then some () else none) false cs).isSome

/-- The maximal runs of word characters of a text. -/
def words (cs : List Char) : List (List Char) :=
  (cs.splitBy fun a b => isWord a == isWord b).filter fun run => (run.head?.map isWord).getD false

end Storyboard.Text
