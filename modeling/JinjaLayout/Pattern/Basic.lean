import JinjaLayout.Text.Word

/-!
Patterns for the search in texts. A pattern matches the way that comes first when of two
alternatives the left one is tried before the right one and a repetition tries to go on first, or to
stop first when it is lazy.
-/

namespace JinjaLayout

inductive CharSet where
  | range (first last : Char)
  | any
  | digit
  | word
  | blank
  | union (sets : List CharSet)
  | complement (set : CharSet)

namespace CharSet

mutual

def holds (c : Char) : CharSet → Bool
  | range first last => first ≤ c && c ≤ last
  | any => c != '\n'
  | digit => Text.isDecimalDigit c
  | word => Text.isWordChar c
  | blank => Text.isBlank c
  | union sets => holdsAny c sets
  | complement set => !set.holds c

def holdsAny (c : Char) : List CharSet → Bool
  | [] => false
  | set :: sets => set.holds c || holdsAny c sets

end

def single (c : Char) : CharSet :=
  range c c

def intersection (first second : CharSet) : CharSet :=
  complement (union [complement first, complement second])

def difference (first second : CharSet) : CharSet :=
  intersection first (complement second)

def symmetricDifference (first second : CharSet) : CharSet :=
  union [difference first second, difference second first]

end CharSet

/-- A pattern. A `wordEdge` matches between a character of a word and one of no word, or everywhere
else. -/
inductive Pattern where
  | empty
  | one (set : CharSet)
  | start
  | stop
  | wordEdge (isEdge : Bool)
  | sequence (first second : Pattern)
  | either (first second : Pattern)
  | repeated (body : Pattern) (least : Nat) (most : Option Nat) (isLazy : Bool)
  | group (index : Nat) (body : Pattern)

namespace Pattern

/-- A place in a text: the character before it, what is left, and the groups matched so far. -/
structure Place where
  previous : Option Char
  rest : Text
  groups : List (Nat × Text) := []

def Place.isWordEdge (place : Place) : Bool :=
  place.previous.any Text.isWordChar != place.rest.head?.any Text.isWordChar

/-- A matcher goes from a place to the places it can reach, in their order, until what comes after
it matches too. -/
abbrev Matcher := Place → (Place → Option Place) → Option Place

/-- Up to the given number of further rounds. A round has to get on. -/
def furtherRounds (round : Matcher) (isLazy : Bool) : Nat → Matcher
  | 0, place, next => next place
  | more + 1, place, next =>
      let again (_ : Unit) := round place fun reached =>
        if reached.rest.length < place.rest.length then
          furtherRounds round isLazy more reached next
        else none
      if isLazy then next place <|> again () else again () <|> next place

def rounds (round : Matcher) (further : Matcher) : Nat → Matcher
  | 0, place, next => further place next
  | least + 1, place, next => round place fun reached => rounds round further least reached next

def run : Pattern → Matcher
  | empty, place, next => next place
  | one set, place, next =>
      match place.rest with
      | [] => none
      | c :: rest =>
          if set.holds c then next { place with previous := some c, rest } else none
  | start, place, next => if place.previous.isNone then next place else none
  | stop, place, next => if place.rest.isEmpty then next place else none
  | wordEdge isEdge, place, next => if place.isWordEdge == isEdge then next place else none
  | sequence first second, place, next => first.run place fun reached => second.run reached next
  | either first second, place, next => first.run place next <|> second.run place next
  | repeated body least most isLazy, place, next =>
      let more := match most with
        | some most => min (most - least) place.rest.length
        | none => place.rest.length
      rounds body.run (furtherRounds body.run isLazy more) least place next
  | group index body, place, next =>
      body.run place fun reached =>
        let text := place.rest.take (place.rest.length - reached.rest.length)
        next { reached with groups := (index, text) :: reached.groups }

def match? (pattern : Pattern) (previous : Option Char) (text : Text) : Option Place :=
  pattern.run { previous, rest := text } some

end Pattern

end JinjaLayout
