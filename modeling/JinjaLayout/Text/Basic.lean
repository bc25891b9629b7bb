namespace JinjaLayout

abbrev Text := List Char

instance : Coe String Text := ⟨String.toList⟩

namespace Text

def asString (text : Text) : String :=
  String.ofList text

def byteLength (text : Text) : Nat :=
  text.foldr (fun c length => c.utf8Size + length) 0

def lineBreaks (text : Text) : Nat :=
  text.count '\n'

/-- Every carriage return, alone or before a newline, becomes a newline. -/
def normalizeNewlines : Text → Text
  | [] => []
  | '\r' :: '\n' :: rest => '\n' :: normalizeNewlines rest
  | c :: rest => (if c = '\r' then '\n' else c) :: normalizeNewlines rest

def after? (start text : Text) : Option Text :=
  if start.isPrefixOf text then some (text.drop start.length) else none

def before? (stop text : Text) : Option Text :=
  if stop.isSuffixOf text then some (text.take (text.length - stop.length)) else none

/-- The number of characters before the first occurrence of `needle`. -/
def position? (needle : Text) : Text → Option Nat
  | [] => if needle.isEmpty then some 0 else none
  | c :: rest =>
      if needle.isPrefixOf (c :: rest) then some 0
      else (position? needle rest).map (· + 1)

def occursIn (needle text : Text) : Bool :=
  (position? needle text).isSome

/-- The text without the longest ending of characters that satisfy `p`. -/
def trimEnd (p : Char → Bool) (text : Text) : Text :=
  (text.reverse.dropWhile p).reverse

/-- The texts one after the other, `separator` between any two. -/
def joined (separator : Text) : List Text → Text
  | [] => []
  | [text] => text
  | text :: rest => text ++ separator ++ joined separator rest

/-- The parts of the text between the occurrences of one character. -/
def splitAt (separator : Char) : Text → List Text
  | [] => [[]]
  | c :: rest =>
      if c = separator then [] :: splitAt separator rest
      else match splitAt separator rest with
        | [] => [[c]]
        | first :: others => (c :: first) :: others

/-- A blank or a tab, what a line may be indented with. -/
def isIndent (c : Char) : Bool :=
  c == ' ' || c == '\t'

/-- A character of the White_Space property. -/
def isBlank (c : Char) : Bool :=
  let code := c.toNat
  (9 ≤ code && code ≤ 13) || code == 0x20 || code == 0x85 || code == 0xA0 || code == 0x1680 ||
    (0x2000 ≤ code && code ≤ 0x200A) || code == 0x2028 || code == 0x2029 || code == 0x202F ||
    code == 0x205F || code == 0x3000

def words (text : Text) : List Text :=
  go [] text
where
  go (word : Text) : Text → List Text
    | [] => if word.isEmpty then [] else [word.reverse]
    | c :: rest =>
        if isBlank c then
          if word.isEmpty then go [] rest else word.reverse :: go [] rest
        else go (c :: word) rest

/-- Whether a text comes before another one in the order of the code points. -/
def isBefore : Text → Text → Bool
  | _, [] => false
  | [], _ :: _ => true
  | c :: rest, d :: others => if c = d then isBefore rest others else c.toNat < d.toNat

/-- Whether a code point lies in one of the ranges. -/
def inRanges (ranges : List (Nat × Nat)) (c : Char) : Bool :=
  ranges.any fun range => range.1 ≤ c.toNat && c.toNat ≤ range.2

end Text

end JinjaLayout
