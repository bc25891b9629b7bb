import JinjaLayout.Text.Basic

/-!
A template is written as fragments. Text is put down as it is; a gap becomes a blank unless there is
one already; a fresh tag that starts a line keeps the line to itself.
-/

namespace JinjaLayout.Writing

/-- A part of the written form of a template. -/
inductive Fragment where
  | text (content : Text)
  | gap
  | fresh (parts : List Fragment)

/-- The text written so far, last character first, and whether a newline is due before anything
else. -/
structure Page where
  reversed : Text := []
  newlineDue : Bool := false

namespace Page

/-- Writes a text, after the newline that is due unless the text starts with one. -/
def write (page : Page) (text : Text) : Page :=
  match text with
  | [] => page
  | first :: _ =>
      let before :=
        if page.newlineDue && first != '\n' then '\n' :: page.reversed else page.reversed
      { reversed := text.reverse ++ before }

/-- Writes a blank, unless nothing or a blank comes before it. -/
def gap (page : Page) : Page :=
  match page.reversed with
  | [] | ' ' :: _ => page
  | _ => page.write [' ']

def atLineStart (page : Page) : Bool :=
  page.newlineDue || page.reversed.head?.all (· == '\n')

def writtenSince (page earlier : Page) : Text :=
  page.reversed.take (page.reversed.length - earlier.reversed.length)

/-- The text of the page; a newline that is still due is dropped. -/
def text (page : Page) : Text :=
  page.reversed.reverse

end Page

mutual

/-- Writes a fragment. A newline is due after a fresh one that started a line and wrote none. -/
def Fragment.writeOn (page : Page) : Fragment → Page
  | text content => page.write content
  | gap => page.gap
  | fresh parts =>
      let after := Fragment.writeAllOn page parts
      if page.atLineStart && !(after.writtenSince page).contains '\n' then
        { after with newlineDue := true }
      else after

def Fragment.writeAllOn (page : Page) : List Fragment → Page
  | [] => page
  | fragment :: fragments => Fragment.writeAllOn (fragment.writeOn page) fragments

end

def Fragment.textOf (fragments : List Fragment) : Text :=
  (Fragment.writeAllOn {} fragments).text

end JinjaLayout.Writing
