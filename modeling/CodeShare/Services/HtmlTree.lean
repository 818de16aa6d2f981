import CodeShare.Services.EntityDecoding

/-! # Trees of HTML

The HTML of a problem as a tree, and as the list of its pieces: the tags in their order, the texts between them,
and what a step of the conversion has put in their place.
-/

namespace CodeShare
open Rewriting Substitution
set_option autoImplicit false

inductive Tag
  | p | pre | code | ul | li | sup | strong | em
deriving DecidableEq, Repr

def Tag.name : Tag → JsString
  | .p => js "p"
  | .pre => js "pre"
  | .code => js "code"
  | .ul => js "ul"
  | .li => js "li"
  | .sup => js "sup"
  | .strong => js "strong"
  | .em => js "em"

/-- How a `br` is written. -/
inductive BreakForm
  | bare | closed | spaced
deriving DecidableEq, Repr

def BreakForm.label : BreakForm → JsString
  | .bare => js "br"
  | .closed => js "br/"
  | .spaced => js "br /"

inductive Html
  | text (s : JsString)
  | br (form : BreakForm)
  | element (tag : Tag) (children : List Html)

/-- A piece of a text on its way through the conversion; `shown` is text that a step has written. -/
inductive Piece
  | text (s : JsString)
  | shown (s : JsString)
  | opening (tag : Tag)
  | closing (tag : Tag)
  | br (form : BreakForm)
deriving DecidableEq, Repr

mutual
def Html.pieces : Html → List Piece
  | .text s => [.text s]
  | .br form => [.br form]
  | .element tag children => .opening tag :: (piecesOf children ++ [.closing tag])

def piecesOf : List Html → List Piece
  | [] => []
  | node :: nodes => node.pieces ++ piecesOf nodes
end

namespace Piece

/-- What stands between the angle brackets. -/
def label : Piece → JsString
  | .opening tag => tag.name
  | .closing tag => 47 :: tag.name
  | .br form => form.label
  | _ => []

def write : Piece → JsString
  | .text s => escapeHtml s
  | .shown s => s
  | piece => 60 :: (piece.label ++ [62])

/-- What stands there without its tags. -/
def content : Piece → JsString
  | .text s => s
  | .shown s => s
  | _ => []

/-- What is to be read there: `^` stands for an opening `sup`, a backquote for either end of a `code` and `-` for an
opening `li`. -/
def marked : Piece → JsString
  | .opening .sup => js "^"
  | .opening .code => js "`"
  | .closing .code => js "`"
  | .opening .li => js "-"
  | piece => piece.content

def isTag : Piece → Bool
  | .opening _ => true
  | .closing _ => true
  | .br _ => true
  | _ => false

end Piece

/-! ## Pieces rewritten -/

/-- The opening tag and everything up to the next closing tag. -/
def matchElement (tag : Tag) : List Piece → Option ℕ
  | .opening t :: rest =>
    if t = tag ∧ .closing tag ∈ rest then some ((rest.takeWhile (· ≠ .closing tag)).length + 2) else none
  | _ => none

/-- One piece of a kind. -/
def matchPiece (kind : Piece → Bool) : List Piece → Option ℕ
  | piece :: _ => if kind piece then some 1 else none
  | [] => none

/-- What stands between the tags of an element. -/
def inside (element : List Piece) : List Piece := element.tail.dropLast

def contentOf (pieces : List Piece) : JsString := pieces.flatMap Piece.content

def markedOf (pieces : List Piece) : JsString := pieces.flatMap Piece.marked

def markSups (pieces : List Piece) : List Piece :=
  rewrite (matchElement .sup) (fun element => .shown (js "^") :: inside element) pieces

/-- The elements of a kind give way to their content between two signs. -/
def showContent (tag : Tag) (before after : JsString) (tidy : JsString → JsString) (pieces : List Piece) : List Piece :=
  rewrite (matchElement tag) (fun element => [.shown (before ++ tidy (contentOf (inside element)) ++ after)]) pieces

def quoteCodes : List Piece → List Piece := showContent .code (js "`") (js "`") id

def setBlocks : List Piece → List Piece := showContent .pre [10, 10] [10, 10] jsTrim

def listItems : List Piece → List Piece := showContent .li (js "- ") [10] jsTrim

def endParagraphs (pieces : List Piece) : List Piece :=
  rewrite (matchPiece (· = .closing .p)) (fun _ => [.shown [10, 10]]) pieces

def breakLines (pieces : List Piece) : List Piece :=
  rewrite (matchPiece fun | .br _ => true | _ => false) (fun _ => [.shown [10]]) pieces

def dropTags (pieces : List Piece) : List Piece := rewrite (matchPiece Piece.isTag) (fun _ => []) pieces

/-! ## Texts that stay as they are -/

/-- No letter of `s` starts a tag in `s ++ rest`. -/
def TagFree (s rest : JsString) : Prop := ∀ a b, s = a ++ b → b ≠ [] → matchTag (b ++ rest) = none

def entities : List JsString :=
  [js "&nbsp;", js "&lt;", js "&gt;", js "&amp;", js "&quot;", js "&#39;"]

/-- The text spells no entity. -/
def EntityFree (s : JsString) : Prop := ∀ entity ∈ entities, ¬ entity <:+: s

/-- What a step has written is not the beginning of a tag. -/
def Quiet (pieces : List Piece) : Prop :=
  ∀ front s back, pieces = front ++ .shown s :: back → TagFree s (back.flatMap Piece.write)

/-! ## Trees written out -/

/-- The HTML of a list of trees. -/
def htmlOf (nodes : List Html) : JsString := (piecesOf nodes).flatMap Piece.write

mutual
/-- The text of a tree with its marks. -/
def Html.problemText : Html → JsString
  | .text s => s
  | .br _ => []
  | .element tag children =>
    (Piece.opening tag).marked ++ problemTextOf children ++ (Piece.closing tag).marked

def problemTextOf : List Html → JsString
  | [] => []
  | node :: nodes => node.problemText ++ problemTextOf nodes
end

end CodeShare
