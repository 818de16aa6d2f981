import CodeShare.Services.Parsers
import CodeShare.Text.RegExp

/-! # Text from HTML

The functions of `scraper/parsers.ts` that read the HTML of a problem. A lazy group ends at the first place where
the rest of the expression matches; in front of a `\s*` that is the first white space of the run.
-/

namespace CodeShare
open Rewriting
set_option autoImplicit false

def decodeHtmlEntities (text : JsString) : JsString :=
  replaceAll (js "&#39;") (js "'")
    (replaceAll (js "&quot;") (js "\"")
      (replaceAll (js "&amp;") (js "&")
        (replaceAll (js "&gt;") (js ">")
          (replaceAll (js "&lt;") (js "<")
            (replaceAll (js "&nbsp;") (js " ") text)))))

/-- `/<[^>]+>/` -/
def matchTag : JsString → Option ℕ
  | 60 :: rest =>
    let name := rest.takeWhile (· ≠ 62)
    if name = [] ∨ 62 ∉ rest then none else some (name.length + 2)
  | _ => none

def removeTags (text : JsString) : JsString := rewrite matchTag (fun _ => []) text

def stripTags (text : JsString) : JsString := decodeHtmlEntities (removeTags text)

/-! ## Problem texts -/

/-- What the group of an element captures. -/
def innerText (opening closing element : JsString) : JsString :=
  (element.drop opening.length).take (element.length - opening.length - closing.length)

/-- `/<sup>(.*?)<\/sup>/i`; the dot matches no line terminator. -/
def matchSup (text : JsString) : Option ℕ :=
  (matchBetween (js "<sup>") (js "</sup>") text).filter fun n =>
    !(innerText (js "<sup>") (js "</sup>") (text.take n)).any isLineTerminator

/-- `/<br\s*\/?>/i` -/
def matchBr (text : JsString) : Option ℕ :=
  match matchCaseless (js "<br") text with
  | none => none
  | some n =>
    let spaces := (text.drop n).takeWhile isRegexSpace
    match (text.drop n).dropWhile isRegexSpace with
    | 62 :: _ => some (n + spaces.length + 1)
    | 47 :: 62 :: _ => some (n + spaces.length + 2)
    | _ => none

/-- `/[ \t]+\n/` -/
def matchBlankEnd (text : JsString) : Option ℕ :=
  let blanks := text.takeWhile fun c => c = 32 || c = 9
  if blanks ≠ [] ∧ (text.drop blanks.length).head? = some 10 then some (blanks.length + 1) else none

/-- `/\n{3,}/` -/
def matchBlankLines (text : JsString) : Option ℕ :=
  let lines := text.takeWhile (· = 10)
  if 3 ≤ lines.length then some lines.length else none

def htmlToProblemText (html : JsString) : JsString :=
  let text := rewrite matchSup (fun element => js "^" ++ innerText (js "<sup>") (js "</sup>") element) html
  let text := rewrite (matchBetween (js "<code>") (js "</code>"))
    (fun element => js "`" ++ stripTags (innerText (js "<code>") (js "</code>") element) ++ js "`") text
  let text := rewrite (matchBetween (js "<pre>") (js "</pre>"))
    (fun element => [10, 10] ++ jsTrim (stripTags (innerText (js "<pre>") (js "</pre>") element)) ++ [10, 10]) text
  let text := rewrite (matchBetween (js "<li>") (js "</li>"))
    (fun element => js "- " ++ jsTrim (stripTags (innerText (js "<li>") (js "</li>") element)) ++ [10]) text
  let text := rewrite (matchCaseless (js "</p>")) (fun _ => [10, 10]) text
  let text := rewrite matchBr (fun _ => [10]) text
  let text := removeTags text
  let text := rewrite matchBlankEnd (fun _ => [10]) text
  let text := rewrite matchBlankLines (fun _ => [10, 10]) text
  decodeHtmlEntities (jsTrim text)

/-! ## Examples -/

/-- `/Input:\s*([\s\S]*?)\s*Output:\s*([\s\S]*?)(?:\s*Explanation:|$)/i`, with its two groups. -/
def matchExample (cleaned : JsString) : Option (JsString × JsString) :=
  match caselessIndex (js "Input:") cleaned with
  | none => none
  | some inputAt =>
    let behindInput := cleaned.drop (inputAt + 6)
    match caselessIndex (js "Output:") behindInput with
    | none => none
    | some outputAt =>
      let behindOutput := behindInput.drop (outputAt + 7)
      match caselessIndex (js "Explanation:") behindOutput with
      | some explanationAt =>
        some (jsTrim (behindInput.take outputAt), jsTrim (behindOutput.take explanationAt))
      | none => some (jsTrim (behindInput.take outputAt), behindOutput.dropWhile isRegexSpace)

def parseExampleBlock (block : JsString) : Except JsString ExampleBlock :=
  match matchExample (jsTrim (block.filter (· ≠ 13))) with
  | none => .error (js "Failed to parse imported example test cases.")
  | some (input, output) => .ok ⟨jsTrim input, jsTrim output⟩

def extractExampleBlocks (content : JsString) : Except JsString (List ExampleBlock) :=
  ((allMatches (matchBetween (js "<pre>") (js "</pre>")) content).map fun element =>
    jsTrim (stripTags (innerText (js "<pre>") (js "</pre>") element))).mapM parseExampleBlock

end CodeShare
