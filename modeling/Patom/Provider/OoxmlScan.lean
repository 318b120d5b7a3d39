import Patom.Text

namespace Patom.Provider

inductive Entity
  | amp
  | lt
  | gt
  | quot
  | apos
  deriving DecidableEq

namespace Entity

def ALL : List Entity := [.amp, .lt, .gt, .quot, .apos]

def name : Entity → List Char
  | .amp => "amp;".toList
  | .lt => "lt;".toList
  | .gt => "gt;".toList
  | .quot => "quot;".toList
  | .apos => "apos;".toList

def char : Entity → Char
  | .amp => '&'
  | .lt => '<'
  | .gt => '>'
  | .quot => Char.ofNat 34
  | .apos => Char.ofNat 39

end Entity

def decodeEntity (tail : List Char) : Char × List Char :=
  match Entity.ALL.find? fun e => e.name.isPrefixOf tail with
  | some e => (e.char, tail.drop e.name.length)
  | none => ('&', tail)

/-- The first argument is the steps the assertion still allows. -/
def unescapeLoop : Nat → List Char → List Char → Except String (List Char)
  | 0, _, _ => .error "entity scan is bounded by input length"
  | fuel + 1, out, rest =>
    match splitOnce ['&'] rest with
    | none => .ok (out ++ rest)
    | some (before, tail) =>
      unescapeLoop fuel (out ++ before ++ [(decodeEntity tail).1]) (decodeEntity tail).2

def pushUnescaped (out s : List Char) : Except String (List Char) :=
  if '&' ∈ s then unescapeLoop (byteLen s + 1) out s else .ok (out ++ s)

def endsName (c : Char) : Bool := isWhitespace c || c = '/'

def tagName (tag : List Char) : List Char :=
  if tag.head? = some '/' then '/' :: tag.tail.takeWhile (!endsName ·) else tag.takeWhile (!endsName ·)

inductive TagAct
  | openText
  | closeText
  | push (c : Char)
  | skip
  deriving DecidableEq

def docxTag (name : List Char) : TagAct :=
  if name = "w:t".toList then .openText
  else if name = "/w:t".toList then .closeText
  else if name = "w:tab".toList then .push '\t'
  else if name = "w:br".toList ∨ name = "w:cr".toList ∨ name = "/w:p".toList then .push '\n'
  else .skip

def pptxTag (name : List Char) : TagAct :=
  if name = "a:t".toList then .openText
  else if name = "/a:t".toList then .closeText
  else if name = "a:br".toList ∨ name = "/a:p".toList then .push '\n'
  else .skip

namespace TagAct

def inside : TagAct → Bool → Bool
  | .openText, _ => true
  | .closeText, _ => false
  | _, inside => inside

def pushed : TagAct → List Char
  | .push c => [c]
  | _ => []

end TagAct

/-- One loop for both formats: `act` is its `match` on the name of a tag, and `message` is that of
its assertion, whose steps are the first argument. -/
def scanTags (act : List Char → TagAct) (message : String) :
    Nat → Bool → List Char → List Char → Except String (List Char)
  | 0, _, _, _ => .error message
  | fuel + 1, insideText, rest, out =>
    match splitOnce ['<'] rest with
    | none => .ok out
    | some (text, after) =>
      match if insideText then pushUnescaped out text else .ok out with
      | .error e => .error e
      | .ok out =>
        match splitOnce ['>'] after with
        | none => .ok out
        | some (tag, rest) =>
          let did := act (tagName tag)
          scanTags act message fuel (did.inside insideText) rest (out ++ did.pushed)

def pptxXmlToText (xml out : List Char) : Except String (List Char) :=
  scanTags pptxTag "pptx scan is bounded by input length" (byteLen xml + 1) false xml out

def docxXmlToText (xml : List Char) : Except String (List Char) :=
  scanTags docxTag "docx scan is bounded by input length" (byteLen xml + 1) false xml []

end Patom.Provider
