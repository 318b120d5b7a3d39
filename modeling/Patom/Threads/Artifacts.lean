import Patom.Foundation.Table
import Patom.Text
import Patom.Types

open Patom.Foundation

namespace Patom.Threads

def MAX_ARTIFACT_SLICE : Nat := 16000
def MAX_ARTIFACT_GREP_SCAN : Nat := 1000000
def I32_MAX : Nat := 2147483647

def isHexDigit (c : Char) : Bool :=
  ('0' ≤ c ∧ c ≤ '9') ∨ ('a' ≤ c ∧ c ≤ 'f') ∨ ('A' ≤ c ∧ c ≤ 'F')

@[ext] structure ArtifactHandle where
  asStr : String
  length : asStr.length = 64

instance : DecidableEq ArtifactHandle := fun _ _ => decidable_of_iff _ ArtifactHandle.ext_iff.symm

def ArtifactHandle.tryFrom (raw : String) : Except ParseError ArtifactHandle :=
  if h : raw.toList.length = 64 ∧ raw.toList.all isHexDigit then
    .ok ⟨String.ofList (raw.toList.map Char.toLower), by simpa using h.1⟩
  else .error (.malformed "artifact_handle" "expected 64 hex chars")

structure ToolArtifact where
  orgId : OrgId
  handle : ArtifactHandle
  fullBody : String
  deriving DecidableEq

instance : Keyed ToolArtifact (OrgId × ArtifactHandle) := ⟨fun a => (a.orgId, a.handle)⟩

inductive ArtifactSelector
  | page (offset limit : Nat)
  | grep (pattern : String) (maxMatches : Nat)

def saveToolArtifact (artifact : ToolArtifact) (artifacts : Table ToolArtifact) : Table ToolArtifact :=
  artifacts.addNew artifact

/-- `substr` of the database, which counts characters from one. -/
def substr (start length : Nat) (body : String) : String :=
  String.ofList ((body.toList.drop (start - 1)).take length)

/-- What is escaped of a text that is quoted for debugging; the tables of Unicode are given. -/
structure EscapeTables where
  isPrintable : Char → Bool
  isGraphemeExtended : Char → Bool

def escapeUnicode (c : Char) : List Char :=
  ['\\', 'u', '\x7b'] ++ Nat.toDigits 16 c.toNat ++ ['\x7d']

def escapeDebug (tables : EscapeTables) (c : Char) : List Char :=
  if c = '\x00' then ['\\', '0']
  else if c = '\t' then ['\\', 't']
  else if c = '\r' then ['\\', 'r']
  else if c = '\n' then ['\\', 'n']
  else if c = '\\' ∨ c = '"' then ['\\', c]
  else if tables.isGraphemeExtended c ∨ !tables.isPrintable c then escapeUnicode c
  else [c]

def quoted (tables : EscapeTables) (text : String) : String :=
  String.ofList (['"'] ++ text.toList.flatMap (escapeDebug tables) ++ ['"'])

def countMatches (pattern : List Char) : Nat → List Char → Nat
  | 0, _ => 0
  | n + 1, text =>
    match splitOnce pattern text with
    | some (_, after) => countMatches pattern n after + 1
    | none => 0

variable (tables : EscapeTables)

def grepHeader (pattern : String) (count : Nat) : String :=
  "[grep " ++ quoted tables pattern ++ ": " ++ toString count ++
    "+ match(es); window from first match]\n"

def grepSlice (body pattern : String) (maxMatches : Nat) : String :=
  if pattern = "" then "[grep: empty pattern]"
  else
    match splitOnce pattern.toList body.toList with
    | none => "[grep: no match for " ++ quoted tables pattern ++ " in artifact]"
    | some (_, after) =>
      let header := grepHeader tables pattern
        (countMatches pattern.toList (max maxMatches 1) body.toList)
      let budget := MAX_ARTIFACT_SLICE - header.length
      header ++ String.ofList ((pattern.toList ++ after).take budget)

def loadToolArtifactSlice (artifacts : Table ToolArtifact) (org : OrgId) (handle : ArtifactHandle) :
    ArtifactSelector → Option String
  | .page offset limit =>
    (artifacts.find? (org, handle)).map fun a =>
      substr (min (offset + 1) I32_MAX) (min limit MAX_ARTIFACT_SLICE) a.fullBody
  | .grep pattern maxMatches =>
    (artifacts.find? (org, handle)).map fun a =>
      grepSlice tables (substr 1 MAX_ARTIFACT_GREP_SCAN a.fullBody) pattern maxMatches

end Patom.Threads
