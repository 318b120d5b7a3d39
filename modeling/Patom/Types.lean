import Mathlib.Algebra.Order.BigOperators.Group.List
import Mathlib.Data.String.Basic
import Mathlib.Tactic

namespace Patom

abbrev Uuid := BitVec 128

instance : LawfulBEq Uuid := inferInstance

abbrev OrgId := Uuid
abbrev UserId := Uuid
abbrev AgentId := Uuid
abbrev ColleagueId := Uuid
abbrev ThreadId := Uuid
abbrev ThreadMessageId := Uuid
abbrev AgentThreadId := Uuid
abbrev BackgroundTurnId := Uuid

/-- Microseconds since the epoch, the resolution of `TIMESTAMPTZ`. -/
abbrev Time := Nat

abbrev Duration := Nat

def Duration.fromSecs (n : Nat) : Duration := n * 1000000

def Uuid.nibble (u : Uuid) (i : Nat) : Nat := u.toNat / 16 ^ i % 16

def Uuid.hex (u : Uuid) (top n : Nat) : List Char :=
  (List.range n).map fun j => Nat.digitChar (u.nibble (top - j))

def Uuid.chars (u : Uuid) : List Char :=
  u.hex 31 8 ++ '-' :: u.hex 23 4 ++ '-' :: u.hex 19 4 ++ '-' :: u.hex 15 4 ++ '-' :: u.hex 11 12

def Uuid.display (u : Uuid) : String := String.ofList u.chars

/-- `Debug` of a `uuid_newtype!`. -/
def Uuid.debug (name : String) (u : Uuid) : String := name ++ "(" ++ u.display ++ ")"

inductive ParseError
  | empty (field : String)
  | tooLong (field : String) (max got : Nat)
  | outOfRange (field detail : String)
  | malformed (field detail : String)
  deriving DecidableEq

def ParseError.display : ParseError → String
  | .empty field => field ++ " is empty"
  | .tooLong field max got => field ++ " too long: max " ++ toString max ++ ", got " ++ toString got
  | .outOfRange field detail => field ++ " out of range: " ++ detail
  | .malformed field detail => field ++ " malformed: " ++ detail

def MAX_TURNS_CAP : Nat := 128

structure MaxTurns where
  get : Nat
  positive : get ≠ 0
  bounded : get ≤ MAX_TURNS_CAP
  deriving DecidableEq

def MaxTurns.tryFrom (n : Nat) : Except ParseError MaxTurns :=
  if h : n = 0 then .error (.outOfRange "max_turns" "must be > 0")
  else if h' : n ≤ MAX_TURNS_CAP then .ok ⟨n, h, h'⟩
  else .error (.outOfRange "max_turns" "exceeds ceiling")

abbrev TurnIndex := Fin MAX_TURNS_CAP

def TurnIndex.ZERO : TurnIndex := ⟨0, by decide⟩

def TOOL_NAME_MAX_LEN : Nat := 64

def toolNameChar (c : Char) : Bool := c.isAlphanum || c == '_' || c == '-'

@[ext] structure ToolName where
  asStr : String
  nonempty : asStr ≠ ""
  bounded : asStr.utf8ByteSize ≤ TOOL_NAME_MAX_LEN
  allowed : asStr.toList.all toolNameChar
  deriving DecidableEq

def ToolName.tryFrom (raw : String) : Except ParseError ToolName :=
  if h : raw = "" then .error (.empty "tool_name")
  else if h' : raw.utf8ByteSize ≤ TOOL_NAME_MAX_LEN then
    if h'' : raw.toList.all toolNameChar then .ok ⟨raw, h, h', h''⟩
    else .error (.malformed "tool_name" "allowed: a-z A-Z 0-9 _ -")
  else .error (.tooLong "tool_name" TOOL_NAME_MAX_LEN raw.utf8ByteSize)

inductive Participant
  | human (colleagueId : ColleagueId) (userId : UserId)
  | agent (colleagueId : ColleagueId) (agentId : AgentId)
  | system
  deriving DecidableEq

def Participant.colleagueId? : Participant → Option ColleagueId
  | .human c _ | .agent c _ => some c
  | .system => none

def Participant.agentId? : Participant → Option AgentId
  | .agent _ a => some a
  | .human .. | .system => none

end Patom

namespace Patom.Auth

inductive Role
  | owner
  | admin
  | member
  deriving DecidableEq

abbrev Email := String
abbrev InviteId := Uuid

abbrev InviteToken := String

abbrev TokenHash := BitVec 256

end Patom.Auth
