import Patom.Foundation.Table
import Patom.Provider.Chat
import Patom.Runtime.Types

open Patom.Foundation
open Patom.Provider (ChatMessage)
open Patom.Runtime (PromptRequestId)

namespace Patom.Background

inductive BackgroundError
  | notFound (turn : BackgroundTurnId)
  | backend (detail : String)
  | db (constraint : String)
  deriving DecidableEq

def BackgroundError.display : BackgroundError → String
  | .notFound turn => "background turn " ++ turn.debug "BackgroundTurnId" ++ " not found"
  | .backend detail => "background store backend error: " ++ detail
  | .db constraint => "background store db error: " ++ constraint

structure BackgroundTurn where
  id : BackgroundTurnId
  agentId : AgentId
  orgId : OrgId
  createdAt : Time
  deriving DecidableEq

structure NewBackgroundMessage where
  sender : Option ColleagueId
  body : ChatMessage
  requestId : Option PromptRequestId
  deriving DecidableEq

structure BackgroundTurnMessage extends NewBackgroundMessage where
  turnId : BackgroundTurnId
  seq : Nat
  orgId : OrgId
  createdAt : Time
  deriving DecidableEq

instance backgroundTurnKeyed : Keyed BackgroundTurn BackgroundTurnId := ⟨(·.id)⟩
instance backgroundTurnMessageKeyed : Keyed BackgroundTurnMessage (BackgroundTurnId × Nat) :=
  ⟨fun m => (m.turnId, m.seq)⟩

structure BackgroundDb where
  backgroundTurns : Table BackgroundTurn
  backgroundTurnMessages : Table BackgroundTurnMessage
  deriving DecidableEq

def BackgroundDb.empty : BackgroundDb := ⟨.empty, .empty⟩

def createTurn (id : BackgroundTurnId) (now : Time) (org : OrgId) (agent : AgentId)
    (db : BackgroundDb) : Except BackgroundError (BackgroundDb × BackgroundTurnId) :=
  match db.backgroundTurns.insert? ⟨id, agent, org, now⟩ with
  | some backgroundTurns => .ok ({ db with backgroundTurns }, id)
  | none => .error (.db "background_turns_pkey")

def messagesOf (turn : BackgroundTurnId) (db : BackgroundDb) : List BackgroundTurnMessage :=
  db.backgroundTurnMessages.rows.filter fun m => m.turnId = turn

def lastSeq (turn : BackgroundTurnId) (db : BackgroundDb) : Nat :=
  ((messagesOf turn db).map (·.seq)).max?.getD 0

def append (now : Time) (turn : BackgroundTurnId) (message : NewBackgroundMessage)
    (db : BackgroundDb) : Except BackgroundError (BackgroundDb × Nat) :=
  match db.backgroundTurns.find? turn with
  | none => .error (.notFound turn)
  | some bt =>
    let seq := lastSeq turn db + 1
    match db.backgroundTurnMessages.insert? ⟨message, turn, seq, bt.orgId, now⟩ with
    | some backgroundTurnMessages => .ok ({ db with backgroundTurnMessages }, seq)
    | none => .error (.db "background_turn_messages_pkey")

def context (turn : BackgroundTurnId) (db : BackgroundDb) : List ChatMessage :=
  ((messagesOf turn db).insertionSort fun m m' => m.seq ≤ m'.seq).map (·.body)

section Laws

variable {now : Time} {turn : BackgroundTurnId} {message : NewBackgroundMessage}
  {db db' : BackgroundDb}

theorem createTurn_ok {id id' : BackgroundTurnId} {org : OrgId} {agent : AgentId}
    (h : createTurn id now org agent db = .ok (db', id')) :
    id' = id ∧ db.backgroundTurns.insert? ⟨id, agent, org, now⟩ = some db'.backgroundTurns ∧
      db'.backgroundTurnMessages = db.backgroundTurnMessages := by
  unfold createTurn at h
  split at h
  case h_1 hins =>
    cases h
    exact ⟨rfl, hins, rfl⟩
  case h_2 => cases h

theorem lastSeq_eq_zero (h : ∀ m ∈ db.backgroundTurnMessages, m.turnId ≠ turn) :
    lastSeq turn db = 0 := by
  have hnone : messagesOf turn db = [] :=
    List.filter_eq_nil_iff.mpr fun m hm => by simpa using h m hm
  rw [lastSeq, hnone]
  rfl

theorem append_ok {n : Nat} (h : append now turn message db = .ok (db', n)) :
    (db.backgroundTurns.find? turn).isSome ∧ n = lastSeq turn db + 1 ∧
      db'.backgroundTurns = db.backgroundTurns ∧ ∃ m : BackgroundTurnMessage,
        m.turnId = turn ∧ m.seq = n ∧ m.toNewBackgroundMessage = message ∧
        db.backgroundTurnMessages.insert? m = some db'.backgroundTurnMessages := by
  unfold append at h
  split at h
  case h_1 => cases h
  case h_2 bt hbt =>
    dsimp only at h
    split at h
    case h_2 => cases h
    case h_1 hins =>
      cases h
      exact ⟨Option.isSome_of_eq_some hbt, rfl, rfl, _, rfl, rfl, rfl, hins⟩

end Laws

end Patom.Background
