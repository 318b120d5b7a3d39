import Patom.Foundation.Table
import Patom.Runtime.Types

open Patom.Runtime (PromptRequestId)
open Patom.Foundation

namespace Patom.Approvals

abbrev ApprovalId := Uuid

def APPROVAL_SUMMARY_MAX : Nat := 2048
def MAX_APPROVERS : Nat := 16
def APPROVAL_DEFAULT_TTL : Duration := .fromSecs (24 * 60 * 60)
def APPROVAL_MAX_TTL : Duration := .fromSecs (7 * 24 * 60 * 60)
def APPROVAL_SWEEP_BATCH : Nat := 256
def PLATFORM_MESSAGE_ID_MAX : Nat := 128

@[ext] structure ActionSummary where
  asStr : String
  nonempty : asStr ≠ ""
  bounded : asStr.utf8ByteSize ≤ APPROVAL_SUMMARY_MAX

def ActionSummary.tryFrom (raw : String) : Except ParseError ActionSummary :=
  if h : raw = "" then .error (.empty "action_summary")
  else if h' : raw.utf8ByteSize ≤ APPROVAL_SUMMARY_MAX then .ok ⟨raw, h, h'⟩
  else .error (.tooLong "action_summary" APPROVAL_SUMMARY_MAX raw.utf8ByteSize)

@[ext] structure PlatformMessageId where
  asStr : String
  nonempty : asStr ≠ ""
  bounded : asStr.utf8ByteSize ≤ PLATFORM_MESSAGE_ID_MAX

def PlatformMessageId.tryFrom (raw : String) : Except ParseError PlatformMessageId :=
  if h : raw = "" then .error (.empty "platform_message_id")
  else if h' : raw.utf8ByteSize ≤ PLATFORM_MESSAGE_ID_MAX then .ok ⟨raw, h, h'⟩
  else .error (.tooLong "platform_message_id" PLATFORM_MESSAGE_ID_MAX raw.utf8ByteSize)

inductive ApprovalStatus
  | pending
  | approved
  | denied
  | expired
  deriving DecidableEq

def ApprovalStatus.asStr : ApprovalStatus → String
  | .pending => "pending"
  | .approved => "approved"
  | .denied => "denied"
  | .expired => "expired"

def ApprovalStatus.decided : ApprovalStatus → Bool
  | .approved | .denied => true
  | .pending | .expired => false

inductive Platform
  | discord
  | lark
  | web
  deriving DecidableEq

inductive ApproverKind
  | anyone
  | colleague
  | oneOf
  deriving DecidableEq

inductive ApproverPolicy
  | anyone
  | colleague (c : ColleagueId)
  | oneOf (set : List ColleagueId)
  deriving DecidableEq

def ApproverPolicy.fromIds (ids : List ColleagueId) : Except ParseError ApproverPolicy :=
  if ids = [] then .ok .anyone
  else if MAX_APPROVERS < ids.eraseDups.length then .error (.outOfRange "approvers" "too many approvers")
  else .ok (.oneOf ids.eraseDups)

def ApproverPolicy.kind : ApproverPolicy → ApproverKind
  | .anyone => .anyone
  | .colleague _ => .colleague
  | .oneOf _ => .oneOf

def ApproverPolicy.pinned : ApproverPolicy → Option ColleagueId
  | .colleague c => some c
  | .anyone | .oneOf _ => none

def ApproverPolicy.members : ApproverPolicy → List ColleagueId
  | .oneOf set => set
  | .anyone | .colleague _ => []

def policyAllows (kind : ApproverKind) (pinned : Option ColleagueId) (oneOf : List ColleagueId)
    (clicker : ColleagueId) : Bool :=
  match kind with
  | .anyone => true
  | .colleague => pinned = some clicker
  | .oneOf => clicker ∈ oneOf

def ApproverPolicy.Allows (clicker : ColleagueId) : ApproverPolicy → Prop
  | .anyone => True
  | .colleague c => c = clicker
  | .oneOf set => clicker ∈ set

theorem policyAllows_iff (policy : ApproverPolicy) (clicker : ColleagueId) :
    policyAllows policy.kind policy.pinned policy.members clicker ↔ policy.Allows clicker := by
  cases policy with
  | anyone => exact iff_of_true rfl trivial
  | colleague c => simp [policyAllows, ApproverPolicy.kind, ApproverPolicy.pinned, ApproverPolicy.Allows]
  | oneOf set => exact decide_eq_true_iff

inductive Decision
  | approved
  | denied
  deriving DecidableEq

def Decision.status : Decision → ApprovalStatus
  | .approved => .approved
  | .denied => .denied

def Decision.tag : Decision → Char
  | .approved => 'a'
  | .denied => 'd'

def Decision.fromTag (tag : String) : Option Decision :=
  if tag = "a" then some .approved
  else if tag = "d" then some .denied
  else none

theorem Decision.fromTag_tag (d : Decision) : fromTag (String.singleton d.tag) = some d := by
  cases d <;> decide

@[simp] theorem Decision.decided_status (d : Decision) : d.status.decided = true := by
  cases d <;> rfl

inductive PlatformTarget
  | web
  | discord (applicationId containerId : String) (replyTo : Option String)
  | lark (appId chatId : String) (replyTo : Option String)
  deriving DecidableEq

def PlatformTarget.platform : PlatformTarget → Platform
  | .web => .web
  | .discord .. => .discord
  | .lark .. => .lark

def PlatformTarget.columns : PlatformTarget → Option String × Option String × Option String
  | .web => (none, none, none)
  | .discord app container replyTo => (some app, some container, replyTo)
  | .lark app chat replyTo => (some app, some chat, replyTo)

inductive ApprovalError
  | notFound
  | notPending
  | unauthorized
  | expired
  | backend (detail : String)
  | parse (e : ParseError)
  | db (constraint : String)
  deriving DecidableEq

structure PendingApproval where
  id : ApprovalId
  orgId : OrgId
  threadId : ThreadId
  requestingAgentId : AgentId
  requestingColleagueId : ColleagueId
  rootRequestId : PromptRequestId
  actionSummary : ActionSummary
  gatedTool : ToolName
  approverKind : ApproverKind
  approverColleague : Option ColleagueId
  status : ApprovalStatus
  platform : Platform
  platformAppId : Option String
  platformContainer : Option String
  platformReplyTo : Option String
  platformMessageId : Option PlatformMessageId
  idempotencyKey : String
  decidedByColleague : Option ColleagueId
  decidedAt : Option Time
  expiresAt : Time
  createdAt : Time
  decidedConsistency : decidedByColleague.isSome = status.decided ∧ decidedAt.isSome = status.decided
  approverConsistency : approverColleague.isSome ↔ approverKind = .colleague

structure NewApproval where
  id : ApprovalId
  threadId : ThreadId
  requestingAgentId : AgentId
  requestingColleagueId : ColleagueId
  rootRequestId : PromptRequestId
  actionSummary : ActionSummary
  gatedTool : ToolName
  approvers : ApproverPolicy
  target : PlatformTarget
  idempotencyKey : String
  expiresAt : Time

theorem ApproverPolicy.pinned_isSome (policy : ApproverPolicy) :
    policy.pinned.isSome ↔ policy.kind = .colleague := by
  cases policy <;> simp [pinned, kind]

structure GatedTool where
  agentId : AgentId
  toolName : ToolName
  orgId : OrgId
  createdAt : Time
  deriving DecidableEq

instance : Keyed PendingApproval ApprovalId := ⟨(·.id)⟩
instance : Keyed GatedTool (AgentId × ToolName) := ⟨fun g => (g.agentId, g.toolName)⟩

structure ApprovalDb where
  pendingApproval : Table PendingApproval
  approvers : List (ApprovalId × ColleagueId)
  gatedTools : Table GatedTool

def ApprovalDb.empty : ApprovalDb := ⟨.empty, [], .empty⟩

inductive CreateOutcome
  | created (record : PendingApproval)
  | existing (record : PendingApproval)

inductive DecideOutcome
  | decided (record : PendingApproval)
  | alreadyDecided (record : PendingApproval)

def NewApproval.row (new : NewApproval) (org : OrgId) (now : Time) : PendingApproval where
  id := new.id
  orgId := org
  threadId := new.threadId
  requestingAgentId := new.requestingAgentId
  requestingColleagueId := new.requestingColleagueId
  rootRequestId := new.rootRequestId
  actionSummary := new.actionSummary
  gatedTool := new.gatedTool
  approverKind := new.approvers.kind
  approverColleague := new.approvers.pinned
  status := .pending
  platform := new.target.platform
  platformAppId := new.target.columns.1
  platformContainer := new.target.columns.2.1
  platformReplyTo := new.target.columns.2.2
  platformMessageId := none
  idempotencyKey := new.idempotencyKey
  decidedByColleague := none
  decidedAt := none
  expiresAt := new.expiresAt
  createdAt := now
  decidedConsistency := ⟨rfl, rfl⟩
  approverConsistency := new.approvers.pinned_isSome

def selectByIdem (org : OrgId) (idem : String) (db : ApprovalDb) : Option PendingApproval :=
  db.pendingApproval.rows.find? fun r => r.orgId = org && r.idempotencyKey = idem

def insertApprovers (id : ApprovalId) (members : List ColleagueId)
    (approvers : List (ApprovalId × ColleagueId)) : List (ApprovalId × ColleagueId) :=
  members.foldl (fun rows c => if (id, c) ∈ rows then rows else rows ++ [(id, c)]) approvers

def create (org : OrgId) (now : Time) (new : NewApproval) (db : ApprovalDb) :
    Except ApprovalError (ApprovalDb × CreateOutcome) :=
  match selectByIdem org new.idempotencyKey db with
  | some record => .ok (db, .existing record)
  | none =>
    match db.pendingApproval.insert? (new.row org now) with
    | none => .error (.db "pending_approval_pkey")
    | some pendingApproval =>
      let approvers := insertApprovers new.id new.approvers.members db.approvers
      .ok ({ db with pendingApproval, approvers }, .created (new.row org now))

def setMessage (org : OrgId) (id : ApprovalId) (message : PlatformMessageId) (r : PendingApproval) :
    PendingApproval :=
  if r.id = id ∧ r.orgId = org then { r with platformMessageId := some message } else r

theorem setMessage_key (org : OrgId) (id : ApprovalId) (message : PlatformMessageId)
    (r : PendingApproval) : key (setMessage org id message r) = key r := by
  unfold setMessage
  split <;> rfl

def read (org : OrgId) (id : ApprovalId) (db : ApprovalDb) : Except ApprovalError PendingApproval :=
  match (db.pendingApproval.find? id).filter fun r => r.orgId = org with
  | none => .error .notFound
  | some record => .ok record

def attachMessage (org : OrgId) (id : ApprovalId) (message : PlatformMessageId) (db : ApprovalDb) :
    Except ApprovalError ApprovalDb :=
  (read org id db).map fun _ =>
    let pendingApproval := db.pendingApproval.modify (setMessage org id message)
      (setMessage_key org id message)
    { db with pendingApproval }

def selectApproverIds (id : ApprovalId) (db : ApprovalDb) : List ColleagueId :=
  (db.approvers.filter (·.1 = id)).map (·.2)

def PendingApproval.decide (r : PendingApproval) (decision : Decision) (clicker : ColleagueId)
    (now : Time) : PendingApproval :=
  { r with
    status := decision.status
    decidedByColleague := some clicker
    decidedAt := some now
    decidedConsistency := by simp }

def setDecided (org : OrgId) (id : ApprovalId) (decision : Decision) (clicker : ColleagueId)
    (now : Time) (r : PendingApproval) : PendingApproval :=
  if r.id = id ∧ r.orgId = org ∧ r.status = .pending then r.decide decision clicker now else r

theorem setDecided_key (org : OrgId) (id : ApprovalId) (decision : Decision) (clicker : ColleagueId)
    (now : Time) (r : PendingApproval) : key (setDecided org id decision clicker now r) = key r := by
  unfold setDecided
  split <;> rfl

def PendingApproval.allows (r : PendingApproval) (clicker : ColleagueId) (db : ApprovalDb) : Bool :=
  let oneOf := if r.approverKind = .oneOf then selectApproverIds r.id db else []
  policyAllows r.approverKind r.approverColleague oneOf clicker

/-- The row stays locked from its read to the update. -/
def decide (org : OrgId) (id : ApprovalId) (decision : Decision) (clicker : ColleagueId) (now : Time)
    (db : ApprovalDb) : Except ApprovalError (ApprovalDb × DecideOutcome) := do
  let record ← read org id db
  match record.status with
  | .approved | .denied => .ok (db, .alreadyDecided record)
  | .expired => .error .expired
  | .pending =>
    if record.expiresAt ≤ now then .error .expired
    else if record.allows clicker db then
      let pendingApproval := db.pendingApproval.modify (setDecided org id decision clicker now)
        (setDecided_key org id decision clicker now)
      .ok ({ db with pendingApproval }, .decided (record.decide decision clicker now))
    else .error .unauthorized

def isOverdue (now : Time) (r : PendingApproval) : Bool := r.status = .pending ∧ r.expiresAt ≤ now

/-- What the sweep's subselect may return: it skips the rows that others have locked. -/
structure SweepBatch (now : Time) (db : ApprovalDb) (batch : List ApprovalId) : Prop where
  nodup : batch.Nodup
  length : batch.length ≤ APPROVAL_SWEEP_BATCH
  overdue : batch.all fun id => (db.pendingApproval.find? id).any (isOverdue now)

theorem sweepBatch_iff {now : Time} {db : ApprovalDb} {batch : List ApprovalId} :
    SweepBatch now db batch ↔ batch.Nodup ∧ batch.length ≤ APPROVAL_SWEEP_BATCH ∧
      batch.all fun id => (db.pendingApproval.find? id).any (isOverdue now) :=
  ⟨fun h => ⟨h.nodup, h.length, h.overdue⟩, fun ⟨h, h', h''⟩ => ⟨h, h', h''⟩⟩

instance (now : Time) (db : ApprovalDb) (batch : List ApprovalId) :
    Decidable (SweepBatch now db batch) :=
  decidable_of_iff _ sweepBatch_iff.symm

def setExpired (batch : List ApprovalId) (r : PendingApproval) : PendingApproval :=
  if h : r.id ∈ batch ∧ r.status = .pending then
    { r with
      status := .expired
      decidedConsistency := by
        have hconsistent := r.decidedConsistency
        rwa [h.2] at hconsistent }
  else r

theorem setExpired_key (batch : List ApprovalId) (r : PendingApproval) :
    key (setExpired batch r) = key r := by
  unfold setExpired
  split <;> rfl

def expireDue (batch : List ApprovalId) (db : ApprovalDb) : ApprovalDb :=
  { db with pendingApproval := db.pendingApproval.modify (setExpired batch) (setExpired_key batch) }

def hasApprovedForDag (org : OrgId) (root : PromptRequestId) (tool : ToolName) (db : ApprovalDb) : Bool :=
  db.pendingApproval.rows.any fun r =>
    r.rootRequestId = root ∧ r.orgId = org ∧ r.status = .approved ∧ r.gatedTool = tool

def isGated (org : OrgId) (agent : AgentId) (tool : ToolName) (db : ApprovalDb) : Bool :=
  db.gatedTools.rows.any fun g => g.agentId = agent ∧ g.orgId = org ∧ g.toolName = tool

def setGated (org : OrgId) (now : Time) (agent : AgentId) (tool : ToolName) (db : ApprovalDb) :
    ApprovalDb :=
  match db.gatedTools.insert? ⟨agent, tool, org, now⟩ with
  | some gatedTools => { db with gatedTools }
  | none => db

def unsetGated (org : OrgId) (agent : AgentId) (tool : ToolName) (db : ApprovalDb) : ApprovalDb :=
  { db with gatedTools := db.gatedTools.delete fun g =>
      g.agentId = agent ∧ g.toolName = tool ∧ g.orgId = org }

inductive GateOutcome
  | allowed
  | blocked (reason : String)
  deriving DecidableEq

def blockedMessage (tool : ToolName) : String :=
  "`" ++ tool.asStr ++ "` is an approval-gated action. Call `ask_approval` with " ++
    "`gated_tool` set to `" ++ tool.asStr ++ "`, wait for a human to approve, then " ++
    "retry — it cannot run without an approved decision in this conversation."

def afterConfig (tool : ToolName) : Except ApprovalError Bool → Option GateOutcome
  | .ok false => some .allowed
  | .ok true => none
  | .error _ => some (.blocked (blockedMessage tool))

def afterLookup (tool : ToolName) : Except ApprovalError Bool → GateOutcome
  | .ok true => .allowed
  | .ok false | .error _ => .blocked (blockedMessage tool)

/-- `HardApprovalGate::check` over the results of its two reads. -/
def check (tool : ToolName) (gated approved : Except ApprovalError Bool) : GateOutcome :=
  (afterConfig tool gated).getD (afterLookup tool approved)

end Patom.Approvals
