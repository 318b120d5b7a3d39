import Patom.AgentCore.Dispatch
import Patom.Approvals.Store
import Patom.Foundation.Transition

open Patom.AgentCore (Dispatch startDispatch ToolCallContext ToolOutcome)
open Patom.Foundation
open Patom.Provider (ToolCall ToolResult)
open Patom.Runtime (RequestKind)

namespace Patom.Approvals

instance : Keyed Dispatch Uuid := ⟨(·.id)⟩

structure Filing where
  id : ApprovalId
  policy : ApproverPolicy

instance : Keyed Filing ApprovalId := ⟨(·.id)⟩

structure Verdict where
  before : PendingApproval
  after : PendingApproval

structure Consultation where
  task : Uuid
  required : Bool

structure Desk where
  approvals : ApprovalDb
  dispatches : Table Dispatch
  filings : Table Filing
  verdicts : List Verdict
  consultations : List Consultation
  executed : List Uuid

def Desk.init : Desk := ⟨.empty, .empty, .empty, [], [], []⟩

inductive DeskAct
  | ask (org : OrgId) (now : Time) (new : NewApproval)
  | attach (org : OrgId) (id : ApprovalId) (message : PlatformMessageId)
  | decide (org : OrgId) (id : ApprovalId) (decision : Decision) (clicker : ColleagueId) (now : Time)
  | sweep (now : Time) (batch : List ApprovalId)
  | setGated (org : OrgId) (now : Time) (agent : AgentId) (tool : ToolName)
  | unsetGated (org : OrgId) (agent : AgentId) (tool : ToolName)
  | callTool (task : Uuid) (call : ToolCall) (kind : RequestKind) (ctx : ToolCallContext) (known : Bool)
  | consultConfig (task : Uuid) (fault : Option ApprovalError)
  | consultApprovals (task : Uuid) (fault : Option ApprovalError)
  | execute (task : Uuid) (outcome : ToolOutcome)

def answer (fault : Option ApprovalError) (found : Bool) : Except ApprovalError Bool :=
  match fault with
  | some e => .error e
  | none => .ok found

def requiresApproval (wired : Bool) (d : Dispatch) (db : ApprovalDb) : Bool :=
  wired && d.ctx.viewer.agentId?.any fun agent => isGated d.ctx.orgId agent d.call.name db

section Step

variable (wired : Bool) (reduce : ToolCall → String → ToolResult)

def deskStep : Step Desk DeskAct
  | s, .ask org now new =>
    match create org now new s.approvals with
    | .ok (approvals, .created record) =>
      some { s with approvals, filings := s.filings.put ⟨record.id, new.approvers⟩ }
    | .ok (_, .existing _) | .error _ => some s
  | s, .attach org id message =>
    match attachMessage org id message s.approvals with
    | .ok approvals => some { s with approvals }
    | .error _ => some s
  | s, .decide org id decision clicker now =>
    match read org id s.approvals, decide org id decision clicker now s.approvals with
    | .ok before, .ok (approvals, .decided after) =>
      some { s with approvals, verdicts := s.verdicts ++ [⟨before, after⟩] }
    | _, _ => some s
  | s, .sweep now batch =>
    if SweepBatch now s.approvals batch then
      some { s with approvals := expireDue batch s.approvals }
    else none
  | s, .setGated org now agent tool =>
    some { s with approvals := setGated org now agent tool s.approvals }
  | s, .unsetGated org agent tool =>
    some { s with approvals := unsetGated org agent tool s.approvals }
  | s, .callTool task call kind ctx known =>
    (s.dispatches.insert? (startDispatch task call kind ctx known)).map fun dispatches =>
      { s with dispatches }
  | s, .consultConfig task fault => do
    let d ← s.dispatches.find? task
    let d' ← d.consultConfig wired fun agent =>
      answer fault (isGated d.ctx.orgId agent d.call.name s.approvals)
    let consultation : Consultation := ⟨task, requiresApproval wired d s.approvals⟩
    some { s with dispatches := s.dispatches.put d', consultations := s.consultations ++ [consultation] }
  | s, .consultApprovals task fault => do
    let d ← s.dispatches.find? task
    let d' ← d.consultApprovals
      (answer fault (hasApprovedForDag d.ctx.orgId d.ctx.rootRequestId d.call.name s.approvals))
    some { s with dispatches := s.dispatches.put d' }
  | s, .execute task outcome => do
    let d ← s.dispatches.find? task
    let (_, d') ← d.execute reduce outcome
    some { s with dispatches := s.dispatches.put d', executed := s.executed ++ [task] }

end Step

/-- A status settles once, and nothing moves it after that. -/
def ApprovalStatus.Moves (before after : ApprovalStatus) : Prop :=
  after = before ∨ before = .pending ∧ (after = .approved ∨ after = .denied ∨ after = .expired)

/-- What a row keeps for good. -/
structure PendingApproval.Keeps (r r' : PendingApproval) : Prop where
  id : r'.id = r.id
  orgId : r'.orgId = r.orgId
  rootRequestId : r'.rootRequestId = r.rootRequestId
  gatedTool : r'.gatedTool = r.gatedTool
  approverKind : r'.approverKind = r.approverKind
  approverColleague : r'.approverColleague = r.approverColleague
  expiresAt : r'.expiresAt = r.expiresAt
  moves : r.status.Moves r'.status

theorem PendingApproval.Keeps.refl (r : PendingApproval) : r.Keeps r :=
  ⟨rfl, rfl, rfl, rfl, rfl, rfl, rfl, .inl rfl⟩

theorem ApprovalStatus.Moves.trans {a b c : ApprovalStatus} (h : a.Moves b) (h' : b.Moves c) :
    a.Moves c := by
  rcases h' with rfl | ⟨rfl, h'⟩
  · exact h
  · rcases h with rfl | ⟨rfl, -⟩
    · exact .inr ⟨rfl, h'⟩
    · exact .inr ⟨rfl, h'⟩

theorem ApprovalStatus.Moves.settled {a b : ApprovalStatus} (h : a.Moves b) (ha : a ≠ .pending) :
    b ≠ .pending := by
  rcases h with rfl | ⟨rfl, -⟩
  · exact ha
  · exact absurd rfl ha

theorem PendingApproval.Keeps.trans {r r' r'' : PendingApproval} (h : r.Keeps r') (h' : r'.Keeps r'') :
    r.Keeps r'' where
  id := h'.id.trans h.id
  orgId := h'.orgId.trans h.orgId
  rootRequestId := h'.rootRequestId.trans h.rootRequestId
  gatedTool := h'.gatedTool.trans h.gatedTool
  approverKind := h'.approverKind.trans h.approverKind
  approverColleague := h'.approverColleague.trans h.approverColleague
  expiresAt := h'.expiresAt.trans h.expiresAt
  moves := h.moves.trans h'.moves

theorem setMessage_keeps (org : OrgId) (id : ApprovalId) (message : PlatformMessageId)
    (r : PendingApproval) : r.Keeps (setMessage org id message r) := by
  unfold setMessage
  split
  · exact ⟨rfl, rfl, rfl, rfl, rfl, rfl, rfl, .inl rfl⟩
  · exact .refl r

@[simp] theorem setMessage_status (org : OrgId) (id : ApprovalId) (message : PlatformMessageId)
    (r : PendingApproval) : (setMessage org id message r).status = r.status := by
  unfold setMessage
  split <;> rfl

theorem PendingApproval.decide_keeps {r : PendingApproval} (h : r.status = .pending)
    (decision : Decision) (clicker : ColleagueId) (now : Time) :
    r.Keeps (r.decide decision clicker now) := by
  refine ⟨rfl, rfl, rfl, rfl, rfl, rfl, rfl, .inr ⟨h, ?_⟩⟩
  cases decision with
  | approved => exact .inl rfl
  | denied => exact .inr (.inl rfl)

theorem setDecided_keeps (org : OrgId) (id : ApprovalId) (decision : Decision) (clicker : ColleagueId)
    (now : Time) (r : PendingApproval) : r.Keeps (setDecided org id decision clicker now r) := by
  unfold setDecided
  split
  case isTrue h => exact PendingApproval.decide_keeps h.2.2 decision clicker now
  case isFalse => exact .refl r

theorem setExpired_keeps (batch : List ApprovalId) (r : PendingApproval) :
    r.Keeps (setExpired batch r) := by
  unfold setExpired
  split
  case isTrue h => exact ⟨rfl, rfl, rfl, rfl, rfl, rfl, rfl, .inr ⟨h.2, .inr (.inr rfl)⟩⟩
  case isFalse => exact .refl r

theorem setExpired_approved {batch : List ApprovalId} {r : PendingApproval}
    (h : (setExpired batch r).status = .approved) : r.status = .approved := by
  unfold setExpired at h
  split at h
  case isTrue => cases h
  case isFalse => exact h

theorem read_ok {org : OrgId} {id : ApprovalId} {db : ApprovalDb} {r : PendingApproval}
    (h : read org id db = .ok r) : r ∈ db.pendingApproval ∧ r.id = id ∧ r.orgId = org := by
  unfold read at h
  split at h
  case h_1 => cases h
  case h_2 record hrecord =>
    cases h
    obtain ⟨hfind, horg⟩ := Option.filter_eq_some_iff.mp hrecord
    exact ⟨Table.mem_of_find? hfind, Table.key_of_find? hfind, of_decide_eq_true horg⟩

theorem attachMessage_ok {org : OrgId} {id : ApprovalId} {message : PlatformMessageId}
    {db db' : ApprovalDb} (h : attachMessage org id message db = .ok db') :
    db' = { db with pendingApproval :=
      db.pendingApproval.modify (setMessage org id message) (setMessage_key org id message) } := by
  unfold attachMessage at h
  cases hread : read org id db with
  | error e =>
    rw [hread] at h
    cases h
  | ok r =>
    rw [hread] at h
    cases h
    rfl

theorem decide_decided {org : OrgId} {id : ApprovalId} {decision : Decision} {clicker : ColleagueId}
    {now : Time} {db db' : ApprovalDb} {after : PendingApproval}
    (h : decide org id decision clicker now db = .ok (db', .decided after)) :
    ∃ before, read org id db = .ok before ∧ before.status = .pending ∧ now < before.expiresAt ∧
      before.allows clicker db ∧ after = before.decide decision clicker now ∧
      db'.pendingApproval = db.pendingApproval.modify (setDecided org id decision clicker now)
        (setDecided_key org id decision clicker now) ∧ db'.approvers = db.approvers := by
  unfold decide at h
  cases hread : read org id db with
  | error e => simp [hread, bind, Except.bind] at h
  | ok before =>
    simp only [hread, bind, Except.bind] at h
    split at h
    case h_1 | h_2 | h_3 => cases h
    case h_4 hpending =>
      split at h
      case isTrue => cases h
      case isFalse hintime =>
        split at h
        case isFalse => cases h
        case isTrue hallows =>
          cases h
          exact ⟨before, rfl, hpending, Nat.not_le.mp hintime, hallows, rfl, rfl, rfl⟩

theorem create_created {org : OrgId} {now : Time} {new : NewApproval} {db db' : ApprovalDb}
    {record : PendingApproval} (h : create org now new db = .ok (db', .created record)) :
    record = new.row org now ∧ db.pendingApproval.insert? record = some db'.pendingApproval ∧
      db'.approvers = insertApprovers new.id new.approvers.members db.approvers := by
  unfold create at h
  split at h
  case h_1 => cases h
  case h_2 =>
    split at h
    case h_1 => cases h
    case h_2 hinsert =>
      cases h
      exact ⟨rfl, hinsert, rfl⟩

theorem mem_insertApprovers {id : ApprovalId} {members : List ColleagueId}
    {approvers : List (ApprovalId × ColleagueId)} {entry : ApprovalId × ColleagueId} :
    entry ∈ insertApprovers id members approvers ↔
      entry ∈ approvers ∨ entry.1 = id ∧ entry.2 ∈ members := by
  unfold insertApprovers
  induction members generalizing approvers with
  | nil => simp
  | cons c members ih =>
    rw [List.foldl_cons, ih]
    split
    case isTrue h => grind
    case isFalse h => grind

/-- What one step does to the rows, the histories and the calls. -/
inductive DeskStepped (wired : Bool) (s : Desk) : Desk → Prop
  | idle : DeskStepped wired s s
  | filed {approvals : ApprovalDb} {record : PendingApproval} {policy : ApproverPolicy} :
      record.status = .pending → record.approverKind = policy.kind →
      record.approverColleague = policy.pinned →
      s.approvals.pendingApproval.insert? record = some approvals.pendingApproval →
      approvals.approvers = insertApprovers record.id policy.members s.approvals.approvers →
      DeskStepped wired s { s with approvals, filings := s.filings.put ⟨record.id, policy⟩ }
  | moved {approvals : ApprovalDb} (f : PendingApproval → PendingApproval)
      (hf : ∀ r, key (f r) = key r) : (∀ r : PendingApproval, r.Keeps (f r)) →
      (∀ r, (f r).status = .approved → r.status = .approved) →
      approvals.pendingApproval = s.approvals.pendingApproval.modify f hf →
      approvals.approvers = s.approvals.approvers → DeskStepped wired s { s with approvals }
  | decided {approvals : ApprovalDb} {before : PendingApproval} {decision : Decision}
      {clicker : ColleagueId} {now : Time} : before ∈ s.approvals.pendingApproval →
      before.status = .pending → now < before.expiresAt → before.allows clicker s.approvals →
      approvals.pendingApproval = s.approvals.pendingApproval.modify
        (setDecided before.orgId before.id decision clicker now)
        (setDecided_key before.orgId before.id decision clicker now) →
      approvals.approvers = s.approvals.approvers →
      DeskStepped wired s { s with
        approvals
        verdicts := s.verdicts ++ [⟨before, before.decide decision clicker now⟩] }
  | called {dispatches : Table Dispatch} {d : Dispatch} :
      d.pc = .resolved ∨ (∃ r, d.pc = .returned r) → s.dispatches.insert? d = some dispatches →
      DeskStepped wired s { s with dispatches }
  | consulted {d : Dispatch} {pc : AgentCore.DispatchPc} : d ∈ s.dispatches → d.pc = .resolved →
      pc = .gated ∧ requiresApproval wired d s.approvals = true ∨
        pc = .allowed false ∧ requiresApproval wired d s.approvals = false ∨
        (∃ r, pc = .returned r) →
      DeskStepped wired s { s with
        dispatches := s.dispatches.put { d with pc }
        consultations := s.consultations ++ [⟨d.id, requiresApproval wired d s.approvals⟩] }
  | looked {d : Dispatch} {pc : AgentCore.DispatchPc} : d ∈ s.dispatches → d.pc = .gated →
      pc = .allowed true ∧
        hasApprovedForDag d.ctx.orgId d.ctx.rootRequestId d.call.name s.approvals = true ∨
        (∃ r, pc = .returned r) →
      DeskStepped wired s { s with dispatches := s.dispatches.put { d with pc } }
  | executed {d : Dispatch} {gated : Bool} {r : ToolResult} : d ∈ s.dispatches →
      d.pc = .allowed gated →
      DeskStepped wired s { s with
        dispatches := s.dispatches.put { d with pc := .returned r }
        executed := s.executed ++ [d.id] }

variable {wired : Bool} {reduce : ToolCall → String → ToolResult} {s t : Desk}

theorem consultConfig_cases {d d' : Dispatch} {fault : Option ApprovalError}
    (h : d.consultConfig wired (fun agent =>
      answer fault (isGated d.ctx.orgId agent d.call.name s.approvals)) = some d') :
    d.pc = .resolved ∧ ∃ pc, d' = { d with pc } ∧
      (pc = .gated ∧ requiresApproval wired d s.approvals = true ∨
        pc = .allowed false ∧ requiresApproval wired d s.approvals = false ∨ ∃ r, pc = .returned r) := by
  unfold Dispatch.consultConfig at h
  split at h
  case h_2 => cases h
  case h_1 hpc =>
    refine ⟨hpc, ?_⟩
    split at h
    case h_1 hnone =>
      cases h
      refine ⟨_, rfl, .inr (.inl ⟨rfl, ?_⟩)⟩
      unfold requiresApproval
      cases wired with
      | false => rfl
      | true =>
        rw [if_pos rfl] at hnone
        rw [hnone]
        rfl
    case h_2 agent hagent =>
      obtain ⟨rfl, hviewer⟩ : wired = true ∧ d.ctx.viewer.agentId? = some agent := by
        cases wired with
        | false => cases hagent
        | true => exact ⟨rfl, hagent⟩
      have hrequires : requiresApproval true d s.approvals =
          isGated d.ctx.orgId agent d.call.name s.approvals := by
        simp [requiresApproval, hviewer]
      rw [hrequires]
      cases fault with
      | some e =>
        cases h
        exact ⟨_, rfl, .inr (.inr ⟨_, rfl⟩)⟩
      | none =>
        cases hgated : isGated d.ctx.orgId agent d.call.name s.approvals with
        | true =>
          simp only [answer, hgated, afterConfig] at h
          cases h
          exact ⟨_, rfl, .inl ⟨rfl, rfl⟩⟩
        | false =>
          simp only [answer, hgated, afterConfig] at h
          cases h
          exact ⟨_, rfl, .inr (.inl ⟨rfl, rfl⟩)⟩

theorem deskStep_stepped {a : DeskAct} (h : deskStep wired reduce s a = some t) :
    DeskStepped wired s t := by
  cases a with
  | ask org now new =>
    simp only [deskStep] at h
    split at h
    case h_1 hcreate =>
      cases h
      obtain ⟨rfl, hinsert, happrovers⟩ := create_created hcreate
      exact .filed rfl rfl rfl hinsert happrovers
    case h_2 | h_3 =>
      cases h
      exact .idle
  | attach org id message =>
    simp only [deskStep] at h
    split at h
    case h_2 =>
      cases h
      exact .idle
    case h_1 hattach =>
      cases h
      have hrows := attachMessage_ok hattach
      subst hrows
      refine .moved _ (setMessage_key org id message) (setMessage_keeps org id message)
        (fun r h => ?_) rfl rfl
      rwa [setMessage_status] at h
  | decide org id decision clicker now =>
    simp only [deskStep] at h
    split at h
    case h_2 =>
      cases h
      exact .idle
    case h_1 before hread hdecide =>
      cases h
      obtain ⟨before', hread', hpending, hintime, hallows, rfl, hrows, happrovers⟩ :=
        decide_decided hdecide
      obtain rfl := Except.ok.inj (hread.symm.trans hread')
      obtain ⟨hmem, rfl, rfl⟩ := read_ok hread
      exact .decided hmem hpending hintime hallows hrows happrovers
  | sweep now batch =>
    simp only [deskStep, Option.ite_none_right_eq_some] at h
    obtain ⟨-, h⟩ := h
    cases h
    exact .moved _ (setExpired_key batch) (setExpired_keeps batch) (fun _ => setExpired_approved) rfl rfl
  | setGated org now agent tool =>
    cases h
    refine .moved id (fun _ => rfl) .refl (fun _ => id) ?_ ?_
    · unfold setGated
      split <;> exact (Table.modify_eq_self _ fun _ _ => rfl).symm
    · unfold setGated
      split <;> rfl
  | unsetGated org agent tool =>
    cases h
    exact .moved id (fun _ => rfl) .refl (fun _ => id) (Table.modify_eq_self _ fun _ _ => rfl).symm rfl
  | callTool task call kind ctx known =>
    obtain ⟨dispatches, hinsert, rfl⟩ := Option.map_eq_some_iff.mp h
    refine .called ?_ hinsert
    cases known with
    | true => exact .inl rfl
    | false => exact .inr ⟨_, rfl⟩
  | consultConfig task fault =>
    obtain ⟨d, hd, h⟩ := Option.bind_eq_some_iff.mp h
    obtain ⟨d', hconsult, h⟩ := Option.bind_eq_some_iff.mp h
    cases h
    obtain ⟨hpc, pc, rfl, hcases⟩ := consultConfig_cases hconsult
    obtain rfl : d.id = task := Table.key_of_find? hd
    exact .consulted (Table.mem_of_find? hd) hpc hcases
  | consultApprovals task fault =>
    obtain ⟨d, hd, h⟩ := Option.bind_eq_some_iff.mp h
    obtain ⟨d', hconsult, h⟩ := Option.bind_eq_some_iff.mp h
    cases h
    unfold Dispatch.consultApprovals at hconsult
    split at hconsult
    case h_2 => cases hconsult
    case h_1 hpc =>
      cases hconsult
      have hd := Table.mem_of_find? hd
      cases fault with
      | some e => exact .looked hd hpc (.inr ⟨_, rfl⟩)
      | none =>
        cases hfound : hasApprovedForDag d.ctx.orgId d.ctx.rootRequestId d.call.name s.approvals with
        | true => exact .looked hd hpc (.inl ⟨rfl, hfound⟩)
        | false => exact .looked hd hpc (.inr ⟨_, rfl⟩)
  | execute task outcome =>
    obtain ⟨d, hd, h⟩ := Option.bind_eq_some_iff.mp h
    obtain ⟨⟨gated, d'⟩, hexecute, h⟩ := Option.bind_eq_some_iff.mp h
    cases h
    unfold Dispatch.execute at hexecute
    split at hexecute
    case h_2 => cases hexecute
    case h_1 hpc =>
      cases hexecute
      obtain rfl : d.id = task := Table.key_of_find? hd
      exact .executed (Table.mem_of_find? hd) hpc

theorem deskStep_keeps {a : DeskAct} (hstep : deskStep wired reduce s a = some t) {r : PendingApproval}
    (hr : r ∈ s.approvals.pendingApproval) : ∃ r' ∈ t.approvals.pendingApproval, r.Keeps r' := by
  cases deskStep_stepped hstep with
  | idle | called | consulted | looked | executed => exact ⟨r, hr, .refl r⟩
  | filed _ _ _ hinsert => exact ⟨r, (Table.mem_insert? hinsert).mpr (.inl hr), .refl r⟩
  | moved f hf hkeeps _ hrows =>
    exact ⟨f r, hrows ▸ Table.mem_modify.mpr ⟨r, hr, rfl⟩, hkeeps r⟩
  | decided _ _ _ _ hrows =>
    exact ⟨_, hrows ▸ Table.mem_modify.mpr ⟨r, hr, rfl⟩, setDecided_keeps ..⟩

end Patom.Approvals
