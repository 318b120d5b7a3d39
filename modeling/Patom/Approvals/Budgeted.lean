import Patom.Approvals.Desk
import Patom.Approvals.Resume
import Patom.Approvals.System

open Patom.Foundation
open Patom.Runtime (bumpDags bumpOrFail_ok bumpTurns bumpTurns_key bumpTurns_left bumpTurns_other
  bumpTurns_spent Colleague Enqueued enqueueTrigger enqueueTrigger_cases find?_bumpDags
  findByIdempotencyKey findByIdempotencyKey_isSome IdempotencyKey NewTrigger PromptRequest
  PromptRequestDag PromptRequestId)
open Patom.Tools (bumpDagBudget enqueueAgentTrigger Send SendAct SendPc SendProgress sendStep)

namespace Patom.Approvals

def bumpedQueue (root : PromptRequestId) (queue : Runtime.Db) : Runtime.Db :=
  { queue with promptRequestDags := bumpDags root queue.promptRequestDags }

inductive Charged (w : World) (root : PromptRequestId) (holds : Bool) : World → Bool → List Mint → Prop
  | quiet {w' : World} : w'.queue = w.queue → Charged w root holds w' false []
  | bump {w' : World} {dag : Runtime.PromptRequestDag} :
      w.queue.promptRequestDags.find? root = some dag → dag.turnsUsed < dag.turnsCap →
      w'.queue = bumpedQueue root w.queue →
      Charged w root holds w' true []
  | mint {w' : World} {minter : Minter} {row : PromptRequest} {id : PromptRequestId} {now : Time}
      {trig : NewTrigger} : (minter.unpaid? = none ↔ holds = true) → trig.rootRequestId = some root →
      Enqueued id now trig w.queue w'.queue row →
      Charged w root holds w' false [⟨id, root, minter⟩]

/-- A unit of the budget is held between its bump and its trigger. -/
def holdsUnit : SendPc → Bool
  | .funded .. => true
  | .joining .. | .delivered .. => false

def sendHolds : SendProgress → Bool
  | .running pc => holdsUnit pc
  | .returned _ => false

def Progress.paid : Progress → Bool
  | .running pc => pc.paid
  | .returned _ => false

variable {colleagues : Table Colleague} {w w' : World}

theorem mint_nil {request root : PromptRequestId} {minter : Minter}
    (h : w.queue.promptRequests.find? request = none) : mint w request root minter = [] := by
  rw [mint, h]
  rfl

theorem charged_enqueue {root request : PromptRequestId} {holds : Bool} {minter : Minter} {now : Time}
    {trig : NewTrigger} {queue : Runtime.Db} {id : PromptRequestId}
    (hminter : minter.unpaid? = none ↔ holds = true) (hroot : trig.rootRequestId = some root)
    (hfresh : w.queue.promptRequests.find? request = none)
    (h : enqueueTrigger colleagues request now trig w.queue = .ok (queue, id)) :
    Charged w root holds { w with queue } false (mint { w with queue } request root minter) := by
  obtain ⟨existing, -, rfl, -⟩ | ⟨rfl, row, hrow⟩ := enqueueTrigger_cases h
  · rw [mint_nil hfresh]
    exact .quiet rfl
  · have hfound : (queue.promptRequests.find? id).isSome := by
      rw [Table.find?_insert? hrow.inserted, show key row = id from hrow.rowId, if_pos rfl]
      rfl
    rw [mint, if_pos hfound]
    exact .mint hminter hroot hrow

theorem bumpDagBudget_cases {d : Send} {fault : Option String} {r : Except Tools.ToolError Unit}
    (h : bumpDagBudget w d fault = (w', r)) :
    (∃ e, r = .error e) ∧ w' = w ∨ r = .ok () ∧ ∃ dag,
      w.queue.promptRequestDags.find? d.ctx.rootRequestId = some dag ∧ dag.turnsUsed < dag.turnsCap ∧
      w'.queue = bumpedQueue d.ctx.rootRequestId w.queue := by
  unfold bumpDagBudget at h
  split at h
  case h_1 =>
    cases h
    exact .inl ⟨⟨_, rfl⟩, rfl⟩
  case h_2 =>
    split at h
    case h_2 | h_3 =>
      cases h
      exact .inl ⟨⟨_, rfl⟩, rfl⟩
    case h_1 hbump =>
      cases h
      obtain ⟨rfl, dag, hdag, hleft⟩ := bumpOrFail_ok hbump
      exact .inr ⟨rfl, dag, hdag, hleft, rfl⟩

theorem sendStep_charged {d : Send} {act : SendAct} {p : SendProgress}
    (h : sendStep w d colleagues act = some (w', p)) :
    Charged w d.ctx.rootRequestId (holdsUnit d.pc) w' (sendHolds p) (sendMint w' d act) := by
  cases act with
  | post message now =>
    simp only [sendStep] at h
    split at h
    case h_2 => cases h
    case h_1 =>
      obtain ⟨-, h⟩ := Option.ite_none_left_eq_some.mp h
      cases h
      exact .quiet rfl
  | participate state now =>
    simp only [sendStep] at h
    split at h
    case h_2 => cases h
    case h_1 =>
      cases h
      refine .quiet ?_
      unfold Tools.sendParticipate
      split <;> rfl
  | join =>
    simp only [sendStep] at h
    split at h
    case h_2 => cases h
    case h_1 posted state _ =>
      cases h
      cases posted <;> cases state <;> exact .quiet rfl
  | bump fault =>
    simp only [sendStep] at h
    split at h
    case h_2 => cases h
    case h_1 =>
      split at h
      case h_1 hbump =>
        cases h
        obtain ⟨⟨e, he⟩, -⟩ | ⟨-, dag, hdag, hleft, hqueue⟩ := bumpDagBudget_cases hbump
        · cases he
        · exact .bump hdag hleft hqueue
      case h_2 hbump =>
        cases h
        obtain ⟨-, rfl⟩ | ⟨he, -⟩ := bumpDagBudget_cases hbump
        · exact .quiet rfl
        · cases he
  | enqueue request now =>
    simp only [sendStep] at h
    split at h
    case h_2 => cases h
    case h_1 hpc =>
      obtain ⟨hfresh, h⟩ := Option.ite_none_left_eq_some.mp h
      have hfresh := Option.not_isSome_iff_eq_none.mp hfresh
      cases h
      rw [hpc]
      unfold enqueueAgentTrigger
      split
      case h_1 =>
        rw [sendMint, mint_nil hfresh]
        exact .quiet rfl
      case h_2 =>
        split
        case h_1 =>
          rw [sendMint, mint_nil hfresh]
          exact .quiet rfl
        case h_2 =>
          split
          case h_1 henqueue => exact charged_enqueue (by simp [Minter.unpaid?, holdsUnit]) rfl hfresh henqueue
          case h_2 =>
            rw [sendMint, mint_nil hfresh]
            exact .quiet rfl

theorem resumeStep_charged {a : Attempt} {act : ResumeAct} {p : Progress}
    (h : resumeStep w a colleagues act = some (w', p)) :
    Charged w a.record.rootRequestId a.pc.paid w' p.paid (resumeMint w' a act) := by
  cases act with
  | participate state now =>
    simp only [resumeStep] at h
    split at h
    case h_2 => cases h
    case h_1 =>
      cases h
      unfold stepParticipate
      split <;> exact .quiet rfl
  | note message now =>
    simp only [resumeStep] at h
    split at h
    case h_2 => cases h
    case h_1 =>
      obtain ⟨-, h⟩ := Option.ite_none_left_eq_some.mp h
      cases h
      have hquiet : (Progress.ofExcept (.noted ‹_›) (stepNote w a message now).2).paid = false := by
        cases (stepNote w a message now).2 <;> rfl
      rw [hquiet]
      refine .quiet ?_
      unfold stepNote
      split <;> rfl
  | bump fault =>
    simp only [resumeStep] at h
    split at h
    case h_2 => cases h
    case h_1 =>
      cases h
      unfold stepBump
      split
      case isTrue => exact .quiet rfl
      case isFalse =>
        split
        case h_2 => exact .quiet rfl
        case h_1 hbump =>
          obtain ⟨rfl, dag, hdag, hleft⟩ := bumpOrFail_ok hbump
          exact .bump hdag hleft rfl
  | enqueue request now =>
    simp only [resumeStep] at h
    split at h
    case h_2 => cases h
    case h_1 hpc =>
      obtain ⟨hfresh, h⟩ := Option.ite_none_left_eq_some.mp h
      have hfresh := Option.not_isSome_iff_eq_none.mp hfresh
      cases h
      unfold stepEnqueue
      split
      case h_1 =>
        rw [resumeMint, mint_nil hfresh]
        exact .quiet rfl
      case h_2 =>
        split
        case h_1 henqueue =>
          refine charged_enqueue ?_ rfl hfresh henqueue
          cases a.pc.paid <;> simp [Minter.unpaid?]
        case h_2 =>
          rw [resumeMint, mint_nil hfresh]
          exact .quiet rfl

end Patom.Approvals

namespace Patom.Approvals

def turnsUsed (queue : Runtime.Db) (root : PromptRequestId) : Nat :=
  ((queue.promptRequestDags.find? root).map (·.turnsUsed)).getD 0

def Mint.funded (root : PromptRequestId) (m : Mint) : Bool := m.root = root ∧ m.minter.unpaid? = none

/-- Every trigger that took a unit, and every unit that is held, is counted in `turns_used`. -/
structure Budgeted (queue : Runtime.Db) (minted : List Mint) (held : PromptRequestId → Nat) : Prop where
  capped : ∀ dag ∈ queue.promptRequestDags, dag.turnsUsed ≤ dag.turnsCap
  covered : ∀ root, minted.countP (Mint.funded root) + held root ≤ turnsUsed queue root
  attributed : ∀ r ∈ queue.promptRequests, r.rootRequestId ≠ r.id →
    ∃ m ∈ minted, m.request = r.id ∧ m.root = r.rootRequestId

variable {queue queue' : Runtime.Db} {minted : List Mint} {held held' : PromptRequestId → Nat}
  {w w' : World} {root : PromptRequestId}

theorem turnsUsed_congr (h : queue'.promptRequestDags = queue.promptRequestDags) :
    turnsUsed queue' = turnsUsed queue := by
  funext root
  rw [turnsUsed, h, turnsUsed]

theorem turnsUsed_bumpedQueue {dag : PromptRequestDag} (h : queue.promptRequestDags.find? root = some dag)
    (hleft : dag.turnsUsed < dag.turnsCap) (other : PromptRequestId) :
    turnsUsed (bumpedQueue root queue) other =
      turnsUsed queue other + if other = root then 1 else 0 := by
  rw [turnsUsed, bumpedQueue, find?_bumpDags, turnsUsed]
  split
  case isTrue e =>
    rw [e, h, Option.map_some, bumpTurns_left (Table.key_of_find? h) hleft]
    rfl
  case isFalse hne =>
    cases hother : queue.promptRequestDags.find? other with
    | none => rfl
    | some dag' =>
      have hkey : dag'.rootRequestId ≠ root := fun e => hne ((Table.key_of_find? hother).symm.trans e)
      rw [Option.map_some, bumpTurns_other hkey, Nat.add_zero]

theorem bumpTurns_capped {dag : PromptRequestDag} (h : dag.turnsUsed ≤ dag.turnsCap) :
    (bumpTurns root dag).turnsUsed ≤ (bumpTurns root dag).turnsCap := by
  unfold bumpTurns
  split
  case isTrue hleft => exact hleft.2
  case isFalse => exact h

theorem Budgeted.capped_bump (h : Budgeted queue minted held) {dag : PromptRequestDag}
    (hdag : dag ∈ (bumpedQueue root queue).promptRequestDags) : dag.turnsUsed ≤ dag.turnsCap := by
  have hdag : dag ∈ queue.promptRequestDags.modify (bumpTurns root) (bumpTurns_key root) := hdag
  obtain ⟨dag₀, hdag₀, rfl⟩ := Table.mem_modify.mp hdag
  exact bumpTurns_capped (h.capped dag₀ hdag₀)

/-- One step of a send or a resume, `held` counting the units that all of them hold. -/
theorem Budgeted.charged (h : Budgeted w.queue minted held) {holds holds' : Bool} {ms : List Mint}
    (hcharged : Charged w root holds w' holds' ms)
    (hheld : ∀ other, held' other + (if other = root ∧ holds then 1 else 0) =
      held other + if other = root ∧ holds' then 1 else 0) :
    Budgeted w'.queue (minted ++ ms) held' := by
  cases hcharged with
  | quiet hqueue =>
    rw [hqueue, List.append_nil]
    refine ⟨h.capped, fun other => ?_, h.attributed⟩
    have hcovered := h.covered other
    have hother := hheld other
    simp only [Bool.false_eq_true, and_false, if_false] at hother
    omega
  | bump hdag hleft hqueue =>
    rw [hqueue, List.append_nil]
    refine ⟨fun dag => h.capped_bump, fun other => ?_, h.attributed⟩
    rw [turnsUsed_bumpedQueue hdag hleft]
    have hcovered := h.covered other
    have hother := hheld other
    simp only [and_true] at hother
    omega
  | @mint minter row id now trig hminter hroot hrow =>
    have hdags := hrow.dags
    rw [hroot, Option.isSome_some, if_pos rfl] at hdags
    refine ⟨hdags ▸ h.capped, fun other => ?_, fun r hr hne => ?_⟩
    · rw [turnsUsed_congr hdags, List.countP_append, List.countP_singleton]
      have hcovered := h.covered other
      have hother := hheld other
      have hfunded : (if Mint.funded other ⟨id, root, minter⟩ then 1 else 0) =
          if other = root ∧ holds then 1 else 0 := by
        simp only [Mint.funded, hminter, eq_comm (a := other), decide_eq_true_eq]
      simp only [Bool.false_eq_true, and_false, if_false] at hother
      omega
    · rcases (Table.mem_insert? hrow.inserted).mp hr with hr | rfl
      · obtain ⟨m, hm, hattributed⟩ := h.attributed r hr hne
        exact ⟨m, List.mem_append_left _ hm, hattributed⟩
      · refine ⟨⟨id, root, minter⟩, List.mem_append_right _ (List.mem_singleton_self _),
          hrow.rowId.symm, ?_⟩
        rw [hrow.root, hroot]
        rfl

theorem Budgeted.posted (h : Budgeted queue minted held) {id : PromptRequestId} {now : Time}
    {trig : NewTrigger} {row : PromptRequest} (hroot : trig.rootRequestId = none)
    (hrow : Enqueued id now trig queue queue' row) : Budgeted queue' minted held := by
  have hinsert := hrow.dags
  rw [hroot, Option.isSome_none, if_neg Bool.false_ne_true] at hinsert
  refine ⟨fun dag hdag => ?_, fun other => (h.covered other).trans ?_, fun r hr hne => ?_⟩
  · rcases (Table.mem_insert? hinsert).mp hdag with hdag | rfl
    · exact h.capped dag hdag
    · exact Nat.zero_le _
  · rw [turnsUsed, turnsUsed, Table.find?_insert? hinsert]
    split
    case isTrue e =>
      have hfresh : queue.promptRequestDags.find? other = none :=
        e ▸ Table.insert?_isSome.mp (hinsert ▸ rfl)
      rw [hfresh]
      exact Nat.zero_le _
    case isFalse => exact Nat.le_refl _
  · rcases (Table.mem_insert? hrow.inserted).mp hr with hr | rfl
    · exact h.attributed r hr hne
    · rw [hrow.root, hroot, hrow.rowId] at hne
      exact absurd rfl hne

theorem Budgeted.modified (h : Budgeted queue minted held) {f : PromptRequest → PromptRequest}
    (hf : ∀ r, key (f r) = key r) (hroot : ∀ r, (f r).rootRequestId = r.rootRequestId)
    (hrows : queue'.promptRequests = queue.promptRequests.modify f hf)
    (hdags : queue'.promptRequestDags = queue.promptRequestDags) : Budgeted queue' minted held := by
  refine ⟨hdags ▸ h.capped, fun other => ?_, fun r hr hne => ?_⟩
  · rw [turnsUsed_congr hdags]
    exact h.covered other
  · obtain ⟨r₀, hr₀, rfl⟩ := Table.mem_modify.mp (hrows ▸ hr)
    have hid : (f r₀).id = r₀.id := hf r₀
    rw [hroot, hid] at hne ⊢
    exact h.attributed r₀ hr₀ hne

def Minter.approval? : Minter → Option ApprovalId
  | .sendMessage => none
  | .resume approval _ => some approval

structure Decided (approvals : ApprovalDb) (record : PendingApproval) : Prop where
  kept : ∃ r ∈ approvals.pendingApproval, record.Keeps r
  decided : record.status.decided = true

def Resumed (approvals : ApprovalDb) (queue : Runtime.Db) (approval : ApprovalId)
    (root : PromptRequestId) : Prop :=
  ∃ r ∈ approvals.pendingApproval, r.id = approval ∧ r.rootRequestId = root ∧
    r.status.decided = true ∧ ∃ k, resumeKey r = .ok k ∧ (findByIdempotencyKey queue r.orgId k).isSome

/-- An approval is resumed on its decided row, and its trigger is enqueued once. -/
structure ResumeInv (approvals : ApprovalDb) (queue : Runtime.Db) (attempts : Table Attempt)
    (minted : List Mint) : Prop where
  decided : ∀ a ∈ attempts, Decided approvals a.record
  resumed : ∀ m ∈ minted, ∀ approval, m.minter.approval? = some approval →
    Resumed approvals queue approval m.root
  once : (minted.filterMap (·.minter.approval?)).Nodup

def KeysKept (queue queue' : Runtime.Db) : Prop :=
  ∀ org k, (findByIdempotencyKey queue org k).isSome → (findByIdempotencyKey queue' org k).isSome

theorem KeysKept.of_rows {f : PromptRequest → PromptRequest} (hf : ∀ r, key (f r) = key r)
    (hkept : ∀ r, (f r).orgId = r.orgId ∧ (f r).idempotencyKey = r.idempotencyKey)
    (hrows : queue'.promptRequests = queue.promptRequests.modify f hf) : KeysKept queue queue' := by
  intro org k hfound
  obtain ⟨r, hr, horg, hkey⟩ := findByIdempotencyKey_isSome.mp hfound
  refine findByIdempotencyKey_isSome.mpr ⟨f r, hrows ▸ Table.mem_modify.mpr ⟨r, hr, rfl⟩, ?_, ?_⟩
  · exact (hkept r).1.trans horg
  · exact (hkept r).2.trans hkey

theorem KeysKept.enqueued {id : PromptRequestId} {now : Time} {trig : NewTrigger} {row : PromptRequest}
    (hrow : Enqueued id now trig queue queue' row) : KeysKept queue queue' := by
  intro org k hfound
  obtain ⟨r, hr, hfields⟩ := findByIdempotencyKey_isSome.mp hfound
  exact findByIdempotencyKey_isSome.mpr ⟨r, (Table.mem_insert? hrow.inserted).mpr (.inl hr), hfields⟩

theorem Charged.keysKept {holds holds' : Bool} {ms : List Mint}
    (h : Charged w root holds w' holds' ms) : KeysKept w.queue w'.queue := by
  cases h with
  | quiet hqueue => exact fun org k => hqueue ▸ id
  | bump hdag hleft hqueue => exact fun org k => hqueue ▸ id
  | mint hminter hroot hrow => exact .enqueued hrow

variable {approvals approvals' : ApprovalDb} {attempts attempts' : Table Attempt}

theorem PendingApproval.Keeps.decided {r r' : PendingApproval} (h : r.Keeps r')
    (hr : r.status.decided = true) : r'.status = r.status := by
  rcases h.moves with e | ⟨e, -⟩
  · exact e
  · rw [e] at hr
    cases hr

theorem PendingApproval.Keeps.resumeKey {r r' : PendingApproval} (h : r.Keeps r') :
    resumeKey r' = resumeKey r := by
  rw [Approvals.resumeKey, h.id, Approvals.resumeKey]

theorem Decided.keeps {record : PendingApproval} (h : Decided approvals record)
    (hkeeps : ∀ r ∈ approvals.pendingApproval, ∃ r' ∈ approvals'.pendingApproval, r.Keeps r') :
    Decided approvals' record := by
  obtain ⟨⟨r, hr, hrecord⟩, hdecided⟩ := h
  obtain ⟨r', hr', hr⟩ := hkeeps r hr
  exact ⟨⟨r', hr', hrecord.trans hr⟩, hdecided⟩

theorem Resumed.keeps {approval : ApprovalId} (h : Resumed approvals queue approval root)
    (hkeeps : ∀ r ∈ approvals.pendingApproval, ∃ r' ∈ approvals'.pendingApproval, r.Keeps r')
    (hkeys : KeysKept queue queue') : Resumed approvals' queue' approval root := by
  obtain ⟨r, hr, hid, hroot, hdecided, k, hk, hfound⟩ := h
  obtain ⟨r', hr', hkept⟩ := hkeeps r hr
  refine ⟨r', hr', hkept.id.trans hid, hkept.rootRequestId.trans hroot, ?_, k, ?_, ?_⟩
  · rw [hkept.decided hdecided, hdecided]
  · rw [hkept.resumeKey, hk]
  · rw [hkept.orgId]
    exact hkeys r.orgId k hfound

theorem ResumeInv.keeps (h : ResumeInv approvals queue attempts minted)
    (hkeeps : ∀ r ∈ approvals.pendingApproval, ∃ r' ∈ approvals'.pendingApproval, r.Keeps r')
    (hkeys : KeysKept queue queue') (hattempts : ∀ a ∈ attempts', ∃ b ∈ attempts, b.record = a.record) :
    ResumeInv approvals' queue' attempts' minted where
  decided a ha := by
    obtain ⟨b, hb, hrecord⟩ := hattempts a ha
    exact hrecord ▸ (h.decided b hb).keeps hkeeps
  resumed m hm approval hminter := (h.resumed m hm approval hminter).keeps hkeeps hkeys
  once := h.once

theorem ResumeInv.sent (h : ResumeInv approvals queue attempts minted) {ms : List Mint}
    (hms : ∀ m ∈ ms, m.minter.approval? = none) : ResumeInv approvals queue attempts (minted ++ ms) where
  decided := h.decided
  resumed m hm approval hminter := by
    rcases List.mem_append.mp hm with hm | hm
    · exact h.resumed m hm approval hminter
    · rw [hms m hm] at hminter
      cases hminter
  once := by
    rw [List.filterMap_append, List.filterMap_eq_nil_iff.mpr hms, List.append_nil]
    exact h.once

theorem keeps_refl : ∀ r ∈ approvals.pendingApproval, ∃ r' ∈ approvals.pendingApproval, r.Keeps r' :=
  fun r hr => ⟨r, hr, .refl r⟩

theorem resumeMint_cases {colleagues : Table Runtime.Colleague} {a : Attempt} {act : ResumeAct}
    {p : Progress} (h : resumeStep w a colleagues act = some (w', p)) :
    resumeMint w' a act = [] ∨ ∃ request k,
      resumeMint w' a act = [⟨request, a.record.rootRequestId, .resume a.record.id a.pc.paid⟩] ∧
      resumeKey a.record = .ok k ∧ findByIdempotencyKey w.queue a.record.orgId k = none ∧
      (findByIdempotencyKey w'.queue a.record.orgId k).isSome := by
  cases act with
  | participate | note | bump => exact .inl rfl
  | enqueue request now =>
    simp only [resumeStep] at h
    split at h
    case h_2 => cases h
    case h_1 =>
      obtain ⟨hfresh, h⟩ := Option.ite_none_left_eq_some.mp h
      have hfresh := Option.not_isSome_iff_eq_none.mp hfresh
      cases h
      unfold stepEnqueue
      split
      case h_1 => exact .inl (mint_nil hfresh)
      case h_2 k hk =>
        split
        case h_2 => exact .inl (mint_nil hfresh)
        case h_1 queue id henqueue =>
          obtain ⟨existing, -, rfl, -⟩ | ⟨-, row, hrow⟩ := enqueueTrigger_cases henqueue
          · exact .inl (mint_nil hfresh)
          · refine .inr ⟨request, k, ?_, hk, hrow.unseen, Runtime.findByIdempotencyKey_enqueued henqueue⟩
            rw [resumeMint, mint, Table.find?_insert? hrow.inserted,
              show key row = request from hrow.rowId, if_pos rfl]
            rfl

theorem ResumeInv.step (h : ResumeInv approvals w.queue attempts minted) {a : Attempt}
    (ha : a ∈ attempts) {colleagues : Table Runtime.Colleague} {act : ResumeAct} {p : Progress}
    (hstep : resumeStep w a colleagues act = some (w', p)) :
    ResumeInv approvals w'.queue (settleAttempt a attempts p) (minted ++ resumeMint w' a act) := by
  have hkeys := (resumeStep_charged hstep).keysKept
  have hkept : ResumeInv approvals w'.queue (settleAttempt a attempts p) minted :=
    h.keeps keeps_refl hkeys fun b hb => by
      rcases mem_settleAttempt hb with ⟨pc, -, rfl⟩ | hb
      · exact ⟨a, ha, rfl⟩
      · exact ⟨b, hb, rfl⟩
  obtain hnil | ⟨request, k, hmint, hk, hunseen, hseen⟩ := resumeMint_cases hstep
  · rwa [hnil, List.append_nil]
  obtain ⟨⟨r, hr, hrecord⟩, hdecided⟩ := h.decided a ha
  rw [hmint]
  refine ⟨hkept.decided, fun m hm approval hminter => ?_, ?_⟩
  · rcases List.mem_append.mp hm with hm | hm
    · exact hkept.resumed m hm approval hminter
    · obtain rfl := List.mem_singleton.mp hm
      cases hminter
      refine ⟨r, hr, hrecord.id, hrecord.rootRequestId, ?_, k, ?_, ?_⟩
      · rw [hrecord.decided hdecided, hdecided]
      · rw [hrecord.resumeKey, hk]
      · rw [hrecord.orgId]
        exact hseen
  · rw [List.filterMap_append, List.nodup_append]
    refine ⟨h.once, List.nodup_singleton _, fun x hx y hy e => ?_⟩
    obtain rfl : y = a.record.id := List.mem_singleton.mp hy
    obtain ⟨m, hm, hminter⟩ := List.mem_filterMap.mp hx
    obtain ⟨r', hr', hid, -, -, k', hk', hfound⟩ := h.resumed m hm x hminter
    obtain rfl := Table.eq_of_key_eq hr' hr (hid.trans (e.trans hrecord.id.symm))
    obtain rfl := Except.ok.inj (hk.symm.trans (hrecord.resumeKey.symm.trans hk'))
    rw [hrecord.orgId, hunseen] at hfound
    cases hfound

end Patom.Approvals
