import Patom.Approvals.Desk

open Patom.AgentCore (Dispatch DispatchPc)
open Patom.Foundation
open Patom.Provider (ToolCall ToolResult)

namespace Patom.Approvals

structure Verdict.Sound (filings : Table Filing) (v : Verdict) : Prop where
  pending : v.before.status = .pending
  decided : ∃ decision clicker now, v.after = v.before.decide decision clicker now ∧
    now < v.before.expiresAt ∧ ∃ f, filings.find? v.before.id = some f ∧ f.policy.Allows clicker

structure Verdict.Licenses (v : Verdict) (d : Dispatch) : Prop where
  approved : v.after.status = .approved
  orgId : v.before.orgId = d.ctx.orgId
  rootRequestId : v.before.rootRequestId = d.ctx.rootRequestId
  gatedTool : v.before.gatedTool = d.call.name

namespace Desk

def Licensed (s : Desk) (d : Dispatch) : Prop := ∃ v ∈ s.verdicts, v.Licenses d

/-- The gate required an approval when it was asked about the call. -/
def Required (s : Desk) (d : Dispatch) : Prop :=
  ∃ c ∈ s.consultations, c.task = d.id ∧ c.required = true

def Guarded (s : Desk) (d : Dispatch) : Prop :=
  match d.pc with
  | .resolved => d.id ∉ s.executed ∧ ∀ c ∈ s.consultations, c.task ≠ d.id
  | .gated => d.id ∉ s.executed
  | .allowed true => s.Licensed d
  | .allowed false => ¬ s.Required d
  | .returned _ => d.id ∈ s.executed → s.Required d → s.Licensed d

structure Filed (s : Desk) (r : PendingApproval) (f : Filing) : Prop where
  found : s.filings.find? r.id = some f
  kind : r.approverKind = f.policy.kind
  pinned : r.approverColleague = f.policy.pinned
  members : ∀ c, (r.id, c) ∈ s.approvals.approvers ↔ c ∈ f.policy.members

structure Inv (s : Desk) : Prop where
  filed : ∀ r ∈ s.approvals.pendingApproval, ∃ f, s.Filed r f
  known : ∀ entry ∈ s.approvals.approvers, (s.approvals.pendingApproval.find? entry.1).isSome
  sound : ∀ v ∈ s.verdicts, v.Sound s.filings
  settled : ∀ v ∈ s.verdicts, ∃ r ∈ s.approvals.pendingApproval, r.id = v.before.id ∧ r.status ≠ .pending
  once : (s.verdicts.map (·.before.id)).Nodup
  approved : ∀ r ∈ s.approvals.pendingApproval, r.status = .approved →
    ∃ v ∈ s.verdicts, v.after.status = .approved ∧ v.before.Keeps r
  consulted : ∀ c ∈ s.consultations, (s.dispatches.find? c.task).isSome
  started : ∀ task ∈ s.executed, (s.dispatches.find? task).isSome
  guarded : ∀ d ∈ s.dispatches, s.Guarded d

variable {wired : Bool} {reduce : ToolCall → String → ToolResult} {s t : Desk}

theorem Filed.allows {r : PendingApproval} {f : Filing} (h : s.Filed r f) {clicker : ColleagueId}
    (hallows : r.allows clicker s.approvals) : f.policy.Allows clicker := by
  have hmembers : clicker ∈ selectApproverIds r.id s.approvals ↔ clicker ∈ f.policy.members := by
    rw [← h.members]
    simp [selectApproverIds]
  refine (policyAllows_iff f.policy clicker).mp ?_
  simp only [PendingApproval.allows, h.kind, h.pinned] at hallows
  cases hkind : f.policy.kind with
  | anyone => rfl
  | colleague => simpa [hkind, policyAllows] using hallows
  | oneOf => simpa [hkind, policyAllows, hmembers] using hallows

theorem inv_init : Desk.init.Inv where
  filed _ h := absurd h (Table.not_mem_empty _)
  known _ h := absurd h List.not_mem_nil
  sound _ h := absurd h List.not_mem_nil
  settled _ h := absurd h List.not_mem_nil
  once := .nil
  approved _ h := absurd h (Table.not_mem_empty _)
  consulted _ h := absurd h List.not_mem_nil
  started _ h := absurd h List.not_mem_nil
  guarded _ h := absurd h (Table.not_mem_empty _)

theorem Guarded.mono {d : Dispatch} (h : s.Guarded d) (hverdicts : s.verdicts ⊆ t.verdicts)
    (hconsultations : ∀ c ∈ t.consultations, c.task = d.id → c ∈ s.consultations)
    (hexecuted : d.id ∈ t.executed → d.id ∈ s.executed) : t.Guarded d := by
  have hlicensed : s.Licensed d → t.Licensed d := by
    rintro ⟨v, hv, hlicenses⟩
    exact ⟨v, hverdicts hv, hlicenses⟩
  have hrequired : t.Required d → s.Required d := by
    rintro ⟨c, hc, htask, hrequired⟩
    exact ⟨c, hconsultations c hc htask, htask, hrequired⟩
  unfold Guarded at h ⊢
  split at h
  · exact ⟨fun hex => h.1 (hexecuted hex), fun c hc htask => h.2 c (hconsultations c hc htask) htask⟩
  · exact fun hex => h (hexecuted hex)
  · exact hlicensed h
  · exact fun hreq => h (hrequired hreq)
  · exact fun hex hreq => hlicensed (h (hexecuted hex) (hrequired hreq))

theorem Filed.keeps {r r' : PendingApproval} {f : Filing} (h : s.Filed r f) (hkeeps : r.Keeps r')
    (hfilings : t.filings = s.filings) (happrovers : t.approvals.approvers = s.approvals.approvers) :
    t.Filed r' f where
  found := by rw [hfilings, hkeeps.id, h.found]
  kind := hkeeps.approverKind.trans h.kind
  pinned := hkeeps.approverColleague.trans h.pinned
  members c := by rw [happrovers, hkeeps.id, h.members]

theorem Inv.moved (h : s.Inv) {approvals : ApprovalDb} {f : PendingApproval → PendingApproval}
    {hf : ∀ r, key (f r) = key r} (hkeeps : ∀ r : PendingApproval, r.Keeps (f r))
    (happroved : ∀ r, (f r).status = .approved → r.status = .approved)
    (hrows : approvals.pendingApproval = s.approvals.pendingApproval.modify f hf)
    (happrovers : approvals.approvers = s.approvals.approvers) : Inv { s with approvals } where
  filed r hr := by
    obtain ⟨r₀, hr₀, rfl⟩ := Table.mem_modify.mp (hrows ▸ hr)
    obtain ⟨g, hg⟩ := h.filed r₀ hr₀
    exact ⟨g, hg.keeps (hkeeps r₀) rfl happrovers⟩
  known entry hentry := by
    have hknown := h.known entry (happrovers ▸ hentry)
    simpa [hrows] using hknown
  sound := h.sound
  settled v hv := by
    obtain ⟨r, hr, hid, hstatus⟩ := h.settled v hv
    refine ⟨f r, hrows ▸ Table.mem_modify.mpr ⟨r, hr, rfl⟩, (hkeeps r).id.trans hid, ?_⟩
    exact (hkeeps r).moves.settled hstatus
  once := h.once
  approved r hr hstatus := by
    obtain ⟨r₀, hr₀, rfl⟩ := Table.mem_modify.mp (hrows ▸ hr)
    obtain ⟨v, hv, hafter, hbefore⟩ := h.approved r₀ hr₀ (happroved r₀ hstatus)
    exact ⟨v, hv, hafter, hbefore.trans (hkeeps r₀)⟩
  consulted := h.consulted
  started := h.started
  guarded := h.guarded

theorem Inv.ask (h : s.Inv) {approvals : ApprovalDb} {record : PendingApproval} {policy : ApproverPolicy}
    (hpending : record.status = .pending) (hkind : record.approverKind = policy.kind)
    (hpinned : record.approverColleague = policy.pinned)
    (hinsert : s.approvals.pendingApproval.insert? record = some approvals.pendingApproval)
    (happrovers : approvals.approvers =
      insertApprovers record.id policy.members s.approvals.approvers) :
    Inv { s with approvals, filings := s.filings.put ⟨record.id, policy⟩ } := by
  have hfresh : s.approvals.pendingApproval.find? record.id = none :=
    Table.insert?_isSome.mp (hinsert ▸ rfl)
  have hother : ∀ r ∈ s.approvals.pendingApproval, record.id ≠ r.id := fun r hr e =>
    absurd (Table.find?_of_mem hr) (by rw [show key r = record.id from e.symm, hfresh]; rintro ⟨⟩)
  exact {
    filed := fun r hr => by
      rcases (Table.mem_insert? hinsert).mp hr with hr | rfl
      · obtain ⟨f, hf⟩ := h.filed r hr
        refine ⟨f, ?_, hf.kind, hf.pinned, fun c => ?_⟩
        · rw [Table.find?_put_ne _ (hother r hr), hf.found]
        · rw [happrovers, mem_insertApprovers, hf.members]
          exact or_iff_left fun e => hother r hr e.1.symm
      · refine ⟨⟨r.id, policy⟩, ?_, hkind, hpinned, fun c => ?_⟩
        · exact Table.find?_put_self _ _
        · rw [happrovers, mem_insertApprovers]
          refine ⟨?_, fun hc => .inr ⟨rfl, hc⟩⟩
          rintro (hc | ⟨-, hc⟩)
          · have hknown := h.known _ hc
            rw [hfresh] at hknown
            cases hknown
          · exact hc
    known := fun entry hentry => by
      rw [Table.find?_insert? hinsert]
      split
      case isTrue => rfl
      case isFalse hne =>
        rw [happrovers, mem_insertApprovers] at hentry
        rcases hentry with hentry | ⟨hid, -⟩
        · exact h.known entry hentry
        · exact absurd hid.symm hne
    sound := fun v hv => by
      obtain ⟨hbefore, decision, clicker, now, hafter, hintime, f, hf, hallows⟩ := h.sound v hv
      obtain ⟨r, hr, hid, -⟩ := h.settled v hv
      refine ⟨hbefore, decision, clicker, now, hafter, hintime, f, ?_, hallows⟩
      rw [Table.find?_put_ne _ (hid ▸ hother r hr), hf]
    settled := fun v hv => by
      obtain ⟨r, hr, hsettled⟩ := h.settled v hv
      exact ⟨r, (Table.mem_insert? hinsert).mpr (.inl hr), hsettled⟩
    once := h.once
    approved := fun r hr hstatus => by
      rcases (Table.mem_insert? hinsert).mp hr with hr | rfl
      · exact h.approved r hr hstatus
      · exact absurd (hpending.symm.trans hstatus) (by rintro ⟨⟩)
    consulted := h.consulted
    started := h.started
    guarded := h.guarded }

theorem setDecided_other {org : OrgId} {id : ApprovalId} {decision : Decision}
    {clicker : ColleagueId} {now : Time} {r : PendingApproval} (hne : r.id ≠ id) :
    setDecided org id decision clicker now r = r :=
  if_neg fun e => hne e.1

theorem Inv.decided (h : s.Inv) {approvals : ApprovalDb} {before : PendingApproval}
    {decision : Decision} {clicker : ColleagueId} {now : Time}
    (hmem : before ∈ s.approvals.pendingApproval) (hpending : before.status = .pending)
    (hintime : now < before.expiresAt) (hallows : before.allows clicker s.approvals)
    (hrows : approvals.pendingApproval = s.approvals.pendingApproval.modify
      (setDecided before.orgId before.id decision clicker now)
      (setDecided_key before.orgId before.id decision clicker now))
    (happrovers : approvals.approvers = s.approvals.approvers) :
    Inv { s with
      approvals
      verdicts := s.verdicts ++ [⟨before, before.decide decision clicker now⟩] } := by
  have hkeeps := setDecided_keeps before.orgId before.id decision clicker now
  have hself : setDecided before.orgId before.id decision clicker now before =
      before.decide decision clicker now := if_pos ⟨rfl, rfl, hpending⟩
  have hafter : before.decide decision clicker now ∈ approvals.pendingApproval := by
    rw [hrows]
    exact Table.mem_modify.mpr ⟨before, hmem, hself⟩
  obtain ⟨f, hfiled⟩ := h.filed before hmem
  exact {
    filed := fun r hr => by
      obtain ⟨r₀, hr₀, rfl⟩ := Table.mem_modify.mp (hrows ▸ hr)
      obtain ⟨g, hg⟩ := h.filed r₀ hr₀
      exact ⟨g, hg.keeps (hkeeps r₀) rfl happrovers⟩
    known := fun entry hentry => by
      have hknown := h.known entry (happrovers ▸ hentry)
      simpa [hrows] using hknown
    sound := fun v hv => by
      rcases List.mem_append.mp hv with hv | hv
      · exact h.sound v hv
      · obtain rfl := List.mem_singleton.mp hv
        exact ⟨hpending, decision, clicker, now, rfl, hintime, f, hfiled.found, hfiled.allows hallows⟩
    settled := fun v hv => by
      rcases List.mem_append.mp hv with hv | hv
      · obtain ⟨r, hr, hid, hstatus⟩ := h.settled v hv
        refine ⟨_, hrows ▸ Table.mem_modify.mpr ⟨r, hr, rfl⟩, (hkeeps r).id.trans hid, ?_⟩
        exact (hkeeps r).moves.settled hstatus
      · obtain rfl := List.mem_singleton.mp hv
        refine ⟨_, hafter, rfl, ?_⟩
        cases decision <;> rintro ⟨⟩
    once := by
      rw [List.map_append, List.nodup_append]
      refine ⟨h.once, List.nodup_singleton _, fun id hid id' hid' e => ?_⟩
      obtain ⟨v, hv, rfl⟩ := List.mem_map.mp hid
      obtain ⟨r, hr, hrid, hstatus⟩ := h.settled v hv
      obtain rfl := Table.eq_of_key_eq hr hmem
        (hrid.trans (e.trans (List.mem_singleton.mp hid')) : r.id = before.id)
      exact hstatus hpending
    approved := fun r hr hstatus => by
      obtain ⟨r₀, hr₀, rfl⟩ := Table.mem_modify.mp (hrows ▸ hr)
      by_cases hid : r₀.id = before.id
      · obtain rfl := Table.eq_of_key_eq hr₀ hmem hid
        rw [hself] at hstatus ⊢
        exact ⟨_, List.mem_append_right _ (List.mem_singleton_self _), hstatus,
          PendingApproval.decide_keeps hpending decision clicker now⟩
      · rw [setDecided_other hid] at hstatus ⊢
        obtain ⟨v, hv, hbefore⟩ := h.approved r₀ hr₀ hstatus
        exact ⟨v, List.mem_append_left _ hv, hbefore⟩
    consulted := h.consulted
    started := h.started
    guarded := fun d hd => (h.guarded d hd).mono (List.subset_append_left _ _) (fun _ hc _ => hc) id }

theorem Inv.settle (h : s.Inv) {d : Dispatch} {pc : DispatchPc} {consultations : List Consultation}
    {executed : List Uuid}
    (hconsultations : ∀ c ∈ consultations, c ∈ s.consultations ∨ c.task = d.id)
    (hexecuted : ∀ task ∈ executed, task ∈ s.executed ∨ task = d.id)
    (hguarded : Guarded { s with consultations, executed } { d with pc }) :
    Inv { s with dispatches := s.dispatches.put { d with pc }, consultations, executed } where
  filed r hr := by
    obtain ⟨f, hf⟩ := h.filed r hr
    exact ⟨f, ⟨hf.found, hf.kind, hf.pinned, hf.members⟩⟩
  known := h.known
  sound := h.sound
  settled := h.settled
  once := h.once
  approved := h.approved
  consulted c hc := by
    rw [Table.find?_put]
    split
    case isTrue => rfl
    case isFalse hne => exact h.consulted c ((hconsultations c hc).resolve_right fun e => hne e.symm)
  started task htask := by
    rw [Table.find?_put]
    split
    case isTrue => rfl
    case isFalse hne => exact h.started task ((hexecuted task htask).resolve_right fun e => hne e.symm)
  guarded d' hd' := by
    rcases Table.mem_put.mp hd' with rfl | ⟨hd', hne⟩
    · exact hguarded
    · exact (h.guarded d' hd').mono (List.Subset.refl _)
        (fun c hc htask => (hconsultations c hc).resolve_right fun e => hne (htask.symm.trans e))
        fun hex => (hexecuted _ hex).resolve_right hne

theorem Inv.called (h : s.Inv) {dispatches : Table Dispatch} {d : Dispatch}
    (hpc : d.pc = .resolved ∨ ∃ r, d.pc = .returned r) (hinsert : s.dispatches.insert? d = some dispatches) :
    Inv { s with dispatches } := by
  have hfresh : s.dispatches.find? d.id = none := Table.insert?_isSome.mp (hinsert ▸ rfl)
  have hkept : ∀ task, (s.dispatches.find? task).isSome → (dispatches.find? task).isSome :=
    fun task htask => by
      rw [Table.find?_insert? hinsert]
      split
      · rfl
      · exact htask
  have hunstarted : d.id ∉ s.executed := fun hex => by
    have hstarted := h.started d.id hex
    rw [hfresh] at hstarted
    cases hstarted
  have hunasked : ∀ c ∈ s.consultations, c.task ≠ d.id := fun c hc e => by
    have hconsulted := h.consulted c hc
    rw [e, hfresh] at hconsulted
    cases hconsulted
  exact {
    filed := fun r hr => by
      obtain ⟨f, hf⟩ := h.filed r hr
      exact ⟨f, ⟨hf.found, hf.kind, hf.pinned, hf.members⟩⟩
    known := h.known
    sound := h.sound
    settled := h.settled
    once := h.once
    approved := h.approved
    consulted := fun c hc => hkept c.task (h.consulted c hc)
    started := fun task htask => hkept task (h.started task htask)
    guarded := fun d' hd' => by
      rcases (Table.mem_insert? hinsert).mp hd' with hd' | rfl
      · exact h.guarded d' hd'
      · unfold Guarded
        rcases hpc with hpc | ⟨r, hpc⟩ <;> rw [hpc]
        · exact ⟨hunstarted, hunasked⟩
        · exact fun hex => absurd hex hunstarted }

theorem Inv.consult (h : s.Inv) {d : Dispatch} {pc : DispatchPc} (hd : d ∈ s.dispatches)
    (hpc : d.pc = .resolved)
    (hcases : pc = .gated ∧ requiresApproval wired d s.approvals = true ∨
      pc = .allowed false ∧ requiresApproval wired d s.approvals = false ∨ ∃ r, pc = .returned r) :
    Inv { s with
      dispatches := s.dispatches.put { d with pc }
      consultations := s.consultations ++ [⟨d.id, requiresApproval wired d s.approvals⟩] } := by
  have hguarded := h.guarded d hd
  rw [Guarded, hpc] at hguarded
  obtain ⟨hunstarted, hunasked⟩ := hguarded
  refine h.settle (fun c hc => ?_) (fun _ hex => .inl hex) ?_
  · rcases List.mem_append.mp hc with hc | hc
    · exact .inl hc
    · exact .inr (List.mem_singleton.mp hc ▸ rfl)
  · rcases hcases with ⟨rfl, -⟩ | ⟨rfl, hfree⟩ | ⟨r, rfl⟩
    · exact hunstarted
    · rintro ⟨c, hc, htask, hrequired⟩
      rcases List.mem_append.mp hc with hc | hc
      · exact hunasked c hc htask
      · rw [List.mem_singleton.mp hc, hfree] at hrequired
        cases hrequired
    · exact fun hex => absurd hex hunstarted

theorem Inv.look (h : s.Inv) {d : Dispatch} {pc : DispatchPc} (hd : d ∈ s.dispatches)
    (hpc : d.pc = .gated)
    (hcases : pc = .allowed true ∧
        hasApprovedForDag d.ctx.orgId d.ctx.rootRequestId d.call.name s.approvals = true ∨
      ∃ r, pc = .returned r) :
    Inv { s with dispatches := s.dispatches.put { d with pc } } := by
  have hguarded := h.guarded d hd
  rw [Guarded, hpc] at hguarded
  refine h.settle (fun _ hc => .inl hc) (fun _ hex => .inl hex) ?_
  rcases hcases with ⟨rfl, hfound⟩ | ⟨r, rfl⟩
  · obtain ⟨row, hrow, hmatch⟩ := List.any_eq_true.mp hfound
    obtain ⟨hroot, horg, hstatus, htool⟩ := of_decide_eq_true hmatch
    obtain ⟨v, hv, hafter, hbefore⟩ := h.approved row hrow hstatus
    exact ⟨v, hv, hafter, hbefore.orgId.symm.trans horg, hbefore.rootRequestId.symm.trans hroot,
      hbefore.gatedTool.symm.trans htool⟩
  · exact fun hex => absurd hex hguarded

theorem Inv.execute (h : s.Inv) {d : Dispatch} {gated : Bool} {r : ToolResult} (hd : d ∈ s.dispatches)
    (hpc : d.pc = .allowed gated) :
    Inv { s with
      dispatches := s.dispatches.put { d with pc := .returned r }
      executed := s.executed ++ [d.id] } := by
  have hguarded := h.guarded d hd
  rw [Guarded, hpc] at hguarded
  refine h.settle (fun _ hc => .inl hc) (fun task hex => ?_) fun _ hrequired => ?_
  · exact (List.mem_append.mp hex).imp_right List.mem_singleton.mp
  · cases gated with
    | true =>
      obtain ⟨v, hv, happroved, horg, hroot, htool⟩ : s.Licensed d := hguarded
      exact ⟨v, hv, happroved, horg, hroot, htool⟩
    | false => exact absurd hrequired hguarded

theorem Inv.step (h : s.Inv) {a : DeskAct} (hstep : deskStep wired reduce s a = some t) : t.Inv := by
  cases deskStep_stepped hstep with
  | idle => exact h
  | filed hpending hkind hpinned hinsert happrovers =>
    exact h.ask hpending hkind hpinned hinsert happrovers
  | moved f hf hkeeps happroved hrows happrovers => exact h.moved hkeeps happroved hrows happrovers
  | decided hmem hpending hintime hallows hrows happrovers =>
    exact h.decided hmem hpending hintime hallows hrows happrovers
  | called hpc hinsert => exact h.called hpc hinsert
  | consulted hd hpc hcases => exact h.consult hd hpc hcases
  | looked hd hpc hcases => exact h.look hd hpc hcases
  | executed hd hpc => exact h.execute hd hpc

theorem Inv.licensed (h : s.Inv) {d : Dispatch} (hd : d ∈ s.dispatches) (hexecuted : d.id ∈ s.executed)
    (hrequired : s.Required d) : s.Licensed d := by
  have hguarded := h.guarded d hd
  unfold Guarded at hguarded
  split at hguarded
  · exact absurd hexecuted hguarded.1
  · exact absurd hexecuted hguarded
  · exact hguarded
  · exact absurd hrequired hguarded
  · exact hguarded hexecuted hrequired

end Desk

end Patom.Approvals
