import Patom.AgentCore.Dispatch
import Patom.Foundation.Transition

/-! The calls of one response: cut into batches, run batch by batch, answered in call order. -/

open Patom.Foundation
open Patom.Provider (ToolCall ToolCallId ToolResult)
open Patom.Runtime (RequestKind)

namespace Patom.AgentCore

structure Batch where
  start : Nat
  stop : Nat
  deriving DecidableEq

def Batch.toList (b : Batch) : List Nat := List.range' b.start (b.stop - b.start)

def Batch.Holds (b : Batch) (i : Nat) : Prop := b.start ≤ i ∧ i < b.stop

instance batchHoldsDecidable (b : Batch) (i : Nat) : Decidable (b.Holds i) :=
  inferInstanceAs (Decidable (b.start ≤ i ∧ i < b.stop))

def safeEnd (classes : List Bool) (j : Nat) : Nat :=
  if h : classes[j]? = some true then safeEnd classes (j + 1) else j
termination_by classes.length - j
decreasing_by
  have := (List.getElem?_eq_some_iff.mp h).1
  omega

theorem le_safeEnd (classes : List Bool) (j : Nat) : j ≤ safeEnd classes j := by
  induction j using safeEnd.induct classes with
  | case1 j h ih =>
    rw [safeEnd, dif_pos h]
    omega
  | case2 j h => rw [safeEnd, dif_neg h]

def batchEnd (classes : List Bool) (i : Nat) : Nat :=
  if classes[i]? = some true then safeEnd classes (i + 1) else i + 1

theorem lt_batchEnd (classes : List Bool) (i : Nat) : i < batchEnd classes i := by
  have := le_safeEnd classes (i + 1)
  unfold batchEnd
  split <;> omega

def planFrom (classes : List Bool) (i : Nat) : List Batch :=
  if i < classes.length then ⟨i, batchEnd classes i⟩ :: planFrom classes (batchEnd classes i)
  else []
termination_by classes.length - i
decreasing_by
  have := lt_batchEnd classes i
  omega

def planBatches (classes : List Bool) : List Batch := planFrom classes 0

section Plan

variable {classes : List Bool} {i j k : Nat} {b : Batch} {bs : List Batch}

theorem safeEnd_safe (hle : j ≤ k) (hlt : k < safeEnd classes j) : classes[k]? = some true := by
  induction j using safeEnd.induct classes with
  | case1 j h ih =>
    rw [safeEnd, dif_pos h] at hlt
    by_cases he : j = k
    · exact he ▸ h
    · exact ih (by omega) hlt
  | case2 j h =>
    rw [safeEnd, dif_neg h] at hlt
    omega

theorem safeEnd_stop (classes : List Bool) (j : Nat) : classes[safeEnd classes j]? ≠ some true := by
  induction j using safeEnd.induct classes with
  | case1 j h ih =>
    rw [safeEnd, dif_pos h]
    exact ih
  | case2 j h =>
    rw [safeEnd, dif_neg h]
    exact h

theorem safeEnd_le (h : j ≤ classes.length) : safeEnd classes j ≤ classes.length := by
  by_contra hlt
  have hsafe := safeEnd_safe h (Nat.lt_of_not_le hlt)
  rw [List.getElem?_eq_none (le_refl _)] at hsafe
  cases hsafe

structure IsBatch (classes : List Bool) (b : Batch) : Prop where
  nonempty : b.start < b.stop
  le : b.stop ≤ classes.length
  alone : classes[b.start]? ≠ some true → b.stop = b.start + 1
  safe : classes[b.start]? = some true →
    (∀ k, b.Holds k → classes[k]? = some true) ∧ classes[b.stop]? ≠ some true

def Tiles (classes : List Bool) : Nat → List Batch → Prop
  | i, [] => i = classes.length
  | i, b :: bs => b.start = i ∧ IsBatch classes b ∧ Tiles classes b.stop bs

theorem isBatch_batchEnd (h : i < classes.length) : IsBatch classes ⟨i, batchEnd classes i⟩ where
  nonempty := lt_batchEnd classes i
  le := by
    simp only [batchEnd]
    split
    · exact safeEnd_le h
    · exact h
  alone hne := if_neg hne
  safe hsafe := by
    simp only [batchEnd, if_pos hsafe]
    refine ⟨fun k hk => ?_, safeEnd_stop classes (i + 1)⟩
    by_cases he : i = k
    · exact he ▸ hsafe
    · have hle : i ≤ k := hk.1
      exact safeEnd_safe (by omega) hk.2

theorem planFrom_tiles (h : i ≤ classes.length) : Tiles classes i (planFrom classes i) := by
  induction i using planFrom.induct classes with
  | case1 i hlt ih =>
    rw [planFrom, if_pos hlt]
    exact ⟨rfl, isBatch_batchEnd hlt, ih (isBatch_batchEnd hlt).le⟩
  | case2 i hge =>
    rw [planFrom, if_neg hge]
    exact Nat.le_antisymm h (Nat.le_of_not_lt hge)

theorem Tiles.flatMap (h : Tiles classes i bs) :
    bs.flatMap Batch.toList = List.range' i (classes.length - i) := by
  induction bs generalizing i with
  | nil => simp [show i = classes.length from h]
  | cons b bs ih =>
    obtain ⟨rfl, hb, hbs⟩ := h
    have hlen : classes.length - b.start = (b.stop - b.start) + (classes.length - b.stop) := by
      have := hb.nonempty
      have := hb.le
      omega
    have hstart : b.start + 1 * (b.stop - b.start) = b.stop := by
      have := hb.nonempty
      omega
    rw [List.flatMap_cons, ih hbs, Batch.toList, hlen, ← List.range'_append, hstart]

theorem Tiles.exists_holds (h : Tiles classes i bs) (hle : i ≤ k) (hlt : k < classes.length) :
    ∃ b ∈ bs, b.Holds k ∧ IsBatch classes b := by
  induction bs generalizing i with
  | nil => exact absurd (show i = classes.length from h) (by omega)
  | cons b bs ih =>
    obtain ⟨rfl, hb, hbs⟩ := h
    by_cases hk : k < b.stop
    · exact ⟨b, List.mem_cons_self, ⟨hle, hk⟩, hb⟩
    · obtain ⟨b', hmem, hholds⟩ := ih hbs (by omega)
      exact ⟨b', List.mem_cons_of_mem b hmem, hholds⟩

theorem Tiles.isBatch (h : Tiles classes i bs) (hb : b ∈ bs) : IsBatch classes b := by
  induction bs generalizing i with
  | nil => cases hb
  | cons b' bs ih =>
    rcases List.mem_cons.mp hb with rfl | hb
    · exact h.2.1
    · exact ih h.2.2 hb

theorem planBatches_tiles (classes : List Bool) : Tiles classes 0 (planBatches classes) :=
  planFrom_tiles (Nat.zero_le _)

structure MaximalRun (classes : List Bool) (b : Batch) : Prop where
  nonempty : b.start < b.stop
  safe : ∀ k, b.Holds k → classes[k]? = some true
  first : ∀ k, k + 1 = b.start → classes[k]? ≠ some true
  last : classes[b.stop]? ≠ some true

theorem planBatches_run (h : MaximalRun classes b) : b ∈ planBatches classes := by
  have hstart := h.safe b.start ⟨le_refl _, h.nonempty⟩
  have hlt := (List.getElem?_eq_some_iff.mp hstart).1
  obtain ⟨b', hmem, hholds, hb'⟩ := (planBatches_tiles classes).exists_holds (Nat.zero_le _) hlt
  have hsafe : classes[b'.start]? = some true := by
    by_contra hne
    have halone := hb'.alone hne
    have he : b'.start = b.start := by
      have := hholds.1
      have := hholds.2
      omega
    exact hne (he ▸ hstart)
  obtain ⟨hall, hstop⟩ := hb'.safe hsafe
  have hstarts : b'.start = b.start := by
    by_contra hne
    have := hholds.1
    have := hholds.2
    exact h.first (b.start - 1) (by omega) (hall _ ⟨by omega, by omega⟩)
  have hstops : b'.stop = b.stop := by
    by_contra hne
    have := hb'.nonempty
    have := h.nonempty
    rcases Nat.lt_or_gt_of_ne hne with hlt | hgt
    · exact hstop (h.safe _ ⟨by omega, hlt⟩)
    · exact h.last (hall _ ⟨by omega, hgt⟩)
  have he : b' = b := by
    cases b
    cases b'
    cases hstarts
    cases hstops
    rfl
  exact he ▸ hmem

end Plan

inductive CallClass (T : Type)
  | safe (tool : T)
  | barrier (tool : T)
  | unknown

def CallClass.classify {T : Type} (concurrencySafe : T → Bool) : Option T → CallClass T
  | some tool => if concurrencySafe tool then .safe tool else .barrier tool
  | none => .unknown

def CallClass.isSafe {T : Type} : CallClass T → Bool
  | .safe _ => true
  | .barrier _ | .unknown => false

def CallClass.tool {T : Type} : CallClass T → Option T
  | .safe tool | .barrier tool => some tool
  | .unknown => none

inductive ToolRan
  | blocked (reason : String)
  | ended (outcome : ToolOutcome)

structure ToolTurn (T : Type) where
  kind : RequestKind
  calls : List ToolCall
  resolve : ToolCall → Option T
  concurrencySafe : T → Bool
  visible : ToolCall → String → String

section Run

variable {T : Type}

def ToolTurn.classOf (p : ToolTurn T) (call : ToolCall) : CallClass T :=
  .classify p.concurrencySafe (p.resolve call)

def ToolTurn.safeFlags (p : ToolTurn T) : List Bool := p.calls.map fun call => (p.classOf call).isSafe

def ToolTurn.runOneTool (p : ToolTurn T) (call : ToolCall) (ran : ToolRan) : ToolResult :=
  match (p.classOf call).tool, ran with
  | none, _ => unknownTool call p.kind
  | some _, .blocked reason => errorResult call.id reason
  | some _, .ended outcome =>
    toolResult (fun call output => ⟨call.id, p.visible call output, false⟩) call outcome

inductive CallPc
  | waiting
  | running
  | ran (result : ToolResult)
  | done (outcome : Except AgentError ToolResult)

def CallPc.outcome? : CallPc → Option (Except AgentError ToolResult)
  | .done outcome => some outcome
  | _ => none

inductive CallEvent
  | began (i : Nat)
  | executed (i : Nat) (result : ToolResult)
  | ended (i : Nat)
  deriving DecidableEq

def CallEvent.place : CallEvent → Nat
  | .began i | .executed i _ | .ended i => i

/-- `log` is what has happened to the calls, in time order. -/
structure ToolRun where
  batch : Option Batch
  rest : List Batch
  pcs : Nat → CallPc
  out : List ToolResult
  log : List CallEvent
  returned : Option (Except AgentError (List ToolResult))

def ToolTurn.start (p : ToolTurn T) : ToolRun :=
  ⟨none, planBatches p.safeFlags, fun _ => .waiting, [], [], none⟩

inductive ToolAct
  | nextBatch (cancelled : Bool)
  | beforeTool (i : Nat) (hook : Except AgentError Unit)
  | runTool (i : Nat) (ran : ToolRan)
  | afterTool (i : Nat) (hook : Except AgentError Unit)
  | merge

def ToolRun.put (s : ToolRun) (i : Nat) (pc : CallPc) (events : List CallEvent) : ToolRun :=
  { s with pcs := Function.update s.pcs i pc, log := s.log ++ events }

def joinAll (pcs : Nat → CallPc) : List Nat → Option (List (Except AgentError ToolResult))
  | [] => some []
  | i :: is => (pcs i).outcome?.bind fun outcome => (joinAll pcs is).map (outcome :: ·)

def mergeResults (out : List ToolResult) :
    List (Except AgentError ToolResult) → Except AgentError (List ToolResult)
  | [] => .ok out
  | .error e :: _ => .error e
  | .ok result :: rest => mergeResults (out ++ [result]) rest

def ToolRun.merged (s : ToolRun) : Except AgentError (List ToolResult) → ToolRun
  | .error e => { s with returned := some (.error e) }
  | .ok out => { s with batch := none, out }

def ToolRun.nextBatch (s : ToolRun) (cancelled : Bool) : ToolRun :=
  match s.rest with
  | [] => { s with returned := some (.ok s.out) }
  | b :: rest =>
    if cancelled then { s with returned := some (.error .cancelled) }
    else { s with batch := some b, rest }

def toolStep (p : ToolTurn T) : Step ToolRun ToolAct := fun s a =>
  if s.returned.isSome then none
  else
    match s.batch, a with
    | none, .nextBatch cancelled => some (s.nextBatch cancelled)
    | some b, .beforeTool i hook =>
      if b.Holds i then
        match s.pcs i, hook with
        | .waiting, .ok () => some (s.put i .running [.began i])
        | .waiting, .error e => some (s.put i (.done (.error e)) [.began i, .ended i])
        | _, _ => none
      else none
    | some b, .runTool i ran =>
      if b.Holds i then
        match s.pcs i, p.calls[i]? with
        | .running, some call =>
          some (s.put i (.ran (p.runOneTool call ran)) [.executed i (p.runOneTool call ran)])
        | _, _ => none
      else none
    | some b, .afterTool i hook =>
      if b.Holds i then
        match s.pcs i, hook with
        | .ran result, .ok () => some (s.put i (.done (.ok result)) [.ended i])
        | .ran _, .error e => some (s.put i (.done (.error e)) [.ended i])
        | _, _ => none
      else none
    | some b, .merge => (joinAll s.pcs b.toList).map fun results => s.merged (mergeResults s.out results)
    | _, _ => none

inductive Moves (p : ToolTurn T) (i : Nat) : CallPc → CallPc → List CallEvent → Prop
  | before : Moves p i .waiting .running [.began i]
  | denied (e : AgentError) : Moves p i .waiting (.done (.error e)) [.began i, .ended i]
  | run {call : ToolCall} (ran : ToolRan) (h : p.calls[i]? = some call) :
    Moves p i .running (.ran (p.runOneTool call ran)) [.executed i (p.runOneTool call ran)]
  | after (result : ToolResult) : Moves p i (.ran result) (.done (.ok result)) [.ended i]
  | failed (result : ToolResult) (e : AgentError) :
    Moves p i (.ran result) (.done (.error e)) [.ended i]

theorem toolStep_cases {p : ToolTurn T} {s t : ToolRun} {a : ToolAct}
    (h : toolStep p s a = some t) : s.returned = none ∧
      ((∃ cancelled, s.batch = none ∧ t = s.nextBatch cancelled) ∨
        (∃ b i pc events, s.batch = some b ∧ b.Holds i ∧ Moves p i (s.pcs i) pc events ∧
          t = s.put i pc events) ∨
        ∃ b results, s.batch = some b ∧ joinAll s.pcs b.toList = some results ∧
          t = s.merged (mergeResults s.out results)) := by
  unfold toolStep at h
  split at h
  · cases h
  next hret =>
    refine ⟨by simpa using hret, ?_⟩
    split at h
    · next cancelled hb =>
      exact .inl ⟨cancelled, hb, (Option.some.inj h).symm⟩
    · next b i hook hb =>
      split at h
      next hi =>
        refine .inr (.inl ⟨b, i, ?_⟩)
        split at h
        · next hpc => exact ⟨_, _, hb, hi, hpc ▸ .before, (Option.some.inj h).symm⟩
        · next e hpc => exact ⟨_, _, hb, hi, hpc ▸ .denied e, (Option.some.inj h).symm⟩
        · cases h
      · cases h
    · next b i ran hb =>
      split at h
      next hi =>
        refine .inr (.inl ⟨b, i, ?_⟩)
        split at h
        · next call hpc hcall =>
          exact ⟨_, _, hb, hi, hpc ▸ .run ran hcall, (Option.some.inj h).symm⟩
        · cases h
      · cases h
    · next b i hook hb =>
      split at h
      next hi =>
        refine .inr (.inl ⟨b, i, ?_⟩)
        split at h
        · next result hpc => exact ⟨_, _, hb, hi, hpc ▸ .after result, (Option.some.inj h).symm⟩
        · next result e hpc =>
          exact ⟨_, _, hb, hi, hpc ▸ .failed result e, (Option.some.inj h).symm⟩
        · cases h
      · cases h
    · next b hb =>
      obtain ⟨results, hjoin, ht⟩ := Option.map_eq_some_iff.mp h
      exact .inr (.inr ⟨b, results, hb, hjoin, ht.symm⟩)
    · cases h

end Run

section Traces

def traceOf (log : List CallEvent) (i : Nat) : List CallEvent := log.filter fun e => e.place = i

/-- A call begins once, is executed at most once in between, and ends once. -/
inductive Traced (i : Nat) : CallPc → List CallEvent → Prop
  | waiting : Traced i .waiting []
  | running : Traced i .running [.began i]
  | ran (result : ToolResult) : Traced i (.ran result) [.began i, .executed i result]
  | done (result : ToolResult) :
    Traced i (.done (.ok result)) [.began i, .executed i result, .ended i]
  | denied (e : AgentError) : Traced i (.done (.error e)) [.began i, .ended i]
  | failed (result : ToolResult) (e : AgentError) :
    Traced i (.done (.error e)) [.began i, .executed i result, .ended i]

def CallEvent.executes (i : Nat) : CallEvent → Bool
  | .executed j _ => j = i
  | .began _ | .ended _ => false

def executions (log : List CallEvent) (i : Nat) : Nat := log.countP (·.executes i)

variable {T : Type} {p : ToolTurn T} {i : Nat} {pc pc' : CallPc} {log events : List CallEvent}

theorem Moves.traced (h : Moves p i pc pc' events) (ht : Traced i pc log) :
    Traced i pc' (log ++ events) := by
  cases h with
  | before =>
    cases ht
    exact .running
  | denied e =>
    cases ht
    exact .denied e
  | run ran hcall =>
    cases ht
    exact .ran _
  | after result =>
    cases ht
    exact .done result
  | failed result e =>
    cases ht
    exact .failed result e

theorem Moves.place (h : Moves p i pc pc' events) : ∀ e ∈ events, e.place = i := by
  cases h <;> simp [CallEvent.place]

theorem traceOf_append (log events : List CallEvent) (i : Nat) :
    traceOf (log ++ events) i = traceOf log i ++ traceOf events i :=
  List.filter_append _ _

theorem mem_traceOf {e : CallEvent} : e ∈ traceOf log i ↔ e ∈ log ∧ e.place = i := by
  simp [traceOf]

theorem Moves.traceOf_self (h : Moves p i pc pc' events) : traceOf events i = events := by
  refine List.filter_eq_self.mpr fun e he => ?_
  simpa using h.place e he

theorem Moves.traceOf_ne (h : Moves p i pc pc' events) {j : Nat} (hj : j ≠ i) :
    traceOf events j = [] := by
  refine List.filter_eq_nil_iff.mpr fun e he => ?_
  simpa [h.place e he] using Ne.symm hj

theorem executions_eq (log : List CallEvent) (i : Nat) :
    executions log i = (traceOf log i).countP (·.executes i) := by
  rw [executions, traceOf, List.countP_filter]
  refine List.countP_congr fun e _ => ?_
  cases e <;> simp +contextual [CallEvent.executes, CallEvent.place]

theorem Traced.executions_le (h : Traced i pc (traceOf log i)) : executions log i ≤ 1 := by
  rw [executions_eq]
  generalize traceOf log i = trace at h
  cases h <;> simp [CallEvent.executes]

theorem Traced.executions_done {result : ToolResult}
    (h : Traced i (.done (.ok result)) (traceOf log i)) : executions log i = 1 := by
  rw [executions_eq]
  generalize traceOf log i = trace at h
  cases h
  simp [CallEvent.executes]

theorem Traced.mem_done {result : ToolResult} (h : Traced i (.done (.ok result)) (traceOf log i)) :
    .executed i result ∈ log ∧ .ended i ∈ log := by
  have hmem : ∀ e ∈ [CallEvent.executed i result, .ended i], e ∈ traceOf log i := by
    generalize traceOf log i = trace at h
    cases h
    simp
  exact ⟨(mem_traceOf.mp (hmem _ (by simp))).1, (mem_traceOf.mp (hmem _ (by simp))).1⟩

end Traces

section Invariant

variable {T : Type} {p : ToolTurn T} {s t : ToolRun} {i j : Nat} {log events : List CallEvent}

def BothSafe (classes : List Bool) (i j : Nat) : Prop :=
  classes[i]? = some true ∧ classes[j]? = some true

/-- Of two calls that are not both safe, the later one begins after the earlier one has ended. -/
def InOrder (classes : List Bool) (log : List CallEvent) : Prop :=
  ∀ i j, i < j → ¬ BothSafe classes i j → ∀ before after,
    log = before ++ .began j :: after → .ended i ∈ before

theorem InOrder.append {classes : List Bool} (h : InOrder classes log)
    (hnew : ∀ i j, i < j → ¬ BothSafe classes i j → .began j ∈ events → .ended i ∈ log) :
    InOrder classes (log ++ events) := by
  intro i j hij hsafe before after he
  rcases List.append_eq_append_iff.mp he with ⟨mid, hbefore, hevents⟩ | ⟨mid, hlog, hrest⟩
  · rw [hbefore]
    refine List.mem_append_left mid (hnew i j hij hsafe ?_)
    rw [hevents]
    exact List.mem_append_right mid List.mem_cons_self
  · cases mid with
    | nil =>
      rw [List.append_nil] at hlog
      rw [← hlog]
      exact hnew i j hij hsafe (by rw [List.nil_append] at hrest; rw [← hrest]; exact List.mem_cons_self)
    | cons e mid =>
      obtain ⟨rfl, -⟩ := List.cons_eq_cons.mp hrest
      exact h i j hij hsafe before mid hlog

structure Placed (p : ToolTurn T) (s : ToolRun) (stop : Nat) : Prop where
  out : ∀ i result, s.out[i]? = some result → s.pcs i = .done (.ok result)
  batch : s.batch = none ∧ stop = s.out.length ∨
    s.batch = some ⟨s.out.length, stop⟩ ∧ IsBatch p.safeFlags ⟨s.out.length, stop⟩
  after : ∀ i, stop ≤ i → s.pcs i = .waiting
  rest : Tiles p.safeFlags stop s.rest

structure ToolInv (p : ToolTurn T) (s : ToolRun) : Prop where
  traced : ∀ i, Traced i (s.pcs i) (traceOf s.log i)
  ids : ∀ i result, .executed i result ∈ s.log →
    ∃ call, p.calls[i]? = some call ∧ result.callId = call.id
  order : InOrder p.safeFlags s.log
  beyond : ∀ i, p.calls.length ≤ i → s.pcs i = .waiting
  placed : s.returned = none → ∃ stop, Placed p s stop
  answered : ∀ results, s.returned = some (.ok results) → results.length = p.calls.length ∧
    ∀ i result, results[i]? = some result → s.pcs i = .done (.ok result)

theorem length_safeFlags (p : ToolTurn T) : p.safeFlags.length = p.calls.length := List.length_map _

theorem toolInv_start (p : ToolTurn T) : ToolInv p p.start where
  traced _ := .waiting
  ids _ _ h := (List.not_mem_nil h).elim
  order _ _ _ _ before after h := by simp [ToolTurn.start] at h
  beyond _ _ := rfl
  placed _ := ⟨0, fun _ _ h => (Option.some_ne_none _ h.symm).elim, .inl ⟨rfl, rfl⟩, fun _ _ => rfl,
    planBatches_tiles _⟩
  answered _ h := by cases h

theorem toolResult_callId (reduce : ToolCall → String → ToolResult)
    (h : ∀ call output, (reduce call output).callId = call.id) (call : ToolCall)
    (outcome : ToolOutcome) : (toolResult reduce call outcome).callId = call.id := by
  cases outcome with
  | output text =>
    simp only [toolResult]
    split
    · exact h call text
    · rfl
  | failed detail => rfl
  | timedOut => rfl
  | cancelled => rfl

theorem runOneTool_callId (p : ToolTurn T) (call : ToolCall) (ran : ToolRan) :
    (p.runOneTool call ran).callId = call.id := by
  unfold ToolTurn.runOneTool
  split
  · rfl
  · rfl
  · exact toolResult_callId _ (fun _ _ => rfl) call _

theorem Placed.batch_eq {stop : Nat} {b : Batch} (h : Placed p s stop) (hb : s.batch = some b) :
    b = ⟨s.out.length, stop⟩ ∧ IsBatch p.safeFlags b := by
  rcases h.batch with ⟨hnone, -⟩ | ⟨hsome, hbatch⟩
  · cases hnone.symm.trans hb
  · obtain rfl := Option.some.inj (hsome.symm.trans hb)
    exact ⟨rfl, hbatch⟩

theorem ToolInv.ended (h : ToolInv p s) {b : Batch} {stop : Nat} (hplaced : Placed p s stop)
    (hb : s.batch = some b) (hj : b.Holds j) (hij : i < j) (hsafe : ¬ BothSafe p.safeFlags i j) :
    .ended i ∈ s.log := by
  obtain ⟨rfl, hbatch⟩ := hplaced.batch_eq hb
  have hlt : i < s.out.length := by
    by_contra hge
    have hjs := hj.1
    have hjt := hj.2
    simp only at hjs hjt
    refine hsafe ?_
    have hstart : p.safeFlags[s.out.length]? = some true := by
      by_contra hne
      have := hbatch.alone hne
      simp only at this
      omega
    obtain ⟨hall, -⟩ := hbatch.safe hstart
    exact ⟨hall i ⟨by simpa using Nat.le_of_not_lt hge, by simp only; omega⟩, hall j hj⟩
  obtain ⟨result, hresult⟩ : ∃ result, s.out[i]? = some result :=
    ⟨_, List.getElem?_eq_getElem hlt⟩
  have htraced := h.traced i
  rw [hplaced.out i result hresult] at htraced
  exact htraced.mem_done.2

theorem Moves.began {pc pc' : CallPc} (h : Moves p i pc pc' events) (hj : .began j ∈ events) :
    j = i := by
  have := h.place _ hj
  exact this

theorem Moves.executed {pc pc' : CallPc} {result : ToolResult} (h : Moves p i pc pc' events)
    (hj : .executed j result ∈ events) :
    ∃ call, p.calls[j]? = some call ∧ result.callId = call.id := by
  cases h with
  | run ran hcall =>
    rename_i call
    obtain ⟨rfl, rfl⟩ : j = i ∧ result = p.runOneTool call ran := by simpa using hj
    exact ⟨call, hcall, runOneTool_callId p call ran⟩
  | before | denied | after | failed => simp at hj

theorem ToolInv.put (h : ToolInv p s) (hret : s.returned = none) {b : Batch}
    (hb : s.batch = some b) (hi : b.Holds i) {pc : CallPc} (hm : Moves p i (s.pcs i) pc events) :
    ToolInv p (s.put i pc events) := by
  obtain ⟨stop, hplaced⟩ := h.placed hret
  obtain ⟨rfl, hbatch⟩ := hplaced.batch_eq hb
  have hstart : s.out.length ≤ i := hi.1
  have hstop : i < stop := hi.2
  have hle : stop ≤ p.calls.length := length_safeFlags p ▸ hbatch.le
  have hother : ∀ k, k ≠ i → (s.put i pc events).pcs k = s.pcs k := fun k hk =>
    Function.update_of_ne hk _ _
  constructor
  · intro k
    change Traced k ((s.put i pc events).pcs k) (traceOf (s.log ++ events) k)
    rw [traceOf_append]
    by_cases hk : k = i
    · subst hk
      have hself : (s.put k pc events).pcs k = pc := by simp [ToolRun.put]
      rw [hm.traceOf_self, hself]
      exact hm.traced (h.traced k)
    · rw [hm.traceOf_ne hk, List.append_nil, hother k hk]
      exact h.traced k
  · intro k result hk
    rcases List.mem_append.mp hk with hk | hk
    · exact h.ids k result hk
    · exact hm.executed hk
  · refine h.order.append fun k j hkj hsafe hj => ?_
    rw [hm.began hj] at hkj hsafe
    exact h.ended hplaced hb hi hkj hsafe
  · intro k hk
    rw [hother k (by omega)]
    exact h.beyond k hk
  · intro _
    refine ⟨stop, fun k result hk => ?_, hplaced.batch, fun k hk => ?_, hplaced.rest⟩
    · have hlt : k < s.out.length := (List.getElem?_eq_some_iff.mp hk).1
      rw [hother k (by omega)]
      exact hplaced.out k result hk
    · rw [hother k (by omega)]
      exact hplaced.after k hk
  · intro results hres
    cases hret.symm.trans hres

theorem ToolInv.fail (h : ToolInv p s) (e : AgentError) :
    ToolInv p { s with returned := some (.error e) } where
  traced := h.traced
  ids := h.ids
  order := h.order
  beyond := h.beyond
  placed hret := by cases hret
  answered _ hres := by cases hres

theorem ToolInv.nextBatch (h : ToolInv p s) (hret : s.returned = none) (hb : s.batch = none)
    (cancelled : Bool) : ToolInv p (s.nextBatch cancelled) := by
  obtain ⟨stop, hplaced⟩ := h.placed hret
  have hstop : stop = s.out.length := by
    rcases hplaced.batch with ⟨-, hstop⟩ | ⟨hsome, -⟩
    · exact hstop
    · cases hb.symm.trans hsome
  have htiles := hplaced.rest
  unfold ToolRun.nextBatch
  split
  · next hrest =>
    rw [hrest] at htiles
    refine ⟨h.traced, h.ids, h.order, h.beyond, fun hret => (by cases hret), fun results hres => ?_⟩
    obtain rfl : s.out = results := by simpa using hres
    refine ⟨?_, hplaced.out⟩
    rw [← hstop, ← length_safeFlags]
    exact htiles
  · next b rest hrest =>
    rw [hrest] at htiles
    obtain ⟨hstart, hbatch, htiles⟩ := htiles
    split
    · exact h.fail .cancelled
    · have hb' : b = ⟨s.out.length, b.stop⟩ := by
        rw [← hstop, ← hstart]
      refine ⟨h.traced, h.ids, h.order, h.beyond, fun _ => ⟨b.stop, hplaced.out, .inr ?_, ?_, htiles⟩,
        fun _ hres => (by cases hret.symm.trans hres)⟩
      · exact ⟨congrArg some hb', hb' ▸ hbatch⟩
      · intro i hi
        have := hbatch.nonempty
        exact hplaced.after i (by omega)

theorem joinAll_spec {pcs : Nat → CallPc} {is : List Nat}
    {results : List (Except AgentError ToolResult)} (h : joinAll pcs is = some results) :
    results.length = is.length ∧
      ∀ (k i : Nat), is[k]? = some i →
        ∃ outcome, results[k]? = some outcome ∧ pcs i = .done outcome := by
  induction is generalizing results with
  | nil =>
    obtain rfl : [] = results := by simpa [joinAll] using h
    exact ⟨rfl, fun k i hk => (Option.some_ne_none _ hk.symm).elim⟩
  | cons i is ih =>
    obtain ⟨outcome, hout, h⟩ := Option.bind_eq_some_iff.mp h
    obtain ⟨rest, hrest, rfl⟩ := Option.map_eq_some_iff.mp h
    obtain ⟨hlen, hall⟩ := ih hrest
    refine ⟨congrArg (· + 1) hlen, fun k j hk => ?_⟩
    cases k with
    | zero =>
      obtain rfl : i = j := by simpa using hk
      refine ⟨outcome, rfl, ?_⟩
      cases hpc : pcs i with
      | done outcome' => rw [hpc] at hout; exact congrArg CallPc.done (Option.some.inj hout)
      | waiting | running | ran => rw [hpc] at hout; cases hout
    | succ k => exact hall k j hk

theorem mergeResults_ok {out merged : List ToolResult}
    {results : List (Except AgentError ToolResult)} (h : mergeResults out results = .ok merged) :
    ∃ more, results = more.map .ok ∧ merged = out ++ more := by
  induction results generalizing out with
  | nil =>
    obtain rfl : out = merged := by simpa [mergeResults] using h
    exact ⟨[], rfl, (List.append_nil out).symm⟩
  | cons result results ih =>
    cases result with
    | error e => cases h
    | ok result =>
      obtain ⟨more, rfl, rfl⟩ := ih h
      exact ⟨result :: more, rfl, by simp⟩

theorem ToolInv.merged (h : ToolInv p s) (hret : s.returned = none) {b : Batch}
    (hb : s.batch = some b) {results : List (Except AgentError ToolResult)}
    (hjoin : joinAll s.pcs b.toList = some results) :
    ToolInv p (s.merged (mergeResults s.out results)) := by
  obtain ⟨stop, hplaced⟩ := h.placed hret
  obtain ⟨rfl, hbatch⟩ := hplaced.batch_eq hb
  obtain ⟨hlen, hall⟩ := joinAll_spec hjoin
  cases hmerge : mergeResults s.out results with
  | error e => exact h.fail e
  | ok out =>
    obtain ⟨more, rfl, rfl⟩ := mergeResults_ok hmerge
    have hmore : more.length = stop - s.out.length := by
      simpa [Batch.toList] using hlen
    have hlt : s.out.length < stop := hbatch.nonempty
    refine ⟨h.traced, h.ids, h.order, h.beyond,
      fun _ => ⟨stop, ?_, .inl ⟨rfl, ?_⟩, hplaced.after, hplaced.rest⟩,
      fun _ hres => (by cases hret.symm.trans hres)⟩
    · intro i result hi
      by_cases hold : i < s.out.length
      · exact hplaced.out i result (by simpa [ToolRun.merged, List.getElem?_append_left hold] using hi)
      · have hi' : more[i - s.out.length]? = some result := by
          simpa [ToolRun.merged, List.getElem?_append_right (Nat.le_of_not_lt hold)] using hi
        have hidx : (List.range' s.out.length (stop - s.out.length))[i - s.out.length]? = some i := by
          have := (List.getElem?_eq_some_iff.mp hi').1
          rw [List.getElem?_range' (by omega)]
          exact congrArg some (by omega)
        obtain ⟨outcome, houtcome, hpc⟩ := hall _ _ hidx
        rw [List.getElem?_map, hi'] at houtcome
        obtain rfl := Option.some.inj houtcome
        exact hpc
    · change stop = (s.out ++ more).length
      rw [List.length_append, hmore]
      omega

theorem ToolInv.step (h : ToolInv p s) {a : ToolAct} (hstep : toolStep p s a = some t) :
    ToolInv p t := by
  obtain ⟨hret, ⟨cancelled, hb, rfl⟩ | ⟨b, i, pc, events, hb, hi, hm, rfl⟩ | ⟨b, results, hb, hjoin,
    rfl⟩⟩ := toolStep_cases hstep
  · exact h.nextBatch hret hb cancelled
  · exact h.put hret hb hi hm
  · exact h.merged hret hb hjoin

end Invariant

section Answers

variable {T : Type}

def Open (log : List CallEvent) (i : Nat) : Prop := .began i ∈ log ∧ .ended i ∉ log

/-- What a run has come to: each call's own history, how the calls lie to each other, and what the
results answer. -/
structure Answers (p : ToolTurn T) (s : ToolRun) : Prop where
  traced : ∀ i, ∃ pc, Traced i pc (traceOf s.log i)
  once : ∀ i, executions s.log i ≤ 1
  alone : ∀ before after, s.log = before ++ after → ∀ i j, i ≠ j → Open before i → Open before j →
    BothSafe p.safeFlags i j
  order : InOrder p.safeFlags s.log
  results : ∀ results, s.returned = some (.ok results) → results.length = p.calls.length ∧
    ∀ i call, p.calls[i]? = some call → ∃ result, results[i]? = some result ∧
      result.callId = call.id ∧ .executed i result ∈ s.log ∧ executions s.log i = 1

theorem InOrder.alone {classes : List Bool} {log before after : List CallEvent} {i j : Nat}
    (h : InOrder classes log) (he : log = before ++ after) (hij : i < j) (hi : Open before i)
    (hj : Open before j) : BothSafe classes i j := by
  by_contra hsafe
  obtain ⟨ahead, behind, rfl⟩ := List.append_of_mem hj.1
  refine hi.2 (List.mem_append_left _ (h i j hij hsafe ahead (behind ++ after) ?_))
  rw [he, List.append_assoc, List.cons_append]

theorem ToolInv.answers {p : ToolTurn T} {s : ToolRun} (h : ToolInv p s) : Answers p s where
  traced i := ⟨_, h.traced i⟩
  once i := (h.traced i).executions_le
  alone before after he i j hne hi hj := by
    rcases Nat.lt_or_gt_of_ne hne with hij | hji
    · exact h.order.alone he hij hi hj
    · exact (h.order.alone he hji hj hi).symm
  order := h.order
  results results hres := by
    obtain ⟨hlen, hall⟩ := h.answered results hres
    refine ⟨hlen, fun i call hcall => ?_⟩
    have hlt : i < results.length := hlen ▸ (List.getElem?_eq_some_iff.mp hcall).1
    have hget : results[i]? = some results[i] := List.getElem?_eq_getElem hlt
    have htraced := h.traced i
    rw [hall i _ hget] at htraced
    obtain ⟨call', hcall', hid⟩ := h.ids i _ htraced.mem_done.1
    obtain rfl := Option.some.inj (hcall.symm.trans hcall')
    exact ⟨_, hget, hid, htraced.mem_done.1, htraced.executions_done⟩

theorem run_tools_answers (p : ToolTurn T) (acts : List ToolAct) :
    (planBatches p.safeFlags).flatMap Batch.toList = List.range p.calls.length ∧
      (∀ b ∈ planBatches p.safeFlags, IsBatch p.safeFlags b) ∧
      (∀ b, MaximalRun p.safeFlags b → b ∈ planBatches p.safeFlags) ∧
      Always (toolStep p) (Answers p) p.start acts := by
  have htiles := planBatches_tiles p.safeFlags
  refine ⟨?_, fun b hb => htiles.isBatch hb, fun b hb => planBatches_run hb, ?_⟩
  · rw [htiles.flatMap, length_safeFlags, Nat.sub_zero, List.range_eq_range']
  · exact (Always.of_inv (fun s a t h hstep => h.step hstep) (toolInv_start p) acts).mono
      fun s h => h.answers

end Answers

end Patom.AgentCore
