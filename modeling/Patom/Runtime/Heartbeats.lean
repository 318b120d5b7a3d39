import Patom.Runtime.WorkerInvariant

/-! The heartbeat tasks of the pool's turns.  A task sleeps, renews the lease of its turn and reads
the reply; a shutdown ends it at its next sleep, and the turn goes on without it. -/

open Patom.Foundation

namespace Patom.Runtime

inductive BeatPc
  | sleeping (since : Time)
  | inFlight
  deriving DecidableEq

structure Heartbeat where
  worker : WorkerId
  receipt : TurnReceipt
  pc : BeatPc
  deriving DecidableEq

instance Heartbeat.keyed : Keyed Heartbeat WorkerId := ⟨(·.worker)⟩

/-- A committed claim that took the lease of its key, whether or not it drained anything. -/
structure Take where
  worker : WorkerId
  claimKey : ClaimKey
  leaseSeq : TurnSeq
  deriving DecidableEq

def Claim.take (c : Claim) : Take := ⟨c.worker, c.claimKey, c.leaseSeq⟩

structure Beat where
  worker : WorkerId
  receipt : TurnReceipt
  superseded : Bool
  reply : Except PromptError Unit

def Superseded (taken : List Take) (w : WorkerId) (r : TurnReceipt) : Prop :=
  ∃ k ∈ taken, k.claimKey = r.claimKey ∧ r.leaseSeq < k.leaseSeq ∧ k.worker ≠ w

instance Superseded.decidable (taken : List Take) (w : WorkerId) (r : TurnReceipt) :
    Decidable (Superseded taken w r) :=
  inferInstanceAs (Decidable (∃ k ∈ taken, _))

/-- `checked` are the workers whose turns have passed a heartbeat since the lease of their key was
last taken. -/
structure Fleet where
  pool : Pool
  beating : Table Heartbeat
  stopping : List WorkerId
  taken : List Take
  checked : List WorkerId
  beats : List Beat

def Fleet.init : Fleet := ⟨.init, .empty, [], [], [], []⟩

inductive FleetAct
  | pool (a : PoolAct)
  | wake (w : WorkerId)
  | beat (w : WorkerId) (now : Time) (fault : Option PromptError)
  | shutdown (ws : List WorkerId)
  | endBeat (w : WorkerId)

def St.taking (s : St) (w : WorkerId) : Option Take :=
  (s.open? w).bind fun tx =>
    match tx.pc with
    | .drained c seq _ => some ⟨w, c.claimKey, seq⟩
    | _ => none

def Pool.taking (p : Pool) : PoolAct → Option Take
  | .claim w => p.queue.taking w
  | _ => none

def TurnPc.isOver : TurnPc → Bool
  | .releasing | .emitting [] => true
  | _ => false

/-- A worker looks for the shutdown before it claims, and aborts its heartbeat before it releases.
A heartbeat of the queue alone is one whose reply is lost. -/
def Fleet.admits (f : Fleet) : PoolAct → Bool
  | .queue (.claimBegin w) => w ∉ f.stopping
  | .queue (.heartbeat w r _) =>
    (f.beating.find? w).any fun b => b.pc = .inFlight && b.receipt = r
  | .turn w (.release _) => (f.beating.find? w).isNone
  | _ => true

def Fleet.tasks (f : Fleet) (a : PoolAct) (pool : Pool) : Table Heartbeat :=
  let kept := f.beating.delete fun b => (pool.turn? b.worker).isNone
  match a with
  | .turn w (.resolve none) =>
    match pool.turn? w with
    | some t => kept.put ⟨w, t.receipt, .sleeping pool.queue.clock⟩
    | none => kept
  | _ => kept

def Fleet.moved (f : Fleet) (a : PoolAct) (pool : Pool) : Fleet :=
  { f with
    pool
    beating := f.tasks a pool
    taken := f.taken ++ (f.pool.taking a).toList
    checked := f.checked.filter fun w =>
      (pool.turn? w).any fun t => (f.pool.taking a).all fun k => k.claimKey ≠ t.receipt.claimKey }

/-- What a task makes of a reply: an error is a stale lease. -/
def Fleet.replied (f : Fleet) (b : Heartbeat) (queue : St) (reply : Except PromptError Unit) :
    Fleet :=
  let pool := { f.pool with queue }
  let beats := f.beats ++ [⟨b.worker, b.receipt, Superseded f.taken b.worker b.receipt, reply⟩]
  match reply with
  | .ok () =>
    { f with pool, beats, beating := f.beating.put { b with pc := .sleeping queue.clock },
             checked := b.worker :: f.checked }
  | .error _ =>
    { f with pool, beats, beating := f.beating.delete fun b' => b'.worker = b.worker }

section Step

variable (colleagues : Table Colleague) (timing : LeaseTiming)

/-- `execute` returns how many rows the update found, and nothing reads it. -/
def heartbeatTurnImpl (s : St) (w : WorkerId) (r : TurnReceipt) (now : Time) :
    Option PromptError → Option (St × Except PromptError Unit)
  | some e => some (s, .error e)
  | none => (step colleagues timing s (.heartbeat w r now)).map fun t => (t, .ok ())

def fleetStep : Step Fleet FleetAct
  | f, .pool a =>
    if f.admits a then (poolStep colleagues timing f.pool a).map (f.moved a) else none
  | f, .wake w =>
    (f.beating.find? w).bind fun b =>
      match b.pc with
      | .sleeping since =>
        if w ∉ f.stopping ∧ since + timing.heartbeatInterval ≤ f.pool.queue.clock then
          some { f with beating := f.beating.put { b with pc := .inFlight } }
        else none
      | .inFlight => none
  | f, .beat w now fault =>
    (f.beating.find? w).bind fun b =>
      if b.pc = .inFlight then
        (heartbeatTurnImpl colleagues timing f.pool.queue w b.receipt now fault).map
          fun (queue, reply) => f.replied b queue reply
      else none
  | f, .shutdown ws => some { f with stopping := ws ++ f.stopping }
  | f, .endBeat w =>
    (f.beating.find? w).bind fun b =>
      if (w ∈ f.stopping ∧ b.pc ≠ .inFlight) ∨ (f.pool.turn? w).any (·.pc.isOver) then
        some { f with beating := f.beating.delete fun b' => b'.worker = w }
      else none

end Step

def BeatsReported (f : Fleet) : Prop := ∀ b ∈ f.beats, b.superseded → ∃ e, b.reply = .error e

def RunsApart (f : Fleet) : Prop :=
  ∀ t ∈ f.pool.turns, ∀ t' ∈ f.pool.turns, t.worker ∈ f.checked → t'.worker ∈ f.checked →
    t.receipt.claimKey = t'.receipt.claimKey → t.worker = t'.worker

structure Stops (f : Fleet) : Prop where
  reported : BeatsReported f
  exclusive : RunsApart f

/-- No heartbeat of a superseded receipt gets through to the database. -/
def BeatsCurrent (f : Fleet) : FleetAct → Prop
  | .beat w _ none => ∀ b ∈ f.beating.find? w, ¬Superseded f.taken w b.receipt
  | _ => True

variable {colleagues : Table Colleague} {timing : LeaseTiming}

inductive FleetStepped (colleagues : Table Colleague) (timing : LeaseTiming) (f : Fleet) :
    FleetAct → Fleet → Prop
  | pool {a pool} (h : poolStep colleagues timing f.pool a = some pool) :
      FleetStepped colleagues timing f (.pool a) (f.moved a pool)
  | wake {b} (hb : b ∈ f.beating) : FleetStepped colleagues timing f (.wake b.worker)
      { f with beating := f.beating.put { b with pc := .inFlight } }
  | fails {b now e} (hb : b ∈ f.beating) :
      FleetStepped colleagues timing f (.beat b.worker now (some e))
        (f.replied b f.pool.queue (.error e))
  | renews {b now queue} (hb : b ∈ f.beating)
      (h : step colleagues timing f.pool.queue (.heartbeat b.worker b.receipt now) = some queue) :
      FleetStepped colleagues timing f (.beat b.worker now none) (f.replied b queue (.ok ()))
  | shutdown {ws} :
      FleetStepped colleagues timing f (.shutdown ws) { f with stopping := ws ++ f.stopping }
  | ends {w} : FleetStepped colleagues timing f (.endBeat w)
      { f with beating := f.beating.delete fun b => b.worker = w }

theorem fleetStep_stepped {f f' : Fleet} {a : FleetAct}
    (h : fleetStep colleagues timing f a = some f') : FleetStepped colleagues timing f a f' := by
  cases a with
  | pool a =>
    simp only [fleetStep, Option.ite_none_right_eq_some, Option.map_eq_some_iff] at h
    obtain ⟨-, pool, hpool, rfl⟩ := h
    exact .pool hpool
  | wake w =>
    obtain ⟨b, hb, h⟩ := Option.bind_eq_some_iff.mp h
    obtain ⟨hmem, rfl⟩ := Table.find?_eq_some.mp hb
    split at h
    case h_1 =>
      simp only [Option.ite_none_right_eq_some, Option.some.injEq] at h
      exact h.2 ▸ .wake hmem
    case h_2 => cases h
  | beat w now fault =>
    obtain ⟨b, hb, h⟩ := Option.bind_eq_some_iff.mp h
    obtain ⟨hmem, rfl⟩ := Table.find?_eq_some.mp hb
    simp only [Option.ite_none_right_eq_some, Option.map_eq_some_iff, Prod.exists] at h
    obtain ⟨-, queue, reply, hbeat, rfl⟩ := h
    cases fault with
    | some e =>
      cases hbeat
      exact .fails hmem
    | none =>
      obtain ⟨queue, hqueue, he⟩ := Option.map_eq_some_iff.mp hbeat
      cases he
      exact .renews hmem hqueue
  | shutdown ws =>
    cases h
    exact .shutdown
  | endBeat w =>
    obtain ⟨b, -, h⟩ := Option.bind_eq_some_iff.mp h
    simp only [Option.ite_none_right_eq_some, Option.some.injEq] at h
    exact h.2 ▸ .ends

theorem turnStepped_turns {p p' : Pool} {t : Turn} {a : TurnAct} (ht : t ∈ p.turns)
    (h : TurnStepped colleagues timing p t a p') {t' : Turn} (ht' : t' ∈ p'.turns) :
    ∃ u ∈ p.turns, u.worker = t'.worker ∧ u.receipt = t'.receipt := by
  have hgoto (pc : TurnPc) (ht' : t' ∈ (p.goto t pc).turns) :
      ∃ u ∈ p.turns, u.worker = t'.worker ∧ u.receipt = t'.receipt := by
    obtain rfl | ⟨ht', -⟩ := Table.mem_put.mp ht'
    · exact ⟨t, ht, rfl, rfl⟩
    · exact ⟨t', ht', rfl, rfl⟩
  cases h with
  | stays | bumps | publishes => exact ⟨t', ht', rfl, rfl⟩
  | leaves | releases => exact ⟨t', (Table.mem_delete.mp ht').1, rfl, rfl⟩
  | moves | closes | refuses | reports | marks | checksLive | skips | emits => exact hgoto _ ht'

theorem stepped_claims {s t : St} {a : Act} (h : Stepped colleagues timing s a t) :
    t.claims = s.claims ∨
      ∃ w c, a = .claimCommit w ∧ t.claims = s.claims ++ [c] ∧ s.taking w = some c.take := by
  cases h with
  | @commitClaim w tx c seq d rest htx hpc =>
    refine .inr ⟨w, ⟨w, c, seq, d, rest⟩, rfl, rfl, ?_⟩
    simp only [St.taking, htx, Option.bind_some, hpc]
    rfl
  | _ => exact .inl rfl

theorem claimCommit_taking {s s' : St} {w : WorkerId} {turn : ClaimedTurn}
    (h : claimCommit timing s w = some (s', .ok (some turn))) :
    ∃ k, s.taking w = some k ∧ k.claimKey = turn.receipt.claimKey := by
  obtain ⟨c, hclaims, -, hreceipt⟩ := claimCommit_turn h
  have hst : Stepped .empty timing s (.claimCommit w) s' := claimCommit_stepped h
  obtain e | ⟨w', c', hw, e, htaking⟩ := stepped_claims hst
  · rw [hclaims] at e
    exact absurd e (by simp)
  · cases hw
    rw [hclaims] at e
    obtain rfl := List.singleton_inj.mp (List.append_cancel_left e)
    exact ⟨_, htaking, (Claim.receipt?_eq_some hreceipt).1.symm⟩

theorem turnStepped_claims {p p' : Pool} {t : Turn} {a : TurnAct}
    (h : TurnStepped colleagues timing p t a p') : p'.queue.claims = p.queue.claims := by
  cases h with
  | marks _ _ hmark hqueue =>
    obtain e | ⟨w, -, hw, -⟩ := stepped_claims (step_stepped hqueue)
    · exact e
    · obtain rfl | ⟨_, rfl⟩ := hmark <;> cases hw
  | releases _ hqueue =>
    obtain e | ⟨w, -, hw, -⟩ := stepped_claims (step_stepped hqueue)
    · exact e
    · cases hw
  | _ => rfl

theorem poolStepped_claims {p p' : Pool} {a : PoolAct} (h : PoolStepped colleagues timing p a p')
    {c : Claim} (hc : c ∈ p'.queue.claims) : c ∈ p.queue.claims ∨ p.taking a = some c.take := by
  have hcommit {w : WorkerId} {queue : St} {res : Except PromptError (Option ClaimedTurn)}
      (h : claimCommit timing p.queue w = some (queue, res)) (hc : c ∈ queue.claims) :
      c ∈ p.queue.claims ∨ p.queue.taking w = some c.take := by
    have hst : Stepped colleagues timing p.queue (.claimCommit w) queue := claimCommit_stepped h
    obtain e | ⟨w', c', hw, e, htaking⟩ := stepped_claims hst
    · exact .inl (e ▸ hc)
    · cases hw
      rw [e, List.mem_append, List.mem_singleton] at hc
      obtain hc | rfl := hc
      · exact .inl hc
      · exact .inr htaking
  cases h with
  | @queue a queue admitted hqueue =>
    obtain e | ⟨w, -, rfl, -⟩ := stepped_claims (step_stepped hqueue)
    · exact .inl (e ▸ hc)
    · cases admitted
  | claims _ h => exact hcommit h hc
  | returns h => exact hcommit h hc
  | turn _ h => exact .inl (turnStepped_claims h ▸ hc)

theorem poolStepped_turns {p p' : Pool} {a : PoolAct} (h : PoolStepped colleagues timing p a p')
    {t' : Turn} (ht' : t' ∈ p'.turns) :
    (∃ t ∈ p.turns, t.worker = t'.worker ∧ t.receipt = t'.receipt) ∨
      p.turn? t'.worker = none ∧ ∃ k, p.taking a = some k ∧ k.claimKey = t'.receipt.claimKey := by
  cases h with
  | queue => exact .inl ⟨t', (Table.mem_delete.mp ht').1, rfl, rfl⟩
  | claims idle h =>
    obtain rfl | ⟨ht', -⟩ := Table.mem_put.mp ht'
    · exact .inr ⟨idle, claimCommit_taking h⟩
    · exact .inl ⟨t', ht', rfl, rfl⟩
  | returns => exact .inl ⟨t', ht', rfl, rfl⟩
  | turn ht h => exact .inl (turnStepped_turns ht h ht')

theorem Inv.leaseSeq_ne {s : St} (h : Inv colleagues s) {c c' : Claim} (hc : c ∈ s.claims)
    (hc' : c' ∈ s.claims) (hne : c ≠ c') (hkey : c.claimKey = c'.claimKey) :
    c.leaseSeq ≠ c'.leaseSeq := by
  have : Std.Symm fun c c' : Claim => c.claimKey = c'.claimKey → c.leaseSeq ≠ c'.leaseSeq :=
    ⟨fun _ _ h e => (h e.symm).symm⟩
  have hpairs := h.seq.claim_lt.imp fun {c c'} hlt e => Nat.ne_of_lt (hlt e)
  exact hpairs.forall hc hc' hne hkey

theorem superseded_append {taken : List Take} {k : Option Take} {w : WorkerId} {r : TurnReceipt}
    (hk : k.all fun k => k.claimKey ≠ r.claimKey)
    (hsup : Superseded (taken ++ k.toList) w r) : Superseded taken w r := by
  obtain ⟨k', hk', hkey, hrest⟩ := hsup
  obtain hk' | hk' := List.mem_append.mp hk'
  · exact ⟨k', hk', hkey, hrest⟩
  · cases k with
    | none => cases hk'
    | some k =>
      obtain rfl := List.mem_singleton.mp hk'
      exact absurd hkey (by simpa using hk)

structure FleetInv (colleagues : Table Colleague) (f : Fleet) : Prop where
  pool : PoolInv colleagues f.pool
  taken : ∀ c ∈ f.pool.queue.claims, c.take ∈ f.taken
  beating : ∀ b ∈ f.beating, ∃ t ∈ f.pool.turns, t.worker = b.worker ∧ t.receipt = b.receipt
  checked : ∀ t ∈ f.pool.turns, t.worker ∈ f.checked → ¬Superseded f.taken t.worker t.receipt

theorem fleetInv_init : FleetInv colleagues .init where
  pool := poolInv_init
  taken := fun _ h => absurd h List.not_mem_nil
  beating := fun _ h => absurd h (Table.not_mem_empty _)
  checked := fun _ h => absurd h (Table.not_mem_empty _)

namespace FleetInv

variable {f : Fleet} (h : FleetInv colleagues f)
include h

theorem exclusive : RunsApart f := by
  intro t ht t' ht' hchecked hchecked' hkey
  obtain ⟨c, hc, hw, hreceipt⟩ := h.pool.claimed t ht
  obtain ⟨c', hc', hw', hreceipt'⟩ := h.pool.claimed t' ht'
  obtain ⟨hk, hs, -⟩ := Claim.receipt?_eq_some hreceipt
  obtain ⟨hk', hs', -⟩ := Claim.receipt?_eq_some hreceipt'
  by_contra hne
  have hclaims : c ≠ c' := fun e => hne (hw.symm.trans ((congrArg Claim.worker e).trans hw'))
  have hsame : c.claimKey = c'.claimKey := hk.symm.trans (hkey.trans hk')
  obtain hlt | hlt := Nat.lt_or_gt_of_ne (h.pool.queue.leaseSeq_ne hc hc' hclaims hsame)
  · refine h.checked t ht hchecked ⟨c'.take, h.taken c' hc', ?_, ?_, ?_⟩
    · exact hk'.symm.trans hkey.symm
    · exact hs ▸ hlt
    · exact fun e => hne (e.symm.trans hw')
  · refine h.checked t' ht' hchecked' ⟨c.take, h.taken c hc, ?_, ?_, ?_⟩
    · exact hk.symm.trans hkey
    · exact hs' ▸ hlt
    · exact fun e => hne (hw.symm.trans e)

theorem tasks {a : PoolAct} {pool : Pool} (hst : PoolStepped colleagues timing f.pool a pool)
    {b : Heartbeat} (hb : b ∈ f.tasks a pool) :
    ∃ t ∈ pool.turns, t.worker = b.worker ∧ t.receipt = b.receipt := by
  have hkept (hb : b ∈ f.beating.delete fun b => (pool.turn? b.worker).isNone) :
      ∃ t ∈ pool.turns, t.worker = b.worker ∧ t.receipt = b.receipt := by
    obtain ⟨hb, hturn⟩ := Table.mem_delete.mp hb
    obtain ⟨t', ht'⟩ := Option.isSome_iff_exists.mp (Option.isNone_eq_false_iff.mp hturn)
    obtain ⟨hmem, hw'⟩ := Table.find?_eq_some.mp ht'
    have hw' : t'.worker = b.worker := hw'
    obtain ⟨t, ht, hw, hreceipt⟩ := h.beating b hb
    obtain ⟨u, hu, huw, hur⟩ | ⟨hnone, -⟩ := poolStepped_turns hst hmem
    · have e := Table.eq_of_key_eq ht hu (hw.trans (hw'.symm.trans huw.symm))
      exact ⟨t', hmem, hw', hur.symm.trans (e ▸ hreceipt)⟩
    · exact absurd (hw.trans hw'.symm) (Table.find?_eq_none.mp hnone t ht)
  unfold Fleet.tasks at hb
  split at hb
  case h_1 w =>
    split at hb
    case h_1 t ht =>
      obtain rfl | ⟨hb, -⟩ := Table.mem_put.mp hb
      · obtain ⟨hmem, hw⟩ := Table.find?_eq_some.mp ht
        exact ⟨t, hmem, hw, rfl⟩
      · exact hkept hb
    case h_2 => exact hkept hb
  case h_2 => exact hkept hb

theorem moved {a : PoolAct} {pool : Pool}
    (hstep : poolStep colleagues timing f.pool a = some pool) :
    FleetInv colleagues (f.moved a pool) := by
  have hst := poolStep_stepped hstep
  refine ⟨h.pool.step hstep, fun c hc => ?_, fun b hb => h.tasks hst hb, fun t ht hchecked => ?_⟩
  · obtain hc | hc := poolStepped_claims hst hc
    · exact List.mem_append_left _ (h.taken c hc)
    · exact List.mem_append_right _ (by simp [hc])
  · obtain ⟨hold, hturn⟩ := List.mem_filter.mp hchecked
    have hfind : pool.turn? t.worker = some t := Table.find?_of_mem ht
    rw [hfind] at hturn
    intro hsup
    have hsup := superseded_append hturn hsup
    obtain ⟨u, hu, huw, hur⟩ | ⟨-, k, hk, hkey⟩ := poolStepped_turns hst ht
    · exact h.checked u hu (huw ▸ hold) (by rwa [huw, hur])
    · rw [hk] at hturn
      exact absurd hkey (by simpa using hturn)

theorem replied {b : Heartbeat} {queue : St} {reply : Except PromptError Unit}
    (hpool : PoolInv colleagues { f.pool with queue })
    (hclaims : queue.claims = f.pool.queue.claims) (hb : b ∈ f.beating)
    (hcurrent : reply = .ok () → ¬Superseded f.taken b.worker b.receipt) :
    FleetInv colleagues (f.replied b queue reply) := by
  cases reply with
  | error e =>
    exact ⟨hpool, fun c hc => h.taken c (hclaims ▸ hc),
      fun b' hb' => h.beating b' (Table.mem_delete.mp hb').1, h.checked⟩
  | ok =>
    refine ⟨hpool, fun c hc => h.taken c (hclaims ▸ hc), fun b' hb' => ?_, fun t ht hchecked => ?_⟩
    · obtain rfl | ⟨hb', -⟩ := Table.mem_put.mp hb'
      · exact h.beating b hb
      · exact h.beating b' hb'
    · obtain e | hold := List.mem_cons.mp hchecked
      · obtain ⟨u, hu, huw, hur⟩ := h.beating b hb
        obtain rfl := Table.eq_of_key_eq ht hu (e.trans huw.symm)
        rw [huw, hur]
        exact hcurrent rfl
      · exact h.checked t ht hold

theorem step {f' : Fleet} {a : FleetAct} (hst : FleetStepped colleagues timing f a f')
    (hcurrent : BeatsCurrent f a) : FleetInv colleagues f' := by
  cases hst with
  | pool hpool => exact h.moved hpool
  | wake hb =>
    refine ⟨h.pool, h.taken, fun b' hb' => ?_, h.checked⟩
    obtain rfl | ⟨hb', -⟩ := Table.mem_put.mp hb'
    · obtain ⟨t, ht, hrest⟩ := h.beating _ hb
      exact ⟨t, ht, hrest⟩
    · exact h.beating b' hb'
  | fails hb => exact h.replied h.pool rfl hb (by rintro ⟨⟩)
  | renews hb hbeat =>
    obtain e | ⟨w, -, hw, -⟩ := stepped_claims (step_stepped hbeat)
    · exact h.replied (h.pool.queue_step hbeat) e hb fun _ =>
        hcurrent _ (Table.find?_of_mem hb)
    · cases hw
  | shutdown => exact ⟨h.pool, h.taken, h.beating, h.checked⟩
  | ends =>
    exact ⟨h.pool, h.taken, fun b' hb' => h.beating b' (Table.mem_delete.mp hb').1, h.checked⟩

end FleetInv

theorem reported_iff {f f' : Fleet} {a : FleetAct} (hst : FleetStepped colleagues timing f a f')
    (hreported : BeatsReported f) : BeatsReported f' ↔ BeatsCurrent f a := by
  cases hst with
  | @renews b now queue hb hbeat =>
    have hfind : f.beating.find? b.worker = some b := Table.find?_of_mem hb
    constructor
    · intro hall b' hb' hsup
      cases hfind.symm.trans hb'
      obtain ⟨e, he⟩ := hall _ (List.mem_append_right _ (List.mem_singleton_self _))
        (decide_eq_true hsup)
      cases he
    · intro hcurrent b' hb' hsup
      obtain hb' | hb' := List.mem_append.mp hb'
      · exact hreported b' hb' hsup
      · obtain rfl := List.mem_singleton.mp hb'
        exact absurd (of_decide_eq_true hsup) (hcurrent b hfind)
  | @fails b now e =>
    refine iff_of_true (fun b' hb' hsup => ?_) trivial
    obtain hb' | hb' := List.mem_append.mp hb'
    · exact hreported b' hb' hsup
    · obtain rfl := List.mem_singleton.mp hb'
      exact ⟨e, rfl⟩
  | pool | wake | shutdown | ends => exact iff_of_true hreported trivial

variable (colleagues timing)

/-- A schedule stops every superseded worker exactly when none of its heartbeats gets through. -/
theorem stops_iff_beatsCurrent (as : List FleetAct) :
    Always (fleetStep colleagues timing) Stops .init as ↔
      Steps (fleetStep colleagues timing) BeatsCurrent .init as := by
  have hinit : FleetInv colleagues .init := fleetInv_init
  refine always_iff_steps (FleetInv colleagues) (fun f a f' h hP e hP' => ?_)
    (fun f a f' h hP e => ?_) hinit ⟨fun _ h => absurd h List.not_mem_nil, hinit.exclusive⟩ as
  · have hst := fleetStep_stepped e
    exact h.step hst ((reported_iff hst hP.reported).mp hP'.reported)
  · have hst := fleetStep_stepped e
    have hiff := reported_iff hst hP.reported
    exact ⟨fun hP' => hiff.mp hP'.reported, fun hG => ⟨hiff.mpr hG, (h.step hst hG).exclusive⟩⟩

namespace Sample

def resolved (w : WorkerId) (d : DrainedTrigger) : List FleetAct := (started w d).map .pool

def stalled : List FleetAct :=
  [.pool (.queue (.enqueue 5 0 post))] ++ resolved 11 (drained 5) ++
    [.pool (.queue (.tick LEASE_TTL)), .pool (.queue (.enqueue 6 LEASE_TTL reply))] ++
    resolved 12 (drained 6) ++
    [.pool (.queue (.tick LEASE_HEARTBEAT_INTERVAL)), .wake 11, .wake 12,
      .beat 11 LEASE_TTL none, .beat 12 LEASE_TTL none]

end Sample

theorem stalled_worker_passes : ∃ f,
    run (fleetStep Sample.colleagues .defaultConst) .init Sample.stalled = some f ∧
      ¬BeatsReported f ∧ ¬RunsApart f := by
  have hrun : ∃ f ∈ run (fleetStep Sample.colleagues .defaultConst) .init Sample.stalled,
      f.beats.any (fun b => b.superseded && b.reply.toOption.isSome) = true ∧
        f.pool.turns.rows.any (fun t => f.pool.turns.rows.any fun t' => t.worker ∈ f.checked &&
          t'.worker ∈ f.checked && t.receipt.claimKey = t'.receipt.claimKey &&
          t.worker ≠ t'.worker) = true := by
    decide +kernel
  obtain ⟨f, hf, hbeats, hturns⟩ := hrun
  refine ⟨f, hf, fun hreported => ?_, fun hexclusive => ?_⟩
  · obtain ⟨b, hb, hpassed⟩ := List.any_eq_true.mp hbeats
    rw [Bool.and_eq_true] at hpassed
    obtain ⟨e, he⟩ := hreported b hb hpassed.1
    rw [he] at hpassed
    cases hpassed.2
  · obtain ⟨t, ht, hturns⟩ := List.any_eq_true.mp hturns
    obtain ⟨t', ht', hboth⟩ := List.any_eq_true.mp hturns
    simp only [Bool.and_eq_true, decide_eq_true_eq] at hboth
    obtain ⟨⟨⟨hchecked, hchecked'⟩, hkey⟩, hne⟩ := hboth
    exact hne (hexclusive t ht t' ht' hchecked hchecked' hkey)

end Patom.Runtime
