import Patom.Background.Store
import Patom.Foundation.Journal
import Patom.Memory.Reflection
import Patom.Memory.Store
import Patom.Runtime.Claims
import Patom.Runtime.Queue

open Patom.Background (append_ok BackgroundDb createTurn createTurn_ok NewBackgroundMessage)
open Patom.Foundation
open Patom.Runtime (enqueueTrigger enqueueTrigger_cases enqueueTrigger_minted findByIdempotencyKey
  IdempotencyKey NewTrigger PromptRequest PromptRequestId RequestKindPayload resolveAgentColleague
  Stepped)
open Patom.Threads (ThreadMessageRow)

namespace Patom.Memory

def MAX_SIMILAR_PAIRS_PER_AGENT : Nat := 256

def unresolvedContradictions (agent : AgentId) (db : MemoryDb) : List ContradictionEventRow :=
  ((db.contradictions.rows.filter fun c => c.agentId = agent && c.resolvedAt.isNone).insertionSort
    fun c c' => c.createdAt ≤ c'.createdAt).take MAX_SIMILAR_PAIRS_PER_AGENT

structure Resolution where
  agentId : AgentId
  orgId : OrgId
  ownerUserId : UserId
  event : ContradictionEventRow

def resolutionKey (ev : ContradictionEventRow) : Except ParseError IdempotencyKey :=
  IdempotencyKey.tryFrom ("resolve-" ++ ev.id.display)

def resolutionTrigger (r : Resolution) (turn : BackgroundTurnId) (agent : ColleagueId)
    (key : IdempotencyKey) : NewTrigger where
  orgId := r.orgId
  actingUserId := r.ownerUserId
  threadId := none
  stateId := none
  backgroundTurnId := some turn
  senderColleagueId := agent
  receiverAgentId := r.agentId
  rootRequestId := none
  triggerMessageId := none
  idempotencyKey := key
  kindPayload := .resolution r.event.id

structure CognitionEnv extends ReflectionEnv where
  sameOrg : AgentId → ColleagueId → Bool
  /-- The organization of an agent, and the first of its members. -/
  owner : AgentId → Option (OrgId × UserId)
  buildReflectionPrompt : AgentId → List ThreadMessageRow → String
  buildResolutionPrompt : ContradictionEventRow → Option MemoryRow → Option MemoryRow → String

structure Enqueueing where
  turn : BackgroundTurnId
  prompt : String
  trigger : NewTrigger
  seeded : Bool
  names : trigger.backgroundTurnId = some turn

instance enqueueingKeyed : Keyed Enqueueing BackgroundTurnId := ⟨(·.turn)⟩

/-- `unresolved` is what the ticks of the librarian have found and not yet enqueued. -/
structure CognitionSt where
  reflection : ReflectionSt
  memory : World
  background : BackgroundDb
  unresolved : List Resolution
  enqueueing : Table Enqueueing

def CognitionSt.init : CognitionSt := ⟨.init, .init, .empty, [], .empty⟩

inductive CognitionAct
  | reflect (a : ReflectionAct)
  | remember (a : Act)
  | converse (turn : BackgroundTurnId) (now : Time) (message : NewBackgroundMessage)
  | sweep (agent : AgentId)
  | skip (i : Nat)
  | beginReflection (i : Nat) (turn : BackgroundTurnId) (now : Time)
  | beginResolution (i : Nat) (turn : BackgroundTurnId) (now : Time)
  | seed (turn : BackgroundTurnId) (now : Time)
  | trigger (turn : BackgroundTurnId) (request : PromptRequestId) (now : Time)
  | fail (turn : BackgroundTurnId)

def named (runtime : Runtime.St) : List BackgroundTurnId :=
  runtime.db.promptRequests.rows.filterMap (·.backgroundTurnId)

def ReflectionAct.aside : ReflectionAct → Bool
  | .enqueue .. => false
  | .work (.enqueue _ _ trig) => trig.backgroundTurnId.isNone
  | _ => true

def beginTurn (turn : BackgroundTurnId) (now : Time) (org : OrgId) (agent : AgentId)
    (prompt : String) (trigger : NewTrigger) (names : trigger.backgroundTurnId = some turn)
    (s : CognitionSt) : Option CognitionSt :=
  (createTurn turn now org agent s.background).toOption.map fun r =>
    { s with
      background := r.1
      enqueueing := s.enqueueing.put ⟨turn, prompt, trigger, false, names⟩ }

def Enqueueing.withSeed (turn : BackgroundTurnId) (e : Enqueueing) : Enqueueing :=
  if e.turn = turn then { e with seeded := true } else e

theorem Enqueueing.withSeed_key (turn : BackgroundTurnId) (e : Enqueueing) :
    key (e.withSeed turn) = key e := by
  unfold withSeed
  split <;> rfl

def CognitionSt.finish (turn : BackgroundTurnId) (s : CognitionSt) : CognitionSt :=
  { s with enqueueing := s.enqueueing.delete fun e => e.turn = turn }

/-- A worker runs the turns that a trigger names.  What an enqueue does stops anywhere between its
transactions, where one fails or the process ends. -/
def cognitionStep (env : CognitionEnv) : Step CognitionSt CognitionAct
  | s, .reflect a =>
    if a.aside then
      (reflectionStep env.toReflectionEnv s.reflection a).map fun reflection =>
        { s with reflection }
    else none
  | s, .remember a => (memoryStep env.sameOrg s.memory a).map fun memory => { s with memory }
  | s, .converse turn now message =>
    if turn ∈ named s.reflection.runtime then
      (Background.append now turn message s.background).toOption.map fun r =>
        { s with background := r.1 }
    else none
  | s, .sweep agent =>
    (env.owner agent).map fun (org, user) =>
      { s with unresolved := s.unresolved ++
          (unresolvedContradictions agent s.memory.db).map fun ev => ⟨agent, org, user, ev⟩ }
  | s, .skip i =>
    if i < s.unresolved.length then some { s with unresolved := s.unresolved.eraseIdx i } else none
  | s, .beginReflection i turn now => do
    let c ← s.reflection.found[i]?
    let agent ← (resolveAgentColleague env.colleagues c.orgId c.agentId).toOption
    let key ← (reflectionKey c).toOption
    let slice := fetchSlice s.reflection.threads c
    beginTurn turn now c.orgId c.agentId (env.buildReflectionPrompt c.agentId slice)
      (reflectionTrigger c turn agent key) rfl
      { s with reflection := { s.reflection with found := s.reflection.found.eraseIdx i } }
  | s, .beginResolution i turn now => do
    let r ← s.unresolved[i]?
    let key ← (resolutionKey r.event).toOption
    let agent ← (resolveAgentColleague env.colleagues r.orgId r.agentId).toOption
    let memory := s.memory.db.memories
    beginTurn turn now r.orgId r.agentId
      (env.buildResolutionPrompt r.event (memory.find? r.event.memoryA)
        (memory.find? r.event.memoryB))
      (resolutionTrigger r turn agent key) rfl
      { s with unresolved := s.unresolved.eraseIdx i }
  | s, .seed turn now => do
    let e ← s.enqueueing.find? turn
    if e.seeded then none
    else
      let r ← (Background.append now turn ⟨none, .user [.text e.prompt], none⟩
        s.background).toOption
      some { s with
        background := r.1
        enqueueing := s.enqueueing.modify (·.withSeed turn) (Enqueueing.withSeed_key turn) }
  | s, .trigger turn request now => do
    let e ← s.enqueueing.find? turn
    if e.seeded then
      let r ← (enqueueTrigger env.colleagues request now e.trigger
        s.reflection.runtime.db).toOption
      let runtime := { s.reflection.runtime with db := r.1 }
      some (CognitionSt.finish turn { s with reflection := { s.reflection with runtime } })
    else none
  | s, .fail turn => (s.enqueueing.find? turn).map fun _ => s.finish turn

section Named

theorem named_modify {t : Table PromptRequest} {f : PromptRequest → PromptRequest}
    (hf : ∀ r, key (f r) = key r) (h : ∀ r, (f r).backgroundTurnId = r.backgroundTurnId) :
    (t.modify f hf).rows.filterMap (·.backgroundTurnId) =
      t.rows.filterMap (·.backgroundTurnId) := by
  have hcomp : (fun r : PromptRequest => r.backgroundTurnId) ∘ f = fun r => r.backgroundTurnId :=
    funext h
  rw [Table.modify, List.filterMap_map, hcomp]

theorem named_enqueued {runtime : Runtime.St} {db : Runtime.Db} {row : PromptRequest}
    (h : runtime.db.promptRequests.insert? row = some db.promptRequests) :
    named { runtime with db } = named runtime ++ row.backgroundTurnId.toList := by
  rw [named, named, Table.rows_insert? h, List.filterMap_append]
  cases hrow : row.backgroundTurnId <;> simp [hrow]

theorem named_step {colleagues : Table Runtime.Colleague} {timing : Runtime.LeaseTiming}
    {s t : Runtime.St} {a : Runtime.Act} (h : Runtime.step colleagues timing s a = some t)
    (ha : (ReflectionAct.work a).aside) : named t = named s := by
  cases Runtime.step_stepped h with
  | enqueue he =>
    obtain hsame | ⟨row, hrow, hins⟩ := enqueueTrigger_minted he
    · rw [named, named, hsame]
    · have hnone : row.backgroundTurnId = none := by
        rw [hrow.backgroundTurnId]
        exact Option.isNone_iff_eq_none.mp ha
      rw [named_enqueued hins, hnone, Option.toList_none, List.append_nil]
  | cancel _ he =>
    unfold Runtime.requestCancellation at he
    split at he
    case isTrue =>
      cases he
      exact named_modify (Runtime.markCancelled_key _ _) fun r => by
        unfold Runtime.markCancelled
        split <;> rfl
    case isFalse => cases he
  | commitClaim =>
    exact named_modify (Runtime.markDrained_key _ _ _) fun r => by
      unfold Runtime.markDrained
      split <;> rfl
  | markTurnDone =>
    exact named_modify (Runtime.markFinalised_key _ _ _ _) fun r => by
      unfold Runtime.markFinalised
      split <;> rfl
  | markTurnFailed =>
    exact named_modify (Runtime.markFinalised_key _ _ _ _) fun r => by
      unfold Runtime.markFinalised
      split <;> rfl
  | _ => rfl

theorem advance_runtime {s t : ReflectionSt} {worker : Runtime.WorkerId}
    {turn : Runtime.ClaimedTurn} {now : Time} (h : advance s worker turn now = some t) :
    t.runtime = s.runtime := by
  unfold advance at h
  split at h
  case isTrue => split at h <;> cases h <;> rfl
  case isFalse => cases h

theorem named_reflect {env : ReflectionEnv} {s t : ReflectionSt} {a : ReflectionAct}
    (h : reflectionStep env s a = some t) (ha : a.aside) : named t.runtime = named s.runtime := by
  cases a with
  | createThread id org =>
    obtain ⟨threads, -, rfl⟩ := Option.map_eq_some_iff.mp h
    rfl
  | post id now org thread new =>
    simp only [reflectionStep, Option.ite_none_right_eq_some, Option.some.injEq] at h
    obtain ⟨-, rfl⟩ := h
    rfl
  | participate id now thread agent =>
    simp only [reflectionStep] at h
    split at h
    case h_1 =>
      obtain ⟨-, h⟩ := Option.ite_none_right_eq_some.mp h
      cases h
      rfl
    case h_2 => cases h
  | tick now tie =>
    simp only [reflectionStep, Option.ite_none_right_eq_some, Option.some.injEq] at h
    obtain ⟨-, rfl⟩ := h
    rfl
  | enqueue i turn request now => cases ha
  | giveUp i =>
    simp only [reflectionStep, Option.ite_none_right_eq_some, Option.some.injEq] at h
    obtain ⟨-, rfl⟩ := h
    rfl
  | advance worker turn now => rw [advance_runtime h]
  | work a =>
    obtain ⟨runtime, hstep, rfl⟩ := Option.map_eq_some_iff.mp h
    exact named_step hstep ha

end Named

section Turns

def Seeded (turn : BackgroundTurnId) (db : BackgroundDb) : Prop :=
  ∃ m, db.backgroundTurnMessages.find? (turn, 1) = some m ∧ m.sender = none

/-- Beside those that are being enqueued, every background turn has its seed and is named by
exactly one trigger. -/
def TurnsNamed (s : CognitionSt) : Prop :=
  ∀ t ∈ s.background.backgroundTurns, s.enqueueing.find? t.id = none →
    (named s.reflection.runtime).count t.id = 1 ∧ Seeded t.id s.background

/-- A trigger is inserted only under a key that the queue does not hold, and once an enqueue has
created its turn nothing fails before its trigger is there. -/
def Undoubled (s : CognitionSt) : CognitionAct → Prop
  | .trigger turn _ _ => ∀ e ∈ s.enqueueing.find? turn,
      findByIdempotencyKey s.reflection.runtime.db e.trigger.orgId e.trigger.idempotencyKey = none
  | .fail _ => False
  | _ => True

structure CognitionInv (s : CognitionSt) : Prop where
  exist : ∀ e ∈ s.enqueueing, (s.background.backgroundTurns.find? e.turn).isSome
  unnamed : ∀ e ∈ s.enqueueing, e.turn ∉ named s.reflection.runtime
  known : ∀ turn ∈ named s.reflection.runtime, (s.background.backgroundTurns.find? turn).isSome
  seeded : ∀ e ∈ s.enqueueing, e.seeded = true → Seeded e.turn s.background
  unseeded : ∀ e ∈ s.enqueueing, e.seeded = false →
    ∀ m ∈ s.background.backgroundTurnMessages, m.turnId ≠ e.turn
  owned : ∀ m ∈ s.background.backgroundTurnMessages,
    (s.background.backgroundTurns.find? m.turnId).isSome

variable {env : CognitionEnv} {s t : CognitionSt}

structure Apart (s t : CognitionSt) : Prop where
  enqueueing : t.enqueueing = s.enqueueing
  background : t.background = s.background
  named : named t.reflection.runtime = named s.reflection.runtime

theorem Apart.inv (h : Apart s t) (hs : CognitionInv s) : CognitionInv t := by
  obtain ⟨henq, hback, hnamed⟩ := h
  constructor <;> simp only [henq, hback, hnamed]
  · exact hs.exist
  · exact hs.unnamed
  · exact hs.known
  · exact hs.seeded
  · exact hs.unseeded
  · exact hs.owned

theorem Apart.turnsNamed (h : Apart s t) (hs : TurnsNamed s) : TurnsNamed t := by
  obtain ⟨henq, hback, hnamed⟩ := h
  unfold TurnsNamed at hs ⊢
  rwa [henq, hback, hnamed]

theorem Seeded.insert {turn : BackgroundTurnId} {db db' : BackgroundDb}
    {m : Background.BackgroundTurnMessage} (h : Seeded turn db)
    (hins : db.backgroundTurnMessages.insert? m = some db'.backgroundTurnMessages) :
    Seeded turn db' := by
  obtain ⟨m', hm', hsender⟩ := h
  obtain ⟨hmem, hkey⟩ := Table.find?_eq_some.mp hm'
  exact ⟨m', Table.find?_eq_some.mpr ⟨(Table.mem_insert? hins).mpr (.inl hmem), hkey⟩, hsender⟩

section Append

variable {turn : BackgroundTurnId} {now : Time} {message : NewBackgroundMessage}
  {background : BackgroundDb} {n : Nat}

theorem CognitionInv.converse (hs : CognitionInv s) (hturn : s.enqueueing.find? turn = none)
    (h : Background.append now turn message s.background = .ok (background, n)) :
    CognitionInv { s with background } := by
  obtain ⟨hknown, -, hturns, m, hm, -, -, hins⟩ := append_ok h
  have hother : ∀ e ∈ s.enqueueing, turn ≠ e.turn := fun e he =>
    (Table.find?_eq_none.mp hturn e he).symm
  refine ⟨?_, hs.unnamed, ?_, fun e he hseed => (hs.seeded e he hseed).insert hins,
    fun e he hseed m' hm' => ?_, fun m' hm' => ?_⟩
  · simp only [hturns]
    exact hs.exist
  · simp only [hturns]
    exact hs.known
  · obtain hm' | rfl := (Table.mem_insert? hins).mp hm'
    · exact hs.unseeded e he hseed m' hm'
    · rw [hm]
      exact hother e he
  · simp only [hturns]
    obtain hm' | rfl := (Table.mem_insert? hins).mp hm'
    · exact hs.owned m' hm'
    · rw [hm]
      exact hknown

theorem TurnsNamed.append (hs : TurnsNamed s)
    (h : Background.append now turn message s.background = .ok (background, n)) :
    TurnsNamed { s with background } := by
  obtain ⟨-, -, hturns, m, -, -, -, hins⟩ := append_ok h
  intro t ht hfree
  simp only [hturns] at ht
  obtain ⟨hcount, hseeded⟩ := hs t ht hfree
  exact ⟨hcount, hseeded.insert hins⟩

end Append

theorem beginTurn_some {turn : BackgroundTurnId} {now : Time} {org : OrgId} {agent : AgentId}
    {prompt : String} {trigger : NewTrigger} {names : trigger.backgroundTurnId = some turn}
    (h : beginTurn turn now org agent prompt trigger names s = some t) :
    ∃ background, createTurn turn now org agent s.background = .ok (background, turn) ∧
      t = { s with
        background
        enqueueing := s.enqueueing.put ⟨turn, prompt, trigger, false, names⟩ } := by
  unfold beginTurn at h
  cases hcreate : createTurn turn now org agent s.background with
  | error e =>
    rw [hcreate] at h
    cases h
  | ok r =>
    rw [hcreate] at h
    cases h
    obtain ⟨background, id⟩ := r
    obtain ⟨rfl, -⟩ := createTurn_ok hcreate
    exact ⟨background, rfl, rfl⟩

theorem CognitionInv.beginTurn {turn : BackgroundTurnId} {now : Time} {org : OrgId}
    {agent : AgentId} {prompt : String} {trigger : NewTrigger}
    {names : trigger.backgroundTurnId = some turn} (hs : CognitionInv s)
    (h : beginTurn turn now org agent prompt trigger names s = some t) : CognitionInv t := by
  obtain ⟨background, hcreate, rfl⟩ := beginTurn_some h
  obtain ⟨-, hins, hmessages⟩ := createTurn_ok hcreate
  have hnew : s.background.backgroundTurns.find? turn = none :=
    Table.insert?_isSome.mp (Option.isSome_of_eq_some hins)
  have hkept {k : BackgroundTurnId} (hk : (s.background.backgroundTurns.find? k).isSome) :
      (background.backgroundTurns.find? k).isSome := by
    rw [Table.find?_insert? hins]
    split
    · rfl
    · exact hk
  constructor <;> dsimp only
  · intro e he
    obtain rfl | ⟨he, -⟩ := Table.mem_put.mp he
    · have hself : background.backgroundTurns.find? turn = some ⟨turn, agent, org, now⟩ :=
        (Table.find?_insert? hins turn).trans (if_pos rfl)
      exact Option.isSome_of_eq_some hself
    · exact hkept (hs.exist e he)
  · intro e he hmem
    obtain rfl | ⟨he, -⟩ := Table.mem_put.mp he
    · have hsome := hs.known turn hmem
      rw [hnew] at hsome
      cases hsome
    · exact hs.unnamed e he hmem
  · exact fun k hk => hkept (hs.known k hk)
  · intro e he hseed
    obtain rfl | ⟨he, -⟩ := Table.mem_put.mp he
    · cases hseed
    · unfold Seeded
      rw [hmessages]
      exact hs.seeded e he hseed
  · intro e he hseed m hm hturn
    rw [hmessages] at hm
    obtain rfl | ⟨he, -⟩ := Table.mem_put.mp he
    · have hsome := hs.owned m hm
      rw [hturn, hnew] at hsome
      cases hsome
    · exact hs.unseeded e he hseed m hm hturn
  · intro m hm
    rw [hmessages] at hm
    exact hkept (hs.owned m hm)

theorem TurnsNamed.beginTurn {turn : BackgroundTurnId} {now : Time} {org : OrgId}
    {agent : AgentId} {prompt : String} {trigger : NewTrigger}
    {names : trigger.backgroundTurnId = some turn} (hs : TurnsNamed s)
    (h : beginTurn turn now org agent prompt trigger names s = some t) : TurnsNamed t := by
  obtain ⟨background, hcreate, rfl⟩ := beginTurn_some h
  obtain ⟨-, hins, hmessages⟩ := createTurn_ok hcreate
  intro r hr hfree
  obtain hr | rfl := (Table.mem_insert? hins).mp hr
  · rw [Table.find?_put] at hfree
    split at hfree
    case isTrue => cases hfree
    case isFalse =>
      unfold Seeded
      rw [hmessages]
      exact hs r hr hfree
  · cases (s.enqueueing.find?_put_self _).symm.trans hfree

theorem find?_withSeed {turn k : BackgroundTurnId} : (s.enqueueing.modify (·.withSeed turn)
    (Enqueueing.withSeed_key turn)).find? k = none ↔ s.enqueueing.find? k = none := by
  rw [Table.find?_modify, Option.map_eq_none_iff]

theorem CognitionInv.seed {turn : BackgroundTurnId} {now : Time} {n : Nat} {e : Enqueueing}
    {background : BackgroundDb} {body : Provider.ChatMessage} (hs : CognitionInv s)
    (he : s.enqueueing.find? turn = some e) (hseed : e.seeded = false)
    (h : Background.append now turn ⟨none, body, none⟩ s.background = .ok (background, n)) :
    CognitionInv { s with
      background
      enqueueing := s.enqueueing.modify (·.withSeed turn) (Enqueueing.withSeed_key turn) } := by
  obtain ⟨hknown, hn, hturns, m, hm, hseq, hmessage, hins⟩ := append_ok h
  have hzero := Background.lastSeq_eq_zero (hs.unseeded e (Table.mem_of_find? he) hseed)
  have hturn : e.turn = turn := Table.key_of_find? he
  have hplaced : Seeded turn background := by
    refine ⟨m, ?_, by rw [hmessage]⟩
    rw [Table.find?_insert? hins, if_pos]
    rw [hturn] at hzero
    exact Prod.ext hm (by rw [hzero] at hn; exact hseq.trans hn)
  have hfrom {e' : Enqueueing} (he' : e' ∈ s.enqueueing.modify (·.withSeed turn)
      (Enqueueing.withSeed_key turn)) : ∃ e₀ ∈ s.enqueueing, e'.turn = e₀.turn ∧
        (e'.turn ≠ turn → e' = e₀) ∧ (e'.turn = turn → e'.seeded = true) := by
    obtain ⟨e₀, he₀, rfl⟩ := Table.mem_modify.mp he'
    refine ⟨e₀, he₀, Enqueueing.withSeed_key turn e₀, ?_, ?_⟩ <;> intro ht <;>
      have hkey : (e₀.withSeed turn).turn = e₀.turn := Enqueueing.withSeed_key turn e₀
    · rw [hkey] at ht
      exact if_neg ht
    · rw [hkey] at ht
      unfold Enqueueing.withSeed
      rw [if_pos ht]
  constructor <;> dsimp only
  · intro e' he'
    obtain ⟨e₀, he₀, hk, -⟩ := hfrom he'
    rw [hk, hturns]
    exact hs.exist e₀ he₀
  · intro e' he'
    obtain ⟨e₀, he₀, hk, -⟩ := hfrom he'
    rw [hk]
    exact hs.unnamed e₀ he₀
  · rw [hturns]
    exact hs.known
  · intro e' he' hseeded
    obtain ⟨e₀, he₀, hk, hother, -⟩ := hfrom he'
    by_cases ht : e'.turn = turn
    · rw [ht]
      exact hplaced
    · obtain rfl := hother ht
      exact (hs.seeded e' he₀ hseeded).insert hins
  · intro e' he' hunseeded m' hm' hturn'
    obtain ⟨e₀, he₀, hk, hother, hsame⟩ := hfrom he'
    by_cases ht : e'.turn = turn
    · rw [hsame ht] at hunseeded
      cases hunseeded
    · obtain rfl := hother ht
      obtain hm' | rfl := (Table.mem_insert? hins).mp hm'
      · exact hs.unseeded e' he₀ hunseeded m' hm' hturn'
      · exact ht (hturn'.symm.trans hm)
  · intro m' hm'
    rw [hturns]
    obtain hm' | rfl := (Table.mem_insert? hins).mp hm'
    · exact hs.owned m' hm'
    · rw [hm]
      exact hknown

theorem CognitionInv.finish {turn : BackgroundTurnId} {e : Enqueueing} (hs : CognitionInv s)
    (he : s.enqueueing.find? turn = some e) {runtime : Runtime.St}
    {more : List BackgroundTurnId} (hmore : named runtime = named s.reflection.runtime ++ more)
    (hsub : ∀ k ∈ more, k = turn) : CognitionInv (CognitionSt.finish turn
      { s with reflection := { s.reflection with runtime } }) := by
  have hknown : (s.background.backgroundTurns.find? turn).isSome := by
    have hturn : e.turn = turn := Table.key_of_find? he
    exact hturn ▸ hs.exist e (Table.mem_of_find? he)
  constructor <;> dsimp only [CognitionSt.finish]
  · exact fun e' he' => hs.exist e' (Table.mem_delete.mp he').1
  · intro e' he' hmem
    obtain ⟨he', hne⟩ := Table.mem_delete.mp he'
    rw [hmore] at hmem
    obtain hmem | hmem := List.mem_append.mp hmem
    · exact hs.unnamed e' he' hmem
    · exact (of_decide_eq_false hne) (hsub _ hmem)
  · intro k hk
    rw [hmore] at hk
    obtain hk | hk := List.mem_append.mp hk
    · exact hs.known k hk
    · rw [hsub k hk]
      exact hknown
  · exact fun e' he' => hs.seeded e' (Table.mem_delete.mp he').1
  · exact fun e' he' => hs.unseeded e' (Table.mem_delete.mp he').1
  · exact hs.owned

section Finish

variable {turn : BackgroundTurnId} {e : Enqueueing} {runtime : Runtime.St}
  {more : List BackgroundTurnId}

theorem count_finish (hs : CognitionInv s) (he : s.enqueueing.find? turn = some e)
    (hmore : named runtime = named s.reflection.runtime ++ more) :
    (named runtime).count turn = more.count turn := by
  have hturn : e.turn = turn := Table.key_of_find? he
  have hunnamed : (named s.reflection.runtime).count turn = 0 :=
    List.count_eq_zero.mpr (hturn ▸ hs.unnamed e (Table.mem_of_find? he))
  rw [hmore, List.count_append, hunnamed, Nat.zero_add]

theorem CognitionInv.count_eq_one (hs : CognitionInv s) (he : s.enqueueing.find? turn = some e)
    (hmore : named runtime = named s.reflection.runtime ++ more)
    (h : TurnsNamed (CognitionSt.finish turn
      { s with reflection := { s.reflection with runtime } })) : more.count turn = 1 := by
  have hturn : e.turn = turn := Table.key_of_find? he
  obtain ⟨r, hr⟩ := Option.isSome_iff_exists.mp (hs.exist e (Table.mem_of_find? he))
  have hid : r.id = turn := (Table.key_of_find? hr).trans hturn
  have hgone : (s.finish turn).enqueueing.find? r.id = none := by
    rw [CognitionSt.finish, Table.find?_delete, hid, he, Option.filter_some]
    simp [hturn]
  have hone := (h r (Table.mem_of_find? hr) hgone).1
  rw [hid] at hone
  exact (count_finish hs he hmore).symm.trans hone

theorem turnsNamed_finish_iff (hs : CognitionInv s) (hnamed : TurnsNamed s)
    (he : s.enqueueing.find? turn = some e) (hseed : e.seeded = true)
    (hmore : named runtime = named s.reflection.runtime ++ more) (hsub : ∀ k ∈ more, k = turn) :
    TurnsNamed (CognitionSt.finish turn
      { s with reflection := { s.reflection with runtime } }) ↔ more.count turn = 1 := by
  refine ⟨hs.count_eq_one he hmore, fun h r hr hfree => ?_⟩
  have hturn : e.turn = turn := Table.key_of_find? he
  have hfree' : (s.enqueueing.delete fun e => e.turn = turn).find? r.id = none := hfree
  by_cases hid : r.id = turn
  · rw [hid]
    exact ⟨(count_finish hs he hmore).trans h,
      hturn ▸ hs.seeded e (Table.mem_of_find? he) hseed⟩
  · have hother : more.count r.id = 0 := List.count_eq_zero.mpr fun hk => hid (hsub _ hk)
    have hold : s.enqueueing.find? r.id = none := by
      rw [Table.find?_delete, Option.filter_eq_none_iff] at hfree'
      refine Option.eq_none_iff_forall_ne_some.mpr fun e' he' => ?_
      have hkey : e'.turn = r.id := Table.key_of_find? he'
      have hdel := hfree' e' he'
      simp [hkey, hid] at hdel
    obtain ⟨hone, hseeded⟩ := hnamed r hr hold
    refine ⟨?_, hseeded⟩
    have hcount : (named runtime).count r.id = 1 := by
      rw [hmore, List.count_append, hone, hother]
    exact hcount

end Finish

theorem turnsNamed_trigger_iff {turn : BackgroundTurnId} {request : PromptRequestId} {now : Time}
    (hs : CognitionInv s) (hnamed : TurnsNamed s)
    (hstep : cognitionStep env s (.trigger turn request now) = some t) :
    CognitionInv t ∧ (TurnsNamed t ↔ Undoubled s (.trigger turn request now)) := by
  simp only [cognitionStep, Option.bind_eq_bind, Option.bind_eq_some_iff] at hstep
  obtain ⟨e, he, hstep⟩ := hstep
  have hturn : e.turn = turn := Table.key_of_find? he
  have hguard : Undoubled s (.trigger turn request now) ↔ findByIdempotencyKey
      s.reflection.runtime.db e.trigger.orgId e.trigger.idempotencyKey = none := by
    simp [Undoubled, he]
  split at hstep
  case isFalse => cases hstep
  case isTrue hseed =>
    obtain ⟨⟨db, rid⟩, hr, hstep⟩ := Option.bind_eq_some_iff.mp hstep
    cases hstep
    have hok := toOption_eq_some.mp hr
    obtain ⟨existing, hfound, rfl, -⟩ | ⟨-, row, hrow⟩ := enqueueTrigger_cases hok
    · have hmore : named { s.reflection.runtime with db := s.reflection.runtime.db } =
          named s.reflection.runtime ++ [] := (List.append_nil _).symm
      have hnone : ∀ k ∈ ([] : List BackgroundTurnId), k = turn := fun _ hk => absurd hk
        List.not_mem_nil
      refine ⟨hs.finish he hmore hnone, ?_⟩
      rw [turnsNamed_finish_iff hs hnamed he hseed hmore hnone, hguard, hfound]
      simp
    · have hmore : named { s.reflection.runtime with db } =
          named s.reflection.runtime ++ [turn] := by
        rw [named_enqueued hrow.inserted, (hrow.minted hok).backgroundTurnId, e.names, hturn]
        rfl
      have hone : ∀ k ∈ [turn], k = turn := fun _ hk => List.mem_singleton.mp hk
      refine ⟨hs.finish he hmore hone, ?_⟩
      rw [turnsNamed_finish_iff hs hnamed he hseed hmore hone, hguard]
      simp [hrow.unseen]

theorem Apart.step {a : CognitionAct} (h : Apart s t) (hs : CognitionInv s)
    (hnamed : TurnsNamed s) (ha : Undoubled s a) :
    CognitionInv t ∧ (TurnsNamed t ↔ Undoubled s a) :=
  ⟨h.inv hs, iff_of_true (h.turnsNamed hnamed) ha⟩

theorem turnsNamed_step_iff {a : CognitionAct} (hs : CognitionInv s) (hnamed : TurnsNamed s)
    (hstep : cognitionStep env s a = some t) :
    CognitionInv t ∧ (TurnsNamed t ↔ Undoubled s a) := by
  cases a with
  | reflect a =>
    obtain ⟨ha, h⟩ := Option.ite_none_right_eq_some.mp hstep
    obtain ⟨reflection, hreflect, rfl⟩ := Option.map_eq_some_iff.mp h
    exact Apart.step ⟨rfl, rfl, named_reflect hreflect ha⟩ hs hnamed trivial
  | remember a =>
    obtain ⟨memory, -, rfl⟩ := Option.map_eq_some_iff.mp hstep
    exact Apart.step ⟨rfl, rfl, rfl⟩ hs hnamed trivial
  | converse turn now message =>
    obtain ⟨hturn, h⟩ := Option.ite_none_right_eq_some.mp hstep
    obtain ⟨⟨background, n⟩, happend, rfl⟩ := Option.map_eq_some_iff.mp h
    have hok := toOption_eq_some.mp happend
    refine ⟨hs.converse (Table.find?_eq_none.mpr fun e he e' => ?_) hok,
      iff_of_true (hnamed.append hok) trivial⟩
    have hkey : e.turn = turn := e'
    exact hs.unnamed e he (hkey ▸ hturn)
  | sweep agent =>
    obtain ⟨-, -, rfl⟩ := Option.map_eq_some_iff.mp hstep
    exact Apart.step ⟨rfl, rfl, rfl⟩ hs hnamed trivial
  | skip i =>
    simp only [cognitionStep, Option.ite_none_right_eq_some, Option.some.injEq] at hstep
    obtain ⟨-, rfl⟩ := hstep
    exact Apart.step ⟨rfl, rfl, rfl⟩ hs hnamed trivial
  | beginReflection i turn now =>
    simp only [cognitionStep, Option.bind_eq_bind, Option.bind_eq_some_iff] at hstep
    obtain ⟨c, -, agent, -, key, -, hbegin⟩ := hstep
    have hframe : Apart s { s with
        reflection := { s.reflection with found := s.reflection.found.eraseIdx i } } :=
      ⟨rfl, rfl, rfl⟩
    exact ⟨(hframe.inv hs).beginTurn hbegin,
      iff_of_true ((hframe.turnsNamed hnamed).beginTurn hbegin) trivial⟩
  | beginResolution i turn now =>
    simp only [cognitionStep, Option.bind_eq_bind, Option.bind_eq_some_iff] at hstep
    obtain ⟨r, -, key, -, agent, -, hbegin⟩ := hstep
    have hframe : Apart s { s with unresolved := s.unresolved.eraseIdx i } := ⟨rfl, rfl, rfl⟩
    exact ⟨(hframe.inv hs).beginTurn hbegin,
      iff_of_true ((hframe.turnsNamed hnamed).beginTurn hbegin) trivial⟩
  | seed turn now =>
    simp only [cognitionStep, Option.bind_eq_bind, Option.bind_eq_some_iff] at hstep
    obtain ⟨e, he, hstep⟩ := hstep
    split at hstep
    case isTrue => cases hstep
    case isFalse hseed =>
      obtain ⟨⟨background, n⟩, happend, hstep⟩ := Option.bind_eq_some_iff.mp hstep
      cases hstep
      have hok := toOption_eq_some.mp happend
      refine ⟨hs.seed he (Bool.eq_false_of_not_eq_true hseed) hok, iff_of_true ?_ trivial⟩
      intro r hr hfree
      exact hnamed.append hok r hr (find?_withSeed.mp hfree)
  | trigger turn request now => exact turnsNamed_trigger_iff hs hnamed hstep
  | fail turn =>
    obtain ⟨e, he, rfl⟩ := Option.map_eq_some_iff.mp hstep
    have hnone : named s.reflection.runtime = named s.reflection.runtime ++ [] :=
      (List.append_nil _).symm
    refine ⟨hs.finish he hnone fun _ hk => absurd hk List.not_mem_nil,
      iff_of_false (fun h => ?_) fun h => h⟩
    have hcount := hs.count_eq_one he hnone h
    cases hcount

theorem cognitionInv_init : CognitionInv .init where
  exist _ he := absurd he (Table.not_mem_empty _)
  unnamed _ he := absurd he (Table.not_mem_empty _)
  known _ hk := absurd hk List.not_mem_nil
  seeded _ he := absurd he (Table.not_mem_empty _)
  unseeded _ he := absurd he (Table.not_mem_empty _)
  owned _ hm := absurd hm (Table.not_mem_empty _)

/-- In a run every background turn has its seed and exactly one trigger as long as no enqueue runs
into a key that is taken, and none fails half way. -/
theorem turns_named_iff (env : CognitionEnv) (as : List CognitionAct) :
    Always (cognitionStep env) TurnsNamed .init as ↔ Steps (cognitionStep env) Undoubled .init as :=
  always_iff_steps CognitionInv
    (fun _ _ _ hs hnamed hstep _ => (turnsNamed_step_iff hs hnamed hstep).1)
    (fun _ _ _ hs hnamed hstep => (turnsNamed_step_iff hs hnamed hstep).2) cognitionInv_init
    (fun _ ht => absurd ht (Table.not_mem_empty _)) as

end Turns

namespace Sample

def likes : MemoryContent := ⟨"answers before noon", by decide, by decide⟩

def dislikes : MemoryContent := ⟨"never answers before noon", by decide, by decide⟩

def office : CognitionEnv where
  colleagues := Runtime.Sample.colleagues
  timing := .defaultConst
  creator _ := none
  idleThreshold := REFLECTION_IDLE_TIMEOUT
  batchLimit := REFLECTION_SCHEDULER_BATCH_LIMIT
  sameOrg _ _ := true
  owner _ := some (1, 3)
  buildReflectionPrompt _ _ := ""
  buildResolutionPrompt ev _ _ := ev.id.display

def noted (event : MemoryEventId) (memory : MemoryId) (content : MemoryContent) : CognitionAct :=
  .remember (.transact 0 (.apply event memory
    (.write 7 .procedure content .tentative false none .operator)))

def resolved (turn : BackgroundTurnId) (request : PromptRequestId) : List CognitionAct :=
  [.sweep 7, .beginResolution 0 turn 0, .seed turn 0, .trigger turn request 0]

def twoTicks : List CognitionAct :=
  [noted 50 60 likes, noted 51 61 dislikes,
    .remember (.transact 0 (.recordContradiction 70 7 60 61))] ++ resolved 20 30 ++ resolved 21 31

end Sample

/-- The second tick leaves behind a turn that no trigger names. -/
theorem tick_doubled : ¬ Always (cognitionStep Sample.office) TurnsNamed .init Sample.twoTicks := by
  intro h
  have hlast : ∃ t, run (cognitionStep Sample.office) .init Sample.twoTicks = some t ∧
      (t.background.backgroundTurns.find? 21).isSome ∧ t.enqueueing.find? 21 = none ∧
      (named t.reflection.runtime).count 21 = 0 := by
    refine ⟨_, rfl, ?_, ?_, ?_⟩
    · decide +kernel
    · decide +kernel
    · decide +kernel
  obtain ⟨t, hrun, hturn, hfree, hcount⟩ := hlast
  obtain ⟨r, hr⟩ := Option.isSome_iff_exists.mp hturn
  have hid : r.id = 21 := Table.key_of_find? hr
  obtain ⟨hone, -⟩ := h.run hrun r (Table.mem_of_find? hr) (by rw [hid]; exact hfree)
  rw [hid, hcount] at hone
  cases hone

end Patom.Memory
