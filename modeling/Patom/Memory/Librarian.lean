import Mathlib.Logic.Relation
import Patom.Memory.StoreLaws

open Patom.Foundation
open Relation

namespace Patom.Memory

/-- `0.95` as an `f32`. -/
def DEDUP_SIMILARITY_THRESHOLD : ℚ := 15938355 / 2 ^ 24

/-- A pair that was read: its similarity is a finite `f32`, and so a rational. -/
structure PairCandidate where
  a : MemoryRow
  b : MemoryRow
  similarity : ℚ

def PairCandidate.aWins (pair : PairCandidate) : Bool :=
  match compare pair.a.state.priority pair.b.state.priority with
  | .gt => true
  | .lt => false
  | .eq =>
    match compare pair.a.createdAt pair.b.createdAt with
    | .lt => true
    | .gt => false
    | .eq => pair.a.id.toNat < pair.b.id.toNat

def pickDedupLoser (pair : PairCandidate) : MemoryRow := if pair.aWins then pair.b else pair.a

structure Dedup where
  db : MemoryDb
  forgotten : List MemoryId
  deduped : Nat

def Dedup.start (db : MemoryDb) : Dedup := ⟨db, [], 0⟩

section Loop

variable (now : Time) (eventIds : MemoryId → MemoryEventId) (agent : AgentId)

def dedupStep (s : Dedup) (pair : PairCandidate) : Except Fault Dedup :=
  if pair.a.id ∈ s.forgotten ∨ pair.b.id ∈ s.forgotten then .ok s
  else
    let loser := pickDedupLoser pair
    if loser.pinned then .ok s
    else do
      let (_, db) ← applyForget now (eventIds loser.id) s.db agent loser.id .librarian
      return ⟨db, loser.id :: s.forgotten, s.deduped + 1⟩

/-- The first step of `run_librarian_sweep`; a fault ends the sweep there. -/
def dedup (s : Dedup) : List PairCandidate → Dedup × Option Fault
  | [] => (s, none)
  | pair :: pairs =>
    match dedupStep now eventIds agent s pair with
    | .ok s => dedup s pairs
    | .error e => (s, some e)

end Loop

def MemoryRow.dedupRank (r : MemoryRow) : ℕᵒᵈ ×ₗ (Time ×ₗ Nat) :=
  toLex (OrderDual.toDual r.state.priority, toLex (r.createdAt, r.id.toNat))

/-- What `similar_pairs` returns where no embedding is zero, so that no similarity is `NaN`: pairs of
the agent's rows, the smaller id first. -/
structure SimilarPairs (similarity : MemoryId → MemoryId → ℚ) (db : MemoryDb) (agent : AgentId)
    (pairs : List PairCandidate) : Prop where
  left : ∀ p ∈ pairs, p.a ∈ db.memories ∧ p.a.agentId = agent
  right : ∀ p ∈ pairs, p.b ∈ db.memories ∧ p.b.agentId = agent
  ordered : ∀ p ∈ pairs, p.a.id.toNat < p.b.id.toNat
  measured : ∀ p ∈ pairs, p.similarity = similarity p.a.id p.b.id
  similar : ∀ p ∈ pairs, DEDUP_SIMILARITY_THRESHOLD ≤ p.similarity

structure LostTo (pairs : List PairCandidate) (loser winner : MemoryRow) : Prop where
  pair : ∃ p ∈ pairs, (p.a = loser ∧ p.b = winner ∨ p.a = winner ∧ p.b = loser) ∧
    DEDUP_SIMILARITY_THRESHOLD ≤ p.similarity
  outranked : winner.dedupRank < loser.dedupRank

section Pair

variable {pair : PairCandidate}

theorem dedupRank_lt {r r' : MemoryRow} : r.dedupRank < r'.dedupRank ↔
    r'.state.priority < r.state.priority ∨ r.state.priority = r'.state.priority ∧
      (r.createdAt < r'.createdAt ∨ r.createdAt = r'.createdAt ∧ r.id.toNat < r'.id.toNat) := by
  simp [MemoryRow.dedupRank, Prod.Lex.toLex_lt_toLex]

theorem aWins_iff : pair.aWins ↔ pair.a.dedupRank < pair.b.dedupRank := by
  rw [dedupRank_lt, PairCandidate.aWins]
  split
  case h_1 h =>
    have := Nat.compare_eq_gt.mp h
    exact iff_of_true rfl (.inl this)
  case h_2 h =>
    have := Nat.compare_eq_lt.mp h
    exact iff_of_false Bool.false_ne_true (by omega)
  case h_3 h =>
    have hstate := Nat.compare_eq_eq.mp h
    split
    case h_1 h =>
      exact iff_of_true rfl (.inr ⟨hstate, .inl (Nat.compare_eq_lt.mp h)⟩)
    case h_2 h =>
      have : pair.b.createdAt < pair.a.createdAt := Nat.compare_eq_gt.mp h
      exact iff_of_false Bool.false_ne_true (by lia)
    case h_3 h =>
      have hcreated : pair.a.createdAt = pair.b.createdAt := Nat.compare_eq_eq.mp h
      simp [hstate, hcreated]

theorem pickDedupLoser_cases (h : pair.a.id.toNat < pair.b.id.toNat) :
    (pickDedupLoser pair = pair.b ∧ pair.a.dedupRank < pair.b.dedupRank) ∨
      (pickDedupLoser pair = pair.a ∧ pair.b.dedupRank < pair.a.dedupRank) := by
  cases hwins : pair.aWins with
  | true => exact .inl ⟨by rw [pickDedupLoser, if_pos hwins], aWins_iff.mp hwins⟩
  | false =>
    have hnot : ¬ pair.a.dedupRank < pair.b.dedupRank := fun hlt => by simp [aWins_iff.mpr hlt] at hwins
    have hne : pair.a.dedupRank ≠ pair.b.dedupRank := fun e => by
      have := congrArg (fun r => (ofLex (ofLex r).2).2) e
      exact absurd this (Nat.ne_of_lt h)
    exact .inr ⟨by simp [pickDedupLoser, hwins], (not_lt.mp hnot).lt_of_ne' hne⟩

end Pair

section Step

variable {now : Time} {eventIds : MemoryId → MemoryEventId} {agent : AgentId} {db : MemoryDb}
variable {s s' : Dedup} {pair : PairCandidate} {pairs : List PairCandidate}

theorem applyForget_memories {eventId : MemoryEventId} {db db' : MemoryDb} {target : MemoryId}
    {source : MutationSource} {out : MutationOutcome}
    (h : applyForget now eventId db agent target source = .ok (out, db')) :
    db'.memories = db.memories.delete (·.id = target) := by
  obtain ⟨prior, -, h⟩ := bind_eq_ok.mp h
  obtain ⟨db₁, hevent, h⟩ := bind_eq_ok.mp h
  cases h
  rw [MemoryDb.deleteRow, (MemoryDb.insertEvent_ok hevent).2.1]

theorem dedupStep_cases (h : dedupStep now eventIds agent s pair = .ok s') :
    s' = s ∨
      (pair.a.id ∉ s.forgotten ∧ pair.b.id ∉ s.forgotten ∧ (pickDedupLoser pair).pinned = false ∧
        s'.forgotten = (pickDedupLoser pair).id :: s.forgotten ∧
        s'.db.memories = s.db.memories.delete (·.id = (pickDedupLoser pair).id)) := by
  rw [dedupStep] at h
  split at h
  · exact .inl (Except.ok.inj h).symm
  · rename_i hthere
    simp only [not_or] at hthere
    dsimp only at h
    split at h
    · exact .inl (Except.ok.inj h).symm
    · rename_i hpinned
      obtain ⟨⟨out, db⟩, hforget, h⟩ := bind_eq_ok.mp h
      cases h
      exact .inr ⟨hthere.1, hthere.2, by simpa using hpinned, rfl, applyForget_memories hforget⟩

/-- Every row that is gone lost a pair, and a chain of such losses leads to a row that is there. -/
structure Represented (db : MemoryDb) (pairs : List PairCandidate) (s : Dedup) : Prop where
  rows : ∀ row, row ∈ s.db.memories ↔ row ∈ db.memories ∧ row.id ∉ s.forgotten
  lost : ∀ row ∈ db.memories, row.id ∈ s.forgotten →
    row.pinned = false ∧
      ∃ kept ∈ db.memories, kept.id ∉ s.forgotten ∧ TransGen (LostTo pairs) row kept

theorem represented_start (db : MemoryDb) (pairs : List PairCandidate) :
    Represented db pairs (.start db) where
  rows row := by simp [Dedup.start]
  lost row _ h := absurd h List.not_mem_nil

variable {similarity : MemoryId → MemoryId → ℚ}

theorem SimilarPairs.lostTo (hpairs : SimilarPairs similarity db agent pairs) (hp : pair ∈ pairs)
    {s : Dedup} (ha : pair.a.id ∉ s.forgotten) (hb : pair.b.id ∉ s.forgotten) :
    pickDedupLoser pair ∈ db.memories ∧ ∃ winner ∈ db.memories, winner.id ∉ s.forgotten ∧
      winner.id ≠ (pickDedupLoser pair).id ∧ LostTo pairs (pickDedupLoser pair) winner := by
  have hlt := hpairs.ordered pair hp
  have hne : pair.a.id ≠ pair.b.id := fun e => Nat.ne_of_lt hlt (congrArg BitVec.toNat e)
  have hsimilar := hpairs.similar pair hp
  obtain ⟨heq, hrank⟩ | ⟨heq, hrank⟩ := pickDedupLoser_cases hlt
  · rw [heq]
    exact ⟨(hpairs.right pair hp).1, pair.a, (hpairs.left pair hp).1, ha, hne,
      ⟨pair, hp, .inr ⟨rfl, rfl⟩, hsimilar⟩, hrank⟩
  · rw [heq]
    exact ⟨(hpairs.left pair hp).1, pair.b, (hpairs.right pair hp).1, hb, hne.symm,
      ⟨pair, hp, .inl ⟨rfl, rfl⟩, hsimilar⟩, hrank⟩

theorem Represented.step (hpairs : SimilarPairs similarity db agent pairs)
    (hs : Represented db pairs s) (hp : pair ∈ pairs)
    (h : dedupStep now eventIds agent s pair = .ok s') : Represented db pairs s' := by
  obtain rfl | ⟨ha, hb, hpinned, hforgotten, hdb⟩ := dedupStep_cases h
  · exact hs
  obtain ⟨hloser, winner, hwinner, hthere, hne, hlost⟩ := hpairs.lostTo hp ha hb
  constructor
  · intro row
    rw [hdb, Table.mem_delete, hs.rows, hforgotten, List.mem_cons, not_or, decide_eq_false_iff_not]
    exact ⟨fun h => ⟨h.1.1, h.2, h.1.2⟩, fun h => ⟨⟨h.1, h.2.2⟩, h.2.1⟩⟩
  · intro row hrow hgone
    rw [hforgotten] at hgone ⊢
    have hwinner' : winner.id ∉ (pickDedupLoser pair).id :: s.forgotten := by
      rw [List.mem_cons, not_or]
      exact ⟨hne, hthere⟩
    rcases List.mem_cons.mp hgone with heq | hold
    · obtain rfl := Table.eq_of_key_eq hrow hloser heq
      exact ⟨hpinned, winner, hwinner, hwinner', .single hlost⟩
    · obtain ⟨hrowpinned, kept, hkept, hkeptthere, hchain⟩ := hs.lost row hrow hold
      refine ⟨hrowpinned, ?_⟩
      by_cases heq : kept.id = (pickDedupLoser pair).id
      · -- The row kept so far is the one that is forgotten now.
        obtain rfl := Table.eq_of_key_eq hkept hloser heq
        exact ⟨winner, hwinner, hwinner', hchain.tail hlost⟩
      · refine ⟨kept, hkept, ?_, hchain⟩
        rw [List.mem_cons, not_or]
        exact ⟨heq, hkeptthere⟩

theorem Represented.run (hpairs : SimilarPairs similarity db agent pairs)
    (hs : Represented db pairs s) {rest : List PairCandidate} (hrest : rest ⊆ pairs) :
    Represented db pairs (dedup now eventIds agent s rest).1 := by
  induction rest generalizing s with
  | nil => exact hs
  | cons pair rest ih =>
    rw [List.cons_subset] at hrest
    rw [dedup]
    split
    case h_1 h => exact ih (hs.step hpairs hrest.1 h) hrest.2
    case h_2 => exact hs

theorem exists_settling {rest : List PairCandidate} {id : MemoryId}
    (h : id ∈ (dedup now eventIds agent s rest).1.forgotten) :
    id ∈ s.forgotten ∨ ∃ before p after, rest = before ++ p :: after ∧ (pickDedupLoser p).id = id ∧
      p.a.id ∉ (dedup now eventIds agent s before).1.forgotten ∧
      p.b.id ∉ (dedup now eventIds agent s before).1.forgotten := by
  induction rest generalizing s with
  | nil => exact .inl h
  | cons pair rest ih =>
    rw [dedup] at h
    cases hstep : dedupStep now eventIds agent s pair with
    | error e =>
      rw [hstep] at h
      exact .inl h
    | ok s' =>
      rw [hstep] at h
      obtain hold | ⟨before, p, after, rfl, hid, ha, hb⟩ := ih h
      · obtain rfl | ⟨ha, hb, -, hforgotten, -⟩ := dedupStep_cases hstep
        · exact .inl hold
        · rw [hforgotten] at hold
          rcases List.mem_cons.mp hold with heq | hold
          · exact .inr ⟨[], pair, rest, rfl, heq.symm, ha, hb⟩
          · exact .inl hold
      · refine .inr ⟨pair :: before, p, after, rfl, hid, ?_, ?_⟩
        · rwa [dedup, hstep]
        · rwa [dedup, hstep]

end Step

/-- What is forgotten is not pinned and lost a returned pair to a row of a higher rank that was
there, from which a chain of such losses leads to a row that stays. -/
theorem dedup_represented {similarity : MemoryId → MemoryId → ℚ} {db : MemoryDb} {agent : AgentId}
    {pairs : List PairCandidate} (h : SimilarPairs similarity db agent pairs) (now : Time)
    (eventIds : MemoryId → MemoryEventId) :
    let out := (dedup now eventIds agent (.start db) pairs).1
    (∀ row, row ∈ out.db.memories ↔ row ∈ db.memories ∧ row.id ∉ out.forgotten) ∧
      ∀ row ∈ db.memories, row.id ∈ out.forgotten →
        row.pinned = false ∧
        (∃ before p after, pairs = before ++ p :: after ∧ (pickDedupLoser p).id = row.id ∧
          p.a.id ∉ (dedup now eventIds agent (.start db) before).1.forgotten ∧
          p.b.id ∉ (dedup now eventIds agent (.start db) before).1.forgotten) ∧
        ∃ kept ∈ db.memories, kept.id ∉ out.forgotten ∧ TransGen (LostTo pairs) row kept := by
  intro out
  have hout : Represented db pairs out :=
    (represented_start db pairs).run h (List.Subset.refl pairs)
  refine ⟨hout.rows, fun row hrow hgone => ?_⟩
  obtain ⟨hpinned, hkept⟩ := hout.lost row hrow hgone
  exact ⟨hpinned, (exists_settling hgone).resolve_left List.not_mem_nil, hkept⟩

namespace Sample

def memory (id : MemoryId) : MemoryRow :=
  ⟨id, 7, .other, ⟨"Likes tea", by decide, by decide⟩, .tentative, false, none, none, id.toNat,
    0, 0, 0⟩

def memories : MemoryDb :=
  ⟨⟨[memory 1, memory 2, memory 3], by decide⟩, .empty, .empty⟩

def similarity (x y : MemoryId) : ℚ :=
  if x.toNat + y.toNat = 5 then 99 / 100 else if x.toNat + y.toNat = 3 then 96 / 100 else 93 / 100

def chain : List PairCandidate :=
  [⟨memory 2, memory 3, 99 / 100⟩, ⟨memory 1, memory 2, 96 / 100⟩]

theorem similarPairs_chain : SimilarPairs similarity memories 7 chain where
  left := by simp [chain, memories, memory, Table.mem_def]
  right := by simp [chain, memories, memory, Table.mem_def]
  ordered := by simp [chain, memory]
  measured := by simp [chain, memory, similarity]
  similar := by
    simp only [chain, List.forall_mem_cons, DEDUP_SIMILARITY_THRESHOLD]
    norm_num

theorem forgotten_chain : (dedup 0 id 7 (.start memories) chain).1.forgotten = [2, 3] := by decide

end Sample

theorem dedup_represented_chain :
    Sample.memory 3 ∈ Sample.memories.memories ∧
    ∃ kept ∈ Sample.memories.memories,
      kept.id ∉ (dedup 0 id 7 (.start Sample.memories) Sample.chain).1.forgotten ∧
      TransGen (LostTo Sample.chain) (Sample.memory 3) kept := by
  have hrow : Sample.memory 3 ∈ Sample.memories.memories := by
    simp [Sample.memories, Table.mem_def]
  refine ⟨hrow, ((dedup_represented Sample.similarPairs_chain 0 id).2 _ hrow ?_).2.2⟩
  rw [Sample.forgotten_chain]
  decide

/-- The third row has no other partner than the second, and both are forgotten. -/
theorem dedup_unrepresented :
    SimilarPairs Sample.similarity Sample.memories 7 Sample.chain ∧
    let out := (dedup 0 id 7 (.start Sample.memories) Sample.chain).1
    (¬ ∀ row ∈ Sample.memories.memories, row.id ∈ out.forgotten →
      ∃ partner ∈ Sample.memories.memories, partner.id ∉ out.forgotten ∧
        DEDUP_SIMILARITY_THRESHOLD ≤ Sample.similarity row.id partner.id ∧
        partner.dedupRank ≤ row.dedupRank) ∧
    ¬ ∀ p ∈ Sample.chain, ¬ (p.a.id ∈ out.forgotten ∧ p.b.id ∈ out.forgotten) := by
  refine ⟨Sample.similarPairs_chain, ?_, ?_⟩
  · intro hall
    obtain ⟨partner, hpartner, hthere, hsimilar, -⟩ := hall (Sample.memory 3)
      (by simp [Sample.memories, Table.mem_def])
      (by rw [Sample.forgotten_chain]; exact List.mem_cons_of_mem _ List.mem_cons_self)
    rw [Sample.forgotten_chain] at hthere
    have hcases : partner = Sample.memory 1 ∨ partner = Sample.memory 2 ∨
        partner = Sample.memory 3 := by
      simpa [Sample.memories, Table.mem_def] using hpartner
    obtain rfl | rfl | rfl := hcases
    · have hapart : Sample.similarity (Sample.memory 3).id (Sample.memory 1).id = 93 / 100 := rfl
      rw [hapart] at hsimilar
      norm_num [DEDUP_SIMILARITY_THRESHOLD] at hsimilar
    · exact hthere List.mem_cons_self
    · exact hthere (List.mem_cons_of_mem _ List.mem_cons_self)
  · intro hall
    refine hall ⟨Sample.memory 2, Sample.memory 3, 99 / 100⟩ List.mem_cons_self ?_
    rw [Sample.forgotten_chain]
    exact ⟨List.mem_cons_self, List.mem_cons_of_mem _ List.mem_cons_self⟩

end Patom.Memory
