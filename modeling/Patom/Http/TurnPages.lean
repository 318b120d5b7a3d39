import Patom.Http.Turns
import Patom.Mcp.SignedLinks

open Patom.AgentCore (MetricKind)
open Patom.Foundation
open Patom.Foundation.Keyset
open Patom.Runtime (RequestKind)

namespace Patom.Http

theorem DateTime.fromTimestampMicros_timestampMicros (t : DateTime) :
    fromTimestampMicros t.timestampMicros = some t := by
  have hlo := t.earliest
  have hhi := t.latest
  have hround : t.timestampMicros.toInt = t.micros := by
    refine Int64.toInt_ofInt_of_le ?_ ?_
    · unfold MIN_UTC at hlo
      omega
    · unfold MAX_UTC at hhi
      omega
  rw [fromTimestampMicros, dif_pos (hround.symm ▸ ⟨hlo, hhi⟩)]
  exact congrArg some (micros_injective hround)

theorem decode_encode_turnCursor {parseUuid : List Char → Option Uuid}
    (huuid : ∀ u, parseUuid u.chars = some u) (startedAt : DateTime) (id : TurnMetricsId) :
    decodeTurnCursor parseUuid (encodeTurnCursor startedAt id) = .ok (startedAt, id) := by
  have hbar : '|' ∉ showInt startedAt.timestampMicros.toInt := by
    intro hmem
    rcases mem_showInt hmem with h | h
    · cases h
    · cases h
  simp [decodeTurnCursor, encodeTurnCursor, splitOnce_singleton hbar, readI64_showInt, huuid,
    DateTime.fromTimestampMicros_timestampMicros]

theorem metricKind_parse (tm : TurnMetrics) : ∃ kind, MetricKind.parse tm.kind = some kind := by
  have hcheck := tm.kindCheck
  generalize tm.kind = raw at hcheck
  rw [← Option.isSome_iff_exists]
  revert raw
  decide

theorem requestKind_parse (tm : TurnMetrics) :
    (∃ kind, RequestKind.parse tm.kind = some kind) ↔ tm.kind ≠ MetricKind.compaction.asStr := by
  have hcheck := tm.kindCheck
  generalize tm.kind = raw at hcheck
  rw [← Option.isSome_iff_exists]
  revert raw
  decide

section Detail

variable {db : TurnDb} {tm : TurnMetrics}

theorem length_pushReasoning {out : List ReasoningBlock} (entry : ContentEntry)
    (h : out.length ≤ MAX_REASONING_BLOCKS_PER_TURN) :
    (pushReasoning out entry).length ≤ MAX_REASONING_BLOCKS_PER_TURN := by
  unfold pushReasoning
  split_ifs with hfull
  · exact h
  · cases entry.value with
    | none => exact h
    | some text =>
      rw [Option.elim_some, List.length_append]
      exact Nat.succ_le_of_lt (Nat.not_le.mp hfull)
  · exact h

theorem length_extractReasoning (bodies : List (Option (List ContentEntry))) :
    (extractReasoning bodies).length ≤ MAX_REASONING_BLOCKS_PER_TURN := by
  have hentries : ∀ (entries : List ContentEntry) (out : List ReasoningBlock),
      out.length ≤ MAX_REASONING_BLOCKS_PER_TURN →
      (entries.foldl pushReasoning out).length ≤ MAX_REASONING_BLOCKS_PER_TURN := by
    intro entries
    induction entries with
    | nil => exact fun _ h => h
    | cons entry entries ih => exact fun out h => ih _ (length_pushReasoning entry h)
  have hbodies : ∀ out : List ReasoningBlock, out.length ≤ MAX_REASONING_BLOCKS_PER_TURN →
      (bodies.foldl (fun out contents => contents.elim out (List.foldl pushReasoning out)) out).length
        ≤ MAX_REASONING_BLOCKS_PER_TURN := by
    induction bodies with
    | nil => exact fun _ h => h
    | cons contents bodies ih =>
      intro out h
      refine ih _ ?_
      cases contents with
      | none => exact h
      | some entries => exact hentries entries out h
  exact hbodies [] (Nat.zero_le _)

theorem assertBound_take {α : Type} (cap : Nat) (message : String) (rows : List α) :
    assertBound cap message (rows.take cap) = .ok (rows.take cap) :=
  if_pos (List.length_take_le _ _)

theorem fetchReasoning_ok (db : TurnDb) (requestId : Runtime.PromptRequestId) :
    ∃ blocks, db.fetchReasoning requestId = .ok blocks :=
  ⟨_, if_pos (length_extractReasoning _)⟩

theorem fetchTurnRow_ok {pr : RequestRow} {kind : RequestKind} (htm : db.turns.find? tm.id = some tm)
    (hpr : db.requests.find? tm.requestId = some pr) (hkind : RequestKind.parse tm.kind = some kind) :
    ∃ turn, db.fetchTurnRow tm.id = .ok turn ∧ turn.promptVersionId = tm.promptVersionId := by
  simp [TurnDb.fetchTurnRow, bind, Except.bind, pure, Except.pure, htm, hpr, decodeLabel, hkind]

theorem loadDetail_ok {turn : TurnMetricsResponse} {apv : AgentPromptVersion} {id : TurnMetricsId}
    (h : db.fetchTurnRow id = .ok turn) (hapv : db.versions.find? turn.promptVersionId = some apv) :
    ∃ detail, db.loadDetail id = .ok detail := by
  obtain ⟨blocks, hblocks⟩ := fetchReasoning_ok db turn.requestId
  simp [TurnDb.loadDetail, h, hblocks, TurnDb.fetchToolCalls, TurnDb.fetchMemoryWrites, assertBound_take,
    TurnDb.fetchPromptVersion, hapv, bind, Except.bind, pure, Except.pure]

theorem readTurnDetail_iff (h : tm ∈ db.turns) :
    (∃ detail, db.readTurnDetail tm.id = .ok detail) ↔ tm.kind ≠ MetricKind.compaction.asStr := by
  obtain ⟨pr, hpr⟩ := db.requestFk tm h
  obtain ⟨apv, hapv⟩ := db.versionFk tm h
  have htm : db.turns.find? tm.id = some tm := Table.find?_of_mem h
  rw [← requestKind_parse, TurnDb.readTurnDetail, htm, if_neg (by simp)]
  cases hkind : RequestKind.parse tm.kind with
  | none =>
    simp [TurnDb.loadDetail, TurnDb.fetchTurnRow, bind, Except.bind, htm, hpr, decodeLabel, hkind]
  | some kind =>
    obtain ⟨turn, hturn, hversion⟩ := fetchTurnRow_ok htm hpr hkind
    exact iff_of_true (loadDetail_ok hturn (hversion ▸ hapv)) ⟨kind, rfl⟩

end Detail

namespace TurnDb

variable (db : TurnDb) (agent : AgentId) (f : TurnFilter)

def matching : List TurnMetrics := db.turns.rows.filter (f.passes agent)

def Shows (tm : TurnMetrics) (row : TurnRow) : Prop :=
  ∃ j, db.join tm = some j ∧ j.decode = .ok row

def newer (tm : TurnMetrics) : Nat := (db.matching agent f).countP fun tm' => tm.key < tm'.key

def joined : List JoinedTurn := db.turns.rows.filterMap db.join

end TurnDb

/-- The list a filter stands for: the rows of all matching turns, the newest first. -/
def Listed (db : TurnDb) (agent : AgentId) (f : TurnFilter) (rows : List TurnRow) : Prop :=
  ∃ tms : List TurnMetrics, tms.Perm (db.matching agent f) ∧
    tms.Pairwise (fun tm tm' => tm'.key < tm.key) ∧ List.Forall₂ db.Shows tms rows

section List

variable {db : TurnDb} {agent : AgentId} {f : TurnFilter} {tm : TurnMetrics} {j : JoinedTurn}

def JoinedTurn.row (j : JoinedTurn) : TurnRow where
  id := j.tm.id
  requestId := j.tm.requestId
  startedAt := j.tm.startedAt
  kind := (MetricKind.parse j.tm.kind).getD .normal
  model := j.tm.model
  provider := j.tm.provider
  inputTokens := j.tm.inputTokens
  outputTokens := j.tm.outputTokens
  cacheCreationTokens := j.tm.cacheCreationTokens
  cacheReadTokens := j.tm.cacheReadTokens
  durationMs := j.tm.durationMs
  stopReason := j.tm.stopReason
  status := j.pr.status
  failureReason := j.pr.failureReason
  promptVersion := j.apv.version

theorem decode_eq (j : JoinedTurn) : j.decode = .ok j.row := by
  obtain ⟨kind, hkind⟩ := metricKind_parse j.tm
  rw [JoinedTurn.decode, JoinedTurn.row, decodeLabel, hkind]
  rfl

theorem join_tm (h : db.join tm = some j) : j.tm = tm := by
  simp only [TurnDb.join, Option.pure_def, Option.bind_eq_bind, Option.bind_eq_some_iff,
    Option.some.injEq] at h
  obtain ⟨pr, -, apv, -, rfl⟩ := h
  rfl

theorem mem_joined (h : j ∈ db.joined) : db.join j.tm = some j ∧ j.tm ∈ db.turns := by
  obtain ⟨tm, htm, hj⟩ := List.mem_filterMap.mp h
  obtain rfl := join_tm hj
  exact ⟨hj, htm⟩

theorem map_tm_joined (db : TurnDb) : db.joined.map JoinedTurn.tm = db.turns.rows := by
  have hall : ∀ tm ∈ db.turns.rows, ∃ j, db.join tm = some j := by
    intro tm htm
    obtain ⟨pr, hpr⟩ := db.requestFk tm htm
    obtain ⟨apv, hapv⟩ := db.versionFk tm htm
    exact ⟨⟨tm, pr, apv⟩, by simp [TurnDb.join, hpr, hapv]⟩
  unfold TurnDb.joined
  generalize db.turns.rows = l at hall
  induction l with
  | nil => rfl
  | cons tm l ih =>
    obtain ⟨j, hj⟩ := hall tm List.mem_cons_self
    rw [List.filterMap_cons_some hj, List.map_cons, join_tm hj,
      ih fun tm htm => hall tm (List.mem_cons_of_mem _ htm)]

theorem turnKey_injective {t t' : DateTime} {id id' : TurnMetricsId} (h : turnKey t id = turnKey t' id') :
    t = t' ∧ id = id' := by
  have hpair := Prod.mk.inj (toLex_inj.mp h)
  exact ⟨DateTime.micros_injective hpair.1, BitVec.eq_of_toNat_eq hpair.2⟩

theorem joined_key_injective (db : TurnDb) : ∀ j ∈ db.joined, ∀ j' ∈ db.joined,
    OrderDual.toDual j.tm.key = OrderDual.toDual j'.tm.key → j = j' := by
  intro j hj j' hj' h
  obtain ⟨hjoin, hmem⟩ := mem_joined hj
  obtain ⟨hjoin', hmem'⟩ := mem_joined hj'
  have htm : j.tm = j'.tm := Table.eq_of_key_eq hmem hmem' (turnKey_injective h).2
  rw [htm, hjoin'] at hjoin
  exact Option.some.inj hjoin.symm

theorem newestFirst_joined (db : TurnDb) :
    (newestFirst db.joined).Pairwise fun j j' => j'.tm.key < j.tm.key := by
  have hnodup : (newestFirst db.joined).Nodup := by
    refine (inOrder_perm _ db.joined).nodup_iff.mpr (List.Nodup.of_map JoinedTurn.tm ?_)
    rw [map_tm_joined]
    exact Table.nodup_rows db.turns
  refine ((inOrder_sorted _ db.joined).and hnodup).imp_of_mem fun {j j'} hj hj' h => ?_
  have hmem := (inOrder_perm _ db.joined).mem_iff.mp hj
  have hmem' := (inOrder_perm _ db.joined).mem_iff.mp hj'
  refine lt_of_le_of_ne h.1 fun heq => h.2 ?_
  exact joined_key_injective db j hmem j' hmem' (congrArg OrderDual.toDual heq.symm)

def TurnDb.listing (db : TurnDb) (agent : AgentId) (f : TurnFilter) : List TurnRow :=
  ((newestFirst db.joined).filter fun j => f.passes agent j.tm).map JoinedTurn.row

theorem listing_newestFirst (db : TurnDb) (agent : AgentId) (f : TurnFilter) :
    NewestFirst TurnRow.key (db.listing agent f) :=
  List.pairwise_map.mpr ((newestFirst_joined db).sublist List.filter_sublist)

theorem map_tm_listing (db : TurnDb) (agent : AgentId) (f : TurnFilter) :
    (((newestFirst db.joined).filter fun j => f.passes agent j.tm).map JoinedTurn.tm).Perm
      (db.matching agent f) := by
  rw [TurnDb.matching, ← map_tm_joined, List.filter_map]
  exact ((inOrder_perm _ db.joined).filter _).map _

theorem listed_listing (db : TurnDb) (agent : AgentId) (f : TurnFilter) :
    Listed db agent f (db.listing agent f) := by
  refine ⟨_, map_tm_listing db agent f, ?_, ?_⟩
  · exact List.pairwise_map.mpr ((newestFirst_joined db).sublist List.filter_sublist)
  · rw [TurnDb.listing, List.forall₂_map_left_iff, List.forall₂_map_right_iff, List.forall₂_same]
    intro j hj
    have hmem := (inOrder_perm _ db.joined).mem_iff.mp (List.mem_of_mem_filter hj)
    exact ⟨j, (mem_joined hmem).1, decode_eq j⟩

theorem Listed.eq_listing {rows : List TurnRow} (h : Listed db agent f rows) :
    rows = db.listing agent f := by
  obtain ⟨tms, hperm, hsorted, hrows⟩ := h
  obtain ⟨tms', hperm', hsorted', hrows'⟩ := listed_listing db agent f
  have heq : tms = tms' := by
    refine (hperm.trans hperm'.symm).eq_of_pairwise ?_ hsorted hsorted'
    exact fun a b _ _ hab hba => absurd hab hba.asymm
  subst heq
  refine List.right_unique_forall₂' ?_ hrows hrows'
  rintro tm row row' ⟨j, hj, hrow⟩ ⟨j', hj', hrow'⟩
  rw [hj] at hj'
  cases hj'
  exact Except.ok.inj (hrow.symm.trans hrow')

theorem mapM_decode (js : List JoinedTurn) : js.mapM JoinedTurn.decode = .ok (js.map JoinedTurn.row) := by
  induction js with
  | nil => rfl
  | cons j js ih =>
    rw [List.mapM_cons, decode_eq, ih]
    rfl

theorem fetchTurnRows_eq (cursor : Option (DateTime × TurnMetricsId)) (limit : Nat) :
    db.fetchTurnRows agent f cursor limit = .ok ((((newestFirst db.joined).filter fun j =>
      f.passes agent j.tm && cursor.all fun c => j.tm.key < turnKey c.1 c.2).map JoinedTurn.row).take
        (limit + 1)) := by
  rw [TurnDb.fetchTurnRows, mapM_decode, List.map_take]
  refine congrArg (fun js : List JoinedTurn => Except.ok ((js.map JoinedTurn.row).take (limit + 1))) ?_
  exact (filter_inOrder (joined_key_injective db) _).symm

theorem fetch_first (limit : Nat) :
    db.fetchTurnRows agent f none limit = .ok ((db.listing agent f).take (limit + 1)) := by
  rw [fetchTurnRows_eq]
  simp [TurnDb.listing]

theorem startedAt_lt (h : f.passes agent tm) : tm.startedAt < f.to_ := by
  simp only [TurnFilter.passes, Bool.and_eq_true, decide_eq_true_eq] at h
  exact h.1.2

theorem startedAt_le {t t' : DateTime} {id id' : TurnMetricsId} (h : turnKey t id < turnKey t' id') :
    t ≤ t' := by
  rcases Prod.Lex.toLex_lt_toLex.mp h with hlt | ⟨heq, -⟩
  · exact hlt.le
  · exact (DateTime.micros_injective heq).le

theorem fetch_next {f' : TurnFilter} {row : TurnRow} (hrow : row ∈ db.listing agent f)
    (hkind : f'.kind = f.kind) (hfrom : f.from_ ≤ f'.from_) (hto : f.to_ ≤ f'.to_) (limit : Nat) :
    db.fetchTurnRows agent f' (some (row.startedAt, row.id)) limit
      = .ok (((older TurnRow.key (db.listing agent f) row.key).filter
          fun r => f'.from_ ≤ r.startedAt).take (limit + 1)) := by
  obtain ⟨i, hi, rfl⟩ := List.mem_map.mp hrow
  have hend : i.tm.startedAt < f.to_ := startedAt_lt (List.mem_filter.mp hi).2
  rw [fetchTurnRows_eq, older, TurnDb.listing, List.filter_map, List.filter_map, List.filter_filter,
    List.filter_filter]
  refine congrArg (fun js : List JoinedTurn => Except.ok ((js.map JoinedTurn.row).take (limit + 1)))
    (List.filter_congr fun j _ => ?_)
  rw [Bool.eq_iff_iff]
  simp only [TurnFilter.passes, hkind, Option.all_some, Function.comp_apply, Bool.and_eq_true,
    decide_eq_true_eq]
  constructor
  · rintro ⟨⟨⟨⟨hagent, hstart⟩, -⟩, hk⟩, hkey⟩
    have hlt : j.tm.startedAt < f.to_ := (startedAt_le hkey).trans_lt hend
    exact ⟨⟨hstart, hkey⟩, ⟨⟨hagent, hfrom.trans hstart⟩, hlt⟩, hk⟩
  · rintro ⟨⟨hstart, hkey⟩, ⟨⟨hagent, -⟩, hlt⟩, hk⟩
    exact ⟨⟨⟨⟨hagent, hstart⟩, hlt.trans_le hto⟩, hk⟩, hkey⟩

end List

theorem before_eq_some {t u : DateTime} {n : Nat} : t.before n = some u ↔ u.micros = t.micros - n := by
  unfold DateTime.before
  constructor
  · intro h
    split at h
    · cases h
      rfl
    · cases h
  · intro h
    rw [dif_pos (h ▸ u.earliest)]
    exact congrArg some (DateTime.micros_injective h.symm)

theorem before_mono {t t' u : DateTime} {n : Nat} (h : t ≤ t') (hu : t.before n = some u) :
    ∃ u', t'.before n = some u' ∧ u ≤ u' := by
  have hle : t.micros ≤ t'.micros := h
  have hu' := before_eq_some.mp hu
  have hlo : MIN_UTC ≤ t'.micros - n := u.earliest.trans (by omega)
  refine ⟨_, dif_pos hlo, ?_⟩
  change u.micros ≤ t'.micros - n
  omega

theorem filter_later {q : TurnsListQuery} {f : TurnFilter} {now now' : DateTime} (h : now ≤ now')
    (hf : q.filter now = .ok f) :
    ∃ f', q.filter now' = .ok f' ∧ f'.kind = f.kind ∧ f.from_ ≤ f'.from_ ∧ f.to_ ≤ f'.to_ ∧
      ∀ t, f.from_ ≤ t → (f'.from_ ≤ t ↔
        (q.from_ = none → q.to_ = none → now'.micros ≤ t.micros + DAY)) := by
  unfold TurnsListQuery.filter at hf ⊢
  cases hkind : parseKindFilter q.kind with
  | error e => simp [hkind, bind, Except.bind] at hf
  | ok kind =>
    have hto : q.to_.getD now ≤ q.to_.getD now' := by
      cases q.to_ with
      | none => exact h
      | some to_ => exact le_rfl
    cases hfrom : q.from_ with
    | some from_ =>
      simp only [hkind, hfrom, bind, Except.bind, pure, Except.pure, Except.ok.injEq] at hf ⊢
      subst hf
      exact ⟨_, rfl, rfl, le_rfl, hto, fun t ht => iff_of_true ht fun hnone => by cases hnone⟩
    | none =>
      cases hbefore : (q.to_.getD now).before DAY with
      | none => simp [hkind, hfrom, hbefore, bind, Except.bind] at hf
      | some u =>
        obtain ⟨u', hbefore', hle⟩ := before_mono hto hbefore
        simp only [hkind, hfrom, hbefore, hbefore', Option.elim_some, bind, Except.bind, pure,
          Except.pure, Except.ok.injEq] at hf ⊢
        subst hf
        refine ⟨_, rfl, rfl, hle, hto, fun t ht => ?_⟩
        have hu' := before_eq_some.mp hbefore'
        cases hbound : q.to_ with
        | none =>
          rw [hbound, Option.getD_none] at hu'
          change u'.micros ≤ t.micros ↔ _
          simp only [true_imp_iff, hu']
          omega
        | some to_ =>
          rw [hbound, Option.getD_some] at hbefore hbefore'
          rw [hbefore, Option.some.injEq] at hbefore'
          subst hbefore'
          exact iff_of_true ht fun _ hnone => by cases hnone

def turnRequest (parseUuid : List Char → Option Uuid) (db : TurnDb) (agent : AgentId) (limit : Nat)
    (clock : Nat → DateTime) (q : TurnsListQuery) (i : Nat) (cursor : Option (List Char)) :
    Except TurnsError (List TurnRow × Option (List Char)) :=
  (listAgentTurns parseUuid db agent limit (clock i) { q with cursor := cursor }).map fun r =>
    (r.items, r.nextCursor)

/-- The pages of a query are the list that its filter stands for at the first of them; cursors are
read back as they were meant; and every turn of the list opens. -/
structure TurnsTile (parseUuid : List Char → Option Uuid) (db : TurnDb) (agent : AgentId) (limit : Nat)
    (clock : Nat → DateTime) (q : TurnsListQuery) (f : TurnFilter) : Prop where
  pages : ∃ rows, Followed (turnRequest parseUuid db agent limit clock q) 0 none rows ∧
    Listed db agent f rows
  cursors : ∀ startedAt id,
    decodeTurnCursor parseUuid (encodeTurnCursor startedAt id) = .ok (startedAt, id)
  details : ∀ tm ∈ db.matching agent f, ∃ detail, db.readTurnDetail tm.id = .ok detail

section Walk

variable {parseUuid : List Char → Option Uuid} {db : TurnDb} {agent : AgentId} {limit : Nat}
  {clock : Nat → DateTime} {q : TurnsListQuery} {f : TurnFilter}

def TurnRow.token (row : TurnRow) : List Char := encodeTurnCursor row.startedAt row.id

theorem turnRequest_eq (hagent : agent ∈ db.agents) {i : Nat} {cursor : Option (List Char)}
    {at_ : Option (DateTime × TurnMetricsId)} {items : List TurnRow} (hf : q.filter (clock i) = .ok f)
    (hcursor : cursor.mapM (decodeTurnCursor parseUuid) = .ok at_)
    (hitems : db.fetchTurnRows agent f at_ limit = .ok items) :
    turnRequest parseUuid db agent limit clock q i cursor
      = .ok ((cut limit items).map id (Option.map TurnRow.token)) := by
  have hf' : TurnsListQuery.filter { q with cursor := cursor } (clock i) = .ok f := hf
  unfold turnRequest listAgentTurns
  rw [if_neg (not_not.mpr hagent), hf']
  simp only [hcursor, hitems, bind, Except.bind, pure, Except.pure, Except.map, cut]
  split_ifs
  · rfl
  · rfl

/-- A window that the query leaves open keeps the turns of the last 24 hours. -/
def stillShown (clock : Nat → DateTime) (q : TurnsListQuery) (i : Nat) (row : TurnRow) : Bool :=
  q.from_.isSome || q.to_.isSome || decide ((clock i).micros ≤ row.startedAt.micros + DAY)

theorem stillShown_iff {i : Nat} {row : TurnRow} : stillShown clock q i row ↔
    (q.from_ = none → q.to_ = none → (clock i).micros ≤ row.startedAt.micros + DAY) := by
  unfold stillShown
  cases q.from_ <;> cases q.to_ <;> simp

theorem listing_from {row : TurnRow} (h : row ∈ db.listing agent f) : f.from_ ≤ row.startedAt := by
  obtain ⟨j, hj, rfl⟩ := List.mem_map.mp h
  have hpass := (List.mem_filter.mp hj).2
  simp only [TurnFilter.passes, Bool.and_eq_true, decide_eq_true_eq] at hpass
  exact hpass.1.1.2

theorem turnRequest_pagesRest (huuid : ∀ u, parseUuid u.chars = some u) (hagent : agent ∈ db.agents)
    (hlimit : 0 < limit) (hclock : Monotone clock) (hf : q.filter (clock 0) = .ok f) :
    PagesRest limit TurnRow.token (db.listing agent f) (turnRequest parseUuid db agent limit clock q)
      (stillShown clock q) := by
  intro i hi
  obtain ⟨f', hf', hkind, hfrom, hto, hkept⟩ := filter_later (hclock (Nat.zero_le i)) hf
  have hfilter : ∀ l : List TurnRow, (∀ row ∈ l, row ∈ db.listing agent f) →
      l.filter (fun row => f'.from_ ≤ row.startedAt) = l.filter (stillShown clock q i) := by
    intro l hl
    refine List.filter_congr fun row hrow => ?_
    rw [Bool.eq_iff_iff, decide_eq_true_eq, stillShown_iff]
    exact hkept row.startedAt (listing_from (hl row hrow))
  cases i with
  | zero =>
    obtain rfl : f' = f := Except.ok.inj (hf'.symm.trans hf)
    rw [Nat.mul_zero, List.drop_zero, ← hfilter _ fun _ h => h]
    rw [List.filter_eq_self.mpr fun row hrow => by simpa using listing_from hrow]
    have hcursor : (none : Option (List Char)).mapM (decodeTurnCursor parseUuid) = .ok none := rfl
    exact turnRequest_eq hagent hf hcursor (fetch_first limit)
  | succ i =>
    have hpos : 0 < limit * (i + 1) := Nat.mul_pos hlimit i.succ_pos
    have hlt : limit * (i + 1) - 1 < (db.listing agent f).length := by omega
    have hx := List.getElem?_eq_getElem hlt
    have hrest := older_eq_drop (listing_newestFirst db agent f) hx
    rw [Nat.sub_add_cancel hpos] at hrest
    rw [cursorAt, hx, Option.map_some, ← hfilter _ fun _ h => List.mem_of_mem_drop h, ← hrest]
    refine turnRequest_eq hagent hf' ?_ (fetch_next (List.mem_of_getElem? hx) hkind hfrom hto limit)
    rw [Option.mapM_some, TurnRow.token, decode_encode_turnCursor huuid]
    rfl

theorem newer_eq {k : Nat} {j : JoinedTurn}
    (h : ((newestFirst db.joined).filter fun j => f.passes agent j.tm)[k]? = some j) :
    db.newer agent f j.tm = k := by
  have hrow : (db.listing agent f)[k]? = some j.row := by
    rw [TurnDb.listing, List.getElem?_map, h, Option.map_some]
  rw [← countP_newer (listing_newestFirst db agent f) hrow, TurnDb.newer,
    ← (map_tm_listing db agent f).countP_eq, TurnDb.listing, List.countP_map, List.countP_map]
  rfl

/-- The pages tile and every row opens exactly when no listed row is of a compaction and, where the
query leaves its window open, no row has left the last 24 hours when its page is read. -/
theorem turns_tile_iff (huuid : ∀ u, parseUuid u.chars = some u) (hagent : agent ∈ db.agents)
    (hlimit : 0 < limit) (hclock : Monotone clock) (hf : q.filter (clock 0) = .ok f) :
    TurnsTile parseUuid db agent limit clock q f ↔
      (∀ tm ∈ db.matching agent f, tm.kind ≠ MetricKind.compaction.asStr) ∧
      (q.from_ = none → q.to_ = none → ∀ tm ∈ db.matching agent f,
        (clock (db.newer agent f tm / limit)).micros ≤ tm.startedAt.micros + DAY) := by
  have hread := turnRequest_pagesRest huuid hagent hlimit hclock hf
  have hshrink : ∀ i j (row : TurnRow), i ≤ j → row ∈ db.listing agent f → stillShown clock q j row →
      stillShown clock q i row := by
    intro i j row hij _ h
    rw [stillShown_iff] at h ⊢
    have hmono : (clock i).micros ≤ (clock j).micros := hclock hij
    exact fun hfrom hto => hmono.trans (h hfrom hto)
  have hwalk := followed_iff hlimit hread hshrink
  have hmem : ∀ tm ∈ db.matching agent f, tm ∈ db.turns := fun tm htm => (List.mem_filter.mp htm).1
  constructor
  · rintro ⟨⟨rows, hfollowed, hlisted⟩, -, hdetails⟩
    obtain rfl := hlisted.eq_listing
    refine ⟨fun tm htm => (readTurnDetail_iff (hmem tm htm)).mp (hdetails tm htm), ?_⟩
    intro hfrom hto tm htm
    obtain ⟨j, hj, rfl⟩ := List.mem_map.mp ((map_tm_listing db agent f).mem_iff.mpr htm)
    obtain ⟨k, hk⟩ := List.mem_iff_getElem?.mp hj
    rw [newer_eq hk]
    have hrow : (db.listing agent f)[k]? = some j.row := by
      rw [TurnDb.listing, List.getElem?_map, hk, Option.map_some]
    exact stillShown_iff.mp (hwalk.mp hfollowed k j.row hrow) hfrom hto
  · rintro ⟨hkinds, hstill⟩
    refine ⟨⟨db.listing agent f, hwalk.mpr ?_, listed_listing db agent f⟩,
      decode_encode_turnCursor huuid, ?_⟩
    · intro k row hrow
      rw [TurnDb.listing, List.getElem?_map] at hrow
      obtain ⟨j, hk, rfl⟩ := Option.map_eq_some_iff.mp hrow
      refine stillShown_iff.mpr fun hfrom hto => ?_
      rw [← newer_eq hk]
      refine hstill hfrom hto j.tm ((map_tm_listing db agent f).mem_iff.mp ?_)
      exact List.mem_map_of_mem (List.mem_of_getElem? hk)
    · exact fun tm htm => (readTurnDetail_iff (hmem tm htm)).mpr (hkinds tm htm)

end Walk

def noon : DateTime := ⟨1730000000000000, by decide, by decide⟩

def afternoon : DateTime := ⟨1730000060000000, by decide, by decide⟩

def dayBefore : DateTime := ⟨1729913660000000, by decide, by decide⟩

def atNoon (id : TurnMetricsId) (kind : String)
    (h : kind ∈ ["normal", "reflection", "resolution", "compaction"]) : TurnMetrics :=
  ⟨id, 5, 8, 7, 6, kind, "m", "anthropic", 20, 4, none, none, 900, "end_turn", noon, noon, h⟩

def replyOf (kind : String) (h : kind ∈ ["normal", "reflection", "resolution", "compaction"]) :
    TurnDb where
  agents := [7]
  turns := ⟨[atNoon 30 kind h, atNoon 31 "normal" (by decide)], List.nodup_cons.mpr
    ⟨(by decide : ¬ (30 : TurnMetricsId) ∈ [31]), List.nodup_singleton _⟩⟩
  requests := Table.single ⟨5, 5, none, "done", none⟩
  versions := Table.single ⟨6, 3, "p", none, noon⟩
  messages := []
  toolCalls := []
  memoryEvents := []
  requestFk := fun tm htm => by
    obtain rfl | htm := List.mem_cons.mp htm
    · exact ⟨_, rfl⟩
    · obtain rfl := List.mem_singleton.mp htm
      exact ⟨_, rfl⟩
  versionFk := fun tm htm => by
    obtain rfl | htm := List.mem_cons.mp htm
    · exact ⟨_, rfl⟩
    · obtain rfl := List.mem_singleton.mp htm
      exact ⟨_, rfl⟩

/-- A compaction of the agent is listed and does not open. -/
theorem compaction_does_not_open :
    ¬ TurnsTile Mcp.parseHyphenated (replyOf "compaction" (by decide)) 7 MAX_TURN_LIST_PAGE_SIZE
      (fun _ => afternoon) ⟨some dayBefore, some afternoon, none, none⟩ ⟨none, dayBefore, afternoon⟩ := by
  intro h
  obtain ⟨detail, hdetail⟩ := h.details (atNoon 30 "compaction" (by decide)) (by decide)
  have hfails : (replyOf "compaction" (by decide)).readTurnDetail 30
      = .error (.unknownLabel "RequestKind" "compaction") := rfl
  cases hfails.symm.trans hdetail

theorem reply_tiles : TurnsTile Mcp.parseHyphenated (replyOf "normal" (by decide)) 7 1
    (fun _ => afternoon) ⟨none, none, none, none⟩ ⟨none, dayBefore, afternoon⟩ :=
  (turns_tile_iff Mcp.documented_crates64.parse_display (by decide) (by decide) monotone_const rfl).mpr
    ⟨by decide, by decide⟩

end Patom.Http
