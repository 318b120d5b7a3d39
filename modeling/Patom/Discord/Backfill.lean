import Patom.Discord.BridgeLaws
import Patom.Foundation.Paging

open Patom.Foundation
open Patom.Foundation.Attempt
open Patom.Runtime (IdempotencyKey)

namespace Patom.Discord

def DiscordUserId.value (id : DiscordUserId) : Nat := decimal id.asStr.toList

structure HistoryEntry where
  id : DiscordMessageId
  message : Option InboundMessage
  parsed : ∀ m ∈ message, m.messageId = id

structure History where
  entries : List HistoryEntry
  newestFirst : NewestFirst (fun e : HistoryEntry => e.id.value) entries

def History.before (h : History) (anchor : DiscordMessageId) : List HistoryEntry :=
  older (fun e => e.id.value) h.entries anchor.value

def Reads (d : BridgeDeps) (channel : ContainerId) (h : History) : Prop :=
  ∀ before limit, d.page channel before limit = ((h.before before).take limit).map (·.message)

def isPerson (m : InboundMessage) : Bool := !(m.author.bot || m.webhookId.isSome)

def wanted (h : History) (anchor : DiscordMessageId) : List InboundMessage :=
  ((((h.before anchor).take DISCORD_BACKFILL_MAX_MESSAGES).filterMap (·.message)).filter
    isPerson).reverse

section Holds

variable (d : BridgeDeps) (guild : GuildId) (h : History)

def messageKey (id : DiscordMessageId) : OrgId × IdempotencyKey :=
  (d.app.orgId, messageIdempotencyKey d.app guild id)

def historyKeys : List (OrgId × IdempotencyKey) := h.entries.map fun e => messageKey d guild e.id

def posts (keys : List (OrgId × IdempotencyKey)) (s : BridgeSt) :
    List ((OrgId × IdempotencyKey) × ThreadId) :=
  (s.feed.rows.filter (key · ∈ keys)).map fun r => (key r, r.threadId)

/-- The history is mirrored by the messages `X`, in this order, and all in one thread. -/
def Holds (thread : ThreadId) (X : List DiscordMessageId) (s : BridgeSt) : Prop :=
  posts (historyKeys d guild h) s = X.map fun id => (messageKey d guild id, thread)

variable {d guild h}

theorem messageKey_inj {id id' : DiscordMessageId}
    (e : messageKey d guild id = messageKey d guild id') : id = id' := by
  have hkey := congrArg IdempotencyKey.asStr (Prod.mk.inj e).2
  have hlist := congrArg String.toList hkey
  simp only [messageIdempotencyKey, String.toList_append] at hlist
  exact DiscordUserId.ext (String.toList_injective (List.append_cancel_left hlist))

theorem Holds.mem {thread : ThreadId} {X : List DiscordMessageId} {s : BridgeSt}
    (hX : Holds d guild h thread X s) {id : DiscordMessageId}
    (hid : messageKey d guild id ∈ historyKeys d guild h) :
    (s.feed.find? (messageKey d guild id)).isSome ↔ id ∈ X := by
  constructor
  · intro hfound
    obtain ⟨r, hr⟩ := Option.isSome_iff_exists.mp hfound
    have hkey := Table.key_of_find? hr
    have hmem : (key r, r.threadId) ∈ posts (historyKeys d guild h) s :=
      List.mem_map.mpr ⟨r, List.mem_filter.mpr ⟨Table.mem_of_find? hr, by
        rw [hkey]
        exact decide_eq_true hid⟩, rfl⟩
    rw [hX] at hmem
    obtain ⟨id', hid', e⟩ := List.mem_map.mp hmem
    rw [hkey] at e
    exact messageKey_inj (Prod.mk.inj e).1 ▸ hid'
  · intro hmem
    have hpost : (messageKey d guild id, thread) ∈ posts (historyKeys d guild h) s := by
      rw [hX]
      exact List.mem_map.mpr ⟨id, hmem, rfl⟩
    obtain ⟨r, hr, e⟩ := List.mem_map.mp hpost
    have hr' := (List.mem_filter.mp hr).1
    rw [← (Prod.mk.inj e).1, Table.find?_of_mem hr']
    rfl

theorem appendMirrored_found {m : InboundMessage} {s : BridgeSt} {r : FeedRow}
    (hr : s.feed.find? (messageKey d guild m.messageId) = some r) (thread : ThreadId)
    (sender : ColleagueId) (receiver : Option ColleagueId) :
    (appendMirrored d guild thread sender receiver m s).2 = s := by
  simp only [appendMirrored]
  rw [Table.getOrAdd_found hr]

theorem appendMirrored_new {m : InboundMessage} {s : BridgeSt}
    (hnone : s.feed.find? (messageKey d guild m.messageId) = none) (thread : ThreadId)
    (sender : ColleagueId) (receiver : Option ColleagueId) :
    ∃ r : FeedRow, key r = messageKey d guild m.messageId ∧ r.threadId = thread ∧
      (appendMirrored d guild thread sender receiver m s).2.feed.rows = s.feed.rows ++ [r] := by
  refine ⟨⟨d.app.orgId, messageIdempotencyKey d.app guild m.messageId,
    d.mint .message s.feed.rows.length, thread, sender, receiver, d.render m⟩, rfl, rfl, ?_⟩
  have hkey : s.feed.find? (key (FeedRow.mk d.app.orgId
    (messageIdempotencyKey d.app guild m.messageId) (d.mint .message s.feed.rows.length) thread
    sender receiver (d.render m))) = none := hnone
  simp only [appendMirrored, Table.getOrAdd, hkey, Table.rows_put hkey]

theorem Holds.append {thread : ThreadId} {X : List DiscordMessageId} {s : BridgeSt}
    (hX : Holds d guild h thread X s) {m : InboundMessage}
    (hid : messageKey d guild m.messageId ∈ historyKeys d guild h) (sender : ColleagueId)
    (receiver : Option ColleagueId) : Holds d guild h thread (catchUp X [m.messageId])
      (appendMirrored d guild thread sender receiver m s).2 := by
  have hmem := hX.mem hid
  rw [catchUp, List.foldl_cons, List.foldl_nil]
  cases hfind : s.feed.find? (messageKey d guild m.messageId) with
  | some r =>
    rw [if_pos (hmem.mp (Option.isSome_of_eq_some hfind)), appendMirrored_found hfind]
    exact hX
  | none =>
    obtain ⟨r, hkey, hthread, hrows⟩ := appendMirrored_new hfind thread sender receiver
    rw [if_neg fun hm => by simpa [hfind] using hmem.mpr hm, Holds, posts, hrows,
      List.filter_append, List.map_append, List.filter_cons_of_pos
      (by rw [hkey]; exact decide_eq_true hid), List.filter_nil, List.map_cons, List.map_nil, hkey,
      hthread, List.map_append, List.map_cons, List.map_nil]
    exact congrArg (· ++ [(messageKey d guild m.messageId, thread)]) hX

theorem posts_append {keys : List (OrgId × IdempotencyKey)} {m : InboundMessage}
    (hid : messageKey d guild m.messageId ∉ keys) (s : BridgeSt) (thread : ThreadId)
    (sender : ColleagueId) (receiver : Option ColleagueId) :
    posts keys (appendMirrored d guild thread sender receiver m s).2 = posts keys s := by
  cases hfind : s.feed.find? (messageKey d guild m.messageId) with
  | some r => rw [appendMirrored_found hfind]
  | none =>
    obtain ⟨r, hkey, -, hrows⟩ := appendMirrored_new hfind thread sender receiver
    rw [posts, hrows, List.filter_append, List.filter_cons_of_neg
      (by rw [hkey]; simpa using hid), List.filter_nil, List.append_nil]
    rfl

theorem Holds.congr {thread : ThreadId} {X : List DiscordMessageId} {s t : BridgeSt}
    (hX : Holds d guild h thread X s) (e : t.feed = s.feed) : Holds d guild h thread X t := by
  unfold Holds posts at hX ⊢
  rw [e, hX]

end Holds

section Mirror

variable {d : BridgeDeps} {guild : GuildId} {h : History} {thread : ThreadId}

def personIds (ms : List InboundMessage) : List DiscordMessageId :=
  (ms.filter isPerson).map (·.messageId)

def Mirrors (d : BridgeDeps) (guild : GuildId) (h : History) (thread : ThreadId)
    (ids : List DiscordMessageId) (p : Bridge Unit) : Prop :=
  ∀ w s X, Holds d guild h thread X s → ∃ pre, pre <+: ids ∧
    Holds d guild h thread (catchUp X pre) (p w s).2 ∧
    ((p w s).1 = .ok () → pre = ids) ∧ (p w s).2.bindings = s.bindings

theorem Mirrors.nil : Mirrors d guild h thread [] (pure ()) :=
  fun _ _ _ hX => ⟨[], List.prefix_rfl, hX, fun _ => rfl, rfl⟩

theorem Mirrors.append {ids ids' : List DiscordMessageId} {p q : Bridge Unit}
    (hp : Mirrors d guild h thread ids p) (hq : Mirrors d guild h thread ids' q) :
    Mirrors d guild h thread (ids ++ ids') (p >>= fun _ => q) := by
  intro w s X hX
  obtain ⟨pre, hpre, hholds, hall, hkept⟩ := hp w s X hX
  rw [bind_run]
  split
  case h_2 e t hrun =>
    rw [hrun] at hholds hkept
    exact ⟨pre, hpre.trans (List.prefix_append _ _), hholds, (fun h => by cases h), hkept⟩
  case h_1 t hrun =>
    rw [hrun] at hholds hkept hall
    obtain ⟨pre', hpre', hholds', hall', hkept'⟩ := hq w t _ hholds
    cases hall rfl
    refine ⟨ids ++ pre', (List.prefix_append_right_inj _).mpr hpre', ?_, fun h => by rw [hall' h],
      hkept'.trans hkept⟩
    rwa [catchUp, List.foldl_append]

theorem Mirrors.aside {α : Type} {ids : List DiscordMessageId} {site : Site}
    {op : BridgeSt → α × BridgeSt} {k : α → Bridge Unit}
    (hop : ∀ s, (op s).2.feed = s.feed ∧ (op s).2.bindings = s.bindings)
    (hk : ∀ a, Mirrors d guild h thread ids (k a)) :
    Mirrors d guild h thread ids (exec site op >>= k) := by
  intro w s X hX
  have hrest : (exec site op w s).2.feed = s.feed ∧ (exec site op w s).2.bindings = s.bindings := by
    obtain e | e := exec_state site op w s <;> rw [e]
    · exact ⟨rfl, rfl⟩
    · exact hop s
  rw [bind_run]
  split
  case h_2 e t hrun =>
    rw [hrun] at hrest
    exact ⟨[], List.nil_prefix, hX.congr hrest.1, (fun h => by cases h), hrest.2⟩
  case h_1 a t hrun =>
    rw [hrun] at hrest
    obtain ⟨pre, hpre, hholds, hall, hkept⟩ := hk a w t X (hX.congr hrest.1)
    exact ⟨pre, hpre, hholds, hall, hkept.trans hrest.2⟩

theorem Mirrors.row {m : InboundMessage}
    (hid : messageKey d guild m.messageId ∈ historyKeys d guild h) (i : Nat) {sender : ColleagueId}
    {receiver : Option ColleagueId} : Mirrors d guild h thread [m.messageId] (do
      let _ ← exec (.row i) (appendMirrored d guild thread sender receiver m)
      pure ()) := by
  intro w s X hX
  have happend := hX.append hid sender receiver
  rw [bind_run]
  split
  case h_1 a t hrun =>
    obtain ⟨-, rfl⟩ := exec_ok hrun
    exact ⟨[m.messageId], List.prefix_rfl, happend, fun _ => rfl, rfl⟩
  case h_2 e t hrun =>
    obtain e' | e' := exec_state (.row i) (appendMirrored d guild thread sender receiver m) w s <;>
      rw [hrun] at e' <;> cases e'
    · exact ⟨[], List.nil_prefix, hX, (fun h => by cases h), rfl⟩
    · exact ⟨[m.messageId], List.prefix_rfl, happend, (fun h => by cases h), rfl⟩

theorem mirrorBackfilled_mirrors {m : InboundMessage}
    (hid : messageKey d guild m.messageId ∈ historyKeys d guild h) (i : Nat) :
    Mirrors d guild h thread (personIds [m]) (mirrorBackfilled d guild thread i m) := by
  unfold mirrorBackfilled
  split
  case isTrue hbot =>
    have hnone : personIds [m] = [] := by simp [personIds, isPerson, hbot]
    rw [hnone]
    exact .nil
  case isFalse hperson =>
    have hone : personIds [m] = [m.messageId] := by
      simp [personIds, isPerson, Bool.eq_false_of_not_eq_true hperson]
    rw [hone]
    refine .aside (fun s => ⟨rfl, rfl⟩) fun shadow => .aside (fun s => ?_) fun _ => .row hid i
    exact ⟨(ensureChannel_rest d _ _ _ s).2.2, (ensureChannel_rest d _ _ _ s).1⟩

theorem eachFrom_mirrors {ms : List InboundMessage}
    (hid : ∀ m ∈ ms, messageKey d guild m.messageId ∈ historyKeys d guild h) (i : Nat) :
    Mirrors d guild h thread (personIds ms) (eachFrom (mirrorBackfilled d guild thread) i ms) := by
  induction ms generalizing i with
  | nil => exact .nil
  | cons m ms ih =>
    have hsplit : personIds (m :: ms) = personIds [m] ++ personIds ms := by
      rw [personIds, personIds, personIds, ← List.map_append, ← List.filter_append]
      rfl
    rw [hsplit]
    exact (mirrorBackfilled_mirrors (hid m List.mem_cons_self) i).append
      (ih (fun m hm => hid m (List.mem_cons_of_mem _ hm)) (i + 1))

end Mirror

section Fetch

variable {d : BridgeDeps} {channel : ContainerId} {h : History}

theorem Reads.page (hd : Reads d channel h) (cursor : DiscordMessageId) (limit : Nat) :
    parseHistoryPage (d.page channel cursor limit) =
      ((h.before cursor).take limit).filterMap (·.message) := by
  rw [parseHistoryPage, hd, List.filterMap_map]
  rfl

theorem before_next {cursor : DiscordMessageId} {n : Nat}
    (hfull : (((h.before cursor).take (n + 1)).filterMap (·.message)).length = n + 1) :
    h.before (((((h.before cursor).take (n + 1)).filterMap (·.message)).getLast?.map
      (·.messageId)).getD cursor) = (h.before cursor).drop (n + 1) := by
  have hle := List.length_filterMap_le (·.message) ((h.before cursor).take (n + 1))
  have htake : ((h.before cursor).take (n + 1)).length = n + 1 := by
    have := List.length_take_le (n + 1) (h.before cursor)
    omega
  have hlt : n < (h.before cursor).length := by
    rw [List.length_take] at htake
    omega
  have hlast : ((h.before cursor).take (n + 1)).getLast? = some (h.before cursor)[n] := by
    rw [List.getLast?_eq_getElem?, htake, Nat.add_sub_cancel, List.getElem?_take_of_lt (by omega),
      List.getElem?_eq_getElem hlt]
  have hmessage : (((h.before cursor).take (n + 1)).filterMap (·.message)).getLast? =
      (h.before cursor)[n].message := by
    rw [getLast?_filterMap (hfull.trans htake.symm), hlast, Option.bind_some]
  cases hm : (h.before cursor)[n].message with
  | none =>
    rw [hm, List.getLast?_eq_none_iff] at hmessage
    rw [hmessage] at hfull
    cases hfull
  | some m =>
    have hid := (h.before cursor)[n].parsed m hm
    rw [hmessage, hm, Option.map_some, Option.getD_some, hid]
    exact older_page h.newestFirst (List.getElem?_eq_getElem hlt)

theorem fetchPages_run (hd : Reads d channel h) (w : Weather Site) (s : BridgeSt) (fuel i : Nat)
    (cursor : DiscordMessageId) (collected : List InboundMessage) :
    fetchPages d channel fuel i cursor collected w s =
        (.ok (gather (·.message) DISCORD_BACKFILL_PAGE_SIZE DISCORD_BACKFILL_MAX_MESSAGES fuel
          (h.before cursor) collected), s) ∨
      ∃ e, fetchPages d channel fuel i cursor collected w s = (.error e, s) := by
  induction fuel generalizing i cursor collected with
  | zero => exact .inl rfl
  | succ fuel ih =>
    unfold fetchPages gather
    split
    case isTrue => exact .inl rfl
    case isFalse =>
      cases hw : w (.fetch i) with
      | some f =>
        obtain ⟨e, he⟩ := read_stopped hw (fun _ : BridgeSt =>
          parseHistoryPage (d.page channel cursor DISCORD_BACKFILL_PAGE_SIZE)) s
        exact .inr ⟨e, bind_error he⟩
      | none =>
        have hpage : exec (.fetch i) (fun s => (parseHistoryPage
            (d.page channel cursor DISCORD_BACKFILL_PAGE_SIZE), s)) w s = (.ok
              (((h.before cursor).take DISCORD_BACKFILL_PAGE_SIZE).filterMap (·.message)), s) := by
          rw [exec_none hw, hd.page]
        rw [bind_ok hpage]
        split
        case isTrue => exact .inl rfl
        case isFalse hshort =>
          have hle := List.length_filterMap_le (·.message)
            ((h.before cursor).take DISCORD_BACKFILL_PAGE_SIZE)
          have hfull : (((h.before cursor).take DISCORD_BACKFILL_PAGE_SIZE).filterMap
              (·.message)).length = DISCORD_BACKFILL_PAGE_SIZE :=
            le_antisymm (hle.trans (List.length_take_le _ _)) (not_lt.mp hshort)
          have hnext : h.before ((((h.before cursor).take DISCORD_BACKFILL_PAGE_SIZE).filterMap
              (·.message)).getLast?.map (·.messageId) |>.getD cursor) =
                (h.before cursor).drop DISCORD_BACKFILL_PAGE_SIZE := before_next hfull
          rw [← hnext]
          exact ih _ _ _

end Fetch

section Attempt

variable {d : BridgeDeps} {guild : GuildId} {channel : ContainerId} {h : History}
  {thread : ThreadId} {before : DiscordMessageId}

/-- No page of a backfill drops an entry where, beyond it, there is something to mirror. -/
abbrev Undropped (h : History) (before : DiscordMessageId) : Prop :=
  Unbroken (·.message) DISCORD_BACKFILL_PAGE_SIZE DISCORD_BACKFILL_MAX_MESSAGES isPerson
    (h.before before)

def wantedIds (h : History) (before : DiscordMessageId) : List DiscordMessageId :=
  (wanted h before).map (·.messageId)

theorem personIds_gathered (hun : Undropped h before) : personIds ((gather (·.message)
    DISCORD_BACKFILL_PAGE_SIZE DISCORD_BACKFILL_MAX_MESSAGES DISCORD_BACKFILL_MAX_PAGES
    (h.before before) []).take DISCORD_BACKFILL_MAX_MESSAGES).reverse = wantedIds h before := by
  have hwanted : List.filter isPerson ((gather (·.message) DISCORD_BACKFILL_PAGE_SIZE
      DISCORD_BACKFILL_MAX_MESSAGES DISCORD_BACKFILL_MAX_PAGES (h.before before) []).take
        DISCORD_BACKFILL_MAX_MESSAGES) = List.filter isPerson ([] ++ ((h.before before).take
          DISCORD_BACKFILL_MAX_MESSAGES).filterMap (·.message)) :=
    gather_wanted (m := 10) (by decide) rfl (by decide) hun
  rw [personIds, List.filter_reverse, hwanted, List.nil_append]
  rfl

theorem backfillChannel_mirrors (hd : Reads d channel h) (hun : Undropped h before) :
    Mirrors d guild h thread (wantedIds h before)
      (backfillChannel d guild channel thread before) := by
  intro w s X hX
  unfold backfillChannel
  obtain hrun | ⟨e, hrun⟩ := fetchPages_run hd w s DISCORD_BACKFILL_MAX_PAGES 0 before []
  · rw [bind_ok hrun, ← personIds_gathered hun]
    refine eachFrom_mirrors (fun m hm => ?_) 0 w s X hX
    obtain hm | ⟨x, hx, hxm⟩ := mem_gather (List.mem_of_mem_take (List.mem_reverse.mp hm))
    · cases hm
    · exact List.mem_map.mpr ⟨x, List.mem_of_mem_filter hx, by rw [x.parsed m hxm]⟩
  · rw [bind_error hrun]
    exact ⟨[], List.nil_prefix, hX, (fun h => by cases h), rfl⟩

theorem maybeBackfill_mirrors (hd : Reads d channel h) (hun : Undropped h before)
    (w : Weather Site) {s : BridgeSt} {X : List DiscordMessageId}
    (hX : Holds d guild h thread X s) : ∃ pre, pre <+: wantedIds h before ∧
      Holds d guild h thread (catchUp X pre)
        (maybeBackfill d guild channel thread before w s).2 ∧
      ((maybeBackfill d guild channel thread before w s).2.bindings = s.bindings ∨
        pre = wantedIds h before ∧
          (maybeBackfill d guild channel thread before w s).2.bindings =
            (markBackfilled d guild channel s).2.bindings) := by
  obtain ⟨pre, hpre, hholds, hall, hkept⟩ :=
    backfillChannel_mirrors hd hun w s X hX
  refine ⟨pre, hpre, ?_⟩
  unfold maybeBackfill
  rw [recover_state]
  cases hrun : backfillChannel d guild channel thread before w s with
  | mk r t =>
    rw [hrun] at hholds hall hkept
    cases r with
    | error e =>
      rw [bind_error hrun]
      exact ⟨hholds, .inl hkept⟩
    | ok a =>
      rw [bind_ok hrun]
      obtain e | e := exec_state Site.mark (markBackfilled d guild channel) w t
      · rw [e]
        exact ⟨hholds, .inl hkept⟩
      · rw [e]
        refine ⟨hholds.congr rfl, .inr ⟨hall rfl, ?_⟩⟩
        simp only [markBackfilled]
        rw [show t.bindings = s.bindings from hkept]

end Attempt

end Patom.Discord
