import Patom.Discord.Backfill
import Patom.Foundation.Transition

open Patom.Foundation
open Patom.Foundation.Attempt
open Patom.Runtime (IdempotencyKey)

namespace Patom.Discord

section Wanted

variable {h : History} {before before' : DiscordMessageId}

theorem wanted_iff {m : InboundMessage} : m ∈ wanted h before ↔
    (∃ e ∈ (h.before before).take DISCORD_BACKFILL_MAX_MESSAGES, e.message = some m) ∧
      isPerson m := by
  rw [wanted, List.mem_reverse, List.mem_filter, List.mem_filterMap]

theorem wantedIds_iff {id : DiscordMessageId} : id ∈ wantedIds h before ↔
    ∃ e ∈ (h.before before).take DISCORD_BACKFILL_MAX_MESSAGES, e.id = id ∧
      ∃ m, e.message = some m ∧ isPerson m := by
  rw [wantedIds, List.mem_map]
  constructor
  · rintro ⟨m, hm, rfl⟩
    obtain ⟨⟨e, he, hem⟩, hperson⟩ := wanted_iff.mp hm
    exact ⟨e, he, (e.parsed m hem).symm, m, hem, hperson⟩
  · rintro ⟨e, he, rfl, m, hem, hperson⟩
    exact ⟨m, wanted_iff.mpr ⟨⟨e, he, hem⟩, hperson⟩, e.parsed m hem⟩

theorem History.mem_of_before {e : HistoryEntry} (he : e ∈ h.before before) : e ∈ h.entries :=
  (List.mem_filter.mp he).1

theorem wantedIds_lt {id : DiscordMessageId} (hid : id ∈ wantedIds h before) :
    id.value < before.value := by
  obtain ⟨e, he, rfl, -⟩ := wantedIds_iff.mp hid
  simpa using (List.mem_filter.mp (List.mem_of_mem_take he)).2

theorem wantedIds_key {id : DiscordMessageId} (d : BridgeDeps) (guild : GuildId)
    (hid : id ∈ wantedIds h before) : messageKey d guild id ∈ historyKeys d guild h := by
  obtain ⟨e, he, rfl, -⟩ := wantedIds_iff.mp hid
  exact List.mem_map.mpr ⟨e, List.mem_of_mem_filter (List.mem_of_mem_take he), rfl⟩

theorem wantedIds_earlier (hle : before'.value ≤ before.value) {id : DiscordMessageId}
    (hid : id ∈ wantedIds h before) (hlt : id.value < before'.value) :
    id ∈ wantedIds h before' := by
  obtain ⟨e, he, rfl, hm⟩ := wantedIds_iff.mp hid
  exact wantedIds_iff.mpr ⟨e, mem_take_older h.newestFirst hle he hlt, rfl, hm⟩

abbrev Chronological (ids : List DiscordMessageId) : Prop :=
  ids.Pairwise fun x y => x.value < y.value

theorem Chronological.nodup {ids : List DiscordMessageId} (hids : Chronological ids) :
    ids.Nodup := by
  refine hids.imp fun {x y} hlt e => ?_
  subst e
  exact hlt.false

theorem wantedIds_chronological (h : History) (before : DiscordMessageId) :
    Chronological (wantedIds h before) := by
  rw [Chronological, wantedIds, wanted, List.pairwise_map, List.pairwise_reverse]
  refine List.Pairwise.sublist List.filter_sublist (List.Pairwise.filterMap _ ?_
    ((older_newestFirst h.newestFirst before.value).sublist (List.take_sublist _ _)))
  intro e e' hlt m hm m' hm'
  rw [e.parsed m hm, e'.parsed m' hm']
  exact hlt

theorem History.id_of_value {h : History} {e e' : HistoryEntry} (he : e ∈ h.entries)
    (he' : e' ∈ h.entries) (hv : e.id.value = e'.id.value) : e = e' := by
  have hinj := h.newestFirst.imp (S := fun x y : HistoryEntry => x.id.value = y.id.value → x = y)
    fun {x y} hlt hxy => absurd hxy.symm hlt.ne
  have hflip := h.newestFirst.imp
    (S := flip fun x y : HistoryEntry => x.id.value = y.id.value → x = y)
    fun {x y} hlt hxy => absurd hxy hlt.ne
  exact hinj.forall_of_forall_of_flip (fun _ _ _ => rfl) hflip he he' hv

end Wanted

section Posts

variable {d : BridgeDeps} {guild : GuildId} {h : History} {thread : ThreadId}
  {X : List DiscordMessageId} {s : BridgeSt}

theorem Holds.known (hX : Holds d guild h thread X s) {id : DiscordMessageId} (hid : id ∈ X) :
    ∃ e ∈ h.entries, e.id = id := by
  have hpost : (messageKey d guild id, thread) ∈ posts (historyKeys d guild h) s := by
    rw [hX]
    exact List.mem_map.mpr ⟨id, hid, rfl⟩
  obtain ⟨r, hr, e⟩ := List.mem_map.mp hpost
  have hkey := of_decide_eq_true (List.mem_filter.mp hr).2
  rw [(Prod.mk.inj e).1] at hkey
  obtain ⟨x, hx, hxe⟩ := List.mem_map.mp hkey
  exact ⟨x, hx, messageKey_inj hxe⟩

theorem Holds.posts_filter (hX : Holds d guild h thread X s) {ids : List DiscordMessageId}
    (hids : ∀ id ∈ ids, messageKey d guild id ∈ historyKeys d guild h) :
    posts (ids.map (messageKey d guild)) s =
      (X.filter (· ∈ ids)).map fun id => (messageKey d guild id, thread) := by
  have hfilter : posts (ids.map (messageKey d guild)) s =
      (posts (historyKeys d guild h) s).filter fun p => p.1 ∈ ids.map (messageKey d guild) := by
    rw [posts, posts, List.filter_map, List.filter_filter]
    refine congrArg _ (List.filter_congr fun r _ => ?_)
    rw [Bool.eq_iff_iff]
    simp only [Bool.and_eq_true, decide_eq_true_iff, Function.comp_apply]
    refine ⟨fun hr => ⟨hr, ?_⟩, And.left⟩
    obtain ⟨id, hid, e⟩ := List.mem_map.mp hr
    exact e ▸ hids id hid
  rw [hfilter, hX, List.filter_map]
  refine congrArg _ (List.filter_congr fun id _ => decide_eq_decide.mpr ?_)
  exact List.mem_map_of_injective fun _ _ => messageKey_inj

theorem posts_found {keys : List (OrgId × IdempotencyKey)} {k : OrgId × IdempotencyKey}
    (hk : (k, thread) ∈ posts keys s) : (s.feed.find? k).isSome := by
  obtain ⟨r, hr, e⟩ := List.mem_map.mp hk
  rw [← (Prod.mk.inj e).1, Table.find?_of_mem (List.mem_filter.mp hr).1]
  rfl

end Posts

section Runs

structure BackfillSt where
  bridge : BridgeSt
  anchors : List DiscordMessageId
  done : Option DiscordMessageId

inductive BackfillAct
  | bind (conv : Conversation) (thread : ThreadId)
  | attempt (before : DiscordMessageId) (w : Weather Site)
  | append (guild : GuildId) (thread : ThreadId) (sender : ColleagueId)
      (receiver : Option ColleagueId) (m : InboundMessage)

variable (d : BridgeDeps) (guild : GuildId) (channel : ContainerId) (h : History)

def recorded (s : BridgeSt) : Bool := (lookupByContainer d guild channel s).any (·.backfillComplete)

def backfillStep : Step BackfillSt BackfillAct
  | s, .bind conv thread => some { s with bridge := (bindThread d guild conv thread s.bridge).2 }
  | s, .attempt before w =>
    match lookupByContainer d guild channel s.bridge with
    | none => none
    | some b =>
      if b.backfillComplete then none
      else
        let t := (maybeBackfill d guild channel b.patomThreadId before w s.bridge).2
        some ⟨t, before :: s.anchors, if recorded d guild channel t then some before else none⟩
  | s, .append guild' thread sender receiver m =>
    some { s with bridge := (appendMirrored d guild' thread sender receiver m s.bridge).2 }

def Complete (s : BackfillSt) : Prop :=
  ∀ b ∈ lookupByContainer d guild channel s.bridge, b.backfillComplete → ∃ before ∈ s.done,
    posts ((wantedIds h before).map (messageKey d guild)) s.bridge =
      (wantedIds h before).map fun id => (messageKey d guild id, b.patomThreadId)

/-- No page drops an entry that more to mirror follows, the anchors do not go back, and until the
backfill is done nothing else mirrors the history. -/
def Undisturbed (s : BackfillSt) : BackfillAct → Prop
  | .bind _ _ => True
  | .attempt before _ => Undropped h before ∧ ∀ a ∈ s.anchors, a.value ≤ before.value
  | .append guild' _ _ _ m => recorded d guild channel s.bridge ∨
      messageKey d guild' m.messageId ∉ historyKeys d guild h

structure Begun (thread : ThreadId) (X : List DiscordMessageId) (s : BackfillSt) : Prop where
  holds : Holds d guild h thread X s.bridge
  chronological : Chronological X
  closed : ∀ before, (∀ a ∈ s.anchors, a.value ≤ before.value) → ∀ y ∈ wantedIds h before,
    ∀ x ∈ X, y.value < x.value → y ∈ X

variable {d guild channel h} {thread : ThreadId}

theorem Begun.catchUp {X pre : List DiscordMessageId} {s : BackfillSt}
    {before : DiscordMessageId} {t : BridgeSt} (hX : Begun d guild h thread X s)
    (hanchors : ∀ a ∈ s.anchors, a.value ≤ before.value) (hpre : pre <+: wantedIds h before)
    (ht : Holds d guild h thread (catchUp X pre) t) (done : Option DiscordMessageId) :
    Begun d guild h thread (Foundation.catchUp X pre) ⟨t, before :: s.anchors, done⟩ where
  holds := ht
  chronological := by
    have hwanted := wantedIds_chronological h before
    have hchron : Chronological pre := hwanted.sublist hpre.sublist
    refine catchUp_pairwise hchron.nodup hX.chronological hchron fun y hy x hx hnot => ?_
    have hy := hpre.subset hy
    obtain ⟨e, he, rfl⟩ := hX.holds.known hx
    obtain ⟨e', he', rfl, -⟩ := wantedIds_iff.mp hy
    have hmem : e' ∈ h.entries := List.mem_of_mem_filter (List.mem_of_mem_take he')
    obtain hlt | heq | hgt := lt_trichotomy e.id.value e'.id.value
    · exact hlt
    · exact absurd (History.id_of_value he hmem heq ▸ hx) hnot
    · exact absurd (hX.closed before hanchors _ hy _ hx hgt) hnot
  closed before' hanchors' y hy x hx hlt := by
    have hle : before.value ≤ before'.value := hanchors' before List.mem_cons_self
    obtain hx | hx := mem_catchUp.mp hx
    · exact mem_catchUp.mpr (.inl (hX.closed before'
        (fun a ha => hanchors' a (List.mem_cons_of_mem _ ha)) y hy x hx hlt))
    · have hxw := hpre.subset hx
      have hyw := wantedIds_earlier hle hy (hlt.trans (wantedIds_lt hxw))
      obtain ⟨rest, hrest⟩ := hpre
      have hwanted := wantedIds_chronological h before
      rw [← hrest] at hyw hwanted
      obtain hyp | hyr := List.mem_append.mp hyw
      · exact mem_catchUp.mpr (.inr hyp)
      · exact absurd ((List.pairwise_append.mp hwanted).2.2 x hx y hyr) hlt.not_gt

theorem Begun.attempt (hd : Reads d channel h) {b : DiscordThread} {X : List DiscordMessageId}
    {s : BackfillSt} {before : DiscordMessageId} (hX : Begun d guild h b.patomThreadId X s)
    (hb : lookupByContainer d guild channel s.bridge = some b) (hun : Undropped h before)
    (hanchors : ∀ a ∈ s.anchors, a.value ≤ before.value) (w : Weather Site) :
    ∃ b' X', lookupByContainer d guild channel
        (maybeBackfill d guild channel b.patomThreadId before w s.bridge).2 = some b' ∧
      b'.patomThreadId = b.patomThreadId ∧
      (∀ done, Begun d guild h b.patomThreadId X' ⟨(maybeBackfill d guild channel
        b.patomThreadId before w s.bridge).2, before :: s.anchors, done⟩) ∧
      (b' = b ∨ X'.filter (· ∈ wantedIds h before) = wantedIds h before) := by
  obtain ⟨pre, hpre, hholds, hbindings⟩ := maybeBackfill_mirrors hd hun w hX.holds
  have hX' := hX.catchUp hanchors hpre hholds
  obtain hkept | ⟨rfl, hmarked⟩ := hbindings
  · refine ⟨b, _, ?_, rfl, hX', .inl rfl⟩
    rw [lookupByContainer, hkept]
    exact hb
  · refine ⟨completed (threadKey d guild channel) b, _, ?_, ?_, hX', .inr (filter_catchUp
      (fun _ _ hxy hyx => hxy.asymm hyx) (wantedIds_chronological h before)
      (hX' none).chronological)⟩
    · rw [lookupByContainer, hmarked, markBackfilled, Table.find?_modify]
      exact congrArg _ hb
    · rw [completed]
      split <;> rfl

theorem backfillStep_attempt {s t : BackfillSt} {before : DiscordMessageId} {w : Weather Site}
    (hstep : backfillStep d guild channel s (.attempt before w) = some t) :
    t.anchors = before :: s.anchors := by
  simp only [backfillStep] at hstep
  split at hstep
  case h_1 => cases hstep
  case h_2 b hb =>
    split at hstep
    case isTrue => cases hstep
    case isFalse =>
      cases hstep
      rfl

inductive Backfilling (d : BridgeDeps) (guild : GuildId) (channel : ContainerId) (h : History)
    (s : BackfillSt) : Prop
  | unbound : lookupByContainer d guild channel s.bridge = none →
    (∀ thread, Begun d guild h thread [] s) → Backfilling d guild channel h s
  | pending {b : DiscordThread} {X : List DiscordMessageId} :
    lookupByContainer d guild channel s.bridge = some b → b.backfillComplete = false →
    Begun d guild h b.patomThreadId X s → Backfilling d guild channel h s
  | done {b : DiscordThread} {before : DiscordMessageId} :
    lookupByContainer d guild channel s.bridge = some b → b.backfillComplete = true →
    s.done = some before → posts ((wantedIds h before).map (messageKey d guild)) s.bridge =
      ((wantedIds h before).map fun id => (messageKey d guild id, b.patomThreadId)) →
    Backfilling d guild channel h s

theorem Backfilling.complete {s : BackfillSt} (hs : Backfilling d guild channel h s) :
    Complete d guild channel h s := by
  intro b' hb' hdone
  cases hs with
  | unbound hb =>
    rw [hb] at hb'
    cases hb'
  | pending hb hopen =>
    rw [hb] at hb'
    cases hb'
    rw [hopen] at hdone
    cases hdone
  | done hb _ hs hposts =>
    rw [hb] at hb'
    cases hb'
    exact ⟨_, hs, hposts⟩

theorem Backfilling.attempt (hd : Reads d channel h) {s t : BackfillSt}
    {before : DiscordMessageId} {w : Weather Site} (hs : Backfilling d guild channel h s)
    (hstep : backfillStep d guild channel s (.attempt before w) = some t)
    (hun : Undropped h before) (hanchors : ∀ a ∈ s.anchors, a.value ≤ before.value) :
    Backfilling d guild channel h t := by
  cases hs with
  | unbound hb =>
    simp only [backfillStep, hb] at hstep
    cases hstep
  | done hb hdone =>
    simp only [backfillStep, hb, if_pos hdone] at hstep
    cases hstep
  | pending hb hopen hX =>
    obtain ⟨b', X', hb', hthread, hX', hall⟩ := hX.attempt hd hb hun hanchors w
    simp only [backfillStep, hb, hopen] at hstep
    cases hstep
    cases hflag : b'.backfillComplete with
    | false => exact .pending hb' hflag (by rw [hthread]; exact hX' _)
    | true =>
      obtain rfl | hall := hall
      · rw [hopen] at hflag
        cases hflag
      · refine .done hb' hflag (?_ : _ = some before) ?_
        · rw [if_pos]
          rw [recorded, hb', Option.any_some, hflag]
        · rw [(hX' none).holds.posts_filter fun id hid => wantedIds_key d guild hid, hall, hthread]

theorem Backfilling.bind {s : BackfillSt} (hs : Backfilling d guild channel h s)
    (conv : Conversation) (thread' : ThreadId) : Backfilling d guild channel h
      { s with bridge := (bindThread d guild conv thread' s.bridge).2 } := by
  have hkept {b : DiscordThread} (hb : lookupByContainer d guild channel s.bridge = some b) :
      lookupByContainer d guild channel (bindThread d guild conv thread' s.bridge).2 = some b :=
    Table.addNew_kept _ _ _ _ hb
  cases hs with
  | pending hb hopen hX => exact .pending (hkept hb) hopen ⟨hX.holds, hX.chronological, hX.closed⟩
  | done hb hdone hs hposts => exact .done (hkept hb) hdone hs hposts
  | unbound hb hX =>
    have hfind : lookupByContainer d guild channel (bindThread d guild conv thread' s.bridge).2 =
        if threadKey d guild conv.container = threadKey d guild channel then
          some ⟨d.app.orgId, d.app.applicationId, guild, conv.container, conv.parent, conv.isThread,
            thread', false⟩ else none := by
      rw [lookupByContainer] at hb
      rw [lookupByContainer, bindThread, Table.find?_addNew, hb]
      rfl
    split at hfind
    case isTrue =>
      have hthread := hX thread'
      exact .pending hfind rfl ⟨hthread.holds, hthread.chronological, hthread.closed⟩
    case isFalse =>
      exact .unbound hfind fun thread =>
        ⟨(hX thread).holds, (hX thread).chronological, (hX thread).closed⟩

theorem Backfilling.append {s : BackfillSt} {guild' : GuildId} {thread' : ThreadId}
    {sender : ColleagueId} {receiver : Option ColleagueId} {m : InboundMessage}
    (hs : Backfilling d guild channel h s) (hm : recorded d guild channel s.bridge ∨
      messageKey d guild' m.messageId ∉ historyKeys d guild h) :
    Backfilling d guild channel h { s with
      bridge := (appendMirrored d guild' thread' sender receiver m s.bridge).2 } := by
  cases hs with
  | unbound hb hX =>
    obtain hm | hm := hm
    · rw [recorded, hb] at hm
      cases hm
    · refine .unbound hb fun thread => ⟨?_, (hX thread).chronological, (hX thread).closed⟩
      exact (posts_append hm s.bridge thread' sender receiver).trans (hX thread).holds
  | pending hb hopen hX =>
    obtain hm | hm := hm
    · rw [recorded, hb, Option.any_some, hopen] at hm
      cases hm
    · refine .pending hb hopen ⟨?_, hX.chronological, hX.closed⟩
      exact (posts_append hm s.bridge thread' sender receiver).trans hX.holds
  | done hb hdone hs hposts =>
    refine .done hb hdone hs ?_
    cases hfind : s.bridge.feed.find? (messageKey d guild' m.messageId) with
    | some r =>
      rw [appendMirrored_found hfind]
      exact hposts
    | none =>
      refine (posts_append (fun hkey => ?_) s.bridge thread' sender receiver).trans hposts
      obtain ⟨id, hid, e⟩ := List.mem_map.mp hkey
      have hfound := posts_found (s := s.bridge) (k := messageKey d guild id)
        (hposts ▸ List.mem_map.mpr ⟨id, hid, rfl⟩)
      rw [e, hfind] at hfound
      cases hfound

theorem Backfilling.step (hd : Reads d channel h) {s t : BackfillSt} {a : BackfillAct}
    (hs : Backfilling d guild channel h s) (hstep : backfillStep d guild channel s a = some t)
    (ha : Undisturbed d guild channel h s a) : Backfilling d guild channel h t := by
  cases a with
  | bind conv thread =>
    cases hstep
    exact hs.bind conv thread
  | attempt before w => exact hs.attempt hd hstep ha.1 ha.2
  | append guild' thread sender receiver m =>
    cases hstep
    exact hs.append ha

structure Untouched (d : BridgeDeps) (guild : GuildId) (channel : ContainerId) (h : History)
    (s : BridgeSt) : Prop where
  pending : ¬ recorded d guild channel s
  empty : posts (historyKeys d guild h) s = []

/-- In every undisturbed run, a backfill that is recorded as done is complete. -/
theorem backfilled (d : BridgeDeps) (guild : GuildId) (channel : ContainerId) (h : History)
    (hd : Reads d channel h) (s : BridgeSt) (hs : Untouched d guild channel h s)
    (as : List BackfillAct) (has : Steps (backfillStep d guild channel)
      (Undisturbed d guild channel h) ⟨s, [], none⟩ as) :
    Always (backfillStep d guild channel) (Complete d guild channel h) ⟨s, [], none⟩ as := by
  have hstart : Backfilling d guild channel h ⟨s, [], none⟩ := by
    have hempty (thread : ThreadId) : Begun d guild h thread [] ⟨s, [], none⟩ :=
      ⟨hs.empty, List.Pairwise.nil, fun _ _ _ _ _ hx => absurd hx List.not_mem_nil⟩
    cases hb : lookupByContainer d guild channel s with
    | none => exact .unbound hb hempty
    | some b =>
      have hopen := hs.pending
      rw [recorded, hb, Option.any_some, Bool.not_eq_true] at hopen
      exact .pending hb hopen (hempty _)
  refine (Steps.always (P := Backfilling d guild channel h) (fun _ => True)
    (fun _ _ _ _ _ _ _ => trivial) (fun _ _ _ _ hs hstep ha => hs.step hd hstep ha) trivial hstart
    has).mono fun _ => Backfilling.complete

end Runs

namespace Sample

theorem numbered (i j : Fin 10) :
    let asStr := String.ofList ['1', Nat.digitChar i, Nat.digitChar j]
    asStr ≠ "" ∧ asStr.utf8ByteSize ≤ DISCORD_SNOWFLAKE_MAX_LEN ∧ asStr.toList.all Char.isDigit ∧
      decimal asStr.toList < 2 ^ 64 := by
  revert i j
  decide +kernel

def number (i j : Fin 10) : DiscordUserId where
  asStr := String.ofList ['1', Nat.digitChar i, Nat.digitChar j]
  nonempty := (numbered i j).1
  bounded := (numbered i j).2.1
  digits := (numbered i j).2.2.1
  fits := (numbered i j).2.2.2

def office : DiscordUserId := ⟨"83014", by decide, by decide, by decide, by decide⟩

def early : DiscordUserId := ⟨"42", by decide, by decide, by decide, by decide⟩

def late : DiscordUserId := ⟨"271", by decide, by decide, by decide, by decide⟩

def said (bot : Bool) (id : DiscordMessageId) : InboundMessage :=
  ⟨id, office, some office, ⟨office, bot⟩, "", [], none⟩

def entry (bot : Bool) (id : DiscordMessageId) : HistoryEntry :=
  ⟨id, some (said bot id), fun m hm => by cases hm; rfl⟩

def malformed (id : DiscordMessageId) : HistoryEntry := ⟨id, none, fun m hm => by cases hm⟩

def busyEntries : List HistoryEntry :=
  ((List.finRange 10).reverse.flatMap fun i => (List.finRange 10).reverse.map fun j =>
    if i = 9 ∧ j = 9 then malformed (number i j) else entry true (number i j)) ++
      [entry false early]

def busy : History := ⟨busyEntries, by decide +kernel⟩

def quiet : History :=
  ⟨[entry false late, entry true (number 3 1), entry false early], by decide +kernel⟩

def reading (h : History) : BridgeDeps where
  app := ⟨1, office, 2⟩
  botUserId := office
  agentColleague := 3
  page _ before limit := ((h.before before).take limit).map (·.message)
  opens _ _ := .error .other
  opens_new _ _ h := by cases h
  refuses _ _ := .postFailed 400
  render m := m.content
  mint _ n := BitVec.ofNat 128 (n + 4)

def staysHere : Conversation := ⟨office, none, false⟩

def cutShort : Weather Site
  | .row 2 => some .crash
  | _ => none

def twice : List BackfillAct := [.bind staysHere 7, .attempt office cutShort, .attempt office clear]

theorem quiet_undropped (before : DiscordMessageId) : Undropped quiet before := by
  rintro n ⟨x, hx, hnone⟩
  have hmem : x ∈ quiet.entries :=
    History.mem_of_before (List.mem_of_mem_drop (List.mem_of_mem_take hx))
  have hall : ∀ x ∈ quiet.entries, x.message.isSome := by decide
  exact absurd hnone (Option.isSome_iff_ne_none.mp (hall x hmem))

theorem untouched_init (d : BridgeDeps) (guild : GuildId) (channel : ContainerId) (h : History) :
    Untouched d guild channel h .init :=
  ⟨Bool.false_ne_true, rfl⟩

end Sample

open Sample

theorem backfilled_quiet : Always (backfillStep (reading quiet) office office)
      (Complete (reading quiet) office office quiet) ⟨.init, [], none⟩ twice ∧
    (run (backfillStep (reading quiet) office office) ⟨.init, [], none⟩ twice).any
      fun t => recorded (reading quiet) office office t.bridge := by
  refine ⟨backfilled (reading quiet) office office quiet (fun _ _ => rfl) .init
    (untouched_init _ _ _ _) twice ?_, by decide +kernel⟩
  intro s e
  cases e
  refine ⟨trivial, fun t e => ?_⟩
  refine ⟨⟨quiet_undropped _, fun _ ha => absurd ha List.not_mem_nil⟩, fun _ _ => ?_⟩
  refine ⟨⟨quiet_undropped _, fun a ha => ?_⟩, trivial⟩
  rw [backfillStep_attempt e] at ha
  rw [List.mem_singleton.mp ha]

/-- The page that is one short ends the backfill, and what the person wrote is not mirrored. -/
theorem backfill_cut : ¬ Always (backfillStep (reading busy) office office)
    (Complete (reading busy) office office busy) ⟨.init, [], none⟩
    [.bind staysHere 7, .attempt office clear] := by
  intro h
  have hlast : ∃ t, run (backfillStep (reading busy) office office) ⟨.init, [], none⟩
      [.bind staysHere 7, .attempt office clear] = some t ∧ t.done = some office ∧
      recorded (reading busy) office office t.bridge ∧ t.bridge.feed.rows = [] ∧
      wantedIds busy office = [early] := by
    refine ⟨_, rfl, ?_, ?_, ?_, ?_⟩ <;> decide +kernel
  obtain ⟨t, hrun, hdone, hrec, hfeed, hwanted⟩ := hlast
  obtain ⟨b, hb, hflag⟩ := (Option.any_eq_true _ _).mp hrec
  obtain ⟨before, hbefore, hposts⟩ := h.run hrun b hb hflag
  rw [hdone] at hbefore
  cases hbefore
  rw [hwanted, posts, hfeed] at hposts
  cases hposts

end Patom.Discord
