import Patom.Discord.Manager

open Patom.Foundation

namespace Patom.Discord

def Ended.quiet (e : Ended) : Bool := !e.attempt.live

def Ended.resumes (e : Ended) : Bool := e.outcome.toOption = some .resume

/-- Runs of quiet attempts are short, and each attempt of one but its first waited. -/
def BoundedReconnects (log : List Ended) : Prop :=
  ∀ streak, streak <:+: log → (∀ e ∈ streak, e.quiet = true) →
    streak.length ≤ DISCORD_RECONNECT_MAX + 1 ∧ ∀ e ∈ streak.dropLast, e.attempt.waited = true

def quietStreak (log : List Ended) : Nat := (log.takeWhile Ended.quiet).length

theorem quietStreak_cons (e : Ended) (log : List Ended) :
    quietStreak (e :: log) = if e.quiet then quietStreak log + 1 else 0 := by
  unfold quietStreak
  rw [List.takeWhile_cons]
  split <;> rfl

theorem length_le_quietStreak {streak log : List Ended} (h : streak <+: log)
    (hquiet : ∀ e ∈ streak, e.quiet = true) : streak.length ≤ quietStreak log := by
  induction streak generalizing log with
  | nil => exact Nat.zero_le _
  | cons e streak ih =>
    obtain ⟨rest, rfl⟩ := h
    rw [List.cons_append, quietStreak_cons, if_pos (hquiet e List.mem_cons_self)]
    exact Nat.succ_le_succ (ih ⟨rest, rfl⟩ fun e' he' => hquiet e' (List.mem_cons_of_mem e he'))

theorem boundedReconnects_nil : BoundedReconnects [] := by
  intro streak h _
  obtain rfl := List.infix_nil.mp h
  exact ⟨Nat.zero_le _, fun e he => absurd he List.not_mem_nil⟩

theorem boundedReconnects_cons {e : Ended} {log : List Ended} :
    BoundedReconnects (e :: log) ↔ BoundedReconnects log ∧
      (e.quiet = true → quietStreak log ≤ DISCORD_RECONNECT_MAX ∧
        ∀ e' ∈ log.head?, e'.quiet = true → e.attempt.waited = true) := by
  constructor
  · intro h
    refine ⟨fun streak hs => h streak (hs.trans (List.suffix_cons e log).isInfix), fun hquiet => ?_⟩
    have hall : ∀ e' ∈ e :: log.takeWhile Ended.quiet, e'.quiet = true := by
      intro e' he'
      obtain rfl | he' := List.mem_cons.mp he'
      · exact hquiet
      · exact List.all_eq_true.mp List.all_takeWhile e' he'
    obtain ⟨hlen, hwaited⟩ := h (e :: log.takeWhile Ended.quiet)
      (List.prefix_cons_inj e |>.mpr (List.takeWhile_prefix _)).isInfix hall
    refine ⟨Nat.le_of_succ_le_succ hlen, fun e' he' hq => hwaited e ?_⟩
    obtain ⟨rest, rfl⟩ := List.head?_eq_some_iff.mp he'
    rw [List.takeWhile_cons_of_pos hq]
    exact List.mem_cons_self
  · rintro ⟨hlog, hnew⟩ streak hs hquiet
    obtain hs | hs := List.infix_cons_iff.mp hs
    · obtain _ | ⟨e', streak⟩ := streak
      · exact ⟨Nat.zero_le _, fun e he => absurd he List.not_mem_nil⟩
      obtain ⟨rfl, hprefix⟩ := List.cons_prefix_cons.mp hs
      obtain ⟨hlen, hhead⟩ := hnew (hquiet e' List.mem_cons_self)
      have hrest : ∀ e ∈ streak, e.quiet = true := fun e he => hquiet e (List.mem_cons_of_mem e' he)
      refine ⟨Nat.succ_le_succ ((length_le_quietStreak hprefix hrest).trans hlen), ?_⟩
      obtain _ | ⟨e'', rest⟩ := streak
      · exact fun e he => absurd he (by simp)
      intro e he
      obtain rfl | he := List.mem_cons.mp he
      · obtain ⟨tail, rfl⟩ := hprefix
        exact hhead e'' rfl (hrest e'' List.mem_cons_self)
      · exact (hlog (e'' :: rest) hprefix.isInfix hrest).2 e he
    · exact hlog streak hs hquiet

/-- `reconnects` covers the quiet attempts, unless the last of them reset it. -/
structure ReconnectInv (s : Driver) : Prop where
  counted : s.phase ≠ .ended → (∀ e ∈ s.log.head?, e.quiet = true → e.resumes = false) →
    quietStreak s.log ≤ s.reconnects
  bounded : s.held.isSome → s.reconnects ≤ DISCORD_RECONNECT_MAX
  waited : s.held.isSome → ∀ e ∈ s.log.head?, s.attempt.waited = !e.resumes
  unwaited : s.held.isSome → s.waited = false
  idle : s.phase = .idle → s.cancelled = true ∨ ∀ e ∈ s.log.head?, s.waited = !e.resumes
  waiting : s.phase = .waiting → ∀ e ∈ s.log.head?, e.resumes = false

theorem ReconnectInv.init : ReconnectInv .init where
  counted _ _ := Nat.zero_le _
  bounded h := by cases h
  waited h := by cases h
  unwaited h := by cases h
  idle _ := .inr fun e he => by cases he
  waiting h := by cases h

section Arm

variable {s : Driver} {held : Option SessionState} {outcome : Except DiscordError RunResult}

theorem log_arm : (s.arm held outcome).log =
    ⟨s.attempt, held, outcome.map RunResult.directive⟩ :: s.log := by
  unfold Driver.arm
  split
  · split <;> rfl
  · rfl

theorem held_arm : (s.arm held outcome).held = none := by
  unfold Driver.arm
  split
  · split <;> rfl
  · rfl

variable (held outcome) in
theorem arm_cases (hlt : s.reconnects ≤ DISCORD_RECONNECT_MAX) :
    (s.arm held outcome).phase = .ended ∨
      (s.arm held outcome).phase = .idle ∧ (s.arm held outcome).reconnects = 0 ∧
        (s.arm held outcome).waited = s.waited ∧ (outcome.map RunResult.directive) = .ok .resume ∨
      (s.arm held outcome).phase = .waiting ∧ (s.arm held outcome).reconnects = s.reconnects + 1 ∧
        (outcome.map RunResult.directive) ≠ .ok .resume := by
  have hsat : min (s.reconnects + 1) U32_MAX = s.reconnects + 1 := by
    simp only [DISCORD_RECONNECT_MAX] at hlt
    simp only [U32_MAX]
    omega
  obtain e | ⟨_ | _ | _ | fc, session⟩ := outcome
  · exact .inr (.inr ⟨rfl, hsat, by rintro ⟨⟩⟩)
  · exact .inl rfl
  · exact .inr (.inl ⟨rfl, rfl, rfl, rfl⟩)
  · exact .inr (.inr ⟨rfl, hsat, by rintro ⟨⟩⟩)
  · exact .inl rfl

end Arm

section Step

variable {s t : Driver}

theorem ReconnectInv.moved (h : ReconnectInv s) (hlog : t.log = s.log)
    (hrec : t.reconnects = s.reconnects) (hwaited : t.waited = s.waited)
    (hattempt : t.held.isSome → s.held.isSome ∧ t.attempt.waited = s.attempt.waited)
    (hend : t.phase ≠ .ended → s.phase ≠ .ended)
    (hidle : t.phase = .idle → s.phase = .idle ∧ (s.cancelled = true → t.cancelled = true))
    (hwaiting : t.phase = .waiting → s.phase = .waiting) : ReconnectInv t where
  counted hp := by
    rw [hlog, hrec]
    exact h.counted (hend hp)
  bounded ht := by
    rw [hrec]
    exact h.bounded (hattempt ht).1
  waited ht := by
    rw [hlog, (hattempt ht).2]
    exact h.waited (hattempt ht).1
  unwaited ht := by
    rw [hwaited]
    exact h.unwaited (hattempt ht).1
  idle ht := by
    rw [hlog, hwaited]
    exact (h.idle (hidle ht).1).imp (hidle ht).2 id
  waiting ht := by
    rw [hlog]
    exact h.waiting (hwaiting ht)

theorem begins_iff : s.begins = true ↔ s.cancelled = false ∧ s.reconnects ≤ DISCORD_RECONNECT_MAX := by
  simp [Driver.begins]

theorem ReconnectInv.begun (h : ReconnectInv s) (hphase : s.phase = .idle) (hb : s.begins = true) :
    ReconnectInv s.begin := by
  obtain ⟨hlive, hle⟩ := begins_iff.mp hb
  exact {
    counted := fun _ => h.counted (by rw [hphase]; rintro ⟨⟩)
    bounded := fun _ => hle
    waited := fun _ => (h.idle hphase).resolve_left (by rw [hlive]; rintro ⟨⟩)
    unwaited := fun _ => rfl
    idle := fun e => by cases e
    waiting := fun e => by cases e }

theorem ReconnectInv.woken (h : ReconnectInv s) (hphase : s.phase = .waiting) :
    ReconnectInv { s with phase := .idle, waited := true } where
  counted _ := h.counted (by rw [hphase]; rintro ⟨⟩)
  bounded ht := by cases ht
  waited ht := by cases ht
  unwaited ht := by cases ht
  idle _ := .inr fun e he => by rw [h.waiting hphase e he]; rfl
  waiting e := by cases e

theorem ReconnectInv.finished (h : ReconnectInv s) {held owed : Option SessionState}
    {outcome : Except DiscordError RunResult} (hheld : s.held = some held)
    (hP : BoundedReconnects ({ s with owed }.arm held outcome).log) :
    ReconnectInv ({ s with owed }.arm held outcome) := by
  have hsome : s.held.isSome := by rw [hheld]; rfl
  have hphase : s.phase ≠ .ended := fun e => by simp [Driver.held, e] at hheld
  have hnone : ¬({ s with owed }.arm held outcome).held.isSome := by rw [held_arm]; rintro ⟨⟩
  have hlog : ({ s with owed }.arm held outcome).log = _ := log_arm
  rw [hlog] at hP
  have hcount : Ended.quiet ⟨s.attempt, held, outcome.map RunResult.directive⟩ = true →
      quietStreak s.log ≤ s.reconnects := by
    intro hq
    refine h.counted hphase fun e he hqe => ?_
    have hw := ((boundedReconnects_cons.mp hP).2 hq).2 e he hqe
    rw [h.waited hsome e he] at hw
    simpa using hw
  obtain hended | ⟨hidle, hrec, hwaited, hout⟩ | ⟨hwaiting, hrec, hout⟩ :=
    arm_cases (s := { s with owed }) held outcome (h.bounded hsome)
  · exact {
      counted := fun e => absurd hended e
      bounded := fun e => absurd e hnone
      waited := fun e => absurd e hnone
      unwaited := fun e => absurd e hnone
      idle := fun e => by rw [hended] at e; cases e
      waiting := fun e => by rw [hended] at e; cases e }
  · have hres : Ended.resumes ⟨s.attempt, held, outcome.map RunResult.directive⟩ = true := by
      rw [Ended.resumes, hout]
      rfl
    exact {
      counted := fun _ hlast => by
        rw [hlog, quietStreak_cons, hrec]
        split
        · next hq => exact absurd (hlast _ (by rw [hlog]; rfl) hq) (by rw [hres]; rintro ⟨⟩)
        · exact Nat.le_refl 0
      bounded := fun e => absurd e hnone
      waited := fun e => absurd e hnone
      unwaited := fun e => absurd e hnone
      idle := fun _ => .inr fun e he => by
        rw [hlog] at he
        cases he
        rw [hwaited, hres]
        exact h.unwaited hsome
      waiting := fun e => by rw [hidle] at e; cases e }
  · exact {
      counted := fun _ _ => by
        rw [hlog, quietStreak_cons, hrec]
        split
        · next hq => exact Nat.succ_le_succ (hcount hq)
        · exact Nat.zero_le _
      bounded := fun e => absurd e hnone
      waited := fun e => absurd e hnone
      unwaited := fun e => absurd e hnone
      idle := fun e => by rw [hwaiting] at e; cases e
      waiting := fun _ e he => by
        rw [hlog] at he
        cases he
        cases hd : outcome.map RunResult.directive with
        | error _ => rfl
        | ok d =>
          rw [hd] at hout
          simpa [Ended.resumes, Except.toOption] using hout }

theorem ReconnectInv.step (h : ReconnectInv s) (hst : DriverStepped s t)
    (hP : BoundedReconnects t.log) : ReconnectInv t := by
  cases hst with
  | begun hphase hb => exact h.begun hphase hb
  | exhausted hphase hb =>
    exact h.moved rfl rfl rfl (fun e => by cases e) (fun e => absurd rfl e) (fun e => by cases e)
      (fun e => by cases e)
  | connected hphase =>
    exact h.moved rfl rfl rfl (fun _ => ⟨by rw [Driver.held, hphase]; rfl, rfl⟩)
      (fun _ e => by rw [hphase] at e; cases e) (fun e => by cases e) (fun e => by cases e)
  | kept => exact h
  | opened hphase =>
    exact h.moved rfl rfl rfl (fun _ => ⟨by rw [Driver.held, hphase]; rfl, rfl⟩)
      (fun _ e => by rw [hphase] at e; cases e) (fun e => by cases e) (fun e => by cases e)
  | carried hphase hsession =>
    exact h.moved rfl rfl rfl (fun _ => ⟨by rw [Driver.held, hphase]; rfl, rfl⟩)
      (fun _ e => by rw [hphase] at e; cases e) (fun e => by cases e) (fun e => by cases e)
  | finished hheld herror hresume => exact h.finished hheld hP
  | woken hphase => exact h.woken hphase
  | cancelled => exact h.moved rfl rfl rfl (fun e => ⟨e, rfl⟩) id (fun e => ⟨e, fun _ => rfl⟩) id
  | roused hphase hc =>
    exact {
      counted := fun _ => h.counted (by rw [hphase]; rintro ⟨⟩)
      bounded := fun e => by cases e
      waited := fun e => by cases e
      unwaited := fun e => by cases e
      idle := fun _ => .inl hc
      waiting := fun e => by cases e }

/-- No attempt stays quiet right after a quiet one that was to be resumed. -/
def GreetsAfterResume (s : Driver) (act : DriverAct) : Prop :=
  ∀ t, driverStep s act = some t → t.log = s.log ∨
    ∀ e ∈ s.log.head?, e.quiet = true → e.resumes = true → s.attempt.live = true

theorem boundedReconnects_step (h : ReconnectInv s) (hP : BoundedReconnects s.log)
    {act : DriverAct} (e : driverStep s act = some t) :
    BoundedReconnects t.log ↔ GreetsAfterResume s act := by
  have hguard : GreetsAfterResume s act ↔ (t.log = s.log ∨
      ∀ e ∈ s.log.head?, e.quiet = true → e.resumes = true → s.attempt.live = true) :=
    ⟨fun hg => hg t e, fun hg t' e' => Option.some.inj (e'.symm.trans e) ▸ hg⟩
  rw [hguard]
  cases driverStep_stepped e with
  | @finished held owed outcome hheld herror hresume =>
    have hsome : s.held.isSome := by rw [hheld]; rfl
    have hphase : s.phase ≠ .ended := fun e => by simp [Driver.held, e] at hheld
    rw [log_arm, boundedReconnects_cons]
    constructor
    · rintro ⟨-, hnew⟩
      refine .inr fun e he hq hr => ?_
      by_contra hlive
      have hquiet : Ended.quiet ⟨s.attempt, held, outcome.map RunResult.directive⟩ = true := by
        simpa [Ended.quiet] using hlive
      have hw := (hnew hquiet).2 e he hq
      rw [h.waited hsome e he, hr] at hw
      cases hw
    · intro hg
      have hgreets := hg.resolve_left (by simp)
      refine ⟨hP, fun hquiet => ?_⟩
      have hlast : ∀ e ∈ s.log.head?, e.quiet = true → e.resumes = false := by
        intro e he hq
        by_contra hr
        have hlive := hgreets e he hq (by simpa using hr)
        simp [Ended.quiet, hlive] at hquiet
      refine ⟨(h.counted hphase hlast).trans (h.bounded hsome), fun e he hq => ?_⟩
      rw [h.waited hsome e he, hlast e he hq]
      rfl
  | _ => exact ⟨fun _ => .inl rfl, fun _ => hP⟩

theorem boundedReconnects_iff (acts : List DriverAct) :
    Always driverStep (fun s => BoundedReconnects s.log) .init acts ↔
      Steps driverStep GreetsAfterResume .init acts :=
  always_iff_steps ReconnectInv
    (fun _ _ _ hi _ e hPt => hi.step (driverStep_stepped e) hPt)
    (fun _ _ _ hi hP e => boundedReconnects_step hi hP e) .init boundedReconnects_nil acts

end Step

namespace Sample

def helloFrame : WsEvent := .text (some ⟨.hello, none, none, some ⟨none, some 45000, none⟩⟩)

def bot : DiscordUserId := ⟨"80351110224678912", by decide, by decide, by decide, by decide +kernel⟩

def readyFrame : WsEvent :=
  .text (some ⟨.dispatch, some 1, some "READY",
    some ⟨none, none, some ⟨"sess1", "wss://resume.discord.gg", bot⟩⟩⟩)

def dropped : List DriverAct :=
  [.enter, .connected, .handshake (some helloFrame) (.ok ()), .event none (.ok ())]

def learnedThenDropped : List DriverAct :=
  [.enter, .connected, .handshake (some helloFrame) (.ok ()), .event (some readyFrame) (.ok ()),
    .event none (.ok ())]

def tightLoop : List DriverAct := learnedThenDropped ++ (List.replicate 66 dropped).flatten

end Sample

/-- A session, once learned, is resumed again and again without a wait, though nothing answers. -/
theorem tight_loop : ∃ s, run driverStep .init Sample.tightLoop = some s ∧
    s.log.map (fun e => (e.attempt.live, e.attempt.waited)) =
      List.replicate 66 (false, false) ++ [(true, false)] ∧ ¬BoundedReconnects s.log := by
  have hlog : (run driverStep .init Sample.tightLoop).map (fun s =>
      s.log.map fun e => (e.attempt.live, e.attempt.waited)) =
      some (List.replicate 66 (false, false) ++ [(true, false)]) := by
    decide +kernel
  obtain ⟨s, hrun, e⟩ := Option.map_eq_some_iff.mp hlog
  refine ⟨s, hrun, e, fun hP => ?_⟩
  have hlen : s.log.length = 67 := by simpa using congrArg List.length e
  have hquiet : ∀ x ∈ s.log.take 66, x.quiet = true := by
    intro x hx
    have hmem := List.mem_map_of_mem (f := fun e => (e.attempt.live, e.attempt.waited)) hx
    rw [List.map_take, e, List.take_left' List.length_replicate] at hmem
    have hlive := congrArg Prod.fst (List.eq_of_mem_replicate hmem)
    simpa [Ended.quiet] using hlive
  have hbound := (hP (s.log.take 66) (List.take_prefix 66 s.log).isInfix hquiet).1
  rw [List.length_take, hlen] at hbound
  exact absurd hbound (by decide)

def KeepsSession (s : Driver) : Prop :=
  s.held.isSome → ∀ x ∈ s.attempt.owed, s.attempt.prior = some x ∧
    ∀ o ∈ s.attempt.opened, o = .resume x.sessionId x.lastSeq

def Ended.failed (e : Ended) : Bool :=
  match e.outcome with
  | .error _ => true
  | .ok _ => false

/-- No attempt begins after one that failed with a session in hand. -/
def BeginsWhole (s : Driver) : DriverAct → Prop
  | .enter => s.phase = .idle → s.begins = true → ∀ e ∈ s.log.head?, e.failed = true → e.held = none
  | _ => True

def Driver.between (s : Driver) : Prop := s.phase = .idle ∨ s.phase = .waiting

/-- A driver holds what it is owed, except after an attempt that failed. -/
structure SessionInv (s : Driver) : Prop where
  lost : s.between → ∀ e ∈ s.log.head?, e.failed = true → s.session = none ∧ s.owed = e.held
  kept : s.between → (∀ e ∈ s.log.head?, e.failed = false) → s.session = s.owed
  held : ∀ x, s.held = some x → x = s.owed
  taken : s.held.isSome → s.session = none
  prior : s.phase = .dialing ∨ s.phase = .hello → s.attempt.opened = none

theorem SessionInv.init : SessionInv .init where
  lost _ e he := by cases he
  kept _ _ := rfl
  held _ h := by cases h
  taken h := by cases h
  prior h := by obtain h | h := h <;> cases h

variable {s t : Driver}

theorem SessionInv.begun (h : SessionInv s) (hphase : s.phase = .idle) (hP : KeepsSession s.begin) :
    SessionInv s.begin where
  lost hb := by obtain e | e := hb <;> cases e
  kept hb := by obtain e | e := hb <;> cases e
  held x hx := by
    cases hx
    cases howed : s.owed with
    | some y => exact ((hP rfl y howed).1).trans howed.symm
    | none =>
      by_cases hfail : ∃ e ∈ s.log.head?, e.failed = true
      · obtain ⟨e, he, hf⟩ := hfail
        exact (h.lost (.inl hphase) e he hf).1.trans howed.symm
      · exact (h.kept (.inl hphase) fun e he => by simpa using fun hf => hfail ⟨e, he, hf⟩)
  taken _ := rfl
  prior _ := rfl

theorem SessionInv.finished (h : SessionInv s) {held owed : Option SessionState}
    {outcome : Except DiscordError RunResult} (hheld : s.held = some held)
    (herror : ∀ e, outcome = .error e → owed = s.owed)
    (hresume : ∀ result, outcome = .ok result → result.directive = .resume →
      result.session = held ∧ held.isSome ∧ (held = s.owed → owed = s.owed)) :
    SessionInv ({ s with owed }.arm held outcome) := by
  have howed := h.held held hheld
  have hlog : ({ s with owed }.arm held outcome).log = _ := log_arm
  have hnone : ∀ x, ({ s with owed }.arm held outcome).held ≠ some x := fun x e => by
    rw [held_arm] at e
    cases e
  have hprior : ({ s with owed }.arm held outcome).phase = .dialing ∨
      ({ s with owed }.arm held outcome).phase = .hello → False := fun e => by
    have hh : ({ s with owed }.arm held outcome).held = none := held_arm
    obtain e | e := e <;> simp [Driver.held, e] at hh
  have htaken : s.session = none := h.taken (by rw [hheld]; rfl)
  have hended : ¬({ s with owed }.arm held outcome).held.isSome := by rw [held_arm]; rintro ⟨⟩
  obtain e | ⟨d, session⟩ := outcome
  · exact {
      lost := fun _ e' he' _ => by
        rw [hlog] at he'
        cases he'
        exact ⟨htaken, (herror e rfl).trans howed.symm⟩
      kept := fun _ hk => by
        rw [hlog] at hk
        cases hk _ rfl
      held := fun x hx => absurd hx (hnone x)
      taken := fun e => absurd e hended
      prior := fun e => (hprior e).elim }
  · exact {
      lost := fun _ e' he' hf => by
        rw [hlog] at he'
        cases he'
        cases hf
      kept := fun hb _ => by
        cases d with
        | stop => obtain e | e := hb <;> cases e
        | fatal fc => obtain e | e := hb <;> cases e
        | freshReconnect => exact htaken
        | resume =>
          obtain ⟨hsession, -, hkeep⟩ := hresume ⟨.resume, session⟩ rfl rfl
          exact hsession.trans (howed.trans (hkeep howed).symm)
      held := fun x hx => absurd hx (hnone x)
      taken := fun e => absurd e hended
      prior := fun e => (hprior e).elim }

theorem SessionInv.step (h : SessionInv s) (hst : DriverStepped s t) (hP : KeepsSession t) :
    SessionInv t := by
  cases hst with
  | begun hphase hb => exact h.begun hphase hP
  | exhausted hphase hb =>
    exact {
      lost := fun hb => by obtain e | e := hb <;> cases e
      kept := fun hb => by obtain e | e := hb <;> cases e
      held := fun _ e => by cases e
      taken := fun e => by cases e
      prior := fun e => by obtain e | e := e <;> cases e }
  | connected hphase =>
    have hheld : s.held = some s.attempt.prior := by rw [Driver.held, hphase]
    exact {
      lost := fun hb => by obtain e | e := hb <;> cases e
      kept := fun hb => by obtain e | e := hb <;> cases e
      held := fun x hx => by
        cases hx
        exact h.held _ hheld
      taken := fun _ => h.taken (by rw [hheld]; rfl)
      prior := fun _ => h.prior (.inl hphase) }
  | kept => exact h
  | opened hphase =>
    have hheld : s.held = some s.attempt.prior := by rw [Driver.held, hphase]
    exact {
      lost := fun hb => by obtain e | e := hb <;> cases e
      kept := fun hb => by obtain e | e := hb <;> cases e
      held := fun x hx => by
        cases hx
        exact h.held _ hheld
      taken := fun _ => h.taken (by rw [hheld]; rfl)
      prior := fun e => by obtain e | e := e <;> cases e }
  | @carried st st' hphase ev hsession =>
    have hheld : s.held = some st.session := by rw [Driver.held, hphase]
    exact {
      lost := fun hb => by obtain e | e := hb <;> cases e
      kept := fun hb => by obtain e | e := hb <;> cases e
      held := fun x hx => by
        cases hx
        rw [hsession, h.held _ hheld]
        rfl
      taken := fun _ => h.taken (by rw [hheld]; rfl)
      prior := fun e => by obtain e | e := e <;> cases e }
  | finished hheld herror hresume => exact h.finished hheld herror hresume
  | woken hphase =>
    exact {
      lost := fun _ => h.lost (.inr hphase)
      kept := fun _ => h.kept (.inr hphase)
      held := fun _ e => by cases e
      taken := fun e => by cases e
      prior := fun e => by obtain e | e := e <;> cases e }
  | cancelled => exact ⟨h.lost, h.kept, h.held, h.taken, h.prior⟩
  | roused hphase hc =>
    exact {
      lost := fun _ => h.lost (.inr hphase)
      kept := fun _ => h.kept (.inr hphase)
      held := fun _ e => by cases e
      taken := fun e => by cases e
      prior := fun e => by obtain e | e := e <;> cases e }

theorem keepsSession_begin (h : SessionInv s) (hphase : s.phase = .idle) :
    KeepsSession s.begin ↔ ∀ e ∈ s.log.head?, e.failed = true → e.held = none := by
  constructor
  · intro hP e he hf
    obtain ⟨hnone, howed⟩ := h.lost (.inl hphase) e he hf
    by_contra hheld
    obtain ⟨x, hx⟩ := Option.ne_none_iff_exists'.mp hheld
    have hprior : s.session = some x := (hP rfl x (howed.trans hx)).1
    rw [hnone] at hprior
    cases hprior
  · intro hg _ x hx
    refine ⟨?_, fun o ho => by cases ho⟩
    have howed : s.owed = some x := hx
    have hkept : ∀ e ∈ s.log.head?, e.failed = false := by
      intro e he
      by_contra hf
      have hf : e.failed = true := by simpa using hf
      rw [(h.lost (.inl hphase) e he hf).2, hg e he hf] at howed
      cases howed
    exact (h.kept (.inl hphase) hkept).trans howed

theorem keepsSession_of_held {s t : Driver} (hP : KeepsSession s)
    (h : t.held.isSome → s.held.isSome ∧ t.attempt.owed = s.attempt.owed ∧
      t.attempt.prior = s.attempt.prior ∧ t.attempt.opened = s.attempt.opened) : KeepsSession t := by
  intro ht
  obtain ⟨hs, howed, hprior, hopened⟩ := h ht
  rw [howed, hprior, hopened]
  exact hP hs

theorem keepsSession_opened (hP : KeepsSession s) (hphase : s.phase = .hello) :
    KeepsSession (s.opened s.attempt.prior) := by
  intro _ x hx
  have hprior := (hP (by rw [Driver.held, hphase]; rfl) x hx).1
  refine ⟨hprior, fun o ho => ?_⟩
  obtain rfl : opening s.attempt.prior = o := Option.some.inj ho
  rw [hprior]
  rfl

theorem DriverStepped.keeps (hst : DriverStepped s t) (hP : KeepsSession s)
    (hnot : s.phase = .idle → t.held = none) : KeepsSession t := by
  cases hst with
  | begun hphase hb => cases hnot hphase
  | exhausted hphase hb => exact fun e => by cases e
  | connected hphase =>
    exact keepsSession_of_held hP fun _ => ⟨by rw [Driver.held, hphase]; rfl, rfl, rfl, rfl⟩
  | kept => exact hP
  | opened hphase => exact keepsSession_opened hP hphase
  | carried hphase hsession =>
    exact keepsSession_of_held hP fun _ => ⟨by rw [Driver.held, hphase]; rfl, rfl, rfl, rfl⟩
  | finished hheld herror hresume => exact fun e => by rw [held_arm] at e; cases e
  | woken hphase => exact fun e => by cases e
  | cancelled => exact keepsSession_of_held hP fun e => ⟨e, rfl, rfl, rfl⟩
  | roused hphase hc => exact fun e => by cases e

theorem keepsSession_step (h : SessionInv s) (hP : KeepsSession s) {act : DriverAct}
    (e : driverStep s act = some t) : KeepsSession t ↔ BeginsWhole s act := by
  cases act with
  | enter =>
    cases hphase : s.phase <;> simp only [driverStep, hphase] at e
    case idle =>
      cases e
      cases hb : s.begins with
      | true =>
        rw [if_pos rfl, keepsSession_begin h hphase]
        exact ⟨fun hg _ _ => hg, fun hg => hg hphase hb⟩
      | false =>
        exact ⟨fun _ _ hb' => absurd (hb.symm.trans hb') (by rintro ⟨⟩), fun _ hheld => by cases hheld⟩
    all_goals cases e
  | cancel =>
    cases e
    exact ⟨fun _ => trivial, fun _ => hP⟩
  | _ =>
    refine ⟨fun _ => trivial, fun _ => (driverStep_stepped e).keeps hP fun hphase => ?_⟩
    simp [driverStep, hphase] at e

theorem keepsSession_iff (acts : List DriverAct) :
    Always driverStep KeepsSession .init acts ↔ Steps driverStep BeginsWhole .init acts :=
  always_iff_steps SessionInv
    (fun _ _ _ hi _ e hPt => hi.step (driverStep_stepped e) hPt)
    (fun _ _ _ hi hP e => keepsSession_step hi hP e) .init (fun e => by cases e) acts

namespace Sample

def dialFails : List DriverAct :=
  learnedThenDropped ++ [.enter, .connectFailed (.http "dial"), .wake, .enter, .connected,
    .handshake (some helloFrame) (.ok ())]

end Sample

/-- The bot identifies anew, though the session it learned was never invalidated. -/
theorem session_thrown_away : ∃ s, run driverStep .init Sample.dialFails = some s ∧
    s.attempt.owed.map (fun x => (x.sessionId, x.lastSeq)) = some ("sess1", 1) ∧
    s.attempt.opened = some .identify ∧ ¬KeepsSession s := by
  have hrun : (run driverStep .init Sample.dialFails).map (fun s =>
      (s.attempt.owed.map fun x => (x.sessionId, x.lastSeq), s.attempt.opened, s.held.isSome)) =
      some (some ("sess1", 1), some .identify, true) := by
    decide +kernel
  obtain ⟨s, hs, e⟩ := Option.map_eq_some_iff.mp hrun
  simp only [Prod.mk.injEq] at e
  obtain ⟨howed, hopened, hheld⟩ := e
  refine ⟨s, hs, howed, hopened, fun hP => ?_⟩
  obtain ⟨x, hx, -⟩ := Option.map_eq_some_iff.mp howed
  cases (hP hheld x hx).2 .identify hopened

end Patom.Discord
