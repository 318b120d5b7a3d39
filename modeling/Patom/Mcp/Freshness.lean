import Patom.Mcp.Refresher

open Patom.Foundation

namespace Patom.Mcp

variable {col : Collation}

section Steps

variable {r r' : Registry} {i : Nat}

theorem step_list (h : r.step col (.list i) = some r') : ∃ current,
    r.flights[i]? = some ⟨current, .started⟩
      ∧ r' = { r with flights := r.flights.set i ⟨current, .listed (enabled col r.db)⟩ } := by
  obtain ⟨⟨current, phase⟩, hi, h⟩ := Option.bind_eq_some_iff.mp h
  cases phase with
  | started => exact ⟨current, hi, (Option.some.inj h).symm⟩
  | listed => cases h
  | serving => cases h

theorem step_fail (h : r.step col (.fail i) = some r') :
    r' = { r with flights := r.flights.eraseIdx i } := by
  obtain ⟨⟨current, phase⟩, hi, h⟩ := Option.bind_eq_some_iff.mp h
  cases phase with
  | started => exact (Option.some.inj h).symm
  | listed => cases h
  | serving => cases h

theorem step_take (h : r.step col (.take i) = some r') : ∃ current rows,
    r.flights[i]? = some ⟨current, .listed rows⟩
      ∧ r' = { r with
          inner := { r.inner with servers := .empty }
          flights := r.flights.set i ⟨current, .serving rows (r.inner.servers, .default)⟩ } := by
  obtain ⟨⟨current, phase⟩, hi, h⟩ := Option.bind_eq_some_iff.mp h
  cases phase with
  | started => cases h
  | listed rows => exact ⟨current, rows, hi, (Option.some.inj h).symm⟩
  | serving => cases h

theorem step_serve {now : Time} {reply : Reply} (h : r.step col (.serve i now reply) = some r') :
    ∃ current row rest acc, r.flights[i]? = some ⟨current, .serving (row :: rest) acc⟩
      ∧ r' = { r with
          flights := r.flights.set i ⟨current, .serving rest (serve acc ⟨row, now, reply⟩)⟩ } := by
  obtain ⟨⟨current, phase⟩, hi, h⟩ := Option.bind_eq_some_iff.mp h
  cases phase with
  | started => cases h
  | listed => cases h
  | serving rest acc =>
    cases rest with
    | nil => cases h
    | cons row rest => exact ⟨current, row, rest, acc, hi, (Option.some.inj h).symm⟩

theorem step_swap (h : r.step col (.swap i) = some r') : ∃ current acc,
    r.flights[i]? = some ⟨current, .serving [] acc⟩
      ∧ r' = { r with
          inner := acc.2.finish
          flights := r.flights.eraseIdx i
          fresh := r.fresh || current } := by
  obtain ⟨⟨current, phase⟩, hi, h⟩ := Option.bind_eq_some_iff.mp h
  cases phase with
  | started => cases h
  | listed => cases h
  | serving rest acc =>
    cases rest with
    | nil => exact ⟨current, acc, hi, (Option.some.inj h).symm⟩
    | cons => cases h

end Steps

def Phase.Of (rows : List McpServerRecord) : Phase → Prop
  | .started => True
  | .listed rows' => rows' = rows
  | .serving rest acc => ∃ (prior : Table ConnectedServer) (served : List Served),
      served.map (·.row) ++ rest = rows ∧ acc = served.foldl serve (prior, .default)

/-- A refresh that no change has overtaken works on the rows as they are. -/
def Registry.Sound (col : Collation) (r : Registry) : Prop :=
  ∀ f ∈ r.flights, f.current = true → f.phase.Of (enabled col r.db)

theorem Phase.Of.serve {rows rest : List McpServerRecord} {row : McpServerRecord}
    {acc : Table ConnectedServer × McpState} (h : (Phase.serving (row :: rest) acc).Of rows)
    (now : Time) (reply : Reply) : (Phase.serving rest (serve acc ⟨row, now, reply⟩)).Of rows := by
  obtain ⟨prior, served, hrows, rfl⟩ := h
  refine ⟨prior, served ++ [⟨row, now, reply⟩], ?_, ?_⟩
  · simpa using hrows
  · rw [List.foldl_append, List.foldl_cons, List.foldl_nil]

theorem Phase.Of.builtFrom {rows : List McpServerRecord} {acc : Table ConnectedServer × McpState}
    (h : (Phase.serving [] acc).Of rows) : BuiltFrom rows acc.2.finish := by
  obtain ⟨prior, served, hrows, rfl⟩ := h
  exact ⟨prior, served, by simpa using hrows, rfl⟩

theorem Registry.Sound.set {r : Registry} (h : r.Sound col) {i : Nat} {current : Bool}
    {phase phase' : Phase} (hi : r.flights[i]? = some ⟨current, phase⟩)
    (hnext : phase.Of (enabled col r.db) → phase'.Of (enabled col r.db)) :
    ∀ f ∈ r.flights.set i ⟨current, phase'⟩, f.current = true → f.phase.Of (enabled col r.db) := by
  intro f hf hcurrent
  rcases List.mem_or_eq_of_mem_set hf with hf | rfl
  · exact h f hf hcurrent
  · exact hnext (h _ (List.mem_of_getElem? hi) hcurrent)

theorem sound_step {r r' : Registry} {a : Registry.Act} (h : r.Sound col)
    (e : r.step col a = some r') : r'.Sound col := by
  cases a with
  | change db =>
    cases e
    intro f hf hcurrent
    obtain ⟨g, -, rfl⟩ := List.mem_map.mp hf
    cases hcurrent
  | start =>
    cases e
    intro f hf hcurrent
    rcases List.mem_append.mp hf with hf | hf
    · exact h f hf hcurrent
    · cases List.mem_singleton.mp hf
      trivial
  | list i =>
    obtain ⟨current, hi, rfl⟩ := step_list e
    exact h.set hi fun _ => rfl
  | fail i =>
    obtain rfl := step_fail e
    exact fun f hf => h f (List.mem_of_mem_eraseIdx hf)
  | take i =>
    obtain ⟨current, rows, hi, rfl⟩ := step_take e
    exact h.set hi fun hrows => ⟨r.inner.servers, [], hrows, rfl⟩
  | serve i now reply =>
    obtain ⟨current, row, rest, acc, hi, rfl⟩ := step_serve e
    exact h.set hi fun hserving => hserving.serve now reply
  | swap i =>
    obtain ⟨current, acc, hi, rfl⟩ := step_swap e
    exact fun f hf => h f (List.mem_of_mem_eraseIdx hf)

structure Registry.Single (r : Registry) : Prop where
  alone : r.flights.length ≤ 1
  latest : r.fresh = true → ∀ f ∈ r.flights, f.current = true

structure Server.Inv (col : Collation) (s : Server) : Prop where
  sound : s.registry.Sound col
  single : s.registry.Single
  current : s.registry.Current col

theorem Registry.Single.set {r : Registry} (h : r.Single) {i : Nat} {current : Bool}
    {phase phase' : Phase} (hi : r.flights[i]? = some ⟨current, phase⟩) :
    r.fresh = true → ∀ f ∈ r.flights.set i ⟨current, phase'⟩, f.current = true := by
  intro hfresh f hf
  rcases List.mem_or_eq_of_mem_set hf with hf | rfl
  · exact h.latest hfresh f hf
  · exact h.latest hfresh ⟨current, phase⟩ (List.mem_of_getElem? hi)

theorem eraseIdx_zero_of_alone {α : Type*} {l : List α} (h : l.length ≤ 1) : l.eraseIdx 0 = [] := by
  cases l with
  | nil => rfl
  | cons a l => simpa using h

theorem inv_step {s s' : Server} {a : Server.Act} (h : s.Inv col)
    (e : Server.step col s a = some s') : s'.Inv col := by
  obtain ⟨hsound, hsingle, hcurrent⟩ := h
  cases a with
  | change db =>
    cases e
    refine ⟨sound_step hsound (a := .change db) rfl, ⟨?_, nofun⟩, nofun⟩
    simpa using hsingle.alone
  | request =>
    cases e
    exact ⟨hsound, hsingle, hcurrent⟩
  | wake =>
    simp only [Server.step] at e
    split at e
    · rename_i hidle
      cases e
      have hempty : s.registry.flights = [] := by simpa using (Bool.and_eq_true_iff.mp hidle).2
      refine ⟨sound_step hsound (a := .start) rfl, ⟨?_, fun _ f hf => ?_⟩, hcurrent⟩
      · simp [hempty]
      · simp only [hempty, List.nil_append, List.mem_singleton] at hf
        rw [hf]
    · cases e
  | list =>
    obtain ⟨r, hr, rfl⟩ := Option.map_eq_some_iff.mp e
    obtain ⟨current, hi, rfl⟩ := step_list hr
    exact ⟨sound_step hsound hr, ⟨by simpa using hsingle.alone, hsingle.set hi⟩, hcurrent⟩
  | fail =>
    obtain ⟨r, hr, rfl⟩ := Option.map_eq_some_iff.mp e
    refine ⟨sound_step hsound hr, ?_, ?_⟩ <;> obtain rfl := step_fail hr
    · rw [eraseIdx_zero_of_alone hsingle.alone]
      exact ⟨Nat.zero_le 1, nofun⟩
    · exact hcurrent
  | take =>
    obtain ⟨r, hr, rfl⟩ := Option.map_eq_some_iff.mp e
    obtain ⟨current, rows, hi, rfl⟩ := step_take hr
    exact ⟨sound_step hsound hr, ⟨by simpa using hsingle.alone, hsingle.set hi⟩, hcurrent⟩
  | serve now reply =>
    obtain ⟨r, hr, rfl⟩ := Option.map_eq_some_iff.mp e
    obtain ⟨current, row, rest, acc, hi, rfl⟩ := step_serve hr
    exact ⟨sound_step hsound hr, ⟨by simpa using hsingle.alone, hsingle.set hi⟩, hcurrent⟩
  | swap =>
    obtain ⟨r, hr, rfl⟩ := Option.map_eq_some_iff.mp e
    obtain ⟨current, acc, hi, rfl⟩ := step_swap hr
    have hmem := List.mem_of_getElem? hi
    refine ⟨sound_step hsound hr, ?_, ?_⟩
    · rw [eraseIdx_zero_of_alone hsingle.alone]
      exact ⟨Nat.zero_le 1, nofun⟩
    · -- The only refresh there is has seen every change if any completed one has.
      intro hfresh
      have hlatest : current = true := by
        rcases Bool.or_eq_true_iff.mp hfresh with hfresh | hcurrent
        · exact hsingle.latest hfresh _ hmem
        · exact hcurrent
      exact (hsound _ hmem hlatest).builtFrom

theorem inv_boot (db : McpServers) : (Server.boot db).Inv col where
  sound f hf _ := by
    cases List.mem_singleton.mp hf
    trivial
  single := ⟨Nat.le_refl 1, nofun⟩
  current := nofun

/-- Whatever changes and whoever asks while it works, the process publishes the rows of its last
complete refresh, and one that started after the last change publishes the changed rows. -/
theorem server_current (col : Collation) (db : McpServers) (as : List Server.Act) :
    Always (Server.step col) (fun s => s.registry.Current col) (Server.boot db) as :=
  (Always.of_inv (fun _ _ _ h e => inv_step h e) (inv_boot db) as).mono fun _ h => h.current

theorem refreshOne_orgCatalogServers (now : Time) (row : McpServerRecord) (reply : Reply)
    (acc : Table ConnectedServer × McpState) :
    (refreshOne now row reply acc).1.2.orgCatalogServers
      = acc.2.orgCatalogServers.put ⟨row.orgId, row.catalogId, row.id⟩ := by
  have hingest : ∀ (client : ClientId) (remotes : List RemoteTool)
      (x : McpState × List DiscoveredTool),
      (remotes.foldl (ingestTool row.id row.catalogId client) x).1.orgCatalogServers
        = x.1.orgCatalogServers := by
    intro client remotes
    induction remotes with
    | nil => exact fun _ => rfl
    | cons remote remotes ih =>
      intro x
      rw [List.foldl_cons, ih]
      unfold ingestTool
      cases prefixedName row.catalogId remote.name with
      | error => rfl
      | ok toolName =>
        dsimp only
        split
        · rfl
        · cases McpToolRemoteName.tryFrom remote.name <;> rfl
  unfold refreshOne
  cases reply.credentials with
  | error => rfl
  | ok credentials =>
    dsimp only
    cases connectOrReuse row credentials reply (acc.1.find? row.id) with
    | error => rfl
    | ok client =>
      dsimp only
      cases reply.listTools client with
      | error => rfl
      | ok remotes => exact hingest client _ _

theorem BuiltFrom.resolves {rows : List McpServerRecord} {s : McpState} (h : BuiltFrom rows s)
    {row : McpServerRecord} (hrow : row ∈ rows) :
    (s.orgCatalogServers.find? (row.orgId, row.catalogId)).isSome = true := by
  obtain ⟨prior, served, rfl, hs⟩ := h
  have hkeeps : ∀ (served : List Served) (acc : Table ConnectedServer × McpState),
      (acc.2.orgCatalogServers.find? (row.orgId, row.catalogId)).isSome = true
        ∨ row ∈ served.map (·.row) →
      ((served.foldl serve acc).2.orgCatalogServers.find? (row.orgId, row.catalogId)).isSome
        = true := by
    intro served
    induction served with
    | nil => simp
    | cons x served ih =>
      intro acc hacc
      refine ih _ ?_
      rw [serve, refreshOne_orgCatalogServers, Table.find?_put]
      simp only [List.map_cons, List.mem_cons] at hacc
      rcases hacc with hacc | rfl | hacc
      · left
        split <;> simp [hacc]
      · simp [key]
      · exact .inr hacc
  have hfield := congrArg McpState.orgCatalogServers hs
  rw [show s.orgCatalogServers = _ from hfield]
  exact hkeeps served _ (.inr hrow)

def lateRow : McpServerRecord :=
  ⟨1, 1, ⟨"linear", by decide, by decide, by decide⟩, true, ⟨"https://mcp"⟩, .ok⟩

def unwired : McpServers := ⟨.empty, by decide⟩

def lateWired : McpServers := ⟨.single lateRow, by decide⟩

def offline : Reply := ⟨.error "", .error "", fun _ => .error ""⟩

def overlap : List Registry.Act :=
  [.start, .list 0, .take 0, .change lateWired, .start, .list 1, .take 1, .serve 1 0 offline,
    .swap 1, .swap 0]

/-- Two overlapping calls of a registry's `refresh` end with the rows of the older one. -/
theorem overtaken : ¬ ∀ (col : Collation) (db : McpServers) (as : List Registry.Act),
    Always (Registry.step col) (·.Current col) (Registry.new db) as := by
  intro h
  have hnone : enabled .codepoints unwired = [] := by
    rw [enabled, listEnabled, show unwired.rows.rows.filter (·.listed) = [] by decide,
      List.mergeSort_nil, List.take_nil]
  have hlate : enabled .codepoints lateWired = [lateRow] := by
    rw [enabled, listEnabled, show lateWired.rows.rows.filter (·.listed) = [lateRow] by decide,
      List.mergeSort_singleton]
    rfl
  have hrun : ∃ r, run (Registry.step .codepoints) (Registry.new unwired) overlap = some r
      ∧ r.db = lateWired ∧ r.fresh = true ∧ r.inner = McpState.default.finish := by
    have hboth : run (Registry.step .codepoints) (Registry.new unwired) overlap
        = run (Registry.step .codepoints) ⟨lateWired, .default,
            [⟨false, .serving (enabled .codepoints unwired) (.empty, .default)⟩,
              ⟨true, .serving (enabled .codepoints lateWired) (.empty, .default)⟩], false⟩
            [.serve 1 0 offline, .swap 1, .swap 0] := rfl
    rw [hboth, hnone, hlate, run_step rfl, run_step rfl, run_step rfl, run_nil]
    exact ⟨_, rfl, rfl, rfl, rfl⟩
  obtain ⟨r, hr, hdb, hfresh, hinner⟩ := hrun
  have hcurrent := (h .codepoints unwired overlap).run hr hfresh
  rw [hdb, hlate] at hcurrent
  have hresolves := hcurrent.resolves (List.mem_singleton_self lateRow)
  rw [hinner] at hresolves
  cases hresolves

end Patom.Mcp
