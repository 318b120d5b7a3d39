import Patom.Mcp.Registry

open Patom.Foundation

namespace Patom.Mcp

/-- What one refresh finds: the wired servers, the connections it took, the servers' answers. -/
structure Refresh where
  now : Time
  db : McpServers
  prior : Table ConnectedServer
  reply : McpServerId → Reply

def Refresh.state (col : Collation) (r : Refresh) : McpState :=
  refresh col r.now r.db r.prior r.reply

def McpServers.owns (db : McpServers) (org : OrgId) (server : McpServerId) : Bool :=
  (db.rows.find? server).any (·.orgId = org)

def McpState.contributed (s : McpState) (owned : McpServerId → Bool) :
    List (ToolSpec × ToolOrigin) :=
  s.specs.filterMap fun spec => (s.tools.find? spec.name).bind fun tool =>
    if owned tool.origin.server then some (spec, tool.origin) else none

def Refresh.toolsOf (col : Collation) (r : Refresh) (org : OrgId) : List (ToolSpec × ToolOrigin) :=
  (r.state col).contributed (r.db.owns org)

/-- The server is reachable, and lists the same over every connection. -/
structure Serves (reply : Reply) (tools : List RemoteTool) : Prop where
  credentials : ∃ c, reply.credentials = .ok c
  connect : ∃ client, reply.connect = .ok client
  lists : ∀ client, reply.listTools client = .ok tools

structure AgreeOn (org : OrgId) (r r' : Refresh) : Prop where
  rows : ∀ row : McpServerRecord, row.orgId = org → (row ∈ r.db.rows ↔ row ∈ r'.db.rows)
  served : ∀ row ∈ r.db.rows, row.orgId = org → row.listed = true →
    ∃ tools, Serves (r.reply row.id) tools ∧ Serves (r'.reply row.id) tools

def Refresh.offers (r : Refresh) (name : ToolName) (row : McpServerRecord) : Bool :=
  (offer r.prior r.reply name row).isSome

/-- Of the servers within the cap, the first to list a tool of the name is the organization's. -/
def Foremost (col : Collation) (org : OrgId) (r : Refresh) (name : ToolName) : Prop :=
  ∃ row, ((listEnabled col r.db).take MAX_MCP_SERVERS).find? (r.offers name) = some row
    ∧ row.orgId = org

variable {col : Collation} {org : OrgId} {r r' : Refresh}

theorem AgreeOn.symm (h : AgreeOn org r r') : AgreeOn org r' r where
  rows row horg := (h.rows row horg).symm
  served row hrow horg hlisted := by
    obtain ⟨tools, hr, hr'⟩ := h.served row ((h.rows row horg).mpr hrow) horg hlisted
    exact ⟨tools, hr', hr⟩

def RegisteredTool.view (tool : RegisteredTool) : ToolSpec × ToolOrigin := (tool.spec, tool.origin)

theorem view_registered (server : McpServerId) (catalogId : McpCatalogId) (client client' : ClientId)
    (remote : RemoteTool) :
    (registered server catalogId client remote).map RegisteredTool.view
      = (registered server catalogId client' remote).map RegisteredTool.view := by
  unfold registered
  cases prefixedName catalogId remote.name with
  | error => rfl
  | ok toolName => cases McpToolRemoteName.tryFrom remote.name <;> rfl

theorem Serves.answered {reply : Reply} {tools : List RemoteTool} (h : Serves reply tools)
    (prior : Option ConnectedServer) (row : McpServerRecord) :
    ∃ client, answered prior row reply = .ok (client, tools) := by
  obtain ⟨credentials, hcredentials⟩ := h.credentials
  obtain ⟨fresh, hfresh⟩ := h.connect
  have hconnect : ∃ client, connectOrReuse row credentials reply prior = .ok client := by
    unfold connectOrReuse
    split
    · split
      · exact ⟨_, rfl⟩
      · exact ⟨fresh, hfresh⟩
    · exact ⟨fresh, hfresh⟩
  obtain ⟨client, hclient⟩ := hconnect
  refine ⟨client, ?_⟩
  simp [Mcp.answered, hcredentials, hclient, h.lists, bind, Except.bind, pure, Except.pure]

theorem Serves.view_offered {reply reply' : Reply} {tools : List RemoteTool}
    (h : Serves reply tools) (h' : Serves reply' tools) (prior prior' : Option ConnectedServer)
    (row : McpServerRecord) :
    (offered prior row reply).map RegisteredTool.view
      = (offered prior' row reply').map RegisteredTool.view := by
  obtain ⟨client, hclient⟩ := h.answered prior row
  obtain ⟨client', hclient'⟩ := h'.answered prior' row
  unfold offered
  rw [hclient, hclient']
  dsimp only
  rw [List.map_filterMap, List.map_filterMap]
  exact List.filterMap_congr fun remote _ => view_registered _ _ client client' remote

theorem AgreeOn.view_offer (h : AgreeOn org r r') {row : McpServerRecord}
    (hrow : row ∈ listEnabled col r.db) (horg : row.orgId = org) (name : ToolName) :
    (offer r.prior r.reply name row).map RegisteredTool.view
      = (offer r'.prior r'.reply name row).map RegisteredTool.view := by
  obtain ⟨hmem, hlisted⟩ := mem_listEnabled.mp hrow
  obtain ⟨tools, hserves, hserves'⟩ := h.served row hmem horg hlisted
  have hview := hserves.view_offered hserves' (r.prior.find? row.id) (r'.prior.find? row.id) row
  have hfind : ∀ l : List RegisteredTool, (l.find? (·.spec.name = name)).map RegisteredTool.view
      = (l.map RegisteredTool.view).find? (·.1.name = name) :=
    fun l => by rw [List.find?_map]; rfl
  rw [offer, offer, hfind, hfind, hview]

theorem AgreeOn.offers_iff (h : AgreeOn org r r') {row : McpServerRecord}
    (hrow : row ∈ listEnabled col r.db) (horg : row.orgId = org) (name : ToolName) :
    r.offers name row = r'.offers name row := by
  have hview := congrArg Option.isSome (h.view_offer hrow horg name)
  rwa [Option.isSome_map, Option.isSome_map] at hview

theorem AgreeOn.filter_listEnabled (h : AgreeOn org r r') :
    (listEnabled col r.db).filter (·.orgId = org)
      = (listEnabled col r'.db).filter (·.orgId = org) := by
  have hnodup : ∀ db : McpServers, ((listEnabled col db).filter (·.orgId = org)).Nodup :=
    fun db => (List.Nodup.of_map _ nodup_listEnabled).sublist List.filter_sublist
  have hperm : ((listEnabled col r.db).filter (·.orgId = org)).Perm
      ((listEnabled col r'.db).filter (·.orgId = org)) := by
    refine (List.perm_ext_iff_of_nodup (hnodup r.db) (hnodup r'.db)).mpr fun row => ?_
    simp only [List.mem_filter, mem_listEnabled, decide_eq_true_eq]
    constructor
    · rintro ⟨⟨hrow, hlisted⟩, horg⟩
      exact ⟨⟨(h.rows row horg).mp hrow, hlisted⟩, horg⟩
    · rintro ⟨⟨hrow, hlisted⟩, horg⟩
      exact ⟨⟨(h.rows row horg).mpr hrow, hlisted⟩, horg⟩
  have hsorted : ∀ db : McpServers, ((listEnabled col db).filter (·.orgId = org)).Pairwise
      fun row row' => col.rowLe row row' = true :=
    fun db => sorted_listEnabled.sublist List.filter_sublist
  refine List.Perm.eq_of_pairwise ?_ (hsorted r.db) (hsorted r'.db) hperm
  intro row row' hrow hrow' hle hle'
  simp only [List.mem_filter, mem_listEnabled, decide_eq_true_eq] at hrow hrow'
  have hrow'' : row' ∈ r.db.rows := (h.rows row' hrow'.2).mpr hrow'.1.1
  exact r.db.unique row hrow.1.1 row' hrow'' (hrow.2.trans hrow'.2.symm)
    (McpCatalogId.ext (col.antisymm _ _ hle hle'))

theorem find?_filter_of_take {α : Type*} {p q : α → Bool} {l : List α} {k : Nat} {a : α}
    (h : (l.take k).find? p = some a) (hq : q a = true) : (l.filter q).find? p = some a := by
  have hl : l.find? p = some a := by
    rw [← List.take_append_drop k l, List.find?_append, h, Option.some_or]
  obtain ⟨hp, as, bs, rfl, has⟩ := List.find?_eq_some_iff_append.mp hl
  rw [List.filter_append, List.filter_cons_of_pos hq]
  refine List.find?_eq_some_iff_append.mpr ⟨hp, as.filter q, bs.filter q, rfl, ?_⟩
  exact fun x hx => has x (List.mem_filter.mp hx).1

theorem AgreeOn.foremost_eq (h : AgreeOn org r r') {name : ToolName} {row row' : McpServerRecord}
    (hrow : ((listEnabled col r.db).take MAX_MCP_SERVERS).find? (r.offers name) = some row)
    (horg : row.orgId = org)
    (hrow' : ((listEnabled col r'.db).take MAX_MCP_SERVERS).find? (r'.offers name) = some row')
    (horg' : row'.orgId = org) : row = row' := by
  have hfirst := find?_filter_of_take (q := (·.orgId = org)) hrow (by simpa using horg)
  have hfirst' := find?_filter_of_take (q := (·.orgId = org)) hrow' (by simpa using horg')
  have hoffers : ((listEnabled col r.db).filter (·.orgId = org)).find? (r.offers name)
      = ((listEnabled col r.db).filter (·.orgId = org)).find? (r'.offers name) := by
    refine List.find?_congr fun x hx => ?_
    obtain ⟨hx, hxorg⟩ := List.mem_filter.mp hx
    exact h.offers_iff hx (by simpa using hxorg) name
  rw [hoffers, h.filter_listEnabled, hfirst'] at hfirst
  exact (Option.some.inj hfirst).symm

theorem find?_tools (r : Refresh) (name : ToolName) :
    (r.state col).tools.find? name
      = ((listEnabled col r.db).take MAX_MCP_SERVERS).findSome? (offer r.prior r.reply name) :=
  find?_refresh r.now r.prior r.reply name

theorem findSome?_eq_some_iff_find? {α β : Type*} {f : α → Option β} {l : List α} {b : β} :
    l.findSome? f = some b ↔ ∃ a, l.find? (fun a => (f a).isSome) = some a ∧ f a = some b := by
  induction l with
  | nil => simp
  | cons a l ih =>
    cases h : f a with
    | none => simpa [h] using ih
    | some b' => simp [h]

theorem mem_toolsOf {e : ToolSpec × ToolOrigin} :
    e ∈ r.toolsOf col org ↔ ∃ row,
      ((listEnabled col r.db).take MAX_MCP_SERVERS).find? (r.offers e.1.name) = some row
        ∧ row.orgId = org
        ∧ (offer r.prior r.reply e.1.name row).map RegisteredTool.view = some e := by
  have hfirst : ∀ tool, (r.state col).tools.find? e.1.name = some tool ↔ ∃ row,
      ((listEnabled col r.db).take MAX_MCP_SERVERS).find? (r.offers e.1.name) = some row
        ∧ offer r.prior r.reply e.1.name row = some tool := fun tool => by
    rw [find?_tools, findSome?_eq_some_iff_find?]
    rfl
  have howner : ∀ row tool,
      ((listEnabled col r.db).take MAX_MCP_SERVERS).find? (r.offers e.1.name) = some row →
      offer r.prior r.reply e.1.name row = some tool →
      (r.db.owns org tool.origin.server = true ↔ row.orgId = org) := by
    intro row tool hrow htool
    have hmem : row ∈ r.db.rows :=
      (mem_listEnabled.mp (List.mem_of_mem_take (List.mem_of_find?_eq_some hrow))).1
    have hfind : r.db.rows.find? tool.origin.server = some row := by
      rw [server_of_offer htool]
      exact Table.find?_of_mem hmem
    simp [McpServers.owns, hfind]
  rw [Refresh.toolsOf, McpState.contributed, List.mem_filterMap]
  constructor
  · rintro ⟨spec, hspec, he⟩
    obtain ⟨tool, htool, rfl⟩ := mem_specs_refresh.mp hspec
    rw [Refresh.state, htool, Option.bind_some] at he
    split at he
    · rename_i howned
      cases he
      obtain ⟨row, hrow, hoffer⟩ := (hfirst tool).mp htool
      refine ⟨row, hrow, (howner row tool hrow hoffer).mp howned, ?_⟩
      rw [hoffer]
      rfl
    · cases he
  · rintro ⟨row, hrow, horg, he⟩
    obtain ⟨tool, hoffer, rfl⟩ := Option.map_eq_some_iff.mp he
    have htool := (hfirst tool).mpr ⟨row, hrow, hoffer⟩
    refine ⟨tool.spec, mem_specs_refresh.mpr ⟨tool, htool, rfl⟩, ?_⟩
    rw [show (r.state col).tools.find? tool.spec.name = some tool from htool, Option.bind_some,
      if_pos ((howner row tool hrow hoffer).mpr horg)]
    rfl

theorem sorted_toolsOf :
    (r.toolsOf col org).Pairwise fun e e' => e.1.name.asStr < e'.1.name.asStr := by
  refine List.Pairwise.filterMap _ ?_ (sorted_specs_refresh col r.now r.prior r.reply)
  intro spec spec' hlt e he e' he'
  have hfst : ∀ (spec : ToolSpec) (e : ToolSpec × ToolOrigin),
      ((r.state col).tools.find? spec.name).bind (fun tool =>
        if r.db.owns org tool.origin.server then some (spec, tool.origin) else none) = some e →
      e.1 = spec := by
    intro spec e he
    obtain ⟨tool, -, he⟩ := Option.bind_eq_some_iff.mp he
    split at he
    · cases he
      rfl
    · cases he
  rw [hfst spec e he, hfst spec' e' he']
  exact hlt

theorem toolsOf_eq_iff :
    r.toolsOf col org = r'.toolsOf col org
      ↔ ∀ e, e ∈ r.toolsOf col org ↔ e ∈ r'.toolsOf col org := by
  constructor
  · intro h e
    rw [h]
  · intro h
    have hnodup : ∀ r : Refresh, (r.toolsOf col org).Nodup :=
      fun r => sorted_toolsOf.imp fun hlt he => by
        rw [he] at hlt
        exact lt_irrefl _ hlt
    refine List.Perm.eq_of_pairwise ?_ sorted_toolsOf sorted_toolsOf
      ((List.perm_ext_iff_of_nodup (hnodup r) (hnodup r')).mpr h)
    exact fun e e' _ _ hlt hlt' => absurd hlt' (lt_asymm hlt)

theorem foremost_iff_mem {name : ToolName} :
    Foremost col org r name ↔ ∃ e ∈ r.toolsOf col org, e.1.name = name := by
  constructor
  · rintro ⟨row, hrow, horg⟩
    have hsome : r.offers name row = true := List.find?_some hrow
    obtain ⟨tool, htool⟩ := Option.isSome_iff_exists.mp hsome
    have hname : tool.spec.name = name := by simpa using List.find?_some htool
    refine ⟨tool.view, mem_toolsOf.mpr ⟨row, ?_, horg, ?_⟩, hname⟩
    · rw [show tool.view.1.name = name from hname]
      exact hrow
    · rw [show tool.view.1.name = name from hname, htool]
      rfl
  · rintro ⟨e, he, rfl⟩
    obtain ⟨row, hrow, horg, -⟩ := mem_toolsOf.mp he
    exact ⟨row, hrow, horg⟩

theorem AgreeOn.mem_toolsOf (h : AgreeOn org r r') {e : ToolSpec × ToolOrigin}
    (hforemost : Foremost col org r e.1.name → Foremost col org r' e.1.name)
    (he : e ∈ r.toolsOf col org) : e ∈ r'.toolsOf col org := by
  obtain ⟨row, hrow, horg, hoffer⟩ := Mcp.mem_toolsOf.mp he
  obtain ⟨row', hrow', horg'⟩ := hforemost ⟨row, hrow, horg⟩
  have hlisted : row ∈ listEnabled col r.db :=
    List.mem_of_mem_take (List.mem_of_find?_eq_some hrow)
  have hview := h.view_offer hlisted horg e.1.name
  obtain rfl := h.foremost_eq hrow horg hrow' horg'
  exact Mcp.mem_toolsOf.mpr ⟨row, hrow', horg, hview ▸ hoffer⟩

/-- An organization's tools are its own affair just as far as no other organization comes between
it and the first offer of a name. -/
theorem toolsOf_eq_iff_foremost (col : Collation) (org : OrgId) (r r' : Refresh)
    (h : AgreeOn org r r') :
    r.toolsOf col org = r'.toolsOf col org
      ↔ ∀ name, Foremost col org r name ↔ Foremost col org r' name := by
  rw [toolsOf_eq_iff]
  constructor
  · intro hsame name
    rw [foremost_iff_mem, foremost_iff_mem]
    constructor
    · rintro ⟨e, he, hname⟩
      exact ⟨e, (hsame e).mp he, hname⟩
    · rintro ⟨e, he, hname⟩
      exact ⟨e, (hsame e).mpr he, hname⟩
  · intro hforemost e
    exact ⟨h.mem_toolsOf (hforemost e.1.name).mp, h.symm.mem_toolsOf (hforemost e.1.name).mpr⟩

def github : McpCatalogId := ⟨"github", by decide, by decide, by decide⟩

def wired (org : OrgId) : McpServerRecord := ⟨org, org, github, true, ⟨"https://mcp"⟩, .ok⟩

def searching : Reply := ⟨.ok false, .ok 0, fun _ => .ok [⟨"search", none, ""⟩]⟩

def alone : McpServers := ⟨.single (wired 2), by decide⟩

def joined : McpServers := ⟨⟨[wired 1, wired 2], by decide⟩, by decide⟩

def refreshed (db : McpServers) : Refresh := ⟨0, db, .empty, fun _ => searching⟩

theorem agreeOn_joined : AgreeOn 2 (refreshed alone) (refreshed joined) where
  rows row horg := by
    have hother : row ≠ wired 1 := fun h => by
      rw [h] at horg
      exact absurd horg (by decide)
    simp [refreshed, alone, joined, Table.single, Table.mem_def]
    exact fun h => absurd h hother
  served row hrow horg hlisted :=
    ⟨_, ⟨⟨_, rfl⟩, ⟨_, rfl⟩, fun _ => rfl⟩, ⟨⟨_, rfl⟩, ⟨_, rfl⟩, fun _ => rfl⟩⟩

theorem foremost_joined :
    (refreshed alone).toolsOf .codepoints 2 = (refreshed joined).toolsOf .codepoints 2
      ↔ ∀ name, Foremost .codepoints 2 (refreshed alone) name
          ↔ Foremost .codepoints 2 (refreshed joined) name :=
  toolsOf_eq_iff_foremost .codepoints 2 (refreshed alone) (refreshed joined) agreeOn_joined

theorem listEnabled_alone : listEnabled .codepoints alone = [wired 2] := by
  rw [listEnabled, show alone.rows.rows.filter (·.listed) = [wired 2] by decide,
    List.mergeSort_singleton]

theorem listEnabled_joined : listEnabled .codepoints joined = [wired 1, wired 2] := by
  rw [listEnabled, show joined.rows.rows.filter (·.listed) = [wired 1, wired 2] by decide]
  exact List.mergeSort_of_pairwise (by simp [Collation.rowLe, Collation.codepoints, wired])

def githubSearch : ToolName := ⟨"mcp_github_search", by decide, by decide, by decide⟩

/-- A second organization wires an entry of the catalogue and gets none of its tools. -/
theorem tools_withheld : ¬ ∀ (col : Collation) (org : OrgId) (r r' : Refresh), AgreeOn org r r' →
    r.toolsOf col org = r'.toolsOf col org := by
  intro h
  have halone : Foremost .codepoints 2 (refreshed alone) githubSearch := by
    refine ⟨wired 2, ?_, rfl⟩
    rw [show (refreshed alone).db = alone from rfl, listEnabled_alone]
    decide +kernel
  rw [foremost_iff_mem, h .codepoints 2 _ _ agreeOn_joined, ← foremost_iff_mem] at halone
  obtain ⟨row, hrow, horg⟩ := halone
  have hfirst : ((listEnabled .codepoints joined).take MAX_MCP_SERVERS).find?
      ((refreshed joined).offers githubSearch) = some (wired 1) := by
    rw [listEnabled_joined]
    decide +kernel
  rw [show (refreshed joined).db = joined from rfl, hfirst] at hrow
  cases hrow
  exact absurd horg (by decide)

end Patom.Mcp
