import Patom.Foundation.Table
import Patom.Types

open Patom.Foundation

namespace Patom.Mcp

def MCP_CATALOG_ID_MAX_LEN : Nat := 40

def catalogIdChar (c : Char) : Bool := c.isLower || c.isDigit || c == '_' || c == '-'

@[ext] structure McpCatalogId where
  asStr : String
  bounded : asStr.utf8ByteSize ≤ MCP_CATALOG_ID_MAX_LEN
  starts : asStr.toList.head?.any Char.isLower
  allowed : asStr.toList.tail.all catalogIdChar

instance : DecidableEq McpCatalogId := fun _ _ => decidable_of_iff _ McpCatalogId.ext_iff.symm

def McpCatalogId.tryFrom (raw : String) : Except ParseError McpCatalogId :=
  if raw = "" then .error (.empty "mcp_catalog_id")
  else if h : raw.utf8ByteSize ≤ MCP_CATALOG_ID_MAX_LEN then
    if h' : raw.toList.head?.any Char.isLower then
      if h'' : raw.toList.tail.all catalogIdChar then .ok ⟨raw, h, h', h''⟩
      else .error (.malformed "mcp_catalog_id" "allowed: a-z 0-9 _ -")
    else .error (.malformed "mcp_catalog_id" "must start with a-z")
  else .error (.tooLong "mcp_catalog_id" MCP_CATALOG_ID_MAX_LEN raw.utf8ByteSize)

inductive McpAuthKind
  | oauth2
  | staticHeaders
  | none
  deriving DecidableEq

def MAX_MCP_SERVERS : Nat := 32
def MAX_TOOLS_PER_SERVER : Nat := 64
def MCP_TOOL_REMOTE_NAME_MAX_LEN : Nat := 64

abbrev McpServerId := Uuid

abbrev ClientId := Nat

structure McpTransport where
  url : String
  deriving DecidableEq

inductive ConnectionStatus
  | ok
  | authPending
  | reconnectRequired
  | error
  deriving DecidableEq

structure McpServerRecord where
  id : McpServerId
  orgId : OrgId
  catalogId : McpCatalogId
  enabled : Bool
  config : McpTransport
  connectionStatus : ConnectionStatus
  deriving DecidableEq

structure McpToolRemoteName where
  asStr : String
  nonempty : asStr ≠ ""
  bounded : asStr.utf8ByteSize ≤ MCP_TOOL_REMOTE_NAME_MAX_LEN

def McpToolRemoteName.tryFrom (raw : String) : Except ParseError McpToolRemoteName :=
  if h : raw = "" then .error (.empty "mcp_tool_remote_name")
  else if h' : raw.utf8ByteSize ≤ MCP_TOOL_REMOTE_NAME_MAX_LEN then .ok ⟨raw, h, h'⟩
  else .error (.tooLong "mcp_tool_remote_name" MCP_TOOL_REMOTE_NAME_MAX_LEN raw.utf8ByteSize)

structure RemoteTool where
  name : String
  description : Option String
  inputSchema : String

structure DiscoveredTool where
  remoteName : String
  prefixedName : String
  description : Option String

structure ToolSpec where
  name : ToolName
  description : String
  inputSchema : String

structure ToolOrigin where
  server : McpServerId
  remoteName : McpToolRemoteName

structure RegisteredTool where
  spec : ToolSpec
  origin : ToolOrigin
  client : ClientId

structure ConnectedServer where
  id : McpServerId
  config : McpTransport
  client : ClientId

structure OrgCatalogServer where
  orgId : OrgId
  catalogId : McpCatalogId
  server : McpServerId

instance : Keyed McpServerRecord McpServerId := ⟨(·.id)⟩
instance : Keyed RegisteredTool ToolName := ⟨(·.spec.name)⟩
instance : Keyed ConnectedServer McpServerId := ⟨(·.id)⟩
instance : Keyed OrgCatalogServer (OrgId × McpCatalogId) := ⟨fun r => (r.orgId, r.catalogId)⟩

structure McpServers where
  rows : Table McpServerRecord
  unique : ∀ r ∈ rows, ∀ r' ∈ rows, r.orgId = r'.orgId → r.catalogId = r'.catalogId → r = r'

structure Collation where
  le : String → String → Bool
  total : ∀ a b, le a b || le b a
  trans : ∀ a b c, le a b → le b c → le a c
  antisymm : ∀ a b, le a b → le b a → a = b

def Collation.codepoints : Collation where
  le a b := decide (a ≤ b)
  total a b := by simpa using String.le_total a b
  trans a b c h h' := by
    simp only [decide_eq_true_eq] at h h' ⊢
    exact String.le_trans h h'
  antisymm a b h h' := String.le_antisymm (of_decide_eq_true h) (of_decide_eq_true h')

def McpServerRecord.listed (r : McpServerRecord) : Bool :=
  r.enabled && r.connectionStatus ≠ .authPending

def Collation.rowLe (col : Collation) (r r' : McpServerRecord) : Bool :=
  col.le r.catalogId.asStr r'.catalogId.asStr

/-- `ORDER BY catalog_id`; rows of one entry come as they lie. -/
def listEnabled (col : Collation) (db : McpServers) : List McpServerRecord :=
  (db.rows.rows.filter (·.listed)).mergeSort col.rowLe

/-- What the catalogue is made of, while it is built and once it is published. -/
structure McpState where
  tools : Table RegisteredTool
  specs : List ToolSpec
  servers : Table ConnectedServer
  orgCatalogServers : Table OrgCatalogServer

def McpState.default : McpState := ⟨.empty, [], .empty, .empty⟩

def McpState.finish (b : McpState) : McpState :=
  { b with specs := b.specs.mergeSort fun s s' => s.name.asStr ≤ s'.name.asStr }

def prefixedName (catalogId : McpCatalogId) (remote : String) : Except ParseError ToolName :=
  ToolName.tryFrom ("mcp_" ++ catalogId.asStr ++ "_" ++ remote)

section Ingest

variable (server : McpServerId) (catalogId : McpCatalogId) (client : ClientId)

def ingestTool (acc : McpState × List DiscoveredTool) (remote : RemoteTool) :
    McpState × List DiscoveredTool :=
  match prefixedName catalogId remote.name with
  | .error _ => acc
  | .ok toolName =>
    if (acc.1.tools.find? toolName).isSome then acc
    else
      match McpToolRemoteName.tryFrom remote.name with
      | .error _ => acc
      | .ok remoteName =>
        let spec : ToolSpec :=
          ⟨toolName, remote.description.getD "(no description provided)", remote.inputSchema⟩
        ({ acc.1 with
            specs := acc.1.specs ++ [spec]
            tools := acc.1.tools.put ⟨spec, ⟨server, remoteName⟩, client⟩ },
          acc.2 ++ [⟨remote.name, toolName.asStr, remote.description⟩])

def ingestTools (remoteTools : List RemoteTool) (b : McpState) : McpState × List DiscoveredTool :=
  (remoteTools.take MAX_TOOLS_PER_SERVER).foldl (ingestTool server catalogId client) (b, [])

end Ingest

structure McpHealthUpdate where
  lastSeenAt : Option Time
  lastError : Option String
  discoveredTools : Option (List DiscoveredTool)

def McpHealthUpdate.failed (detail : String) : McpHealthUpdate := ⟨none, some detail, none⟩

/-- What the rest of the world says to a refresh of one server: whether it has credentials, the
connection it opens, and the tools it lists over a connection. -/
structure Reply where
  credentials : Except String Bool
  connect : Except String ClientId
  listTools : ClientId → Except String (List RemoteTool)

def connectOrReuse (row : McpServerRecord) (credentials : Bool) (reply : Reply)
    (prior : Option ConnectedServer) : Except String ClientId :=
  match prior with
  | some prev =>
    if prev.config = row.config && !credentials then .ok prev.client else reply.connect
  | none => reply.connect

def refreshOne (now : Time) (row : McpServerRecord) (reply : Reply)
    (acc : Table ConnectedServer × McpState) :
    (Table ConnectedServer × McpState) × McpHealthUpdate :=
  let b := { acc.2 with
    orgCatalogServers := acc.2.orgCatalogServers.put ⟨row.orgId, row.catalogId, row.id⟩ }
  match reply.credentials with
  | .error e => ((acc.1, b), .failed ("credentials: " ++ e))
  | .ok credentials =>
    let prior := acc.1.delete (·.id = row.id)
    match connectOrReuse row credentials reply (acc.1.find? row.id) with
    | .error e => ((prior, b), .failed ("connect: " ++ e))
    | .ok client =>
      match reply.listTools client with
      | .error e => ((prior, b), .failed ("list_tools: " ++ e))
      | .ok remoteTools =>
        let ingested := ingestTools row.id row.catalogId client remoteTools b
        ((prior, { ingested.1 with
          servers := ingested.1.servers.put ⟨row.id, row.config, client⟩ }),
          ⟨some now, none, some ingested.2⟩)

def refreshRows (now : Time) (reply : McpServerId → Reply) (prior : Table ConnectedServer)
    (rows : List McpServerRecord) : Table ConnectedServer × McpState :=
  rows.foldl (fun acc row => (refreshOne now row (reply row.id) acc).1) (prior, .default)

/-- `McpRegistryInner::refresh` over the rows the store lists and the connections it took. -/
def refresh (col : Collation) (now : Time) (db : McpServers) (prior : Table ConnectedServer)
    (reply : McpServerId → Reply) : McpState :=
  (refreshRows now reply prior ((listEnabled col db).take MAX_MCP_SERVERS)).2.finish

variable {col : Collation} {db : McpServers}

theorem mem_listEnabled {row : McpServerRecord} :
    row ∈ listEnabled col db ↔ row ∈ db.rows ∧ row.listed = true := by
  rw [listEnabled, List.mem_mergeSort, List.mem_filter, Table.mem_def]

theorem nodup_listEnabled : ((listEnabled col db).map (·.id)).Nodup :=
  ((List.mergeSort_perm _ _).map _).nodup_iff.mpr
    (db.rows.nodup.sublist (List.filter_sublist.map _))

theorem sorted_listEnabled : (listEnabled col db).Pairwise fun r r' => col.rowLe r r' = true :=
  List.pairwise_mergeSort (fun r r' r'' => col.trans r.catalogId.asStr r'.catalogId.asStr
    r''.catalogId.asStr) (fun r r' => col.total r.catalogId.asStr r'.catalogId.asStr) _

section Ingest

variable (server : McpServerId) (catalogId : McpCatalogId) (client : ClientId)

def registered (remote : RemoteTool) : Option RegisteredTool :=
  match prefixedName catalogId remote.name, McpToolRemoteName.tryFrom remote.name with
  | .ok toolName, .ok remoteName =>
    some ⟨⟨toolName, remote.description.getD "(no description provided)", remote.inputSchema⟩,
      ⟨server, remoteName⟩, client⟩
  | _, _ => none

theorem server_registered {remote : RemoteTool} {tool : RegisteredTool}
    (h : registered server catalogId client remote = some tool) : tool.origin.server = server := by
  unfold registered at h
  split at h
  · cases h
    rfl
  · cases h

theorem ingestTool_tools (acc : McpState × List DiscoveredTool) (remote : RemoteTool) :
    (ingestTool server catalogId client acc remote).1.tools
      = (registered server catalogId client remote).elim acc.1.tools acc.1.tools.addNew := by
  unfold ingestTool registered
  cases prefixedName catalogId remote.name with
  | error => rfl
  | ok toolName =>
    cases hremote : McpToolRemoteName.tryFrom remote.name with
    | error => simp
    | ok remoteName => by_cases h : (acc.1.tools.find? toolName).isSome <;> simp [h, Table.addNew, key]

theorem foldl_ingestTool_tools (remotes : List RemoteTool) (acc : McpState × List DiscoveredTool) :
    (remotes.foldl (ingestTool server catalogId client) acc).1.tools
      = (remotes.filterMap (registered server catalogId client)).foldl Table.addNew acc.1.tools := by
  induction remotes generalizing acc with
  | nil => rfl
  | cons remote remotes ih =>
    rw [List.foldl_cons, ih, ingestTool_tools, List.filterMap_cons]
    cases registered server catalogId client remote <;> rfl

end Ingest

def answered (prior : Option ConnectedServer) (row : McpServerRecord) (reply : Reply) :
    Except String (ClientId × List RemoteTool) := do
  let credentials ← reply.credentials
  let client ← connectOrReuse row credentials reply prior
  return (client, ← reply.listTools client)

def offered (prior : Option ConnectedServer) (row : McpServerRecord) (reply : Reply) :
    List RegisteredTool :=
  match answered prior row reply with
  | .ok (client, remotes) =>
    (remotes.take MAX_TOOLS_PER_SERVER).filterMap (registered row.id row.catalogId client)
  | .error _ => []

theorem server_of_offered {prior : Option ConnectedServer} {row : McpServerRecord} {reply : Reply}
    {tool : RegisteredTool} (h : tool ∈ offered prior row reply) : tool.origin.server = row.id := by
  unfold offered at h
  split at h
  · obtain ⟨remote, -, hremote⟩ := List.mem_filterMap.mp h
    exact server_registered _ _ _ hremote
  · cases h

section RefreshOne

variable (now : Time) (row : McpServerRecord) (reply : Reply)

theorem refreshOne_tools (acc : Table ConnectedServer × McpState) :
    (refreshOne now row reply acc).1.2.tools
      = (offered (acc.1.find? row.id) row reply).foldl Table.addNew acc.2.tools := by
  unfold refreshOne offered answered
  cases reply.credentials with
  | error => rfl
  | ok credentials =>
    cases hclient : connectOrReuse row credentials reply (acc.1.find? row.id) with
    | error => simp [bind, Except.bind, hclient]
    | ok client =>
      cases hlist : reply.listTools client with
      | error => simp [bind, Except.bind, hclient, hlist]
      | ok remotes =>
        simp only [bind, Except.bind, hclient, hlist, pure, Except.pure]
        exact foldl_ingestTool_tools row.id row.catalogId client _ _

theorem refreshOne_prior (acc : Table ConnectedServer × McpState) {id : McpServerId}
    (h : id ≠ row.id) : (refreshOne now row reply acc).1.1.find? id = acc.1.find? id := by
  have hdelete : (acc.1.delete (·.id = row.id)).find? id = acc.1.find? id := by
    rw [Table.find?_delete]
    cases hserver : acc.1.find? id with
    | none => rfl
    | some server =>
      have hkey : server.id = id := Table.key_of_find? hserver
      simp [hkey, h]
  unfold refreshOne
  cases reply.credentials with
  | error => rfl
  | ok credentials =>
    dsimp only
    cases connectOrReuse row credentials reply (acc.1.find? row.id) with
    | error => exact hdelete
    | ok client =>
      dsimp only
      cases reply.listTools client <;> exact hdelete

end RefreshOne

def offer (prior : Table ConnectedServer) (reply : McpServerId → Reply) (name : ToolName)
    (row : McpServerRecord) : Option RegisteredTool :=
  (offered (prior.find? row.id) row (reply row.id)).find? (·.spec.name = name)

theorem server_of_offer {prior : Table ConnectedServer} {reply : McpServerId → Reply}
    {name : ToolName} {row : McpServerRecord} {tool : RegisteredTool}
    (h : offer prior reply name row = some tool) : tool.origin.server = row.id :=
  server_of_offered (List.mem_of_find?_eq_some h)

theorem find?_refreshRows (now : Time) (reply : McpServerId → Reply) (name : ToolName)
    {rows : List McpServerRecord} (h : (rows.map (·.id)).Nodup)
    (acc : Table ConnectedServer × McpState) :
    (rows.foldl (fun acc row => (refreshOne now row (reply row.id) acc).1) acc).2.tools.find? name
      = (acc.2.tools.find? name).or (rows.findSome? (offer acc.1 reply name)) := by
  induction rows generalizing acc with
  | nil => simp
  | cons row rows ih =>
    obtain ⟨hnew, hrest⟩ := List.nodup_cons.mp h
    have hoffers : ∀ row' ∈ rows, offer (refreshOne now row (reply row.id) acc).1.1 reply name row'
        = offer acc.1 reply name row' := by
      intro row' hrow'
      have hid : row'.id ≠ row.id := fun e => hnew (List.mem_map.mpr ⟨row', hrow', e⟩)
      rw [offer, offer, refreshOne_prior now row _ acc hid]
    rw [List.foldl_cons, ih hrest, refreshOne_tools, Table.find?_foldl_addNew, Option.or_assoc,
      List.findSome?_cons]
    congr 1
    have hrows : rows.findSome? (offer (refreshOne now row (reply row.id) acc).1.1 reply name)
        = rows.findSome? (offer acc.1 reply name) := by
      rw [← List.head?_filterMap, List.filterMap_congr hoffers, List.head?_filterMap]
    rw [hrows]
    change (offer acc.1 reply name row).or _ = _
    cases offer acc.1 reply name row <;> rfl

theorem find?_refresh (now : Time) (prior : Table ConnectedServer) (reply : McpServerId → Reply)
    (name : ToolName) :
    (refresh col now db prior reply).tools.find? name
      = ((listEnabled col db).take MAX_MCP_SERVERS).findSome? (offer prior reply name) := by
  have h : (((listEnabled col db).take MAX_MCP_SERVERS).map (·.id)).Nodup :=
    nodup_listEnabled.sublist ((List.take_sublist _ _).map _)
  change (refreshRows now reply prior _).2.tools.find? name = _
  rw [refreshRows, find?_refreshRows now reply name h]
  rfl

/-- The list of specs and the tools by name are one catalogue. -/
def McpState.Coherent (b : McpState) : Prop := b.specs.Perm (b.tools.rows.map (·.spec))

theorem coherent_ingestTool (server : McpServerId) (catalogId : McpCatalogId) (client : ClientId)
    {acc : McpState × List DiscoveredTool} (h : acc.1.Coherent) (remote : RemoteTool) :
    (ingestTool server catalogId client acc remote).1.Coherent := by
  unfold ingestTool
  cases prefixedName catalogId remote.name with
  | error => exact h
  | ok toolName =>
    dsimp only
    split
    · exact h
    · rename_i hfree
      cases McpToolRemoteName.tryFrom remote.name with
      | error => exact h
      | ok remoteName =>
        rw [Option.not_isSome_iff_eq_none] at hfree
        unfold McpState.Coherent
        rw [Table.rows_put hfree, List.map_append]
        exact h.append_right _

theorem coherent_foldl_ingestTool (server : McpServerId) (catalogId : McpCatalogId)
    (client : ClientId) (remotes : List RemoteTool) {acc : McpState × List DiscoveredTool}
    (h : acc.1.Coherent) :
    (remotes.foldl (ingestTool server catalogId client) acc).1.Coherent := by
  induction remotes generalizing acc with
  | nil => exact h
  | cons remote remotes ih => exact ih (coherent_ingestTool server catalogId client h remote)

theorem coherent_refreshOne (now : Time) (row : McpServerRecord) (reply : Reply)
    {acc : Table ConnectedServer × McpState} (h : acc.2.Coherent) :
    (refreshOne now row reply acc).1.2.Coherent := by
  unfold refreshOne
  cases reply.credentials with
  | error => exact h
  | ok credentials =>
    dsimp only
    cases connectOrReuse row credentials reply (acc.1.find? row.id) with
    | error => exact h
    | ok client =>
      dsimp only
      cases reply.listTools client with
      | error => exact h
      | ok remotes => exact coherent_foldl_ingestTool row.id row.catalogId client _ h

theorem coherent_refreshRows (now : Time) (reply : McpServerId → Reply)
    (rows : List McpServerRecord) (acc : Table ConnectedServer × McpState) (h : acc.2.Coherent) :
    (rows.foldl (fun acc row => (refreshOne now row (reply row.id) acc).1) acc).2.Coherent := by
  induction rows generalizing acc with
  | nil => exact h
  | cons row rows ih => exact ih _ (coherent_refreshOne now row (reply row.id) h)

theorem coherent_refresh (now : Time) (prior : Table ConnectedServer)
    (reply : McpServerId → Reply) : (refresh col now db prior reply).Coherent := by
  refine (List.mergeSort_perm _ _).trans ?_
  exact coherent_refreshRows now reply _ (prior, .default) (List.Perm.refl [])

theorem mem_specs_refresh {now : Time} {prior : Table ConnectedServer}
    {reply : McpServerId → Reply} {spec : ToolSpec} :
    spec ∈ (refresh col now db prior reply).specs
      ↔ ∃ tool, (refresh col now db prior reply).tools.find? spec.name = some tool
        ∧ tool.spec = spec := by
  rw [(coherent_refresh now prior reply).mem_iff, List.mem_map]
  constructor
  · rintro ⟨tool, htool, rfl⟩
    exact ⟨tool, Table.find?_of_mem (Table.mem_def.mpr htool), rfl⟩
  · rintro ⟨tool, htool, hspec⟩
    exact ⟨tool, Table.mem_of_find? htool, hspec⟩

variable (col) in
theorem sorted_specs_refresh (now : Time) (prior : Table ConnectedServer)
    (reply : McpServerId → Reply) :
    (refresh col now db prior reply).specs.Pairwise fun s s' => s.name.asStr < s'.name.asStr := by
  have hsorted : (refresh col now db prior reply).specs.Pairwise
      fun s s' => decide (s.name.asStr ≤ s'.name.asStr) = true :=
    List.pairwise_mergeSort (fun _ _ _ h h' => by
      simp only [decide_eq_true_eq] at h h' ⊢
      exact String.le_trans h h') (fun s s' => by
        simpa using String.le_total s.name.asStr s'.name.asStr) _
  have hnodup : ((refresh col now db prior reply).specs.map (·.name)).Nodup := by
    rw [((coherent_refresh now prior reply).map _).nodup_iff, List.map_map]
    exact (refresh col now db prior reply).tools.nodup
  refine (hsorted.and (List.pairwise_map.mp hnodup)).imp fun {s s'} ⟨hle, hne⟩ => ?_
  exact lt_of_le_of_ne (of_decide_eq_true hle) fun e => hne (ToolName.ext e)

end Patom.Mcp
