import Patom.Tools.ToolBox

open Patom.Foundation
open Patom.Runtime (RequestKind)
open Patom.Tools (DynamicToolSource SharedTool Tool ToolBox ToolRegistry lookup named)

namespace Patom.Mcp

def MAX_ALLOWED_MCP_CATALOGS_PER_AGENT : Nat := 32
def MAX_ALLOWED_MCP_TOOLS_PER_CATALOG_PER_AGENT : Nat := 64

instance remoteNameDecidableEq : DecidableEq McpToolRemoteName := fun a b =>
  decidable_of_iff (a.asStr = b.asStr) ⟨fun h => by cases a; cases b; cases h; rfl, congrArg _⟩

inductive ToolScope
  | none
  | all
  | some (names : List McpToolRemoteName)

def ToolScope.exposes (remote : McpToolRemoteName) : ToolScope → Bool
  | .none => false
  | .all => true
  | .some names => remote ∈ names

structure AllowedCatalog where
  catalog : McpCatalogId
  names : Option (List McpToolRemoteName)

def AllowedCatalog.scope (entry : AllowedCatalog) : ToolScope := entry.names.elim .all .some

structure AllowedMcpTools where
  entries : List AllowedCatalog
  sorted : entries.Pairwise (·.catalog.asStr < ·.catalog.asStr)
  catalogs : entries.length ≤ MAX_ALLOWED_MCP_CATALOGS_PER_AGENT
  tools : ∀ entry ∈ entries, ∀ names ∈ entry.names,
    names.Nodup ∧ names.length ≤ MAX_ALLOWED_MCP_TOOLS_PER_CATALOG_PER_AGENT

def AllowedMcpTools.toolsForCatalog (allowed : AllowedMcpTools) (catalog : McpCatalogId) :
    ToolScope :=
  ((allowed.entries.find? (·.catalog = catalog)).map (·.scope)).getD .none

theorem AllowedMcpTools.toolsForCatalog_of_mem {allowed : AllowedMcpTools} {entry : AllowedCatalog}
    (h : entry ∈ allowed.entries) : allowed.toolsForCatalog entry.catalog = entry.scope := by
  cases hfind : allowed.entries.find? (·.catalog = entry.catalog) with
  | none => simpa using List.find?_eq_none.mp hfind entry h
  | some found =>
    have hcatalog : found.catalog = entry.catalog := by simpa using List.find?_some hfind
    have hnodup : (allowed.entries.map (·.catalog.asStr)).Nodup :=
      List.pairwise_map.mpr (allowed.sorted.imp fun hlt => hlt.ne)
    have hsame : found = entry := List.inj_on_of_nodup_map hnodup
      (List.mem_of_find?_eq_some hfind) h (congrArg McpCatalogId.asStr hcatalog)
    rw [toolsForCatalog, hfind, hsame]
    rfl

structure McpRegistry where
  state : McpState
  coherent : state.Coherent

namespace McpRegistry

def new : McpRegistry := ⟨.default, .refl _⟩

def takeServers (registry : McpRegistry) : McpRegistry :=
  ⟨{ registry.state with servers := .empty }, registry.coherent⟩

def refreshed (col : Collation) (now : Time) (db : McpServers) (prior : Table ConnectedServer)
    (reply : McpServerId → Reply) : McpRegistry :=
  ⟨refresh col now db prior reply, coherent_refresh now prior reply⟩

def find (registry : McpRegistry) (name : String) : Option RegisteredTool :=
  lookup registry.state.tools name

end McpRegistry

structure ServerScope where
  server : McpServerId
  names : Option (List McpToolRemoteName)

instance serverScopeKeyed : Keyed ServerScope McpServerId := ⟨(·.server)⟩

structure ScopedMcpSource where
  registry : McpRegistry
  byServer : Table ServerScope

namespace ScopedMcpSource

section New

variable (catalogToServer : McpCatalogId → Option McpServerId)

def addScope (byServer : Table ServerScope) (entry : AllowedCatalog) : Table ServerScope :=
  match catalogToServer entry.catalog with
  | none => byServer
  | some server =>
    match entry.scope with
    | .none => byServer
    | .all => byServer.put ⟨server, none⟩
    | .some names => byServer.put ⟨server, some names⟩

def new (registry : McpRegistry) (allowed : AllowedMcpTools) : ScopedMcpSource :=
  ⟨registry, allowed.entries.foldl (addScope catalogToServer) .empty⟩

end New

def permits (source : ScopedMcpSource) (server : McpServerId) (remote : McpToolRemoteName) : Bool :=
  match source.byServer.find? server with
  | none => false
  | some ⟨_, none⟩ => true
  | some ⟨_, some names⟩ => remote ∈ names

def isEmpty (source : ScopedMcpSource) : Bool := source.byServer.rows.isEmpty

def specs (source : ScopedMcpSource) : List ToolSpec :=
  if source.isEmpty then []
  else source.registry.state.specs.filter fun spec =>
    (source.registry.find spec.name.asStr).any fun tool =>
      source.permits tool.origin.server tool.origin.remoteName

def get (source : ScopedMcpSource) (name : String) : Option RegisteredTool :=
  if source.isEmpty then none
  else (source.registry.find name).filter fun tool =>
    source.permits tool.origin.server tool.origin.remoteName

def dynamic (source : ScopedMcpSource) : DynamicToolSource where
  specs := source.specs
  get := source.get

variable {registry : McpRegistry} {allowed : AllowedMcpTools}
  {catalogToServer : McpCatalogId → Option McpServerId}

theorem mem_foldl_addScope (entries : List AllowedCatalog) (byServer : Table ServerScope)
    {scope : ServerScope} (h : scope ∈ entries.foldl (addScope catalogToServer) byServer) :
    scope ∈ byServer ∨ ∃ entry ∈ entries, catalogToServer entry.catalog = some scope.server ∧
      entry.names = scope.names := by
  induction entries generalizing byServer with
  | nil => exact .inl h
  | cons entry entries ih =>
    obtain hmem | ⟨entry', hentry', hscope⟩ := ih _ h
    · unfold addScope AllowedCatalog.scope at hmem
      cases hserver : catalogToServer entry.catalog with
      | none =>
        rw [hserver] at hmem
        exact .inl hmem
      | some server =>
        rw [hserver] at hmem
        have hput : scope ∈ byServer.put ⟨server, entry.names⟩ := by
          cases hnames : entry.names with
          | none => simpa [hnames] using hmem
          | some names => simpa [hnames] using hmem
        obtain rfl | ⟨hold, -⟩ := Table.mem_put.mp hput
        · exact .inr ⟨entry, List.mem_cons_self, hserver, rfl⟩
        · exact .inl hold
    · exact .inr ⟨entry', List.mem_cons_of_mem _ hentry', hscope⟩

theorem exposes_of_permits {server : McpServerId} {remote : McpToolRemoteName}
    (h : (new catalogToServer registry allowed).permits server remote) :
    ∃ catalog, catalogToServer catalog = some server ∧
      (allowed.toolsForCatalog catalog).exposes remote := by
  unfold permits at h
  cases hfind : (new catalogToServer registry allowed).byServer.find? server with
  | none =>
    rw [hfind] at h
    cases h
  | some scope =>
    rw [hfind] at h
    obtain hempty | ⟨entry, hentry, hserver, hnames⟩ :=
      mem_foldl_addScope allowed.entries .empty (Table.mem_of_find? hfind)
    · exact absurd hempty (Table.not_mem_empty _)
    · have hkey : scope.server = server := Table.key_of_find? hfind
      refine ⟨entry.catalog, hserver.trans (congrArg some hkey), ?_⟩
      rw [AllowedMcpTools.toolsForCatalog_of_mem hentry, AllowedCatalog.scope, hnames]
      obtain ⟨_, _ | names⟩ := scope
      · rfl
      · exact h

theorem permits_of_isEmpty {source : ScopedMcpSource} (h : source.isEmpty) (server : McpServerId)
    (remote : McpToolRemoteName) : source.permits server remote = false := by
  have hnone : source.byServer.find? server = none :=
    Table.find?_eq_none.mpr fun scope hscope => by
      rw [Table.mem_def, List.isEmpty_iff.mp h] at hscope
      cases hscope
  rw [permits, hnone]

theorem get_eq (source : ScopedMcpSource) (name : String) :
    source.get name = (source.registry.find name).filter fun tool =>
      source.permits tool.origin.server tool.origin.remoteName := by
  unfold get
  split
  · rename_i h
    rw [Option.filter_eq_none_iff.mpr fun tool _ => by simp [permits_of_isEmpty h]]
  · rfl

theorem specs_perm (source : ScopedMcpSource) : source.specs.Perm
    ((source.registry.state.tools.rows.filter fun tool =>
      source.permits tool.origin.server tool.origin.remoteName).map (·.spec)) := by
  unfold specs
  split
  · rename_i h
    rw [List.filter_eq_nil_iff.mpr fun tool _ => by simp [permits_of_isEmpty h]]
    rfl
  · refine (source.registry.coherent.filter _).trans (.of_eq ?_)
    rw [List.filter_map]
    congr 1
    refine List.filter_congr fun tool htool => ?_
    have hfind : source.registry.find tool.spec.name.asStr = some tool :=
      Tools.lookup_of_mem (Table.mem_def.mpr htool)
    rw [Function.comp_apply, hfind, Option.any_some]

theorem named_specs (source : ScopedMcpSource) (name : String) :
    named name source.specs = ((source.get name).map (·.spec)).toList := by
  rw [Tools.named_of_perm (fun _ => rfl) source.specs_perm, get_eq]
  rfl

end ScopedMcpSource

def scopedToolBox (builtins : ToolRegistry) (registry : McpRegistry) (allowed : AllowedMcpTools)
    (catalogToServer : McpCatalogId → Option McpServerId) : ToolBox :=
  ⟨builtins, (ScopedMcpSource.new catalogToServer registry allowed).dynamic⟩

/-- What is offered is dispatched to, and a dynamic tool among it is in the agent's scope. -/
structure OfferedInScope (builtins : ToolRegistry) (registry : McpRegistry)
    (allowed : AllowedMcpTools) (catalogToServer : McpCatalogId → Option McpServerId)
    (kind : RequestKind) (name : String) : Prop
    extends (scopedToolBox builtins registry allowed catalogToServer).Offered kind name where
  inScope : ∀ tool,
    (scopedToolBox builtins registry allowed catalogToServer).getFor kind name
      = some (.dynamic tool) →
    ∃ catalog, catalogToServer catalog = some tool.origin.server ∧
      (allowed.toolsForCatalog catalog).exposes tool.origin.remoteName

/-- Every tool offered is dispatched to and in scope, unless a built-in tool has the name of a
dynamic one that the agent may use. -/
theorem offeredInScope_iff (builtins : ToolRegistry) (registry : McpRegistry)
    (allowed : AllowedMcpTools) (catalogToServer : McpCatalogId → Option McpServerId)
    (kind : RequestKind) (name : String) :
    OfferedInScope builtins registry allowed catalogToServer kind name ↔
      ((builtins.get name).isSome → ∀ tool, registry.find name = some tool →
        (ScopedMcpSource.new catalogToServer registry allowed).permits tool.origin.server
          tool.origin.remoteName = false) := by
  let toolbox := scopedToolBox builtins registry allowed catalogToServer
  have hoffered : toolbox.Offered kind name ↔
      ((toolbox.builtins.get name).isSome → toolbox.dynamic.get name = none) :=
    ToolBox.offered_iff (ScopedMcpSource.named_specs _ name)
  have hdynamic := ScopedMcpSource.get_eq (.new catalogToServer registry allowed) name
  constructor
  · intro h hsome tool htool
    have hnone := hdynamic.symm.trans (hoffered.mp h.toOffered hsome)
    simpa using Option.filter_eq_none_iff.mp hnone tool htool
  · intro h
    refine ⟨hoffered.mpr fun hsome => ?_, fun tool htool => ?_⟩
    · exact hdynamic.trans (Option.filter_eq_none_iff.mpr fun tool htool => by
        simpa using h hsome tool htool)
    · have hget : (ScopedMcpSource.new catalogToServer registry allowed).get name = some tool := by
        unfold ToolBox.getFor at htool
        split at htool
        · cases htool
        · obtain ⟨_, hfound, hsame⟩ := Option.map_eq_some_iff.mp htool
          cases hsame
          exact hfound
      rw [hdynamic] at hget
      exact ScopedMcpSource.exposes_of_permits (Option.filter_eq_some_iff.mp hget).2

def echoName : ToolName := ⟨"mcp_x_echo", by decide, by decide, by decide⟩

def echoTool : RegisteredTool :=
  ⟨⟨echoName, "dyn", "\x7b\x7d"⟩, ⟨1, ⟨"echo", by decide, by decide⟩⟩, 0⟩

def echoRegistry : McpRegistry := ⟨⟨.single echoTool, [echoTool.spec], .empty, .empty⟩, .refl _⟩

def echoAllowed : AllowedMcpTools where
  entries := [⟨⟨"x", by decide, by decide, by decide⟩, none⟩]
  sorted := List.pairwise_singleton _ _
  catalogs := by decide
  tools entry h names hnames := by
    obtain rfl := List.mem_singleton.mp h
    cases hnames

def echoBuiltin : Tool := ⟨echoName, "fake", "\x7b\x7d", .NORMAL⟩

def echoBuiltins : ToolRegistry where
  byName := .single (.of echoBuiltin)
  specs := [echoBuiltin.spec]
  entries e h := by
    obtain rfl := List.mem_singleton.mp h
    rfl
  cached := .refl _

theorem not_always_offeredInScope : ¬ ∀ builtins registry allowed catalogToServer kind name,
    OfferedInScope builtins registry allowed catalogToServer kind name := by
  intro h
  refine (h echoBuiltins echoRegistry echoAllowed (fun _ => some 1) .reflection "mcp_x_echo").shadowed
    echoBuiltin rfl rfl echoTool rfl

end Patom.Mcp
