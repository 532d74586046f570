import Zynax.Adapter.GitProcess

namespace Zynax.Adapter.Mcp

open Golang
open Broker (foldName stringField)
open Git (sinkSend sinkResult toolRequest)

/-!
# The MCP server of the git adapter

The server reads JSON-RPC messages, one a line, and answers them on the way.  Every method looks after the
id of its message itself.
-/

/-! ### Messages -/

structure RpcRequest where
  jsonrpc : String
  id : List Char
  method : String
  params : List Char
  deriving DecidableEq

def rawMembers (s : String) : Option (List (String × List Char)) :=
  match Json.unmarshal s with
  | some .null => some []
  | some (.obj []) => some []
  | some (.obj (_ :: _)) => Json.rawFields (2 * s.toList.length + 1) (Json.skipWs (Json.skipWs s.toList).tail)
  | _ => none

def rawField (name : String) (members : List (String × List Char)) : List Char :=
  (((members.filter fun p => foldName p.1 = foldName name).getLast?).map Prod.snd).getD []

/-- `json.Unmarshal` into `rpcRequest`.  A byte that is not UTF-8 reads as U+FFFD, also where the
    source keeps the raw text. -/
def decodeRequest (line : List UInt8) : Option RpcRequest := do
  let v ← Utf8.unmarshal line
  let members ← rawMembers (Utf8.text line)
  let jsonrpc ← stringField "jsonrpc" v
  let method ← stringField "method" v
  return ⟨jsonrpc, rawField "id" members, method, rawField "params" members⟩

structure ToolDescriptor where
  name : String
  description : String
  inputSchema : String

inductive Result where
  | info (v : Json)
  | tools (ts : List ToolDescriptor)
  | content (text : List UInt8) (isError : Bool)
  | error (code : Int) (message : List UInt8)

structure RpcResponse where
  id : List Char
  result : Result

def jsonRPCVersion : String := "2.0"

def errParse : Int := -32700

def errInvalidRequest : Int := -32600

def errMethodNotFound : Int := -32601

def errInvalidParams : Int := -32602

def errResponse (id : List Char) (code : Int) (msg : List UInt8) : RpcResponse := ⟨id, .error code msg⟩

/-! ### The server -/

structure CapabilitySchema where
  capabilityName : String
  inputSchemaJson : String
  description : String

structure Capabilities where
  execute : ExecuteRequest → List TaskEvent × Option (List UInt8)
  schema : String → Option CapabilitySchema

structure Server where
  env : Linked
  tools : List String
  red : Redactor

def newServer (env : Linked) (toolNames : List String) (red : Redactor) : Server :=
  ⟨env, toolNames.foldl (fun allow n => if n = "" ∨ n ∈ allow then allow else allow ++ [n]) [], red⟩

def handleInitialize (id : List Char) : RpcResponse where
  id := id
  result := .info (.obj [("capabilities", .obj [("tools", .obj [])]), ("protocolVersion", .str "2024-11-05"),
    ("serverInfo", .obj [("name", .str "git-adapter-mcp"), ("version", .str "0.1.0")])])

/-- The tools whose schema is known. -/
def handleToolsList (srv : Server) (caps : Capabilities) (id : List Char) : RpcResponse where
  id := id
  result := .tools (srv.tools.filterMap fun name => (caps.schema name).map fun schema =>
    ⟨schema.capabilityName, schema.description,
      if schema.inputSchemaJson = "" then "\x7b\x7d" else schema.inputSchemaJson⟩)

def decodeParams (params : List Char) : Option (String × List Char) := do
  let v ← Json.unmarshal (String.ofList params)
  let members ← rawMembers (String.ofList params)
  let name ← stringField "name" v
  return (name, rawField "arguments" members)

/-- Runs a tool that is allowed. -/
def handleToolsCall (srv : Server) (caps : Capabilities) (id params : List Char) : RpcResponse :=
  match decodeParams params with
  | none =>
    errResponse id errInvalidParams
      (bytes "invalid params: " ++ srv.env.unmarshalErr "toolCallParams" (Utf8.encode params))
  | some (name, arguments) =>
    if name = "" then errResponse id errInvalidParams (bytes "tool name is required")
    else if name ∉ srv.tools then errResponse id errMethodNotFound (bytes ("unknown tool: " ++ name))
    else
      match caps.execute (toolRequest name (Utf8.encode arguments)) with
      | (_, some err) => errResponse id errInvalidRequest (bytes "tool execution failed: " ++ err)
      | (events, none) =>
        let result := sinkResult (events.foldl sinkSend none)
        ⟨id, .content (srv.red.string result.1) result.2⟩

/-- The response to a line, if any. -/
def dispatch (srv : Server) (caps : Capabilities) (line : List UInt8) : Option RpcResponse :=
  match decodeRequest line with
  | none => some (errResponse [] errParse (bytes "parse error"))
  | some req =>
    if req.jsonrpc ≠ jsonRPCVersion then
      some (errResponse req.id errInvalidRequest (bytes "jsonrpc must be \"2.0\""))
    else if req.method = "initialize" then some (handleInitialize req.id)
    else if req.method = "tools/list" then some (handleToolsList srv caps req.id)
    else if req.method = "tools/call" then some (handleToolsCall srv caps req.id req.params)
    else if req.method = "notifications/initialized" ∨ req.method = "initialized" then none
    else if req.id = [] then none
    else some (errResponse req.id errMethodNotFound (bytes ("unknown method: " ++ req.method)))

def RpcResponse.encodes (resp : RpcResponse) : Bool :=
  match resp.result with
  | .tools ts => ts.all fun t => Json.valid t.inputSchema
  | _ => true

/-- `Serve`, until the input ends or a response cannot be encoded. -/
def serve (srv : Server) : List (Capabilities × List UInt8) → List RpcResponse × Bool
  | [] => ([], true)
  | (caps, line) :: rest =>
    if line = [] then serve srv rest
    else
      match dispatch srv caps line with
      | none => serve srv rest
      | some resp =>
        if resp.encodes then (resp :: (serve srv rest).1, (serve srv rest).2) else ([], false)

/-! ### What lines are owed -/

variable {srv : Server} {caps : Capabilities} {line : List UInt8} {req : RpcRequest}

def IsRpc (line : List UInt8) (req : RpcRequest) : Prop :=
  decodeRequest line = some req ∧ req.jsonrpc = jsonRPCVersion

structure Answered (line : List UInt8) (resp : Option RpcResponse) : Prop where
  malformed : (∀ req, ¬ IsRpc line req) → resp.isSome = true
  request : ∀ req, IsRpc line req → req.id ≠ [] → resp.map RpcResponse.id = some req.id
  notification : ∀ req, IsRpc line req → req.id = [] → resp = none

def Conforms (line : List UInt8) : Prop :=
  ∀ req, IsRpc line req →
    if req.id = [] then req.method ∉ ["initialize", "tools/list", "tools/call"]
    else req.method ∉ ["notifications/initialized", "initialized"]

theorem handleToolsCall_spec (srv : Server) (caps : Capabilities) (id params : List Char) :
    (handleToolsCall srv caps id params).id = id ∧ (handleToolsCall srv caps id params).encodes = true := by
  unfold handleToolsCall
  split
  · exact ⟨rfl, rfl⟩
  · split_ifs
    · exact ⟨rfl, rfl⟩
    · split <;> exact ⟨rfl, rfl⟩
    · exact ⟨rfl, rfl⟩

theorem dispatch_malformed (h : ∀ req, ¬ IsRpc line req) : (dispatch srv caps line).isSome = true := by
  unfold dispatch
  cases hreq : decodeRequest line with
  | none => rfl
  | some req =>
    have hversion : req.jsonrpc ≠ jsonRPCVersion := fun hversion => h req ⟨hreq, hversion⟩
    grind

theorem dispatch_rpc (h : IsRpc line req) : (dispatch srv caps line).map RpcResponse.id =
    if req.method ∈ ["initialize", "tools/list", "tools/call"] then some req.id
    else if req.method ∈ ["notifications/initialized", "initialized"] ∨ req.id = [] then none
    else some req.id := by
  unfold dispatch
  rw [h.1]
  dsimp only
  rw [if_neg (not_not.mpr h.2)]
  simp only [List.mem_cons, List.not_mem_nil, or_false]
  by_cases hinit : req.method = "initialize"
  · simp [hinit, handleInitialize]
  · by_cases hlist : req.method = "tools/list"
    · simp [hlist, handleToolsList]
    · by_cases hcall : req.method = "tools/call"
      · simp [hcall, (handleToolsCall_spec srv caps req.id req.params).1]
      · simp only [hinit, hlist, hcall, if_false, or_self]
        by_cases hshake : req.method = "notifications/initialized" ∨ req.method = "initialized"
        · simp [hshake]
        · by_cases hid : req.id = []
          · simp [hid]
          · simp [hshake, hid, errResponse]

theorem answered_iff : Answered line (dispatch srv caps line) ↔ Conforms line := by
  constructor
  · intro hans req hrpc
    have hid := @dispatch_rpc srv caps _ _ hrpc
    split_ifs with hempty
    · intro hmem
      rw [hans.notification req hrpc hempty, if_pos hmem] at hid
      exact nomatch hid
    · intro hmem
      have hnot : req.method ∉ ["initialize", "tools/list", "tools/call"] := by
        grind
      rw [hans.request req hrpc hempty, if_neg hnot, if_pos (.inl hmem)] at hid
      exact nomatch hid
  · intro hconf
    refine ⟨dispatch_malformed, fun req hrpc hid => ?_, fun req hrpc hid => ?_⟩
    · have hmethod := hconf req hrpc
      rw [if_neg hid] at hmethod
      rw [dispatch_rpc hrpc]
      grind
    · have hmethod := hconf req hrpc
      rw [if_pos hid] at hmethod
      have hnone := @dispatch_rpc srv caps _ _ hrpc
      rw [if_neg hmethod, if_pos (.inr hid)] at hnone
      exact Option.map_eq_none_iff.mp hnone

/-! ### Whole inputs -/

def Capabilities.SchemasOk (caps : Capabilities) (tools : List String) : Prop :=
  ∀ name ∈ tools, ∀ schema, caps.schema name = some schema →
    schema.inputSchemaJson = "" ∨ Json.valid schema.inputSchemaJson = true

theorem encodes_handleToolsList_iff (id : List Char) :
    (handleToolsList srv caps id).encodes = true ↔ caps.SchemasOk srv.tools := by
  have hempty : Json.valid "\x7b\x7d" = true := by decide
  simp only [RpcResponse.encodes, handleToolsList, List.all_eq_true, List.mem_filterMap,
    Option.map_eq_some_iff]
  constructor
  · intro h name hname schema hschema
    have hvalid := h _ ⟨name, hname, schema, hschema, rfl⟩
    by_cases hs : schema.inputSchemaJson = ""
    · exact .inl hs
    · exact .inr (by rwa [if_neg hs] at hvalid)
  · rintro hok t ⟨name, hname, schema, hschema, rfl⟩
    dsimp only
    split_ifs with hs
    · exact hempty
    · exact (hok name hname schema hschema).resolve_left hs

/-- The message asks for the tools. -/
def Lists (line : List UInt8) : Prop := ∃ req, IsRpc line req ∧ req.method = "tools/list"

theorem encodes_dispatch_iff :
    (∀ resp, dispatch srv caps line = some resp → resp.encodes = true) ↔
      (Lists line → caps.SchemasOk srv.tools) := by
  constructor
  · rintro h ⟨req, ⟨hreq, hversion⟩, hmethod⟩
    refine (encodes_handleToolsList_iff req.id).mp (h _ ?_)
    simp [dispatch, hreq, hversion, hmethod]
  · intro hok resp h
    unfold dispatch at h
    cases hreq : decodeRequest line with
    | none =>
      rw [hreq] at h
      exact Option.some.inj h ▸ rfl
    | some req =>
      rw [hreq] at h
      dsimp only at h
      split_ifs at h with hversion _ hlist
      · exact Option.some.inj h ▸ rfl
      · exact Option.some.inj h ▸ rfl
      · have hschemas := hok ⟨req, ⟨hreq, not_not.mp hversion⟩, hlist⟩
        exact Option.some.inj h ▸ (encodes_handleToolsList_iff req.id).mpr hschemas
      · exact Option.some.inj h ▸ (handleToolsCall_spec srv caps req.id req.params).2
      · exact Option.some.inj h ▸ rfl

theorem serve_eq_iff (calls : List (Capabilities × List UInt8)) (hlines : ∀ c ∈ calls, c.2 ≠ []) :
    serve srv calls = (calls.filterMap fun c => dispatch srv c.1 c.2, true) ↔
      ∀ c ∈ calls, Lists c.2 → c.1.SchemasOk srv.tools := by
  induction calls with
  | nil => simp [serve]
  | cons c calls ih =>
    obtain ⟨caps, line⟩ := c
    obtain ⟨hline, hlines⟩ := List.forall_mem_cons.mp hlines
    rw [List.forall_mem_cons, ← ih hlines, ← encodes_dispatch_iff, serve, if_neg hline,
      List.filterMap_cons]
    cases dispatch srv caps line with
    | none => simp
    | some resp =>
      -- a response that cannot be encoded ends the session
      dsimp only
      cases henc : resp.encodes with
      | false => simp [henc]
      | true => simp [henc, Prod.ext_iff]

/-- **Responses correspond to the lines that are owed one, in their order, exactly if no line calls a method
    without an id or sends a handshake notification with one, and the tools are asked for only while
    their schemas are JSON.** -/
theorem rpc_correspondence_iff (srv : Server) (calls : List (Capabilities × List UInt8))
    (hlines : ∀ c ∈ calls, c.2 ≠ []) :
    (serve srv calls = (calls.filterMap fun c => dispatch srv c.1 c.2, true) ↔
        ∀ c ∈ calls, Lists c.2 → c.1.SchemasOk srv.tools) ∧
      ((∀ c ∈ calls, Answered c.2 (dispatch srv c.1 c.2)) ↔ ∀ c ∈ calls, Conforms c.2) := by
  refine ⟨serve_eq_iff calls hlines, ?_⟩
  simp only [answered_iff]

def idle : Capabilities := ⟨fun _ => ([], none), fun _ => none⟩

/-- A request, a byte that is not UTF-8, and a notification of a method that is not known. -/
def session : List (Capabilities × List UInt8) :=
  [(idle, bytes "\x7b\"jsonrpc\":\"2.0\",\"id\":7,\"method\":\"initialize\"\x7d"), (idle, [0xff]),
    (idle, bytes "\x7b\"jsonrpc\":\"2.0\",\"method\":\"progress\"\x7d")]

theorem rpc_correspondence_session :
    serve (newServer {} ["open_pr"] {}) session =
      ([handleInitialize ['7'], errResponse [] errParse (bytes "parse error")], true) := by
  have hschemas : ∀ c ∈ session, Lists c.2 → c.1.SchemasOk (newServer {} ["open_pr"] {}).tools := by
    intro c hc _ name _ schema hschema
    obtain rfl | rfl | rfl : c = _ ∨ c = _ ∨ c = _ := by simpa [session] using hc
    all_goals exact nomatch hschema
  rw [(rpc_correspondence_iff (newServer {} ["open_pr"] {}) session (by decide +kernel)).1.mpr hschemas]
  have hinit : decodeRequest (bytes "\x7b\"jsonrpc\":\"2.0\",\"id\":7,\"method\":\"initialize\"\x7d") =
      some ⟨"2.0", ['7'], "initialize", []⟩ := by decide +kernel
  have hbroken : decodeRequest [0xff] = none := by decide +kernel
  have hprogress : decodeRequest (bytes "\x7b\"jsonrpc\":\"2.0\",\"method\":\"progress\"\x7d") =
      some ⟨"2.0", [], "progress", []⟩ := by decide +kernel
  simp [session, dispatch, hinit, hbroken, hprogress, jsonRPCVersion]

theorem notification_answered :
    (∃ req, IsRpc (bytes "\x7b\"jsonrpc\":\"2.0\",\"method\":\"initialize\"\x7d") req ∧ req.id = []) ∧
      serve (newServer {} ["open_pr"] {}) [(idle, bytes "\x7b\"jsonrpc\":\"2.0\",\"method\":\"initialize\"\x7d")] =
        ([handleInitialize []], true) ∧
      (∃ req, IsRpc (bytes "\x7b\"jsonrpc\":\"2.0\",\"id\":7,\"method\":\"initialized\"\x7d") req ∧ req.id = ['7']) ∧
      serve (newServer {} ["open_pr"] {}) [(idle, bytes "\x7b\"jsonrpc\":\"2.0\",\"id\":7,\"method\":\"initialized\"\x7d")] =
        ([], true) := by
  have hinit : decodeRequest (bytes "\x7b\"jsonrpc\":\"2.0\",\"method\":\"initialize\"\x7d") =
      some ⟨"2.0", [], "initialize", []⟩ := by decide +kernel
  have hshake : decodeRequest (bytes "\x7b\"jsonrpc\":\"2.0\",\"id\":7,\"method\":\"initialized\"\x7d") =
      some ⟨"2.0", ['7'], "initialized", []⟩ := by decide +kernel
  refine ⟨⟨_, ⟨hinit, rfl⟩, rfl⟩, ?_, ⟨_, ⟨hshake, rfl⟩, rfl⟩, ?_⟩
  · have hline : bytes "\x7b\"jsonrpc\":\"2.0\",\"method\":\"initialize\"\x7d" ≠ [] := by decide +kernel
    simp [serve, dispatch, hline, hinit, jsonRPCVersion, handleInitialize, RpcResponse.encodes]
  · simp [serve, dispatch, hshake, jsonRPCVersion]

end Zynax.Adapter.Mcp
