import Zynax.Transition.Runs
import Zynax.Adapter.Git

namespace Zynax.Adapter.Git

open Golang Grpc Transition

/-!
# The process of the git adapter

One process serves either gRPC or MCP.  Its credential is a personal token or the identity of a GitHub
App, for which tokens are minted; the redactors are built once, at the start.

* `Process`, `step` — the executions that are running, the tokens that were used, and what was sent.
-/

/-! ### Credentials -/

inductive Credential where
  | pat (token : String)
  | app
  deriving DecidableEq

inductive Source where
  | static (token : String)
  | app (cur : String) (expires : Int)

def refreshSkew : Int := 5 * 60 * 1000000000

structure TokenTurn where
  now : Int
  minted : Except (List UInt8) (String × Int)
  later : Int

/-- A static token, or the minted one, renewed in time. -/
def Source.token (src : Source) (turn : TokenTurn) : Except (List UInt8) String × Source :=
  match src with
  | .static token => (.ok token, src)
  | .app cur expires =>
    if cur ≠ "" ∧ turn.now + refreshSkew < expires then (.ok cur, src)
    else
      match turn.minted with
      | .ok (tok, exp) => (.ok tok, .app tok exp)
      | .error err =>
        if cur ≠ "" ∧ turn.later < expires then (.ok cur, src)
        else (.error (bytes "mint installation token: " ++ err), src)

/-- The source, and the token that redactors know. -/
def resolveCredentialSource : Credential → Source × String
  | .pat token => (.static token, token)
  | .app => (.app "" 0, "")

/-! ### The MCP surface -/

def sinkSend (last : Option TaskEvent) (ev : TaskEvent) : Option TaskEvent :=
  if ev.eventType = .progress then last else some ev

/-- The last event as the result of a tool. -/
def sinkResult : Option TaskEvent → List UInt8 × Bool
  | none => (bytes "no terminal event received from adapter", true)
  | some ev =>
    if ev.eventType = .failed then
      match ev.error with
      | some err => (bytes err.code ++ bytes ": " ++ err.message, true)
      | none => (bytes "capability failed", true)
    else (ev.payload, false)

def toolRequest (name : String) (arguments : List UInt8) : ExecuteRequest where
  taskId := "mcp-" ++ name
  capabilityName := name
  inputPayload := if arguments = [] then bytes "\x7b\x7d" else arguments

/-! ### The process -/

inductive Surface where
  | grpc
  | mcp
  deriving DecidableEq

structure Setup where
  env : Linked
  capabilities : List GitCapabilityConfig
  surface : Surface
  red : Redactor

structure Execution where
  taskID : String
  state : State
  last : Option TaskEvent

inductive Emission where
  | used (token : String)
  | event (ev : TaskEvent)
  | toolResult (text : List UInt8) (isError : Bool)
  deriving DecidableEq

structure Process where
  source : Source
  running : List Execution
  log : List Emission

inductive Happening where
  | call (req : ExecuteRequest)
  | tool (name : String) (arguments : List UInt8)
  | roundTrip (i : Nat) (turn : TokenTurn)
  | answer (i : Nat) (a : Answer Input)

def State.calls : State → Bool
  | .pausing _ _ _ => false
  | _ => true

def Process.send (cfg : Setup) (p : Process) (evs : List TaskEvent) : Process :=
  if cfg.surface = .grpc then { p with log := p.log ++ evs.map .event } else p

def Process.sendResult (cfg : Setup) (p : Process) (last : Option TaskEvent) : Process :=
  let result := sinkResult last
  if cfg.surface = .mcp then
    { p with log := p.log ++ [.toolResult (cfg.red.string result.1) result.2] }
  else p

def Process.emit (cfg : Setup) (p : Process) (taskID : String) (last : Option TaskEvent)
    (t : Serving Call State) : Process :=
  let last := (sent t.out).foldl sinkSend last
  let p := p.send cfg (sent t.out)
  match t.next with
  | .waits s => { p with running := p.running ++ [⟨taskID, s, last⟩] }
  | .returns none => p.sendResult cfg last
  | .returns (some _) => p

def Process.roundTrip (p : Process) (turn : TokenTurn) : Process :=
  match p.source.token turn with
  | (.ok tok, source) => { p with source := source, log := p.log ++ [.used tok] }
  | (.error _, source) => { p with source := source }

/-- What happens to the process. -/
def step (cfg : Setup) (p : Process) : Happening → Process
  | .call req =>
    if cfg.surface = .grpc then
      p.emit cfg req.taskId none (executeCapability cfg.env cfg.red cfg.capabilities req)
    else p
  | .tool name arguments =>
    -- one call at a time, of a tool of the allow-list
    if cfg.surface = .mcp ∧ p.running = [] ∧ name ≠ "" ∧ name ∈ cfg.capabilities.map (·.name) then
      let req := toolRequest name arguments
      p.emit cfg req.taskId none (executeCapability cfg.env cfg.red cfg.capabilities req)
    else p
  | .roundTrip i turn =>
    match p.running[i]? with
    | some e => if e.state.calls then p.roundTrip turn else p
    | none => p
  | .answer i a =>
    match p.running[i]? with
    | some e =>
      { p with running := p.running.eraseIdx i }.emit cfg e.taskID e.last
        (Git.turn cfg.red e.taskID e.state (a e.state))
    | none => p

def setup (env : Linked) (capabilities : List GitCapabilityConfig) (surface : Surface)
    (cred : Credential) : Setup where
  env := env
  capabilities := capabilities
  surface := surface
  red := Redactor.new [(resolveCredentialSource cred).2]

def start (cred : Credential) (turn : TokenTurn) : Option Process :=
  match (resolveCredentialSource cred).1.token turn with
  | (.ok tok, source) => some ⟨source, [], [.used tok]⟩
  | (.error _, _) => none

end Zynax.Adapter.Git
