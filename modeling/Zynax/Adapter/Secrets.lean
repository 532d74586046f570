import Zynax.Adapter.GitProcess
import Zynax.Adapter.Redaction

namespace Zynax.Adapter.Git

open Golang Grpc Transition

/-!
# Tokens and what leaves the git adapter

* `Contained` — nothing that leaves the process holds a token that it has used before.
-/

/-! ### Secrets -/

def isWord (c : Char) : Bool := c.isAlphanum || c = '_'

def ownTexts : List String :=
  ownCodes ++ ownMessages ++ ["unknown capability: ", (Json.obj [("requested", .bool true)]).marshal]

structure Secret (tok : String) : Prop where
  long : minSecretLen ≤ tok.length
  word : ∀ c ∈ tok.toList, isWord c = true
  apart : ¬ bytes tok <:+: placeholder
  foreign : ∀ t ∈ ownTexts, ¬ bytes tok <:+: bytes t

namespace Secret

variable {tok : String}

theorem notMem_toList (h : Secret tok) {d : Char} (hd : isWord d = false) : d ∉ tok.toList :=
  fun hmem => absurd (h.word d hmem) (by simp [hd])

theorem registrable (h : Secret tok) : Registrable tok :=
  ⟨h.long, ⟨h.notMem_toList (by decide), h.notMem_toList (by decide)⟩, h.apart⟩

theorem not_infix_nil (h : Secret tok) : ¬ bytes tok <:+: [] := by
  intro hinf
  have hlen := h.registrable.long_bytes
  rw [List.infix_nil.mp hinf] at hlen
  exact absurd hlen (by decide)

/-- **What is redacted does not hold the secret.** -/
theorem not_infix_string (h : Secret tok) (s : List UInt8) :
    ¬ bytes tok <:+: (Redactor.new [tok]).string s := by
  rw [Redactor.string_eq, secrets_new, keptAfter_cons ⟨h.registrable.long_bytes, List.not_mem_nil⟩]
  exact not_infix_redacted h.registrable (Or.inl List.mem_cons_self)

theorem not_infix_sanitise (h : Secret tok) (s : List UInt8) :
    ¬ bytes tok <:+: sanitise (Redactor.new [tok]) s := by
  rw [sanitise, cutBytes_eq_take]
  exact fun hinf => h.not_infix_string s (hinf.trans (List.take_prefix _ _).isInfix)

theorem not_infix_unknownMessage (h : Secret tok) {name : String} (hname : ¬ bytes tok <:+: bytes name) :
    ¬ bytes tok <:+: unknownMessage name := by
  have happend : unknownMessage name = bytes "unknown capability: " ++ bytes name := by
    rfl
  have hne : bytes "unknown capability: " ≠ [] := by decide +kernel
  have hlast : (bytes "unknown capability: ").getLast hne = UInt8.ofNat ' '.toNat := by
    rfl
  rw [happend]
  intro hinf
  rcases infix_append_of_getLast hne (hlast ▸ notMem_bytes (by decide) (h.notMem_toList (by decide))) hinf with hinf | hinf
  · exact h.foreign _ (by simp [ownTexts]) hinf
  · exact hname hinf

end Secret

/-! ### Events -/

variable {tok taskID name : String}

structure Clean (tok : String) (ev : TaskEvent) : Prop where
  taskId : ¬ bytes tok <:+: bytes ev.taskId
  payload : ¬ bytes tok <:+: ev.payload
  error : ∀ err, ev.error = some err → ¬ bytes tok <:+: bytes err.code ∧ ¬ bytes tok <:+: err.message

theorem clean_progress (h : Secret tok) (htask : ¬ bytes tok <:+: bytes taskID) :
    Clean tok (progressEvent taskID) :=
  ⟨htask, h.not_infix_nil, fun _ herr => nomatch herr⟩

theorem clean_completed (htask : ¬ bytes tok <:+: bytes taskID) {payload : List UInt8}
    (hpayload : ¬ bytes tok <:+: payload) : Clean tok (completedEvent taskID payload) :=
  ⟨htask, hpayload, fun _ herr => nomatch herr⟩

theorem clean_failed (h : Secret tok) (htask : ¬ bytes tok <:+: bytes taskID) {code : String}
    (hcode : code ∈ ownCodes) {msg : List UInt8} (hmsg : ¬ bytes tok <:+: msg) :
    Clean tok (failedEvent taskID code msg) := by
  refine ⟨htask, h.not_infix_nil, fun err herr => ?_⟩
  obtain rfl : (⟨code, msg⟩ : CapabilityError) = err := Option.some.inj herr
  exact ⟨h.foreign code (by simp [ownTexts, hcode]), hmsg⟩

theorem clean_of_served (h : Secret tok) (htask : ¬ bytes tok <:+: bytes taskID)
    (hname : ¬ bytes tok <:+: bytes name) {t : Serving Call State}
    (ht : Served (Redactor.new [tok]) taskID name t) : ∀ ev ∈ sent t.out, Clean tok ev := by
  have hcode : "INVALID_INPUT" ∈ ownCodes := by decide
  intro ev hev
  cases ht with
  | progress s =>
    obtain rfl := List.mem_singleton.mp hev
    exact clean_progress h htask
  | call c s => exact absurd hev (by simp [Turn.wait])
  | own hcode hmsg =>
    obtain rfl := List.mem_singleton.mp hev
    exact clean_failed h htask hcode (h.foreign _ (by simp [ownTexts, hmsg]))
  | redacted hcode err =>
    obtain rfl := List.mem_singleton.mp hev
    exact clean_failed h htask hcode (h.not_infix_sanitise err)
  | unknown =>
    obtain rfl := List.mem_singleton.mp hev
    exact clean_failed h htask hcode (h.not_infix_unknownMessage hname)
  | result payload =>
    obtain rfl := List.mem_singleton.mp hev
    refine clean_completed htask ?_
    rw [Redactor.bytes_eq]
    exact h.not_infix_string payload
  | requested =>
    obtain rfl := List.mem_singleton.mp hev
    exact clean_completed htask (h.foreign _ (by simp [ownTexts]))

/-! ### The log -/

def Emission.Holds (tok : String) : Emission → Prop
  | .used _ => False
  | .event ev => ¬ Clean tok ev
  | .toolResult text _ => bytes tok <:+: text

def Contained (log : List Emission) : Prop :=
  ∀ before e after, log = before ++ e :: after → ∀ tok, .used tok ∈ before → ¬ e.Holds tok

structure Fair (events : List Happening) (log : List Emission) : Prop where
  secrets : ∀ tok, .used tok ∈ log → Secret tok
  callers : ∀ req, .call req ∈ events → ∀ tok, .used tok ∈ log →
    ¬ bytes tok <:+: bytes req.taskId ∧ ¬ bytes tok <:+: bytes req.capabilityName

/-! ### Processes with a personal token -/

variable {surface : Surface} {p : Process} {cfg : Setup}

structure Sealed (surface : Surface) (tok : String) (p : Process) : Prop where
  source : p.source = .static tok
  used : ∀ t, .used t ∈ p.log → t = tok
  clean : ∀ e ∈ p.log, ¬ e.Holds tok
  running : surface = .grpc → ∀ e ∈ p.running, ¬ bytes tok <:+: bytes e.taskID

theorem Sealed.contained (h : Sealed surface tok p) :
    Contained p.log := by
  intro before e after hlog t ht
  have hused : .used t ∈ p.log := hlog ▸ List.mem_append_left _ ht
  rw [h.used t hused]
  exact h.clean e (hlog ▸ List.mem_append_right before List.mem_cons_self)

theorem Sealed.append_log (h : Sealed surface tok p)
    {log : List Emission} (hused : ∀ t, .used t ∈ log → t = tok) (hclean : ∀ e ∈ log, ¬ e.Holds tok) :
    Sealed surface tok { p with log := p.log ++ log } where
  source := h.source
  used t ht := (List.mem_append.mp ht).elim (h.used t) (hused t)
  clean e he := (List.mem_append.mp he).elim (h.clean e) (hclean e)
  running := h.running

theorem Sealed.send (h : Sealed cfg.surface tok p) {evs : List TaskEvent}
    (hevents : cfg.surface = .grpc → ∀ ev ∈ evs, Clean tok ev) :
    Sealed cfg.surface tok (p.send cfg evs) := by
  unfold Process.send
  split_ifs with hgrpc
  · refine h.append_log (fun t ht => ?_) fun e he => ?_
    · exact absurd ht (by simp)
    · obtain ⟨ev, hev, rfl⟩ := List.mem_map.mp he
      exact not_not_intro (hevents hgrpc ev hev)
  · exact h

theorem Sealed.sendResult (hred : cfg.red = Redactor.new [tok]) (hsecret : Secret tok)
    (h : Sealed cfg.surface tok p) (last : Option TaskEvent) :
    Sealed cfg.surface tok (p.sendResult cfg last) := by
  unfold Process.sendResult
  dsimp only
  split_ifs
  · refine h.append_log (fun t ht => ?_) fun e he => ?_
    · exact absurd ht (by simp)
    · rw [List.mem_singleton.mp he, hred]
      exact hsecret.not_infix_string _
  · exact h

theorem Sealed.emit (hred : cfg.red = Redactor.new [tok]) (hsecret : Secret tok)
    (h : Sealed cfg.surface tok p) (last : Option TaskEvent) {t : Serving Call State}
    (hevents : cfg.surface = .grpc → ∀ ev ∈ sent t.out, Clean tok ev)
    (htask : cfg.surface = .grpc → ¬ bytes tok <:+: bytes taskID) :
    Sealed cfg.surface tok (p.emit cfg taskID last t) := by
  have hsend := h.send hevents
  unfold Process.emit
  dsimp only
  split
  · -- the execution goes on
    refine ⟨hsend.source, hsend.used, hsend.clean, fun hgrpc e he => ?_⟩
    rcases List.mem_append.mp he with he | he
    · exact hsend.running hgrpc e he
    · grind
  · exact hsend.sendResult hred hsecret _
  · exact hsend

theorem clean_executeCapability (h : Secret tok) (env : Linked) (capabilities : List GitCapabilityConfig)
    {req : ExecuteRequest} (htask : ¬ bytes tok <:+: bytes req.taskId)
    (hname : ¬ bytes tok <:+: bytes req.capabilityName) :
    ∀ ev ∈ sent (executeCapability env (Redactor.new [tok]) capabilities req).out, Clean tok ev := by
  unfold executeCapability
  rcases getD_checkRequest req (dispatch env (Redactor.new [tok]) capabilities req) with
    ⟨code, msg, hrefuse⟩ | hserve
  · rw [hrefuse]
    exact fun ev hev => absurd hev (by simp [Serving.refuse, Turn.finish])
  · rw [hserve]
    exact clean_of_served h htask hname (served_dispatch env capabilities req)

theorem Sealed.roundTrip (h : Sealed surface tok p) (turn : TokenTurn) :
    Sealed surface tok (p.roundTrip turn) := by
  unfold Process.roundTrip
  rw [h.source]
  have hused : Sealed surface tok { p with log := p.log ++ [.used tok] } :=
    h.append_log (by simp) (by simp [Emission.Holds])
  exact ⟨rfl, hused.used, hused.clean, hused.running⟩

theorem Sealed.eraseIdx (h : Sealed surface tok p) (i : Nat) :
    Sealed surface tok { p with running := p.running.eraseIdx i } where
  source := h.source
  used := h.used
  clean := h.clean
  running hgrpc e he := h.running hgrpc e (List.mem_of_mem_eraseIdx he)

/-- **One step of a process with a personal token** keeps the token in it. -/
theorem Sealed.step (hred : cfg.red = Redactor.new [tok]) (hsecret : Secret tok)
    (h : Sealed cfg.surface tok p) {event : Happening}
    (hcall : ∀ req, event = .call req →
      ¬ bytes tok <:+: bytes req.taskId ∧ ¬ bytes tok <:+: bytes req.capabilityName) :
    Sealed cfg.surface tok (Git.step cfg p event) := by
  cases event with
  | call req =>
    simp only [Git.step]
    split_ifs
    · obtain ⟨htask, hname⟩ := hcall req rfl
      refine h.emit hred hsecret none (fun _ => ?_) fun _ => htask
      exact hred ▸ clean_executeCapability hsecret cfg.env cfg.capabilities htask hname
    · exact h
  | tool name arguments =>
    simp only [Git.step]
    split_ifs with hmcp
    · have hgrpc : cfg.surface ≠ .grpc := by simp [hmcp.1]
      exact h.emit hred hsecret none (fun hsurface => absurd hsurface hgrpc)
        fun hsurface => absurd hsurface hgrpc
    · exact h
  | roundTrip i turn =>
    simp only [Git.step]
    split
    · split_ifs
      · exact h.roundTrip turn
      · exact h
    · exact h
  | answer i a =>
    simp only [Git.step]
    split
    · rename_i e he
      have hmem : e ∈ p.running := List.mem_of_getElem? he
      refine (h.eraseIdx i).emit hred hsecret e.last (fun hgrpc => ?_) fun hgrpc => h.running hgrpc e hmem
      rw [hred]
      -- the turn names no capability
      have hname : ¬ bytes tok <:+: bytes "" := hsecret.not_infix_nil
      exact clean_of_served hsecret (h.running hgrpc e hmem) hname (served_turn "" e.state (a e.state))
    · exact h

/-! ### Runs -/

theorem prefix_log_emit (cfg : Setup) (p : Process) (taskID : String) (last : Option TaskEvent)
    (t : Serving Call State) : p.log <+: (p.emit cfg taskID last t).log := by
  have hsend : p.log <+: (p.send cfg (sent t.out)).log := by
    unfold Process.send
    grind
  unfold Process.emit
  dsimp only
  split
  · exact hsend
  · refine hsend.trans ?_
    unfold Process.sendResult
    grind
  · exact hsend

theorem prefix_log_roundTrip (p : Process) (turn : TokenTurn) : p.log <+: (p.roundTrip turn).log := by
  unfold Process.roundTrip
  grind

theorem prefix_log_step (cfg : Setup) (p : Process) (event : Happening) :
    p.log <+: (step cfg p event).log := by
  cases event with
  | call req =>
    simp only [step]
    split_ifs
    · exact prefix_log_emit cfg p _ _ _
    · rfl
  | tool name arguments =>
    simp only [step]
    split_ifs
    · exact prefix_log_emit cfg p _ _ _
    · rfl
  | roundTrip i turn =>
    simp only [step]
    split
    · split_ifs
      · exact prefix_log_roundTrip p turn
      · rfl
    · rfl
  | answer i a =>
    simp only [step]
    split
    · exact prefix_log_emit cfg { p with running := p.running.eraseIdx i } _ _ _
    · rfl

theorem prefix_log_run (cfg : Setup) (p : Process) (events : List Happening) :
    p.log <+: (run (step cfg) p events).log := by
  induction events generalizing p with
  | nil => exact List.prefix_rfl
  | cons event events ih => exact (prefix_log_step cfg p event).trans (ih (step cfg p event))

theorem contained_pat {env : Linked} {capabilities : List GitCapabilityConfig} {turn : TokenTurn}
    {events : List Happening} (hstart : start (.pat tok) turn = some p)
    (hfair : Fair events (run (step (setup env capabilities surface (.pat tok))) p events).log) :
    Contained (run (step (setup env capabilities surface (.pat tok))) p events).log := by
  obtain rfl : ⟨.static tok, [], [.used tok]⟩ = p := Option.some.inj hstart
  have hused : .used tok ∈ (run (step (setup env capabilities surface (.pat tok)))
      ⟨.static tok, [], [.used tok]⟩ events).log :=
    (prefix_log_run _ _ events).subset (List.mem_singleton.mpr rfl)
  have hsecret := hfair.secrets tok hused
  have hbegin : Sealed (setup env capabilities surface (.pat tok)).surface tok
      ⟨.static tok, [], [.used tok]⟩ := ⟨rfl, by simp, by simp [Emission.Holds], by simp⟩
  have hcalls : Along (step (setup env capabilities surface (.pat tok)))
      (fun _ event => ∀ req, event = .call req →
        ¬ bytes tok <:+: bytes req.taskId ∧ ¬ bytes tok <:+: bytes req.capabilityName)
      ⟨.static tok, [], [.used tok]⟩ events := by
    refine along_of_forall (fun event hevent _ req hreq => ?_) _
    exact hfair.callers req (hreq ▸ hevent) tok hused
  exact (run_invariant (fun p event hp hcall => hp.step rfl hsecret hcall) hbegin hcalls).contained

/-! ### Processes with the identity of an App -/

def ghsToken : String := "ghs_0123456789abcdef"

def mints : TokenTurn where
  now := 0
  minted := .ok (ghsToken, 3600 * 1000000000)
  later := 0

def widgetsDiff : GitCapabilityConfig where
  name := "get_diff"
  owner := "acme"
  repo := "widgets"

def widgetsRequest : ExecuteRequest where
  taskId := "t1"
  capabilityName := "get_diff"
  inputPayload := bytes "\x7b\"pr_number\":7\x7d"

def echoes : Answer Input
  | .diffing => .result (.error ⟨none, bytes ghsToken, none⟩)
  | .opening => .done
  | .requesting _ _ => .ok ()
  | .pausing _ _ _ => .done
  | .polling _ _ _ => .ok []

def minted : Process := ⟨.app ghsToken (3600 * 1000000000), [], [.used ghsToken]⟩

def echoed : List Happening := [.call widgetsRequest, .roundTrip 0 mints, .answer 0 echoes]

def echoedTool : List Happening :=
  [.tool "get_diff" (bytes "\x7b\"pr_number\":7\x7d"), .roundTrip 0 mints, .answer 0 echoes]

theorem start_minted : start .app mints = some minted := rfl

theorem secret_ghsToken : Secret ghsToken where
  long := by decide
  word := List.all_eq_true.mp (by decide +kernel)
  apart := by decide +kernel
  foreign := by decide +kernel

theorem log_echoed :
    (run (step (setup {} [widgetsDiff] .grpc .app)) minted echoed).log =
      [.used ghsToken, .used ghsToken,
        .event (failedEvent "t1" "UPSTREAM_ERROR" (bytes ghsToken))] := by
  decide +kernel

theorem fair_echoed {log : List Emission} (hused : ∀ tok, .used tok ∈ log → tok = ghsToken) :
    Fair echoed log := by
  refine ⟨fun tok htok => ?_, fun req hreq tok htok => ?_⟩
  · rw [hused tok htok]
    exact secret_ghsToken
  · obtain rfl : req = widgetsRequest := by simpa [echoed] using hreq
    rw [hused tok htok]
    exact ⟨by decide +kernel, by decide +kernel⟩

theorem not_contained_echoed :
    ¬ Contained (run (step (setup {} [widgetsDiff] .grpc .app)) minted echoed).log := by
  rw [log_echoed]
  intro h
  refine h [.used ghsToken, .used ghsToken] _ [] rfl ghsToken (by simp) fun hclean => ?_
  exact (hclean.error _ rfl).2 List.infix_rfl

/-- **Tokens stay in the process** exactly if the credential is a personal token: the redactors are
    built from it, and know none of the tokens that are minted for an App. -/
theorem tokens_contained_iff (cred : Credential) :
    (∀ env capabilities surface turn p events, start cred turn = some p →
      Fair events (run (step (setup env capabilities surface cred)) p events).log →
      Contained (run (step (setup env capabilities surface cred)) p events).log) ↔
      ∃ token, cred = .pat token := by
  constructor
  · intro h
    cases cred with
    | pat token => exact ⟨token, rfl⟩
    | app =>
      have hfair : Fair echoed (run (step (setup {} [widgetsDiff] .grpc .app)) minted echoed).log :=
        fair_echoed (by simp [log_echoed])
      exact absurd (h {} [widgetsDiff] .grpc mints minted echoed start_minted hfair)
        not_contained_echoed
  · rintro ⟨token, rfl⟩ env capabilities surface turn p events hstart hfair
    exact contained_pat hstart hfair

/-- The same answers with the token as the personal one: its text is struck out. -/
theorem tokens_contained_personal :
    ∃ p, start (.pat ghsToken) mints = some p ∧
      (run (step (setup {} [widgetsDiff] .grpc (.pat ghsToken))) p echoed).log =
        [.used ghsToken, .used ghsToken,
          .event (failedEvent "t1" "UPSTREAM_ERROR" placeholder)] ∧
      Contained (run (step (setup {} [widgetsDiff] .grpc (.pat ghsToken))) p echoed).log := by
  have hlog : (run (step (setup {} [widgetsDiff] .grpc (.pat ghsToken)))
      ⟨.static ghsToken, [], [.used ghsToken]⟩ echoed).log =
        [.used ghsToken, .used ghsToken,
          .event (failedEvent "t1" "UPSTREAM_ERROR" placeholder)] := by decide +kernel
  have hfair : Fair echoed (run (step (setup {} [widgetsDiff] .grpc (.pat ghsToken)))
      ⟨.static ghsToken, [], [.used ghsToken]⟩ echoed).log := fair_echoed (by rw [hlog]; simp)
  exact ⟨_, rfl, hlog,
    (tokens_contained_iff (.pat ghsToken)).mpr ⟨_, rfl⟩ {} [widgetsDiff] .grpc mints _ echoed rfl hfair⟩

theorem minted_token_leaves :
    start .app mints = some minted ∧
    (run (step (setup {} [widgetsDiff] .grpc .app)) minted echoed).log =
      [.used ghsToken, .used ghsToken,
        .event (failedEvent "t1" "UPSTREAM_ERROR" (bytes ghsToken))] ∧
    ¬ Contained (run (step (setup {} [widgetsDiff] .grpc .app)) minted echoed).log ∧
    (run (step (setup {} [widgetsDiff] .mcp .app)) minted echoedTool).log =
      [.used ghsToken, .used ghsToken,
        .toolResult (bytes ("UPSTREAM_ERROR: " ++ ghsToken)) true] ∧
    ¬ Contained (run (step (setup {} [widgetsDiff] .mcp .app)) minted echoedTool).log := by
  have htool : (run (step (setup {} [widgetsDiff] .mcp .app)) minted echoedTool).log =
      [.used ghsToken, .used ghsToken,
        .toolResult (bytes ("UPSTREAM_ERROR: " ++ ghsToken)) true] := by decide +kernel
  refine ⟨start_minted, log_echoed, not_contained_echoed, htool, fun h => ?_⟩
  have hinfix : bytes ghsToken <:+: bytes ("UPSTREAM_ERROR: " ++ ghsToken) := by decide +kernel
  exact h [.used ghsToken, .used ghsToken] _ [] htool ghsToken (by simp) hinfix

end Zynax.Adapter.Git
