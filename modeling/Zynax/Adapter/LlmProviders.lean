import Zynax.Concurrency.Rendezvous
import Zynax.Adapter.Llm

namespace Zynax.Adapter.Llm

open Golang
open Broker (fieldValues fieldValuesOf storeString)
open Concurrency.Rendezvous

/-!
# The streams of the providers

Each provider reads its upstream in a goroutine of its own and sends what it finds as chunks: OpenAI a
stream of server-sent events, Ollama one of JSON lines, Bedrock one of events of its library.
-/

/-! ### Bodies -/

def maxLineBytes : Nat := 1024 * 1024

def dropCR (line : List UInt8) : List UInt8 := if line.getLast? = some 13 then line.dropLast else line

def lineTokens (data : List UInt8) : List (List UInt8) :=
  let pieces := data.splitOn 10
  pieces.dropLast ++ pieces.getLast?.toList.filter (· ≠ [])

def scanLines (data : List UInt8) : List (List UInt8) × Bool :=
  (((lineTokens data).takeWhile fun l => l.length < maxLineBytes).map dropCR,
    (lineTokens data).any fun l => maxLineBytes ≤ l.length)

structure Body where
  received : List UInt8
  err : Option (List UInt8) := none

def Body.lines (body : Body) : List (List UInt8) := (scanLines body.received).1

def Body.scanErr (body : Body) : Option (List UInt8) :=
  if (scanLines body.received).2 then some (bytes "bufio.Scanner: token too long") else body.err

inductive Response where
  | failed (err : List UInt8)
  | answered (statusCode : Int) (body : Body)

/-! ### OpenAI -/

def sseDataPrefix : String := "data: "

def sseDoneToken : String := "[DONE]"

def storeChoice (content : String) (v : Json) : Option String :=
  (fieldValues "delta" v).bind fun deltas => (fieldValuesOf "content" deltas).bind (storeString content)

def storeChoices : Option String → List Json → Option (Option String)
  | first, [] => some first
  | first, v :: vs =>
    match v with
    | .null => storeChoices none vs
    | .arr [] => storeChoices none vs
    | .arr (x :: xs) =>
      if xs.all fun x => (storeChoice "" x).isSome then
        (storeChoice (first.getD "") x).bind fun content => storeChoices (some content) vs
      else none
    | _ => none

def decodeOpenAI (v : Json) : Option String :=
  ((fieldValues "choices" v).bind (storeChoices none)).map fun first => first.getD ""

inductive OpenAILine where
  | skipped
  | done
  | undecodable (err : List UInt8)
  | delta (text : String)
  deriving DecidableEq

def openAILine (env : Linked) (line : List UInt8) : OpenAILine :=
  let line := trimSpace (Utf8.text line)
  if !hasPrefix line sseDataPrefix then .skipped
  else
    let payload := trimPrefix line sseDataPrefix
    if payload = sseDoneToken then .done
    else
      match (Json.unmarshal payload).bind decodeOpenAI with
      | none => .undecodable (env.unmarshalErr "openAIStreamChunk" (bytes payload))
      | some text => .delta text

/-! ### Ollama -/

def storeBool : Bool → List Json → Option Bool
  | b, [] => some b
  | b, v :: vs =>
    match v with
    | .null => storeBool b vs
    | .bool b' => storeBool b' vs
    | _ => none

structure OllamaFrame where
  content : String
  done : Bool

def decodeOllama (v : Json) : Option OllamaFrame := do
  let content ← (fieldValues "message" v).bind fun ms => (fieldValuesOf "content" ms).bind (storeString "")
  let done ← (fieldValues "done" v).bind (storeBool false)
  return ⟨content, done⟩

inductive OllamaLine where
  | skipped
  | undecodable (err : List UInt8)
  | frame (f : OllamaFrame)

def ollamaLine (env : Linked) (line : List UInt8) : OllamaLine :=
  let line := trimSpace (Utf8.text line)
  if line = "" then .skipped
  else
    match (Json.unmarshal line).bind decodeOllama with
    | none => .undecodable (env.unmarshalErr "ollamaStreamLine" (bytes line))
    | some f => .frame f

/-! ### The loops -/

variable {statusCode : Int}

inductive BedrockEvent where
  | text (value : String)
  | other

inductive Loop where
  | openAI (resp : Response)
  | openAILines (lines : List (List UInt8)) (err : Option (List UInt8))
  | ollama (resp : Response)
  | ollamaLines (lines : List (List UInt8)) (err : Option (List UInt8))
  | bedrock (events : List BedrockEvent) (err : Option (List UInt8))

def sanitiseErr (msg : List UInt8) : List UInt8 := sanitise msg

def answered (name : String) (scan : List (List UInt8) → Option (List UInt8) → Loop) :
    Response → Next Loop (List UInt8) (List UInt8)
  | .failed err => .fail (bytes (name ++ ": ") ++ sanitiseErr err)
  | .answered statusCode body =>
    if statusCode < 200 ∨ 300 ≤ statusCode then
      .fail (bytes (name ++ ": upstream returned HTTP " ++ String.ofList (decimalInt statusCode)))
    else .skip (scan body.lines body.scanErr)

def streamEnd (what : String) : Option (List UInt8) → Next Loop (List UInt8) (List UInt8)
  | none => .stop
  | some err => .fail (bytes what ++ sanitiseErr err)

def chunk (text : String) (l : Loop) : Next Loop (List UInt8) (List UInt8) :=
  if text = "" then .skip l else .offer (bytes text) l

def openAINext (env : Linked) (line : List UInt8) (l : Loop) : Next Loop (List UInt8) (List UInt8) :=
  match openAILine env line with
  | .skipped => .skip l
  | .done => .stop
  | .undecodable err => .fail (bytes "openai: decode stream frame: " ++ sanitiseErr err)
  | .delta text => chunk text l

def ollamaNext (env : Linked) (line : List UInt8) (l : Loop) : Next Loop (List UInt8) (List UInt8) :=
  match ollamaLine env line with
  | .skipped => .skip l
  | .undecodable err => .fail (bytes "ollama: decode stream frame: " ++ sanitiseErr err)
  | .frame f => if f.done then
      (if f.content = "" then .stop else .offer (bytes f.content) (.ollamaLines [] none))
    else chunk f.content l

/-- What a provider's loop does next. -/
def Loop.next (env : Linked) : Loop → Next Loop (List UInt8) (List UInt8)
  | .openAI resp => answered "openai" .openAILines resp
  | .openAILines [] err => streamEnd "openai: read stream: " err
  | .openAILines (line :: lines) err => openAINext env line (.openAILines lines err)
  | .ollama resp => answered "ollama" .ollamaLines resp
  | .ollamaLines [] err => streamEnd "ollama: read stream: " err
  | .ollamaLines (line :: lines) err => ollamaNext env line (.ollamaLines lines err)
  | .bedrock [] err => streamEnd "bedrock: " err
  | .bedrock (.other :: events) err => .skip (.bedrock events err)
  | .bedrock (.text value :: events) err => chunk value (.bedrock events err)

theorem next_openAI (env : Linked) (hstatus : 200 ≤ statusCode ∧ statusCode < 300)
    (body : Body) :
    Loop.next env (.openAI (.answered statusCode body)) = .skip (.openAILines body.lines body.scanErr) :=
  if_neg (by omega)

theorem next_openAILines (env : Linked) (line : List UInt8) (lines : List (List UInt8))
    (err : Option (List UInt8)) :
    Loop.next env (.openAILines (line :: lines) err) = openAINext env line (.openAILines lines err) := rfl

/-! ### Every stream comes to an end -/

variable {n : Nat} {l : Loop}

def Loop.size : Loop → Nat
  | .openAI (.answered _ body) => body.lines.length + 1
  | .ollama (.answered _ body) => body.lines.length + 1
  | .openAI (.failed _) => 0
  | .ollama (.failed _) => 0
  | .openAILines lines _ => lines.length
  | .ollamaLines lines _ => lines.length
  | .bedrock events _ => events.length

inductive Leaves (n : Nat) : Next Loop (List UInt8) (List UInt8) → Prop
  | skip {l : Loop} (h : l.size < n) : Leaves n (.skip l)
  | offer (a : List UInt8) {l : Loop} (h : l.size < n) : Leaves n (.offer a l)
  | fail (e : List UInt8) : Leaves n (.fail e)
  | stop : Leaves n .stop

theorem leaves_chunk (text : String) (h : l.size < n) : Leaves n (chunk text l) := by
  unfold chunk
  split_ifs
  · exact .skip h
  · exact .offer _ h

theorem leaves_streamEnd (n : Nat) (what : String) (err : Option (List UInt8)) :
    Leaves n (streamEnd what err) := by
  cases err with
  | none => exact .stop
  | some e => exact .fail _

theorem leaves_answered (name : String) {scan : List (List UInt8) → Option (List UInt8) → Loop}
    {body : Body} (h : (scan body.lines body.scanErr).size < n) :
    Leaves n (answered name scan (.answered statusCode body)) := by
  unfold answered
  dsimp only
  split_ifs
  · exact .fail _
  · exact .skip h

theorem leaves_openAINext (env : Linked) (line : List UInt8) (h : l.size < n) :
    Leaves n (openAINext env line l) := by
  unfold openAINext
  split
  · exact .skip h
  · exact .stop
  · exact .fail _
  · exact leaves_chunk _ h

theorem leaves_ollamaNext (env : Linked) (line : List UInt8) (h : l.size < n) :
    Leaves n (ollamaNext env line l) := by
  unfold ollamaNext
  split
  · exact .skip h
  · exact .fail _
  · split_ifs
    · exact .stop
    · exact .offer _ (Nat.zero_lt_of_lt h)
    · exact leaves_chunk _ h

theorem leaves_next (env : Linked) (l : Loop) : Leaves l.size (l.next env) := by
  cases l with
  | openAI resp =>
    cases resp with
    | failed err => exact .fail _
    | answered statusCode body =>
      have hlt : (Loop.openAILines body.lines body.scanErr).size <
          (Loop.openAI (.answered statusCode body)).size :=
        Nat.lt_succ_self body.lines.length
      exact leaves_answered "openai" hlt
  | openAILines lines err =>
    cases lines with
    | nil => exact leaves_streamEnd _ _ _
    | cons line lines =>
      have hlt : (Loop.openAILines lines err).size < lines.length + 1 := Nat.lt_succ_self lines.length
      have hnext := leaves_openAINext env line hlt
      exact hnext
  | ollama resp =>
    cases resp with
    | failed err => exact .fail _
    | answered statusCode body =>
      have hlt : (Loop.ollamaLines body.lines body.scanErr).size <
          (Loop.ollama (.answered statusCode body)).size :=
        Nat.lt_succ_self body.lines.length
      exact leaves_answered "ollama" hlt
  | ollamaLines lines err =>
    cases lines with
    | nil => exact leaves_streamEnd _ _ _
    | cons line lines =>
      have hlt : (Loop.ollamaLines lines err).size < lines.length + 1 := Nat.lt_succ_self lines.length
      have hnext := leaves_ollamaNext env line hlt
      exact hnext
  | bedrock events err =>
    cases events with
    | nil => exact leaves_streamEnd _ _ _
    | cons ev events =>
      cases ev with
      | text value => exact leaves_chunk value (Nat.lt_succ_self _)
      | other => exact .skip (Nat.lt_succ_self _)

/-- **Each reading leaves less to read.** -/
theorem shrinks_next (env : Linked) : Shrinks (Loop.next env) Loop.size := by
  intro l
  have hleaves := leaves_next env l
  refine ⟨fun l' hl' => ?_, fun a l' hl' => ?_⟩
  · rw [hl'] at hleaves
    cases hleaves with
    | skip h => exact h
  · rw [hl'] at hleaves
    cases hleaves with
    | offer _ h => exact h

/-! ### Server-sent events -/

inductive Ending where
  | done
  | eof
  | undecodable (err : List UInt8)
  | readError (err : List UInt8)
  deriving DecidableEq

def frames (env : Linked) : List (List UInt8) → Option (List UInt8) → List String × Ending
  | [], none => ([], .eof)
  | [], some err => ([], .readError err)
  | line :: lines, err =>
    match openAILine env line with
    | .skipped => frames env lines err
    | .done => ([], .done)
    | .undecodable e => ([], .undecodable e)
    | .delta text => (text :: (frames env lines err).1, (frames env lines err).2)

def Ending.error : Ending → Option (List UInt8)
  | .done => none
  | .eof => none
  | .undecodable err => some (bytes "openai: decode stream frame: " ++ sanitiseErr err)
  | .readError err => some (bytes "openai: read stream: " ++ sanitiseErr err)

def chunksOf (deltas : List String) : List (List UInt8) := (deltas.filter (· ≠ "")).map bytes

theorem flatten_chunksOf (deltas : List String) :
    (chunksOf deltas).flatten = (deltas.map bytes).flatten := by
  induction deltas with
  | nil => rfl
  | cons d ds ih =>
    unfold chunksOf at ih ⊢
    by_cases hd : d = ""
    · subst hd
      rw [List.filter_cons_of_neg (by simp), ih]
      rfl
    · grind

theorem yields_lines (env : Linked) (lines : List (List UInt8)) (err : Option (List UInt8)) :
    Yields (Loop.next env) (.openAILines lines err) (chunksOf (frames env lines err).1)
      (frames env lines err).2.error := by
  induction lines with
  | nil =>
    cases err with
    | none => exact .stop rfl
    | some e => exact .fail rfl
  | cons line lines ih =>
    have hnext := next_openAILines env line lines err
    unfold openAINext at hnext
    unfold frames
    cases hline : openAILine env line with
    | skipped =>
      rw [hline] at hnext
      exact .skip hnext ih
    | done =>
      rw [hline] at hnext
      exact .stop hnext
    | undecodable e =>
      rw [hline] at hnext
      exact .fail hnext
    | delta text =>
      rw [hline] at hnext
      dsimp only at hnext ⊢
      unfold chunk at hnext
      split_ifs at hnext with htext
      · have hchunks : chunksOf (text :: (frames env lines err).1) = chunksOf (frames env lines err).1 := by
          rw [htext]
          rfl
        rw [hchunks]
        exact .skip hnext ih
      · have hchunks : chunksOf (text :: (frames env lines err).1) =
            bytes text :: chunksOf (frames env lines err).1 := by
          unfold chunksOf
          rw [List.filter_cons_of_pos (by simpa using htext), List.map_cons]
        rw [hchunks]
        exact .offer hnext ih

/-- **What OpenAI's `run` sends**: the non-empty deltas of the frames, and the error at the end. -/
theorem yields_openAI (env : Linked) (hstatus : 200 ≤ statusCode ∧ statusCode < 300)
    (body : Body) :
    Yields (Loop.next env) (.openAI (.answered statusCode body))
      (chunksOf (frames env body.lines body.scanErr).1) (frames env body.lines body.scanErr).2.error :=
  .skip (next_openAI env hstatus body) (yields_lines env body.lines body.scanErr)

end Zynax.Adapter.Llm
