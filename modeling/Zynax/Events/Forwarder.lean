import Zynax.Concurrency.Threads
import Zynax.Events.Client
import Zynax.Golang.Numbers

namespace Zynax.Events

open Golang Nats Concurrency

/-!
# Dead-letter forwarding

Forwarders copy messages that ran out of deliveries into the dead-letter stream of their source.
Any number of them handle advisories at the same time, one request to the server after the other,
while other clients create streams, publish and take messages away.

* `Allowed`, `allowed_step` — all that a request can do to the server, from which the invariant follows.
-/

/-! ### Advisories and copies -/

structure MaxDeliveriesAdvisory where
  type : String := ""
  stream : String
  consumer : String := ""
  streamSeq : UInt64
  deliveries : UInt64 := 0
  deriving DecidableEq

/-- Why an advisory is skipped at once. -/
def advisoryNotActionable (adv : MaxDeliveriesAdvisory) : Option String :=
  if adv.stream = "" then some "advisory carries no stream"
  else if adv.streamSeq = 0 then some "advisory carries no stream sequence"
  else if hasPrefix adv.stream dlqStreamPrefix then some "source is itself a dlq stream"
  else none

/-- Why a source message is not forwarded. -/
def sourceForwardable (u : CaseTables) (stream subject : String) : Option String :=
  if hasPrefix subject reservedDLQPrefix then
    some "subject is already under the reserved dlq prefix"
  else if streamName u subject ≠ stream then
    some "stream not derived from the zynax subject taxonomy"
  else none

def formatUint (n : UInt64) : String := String.ofList (decimal n.toNat)

/-- The id by which the server drops copies. -/
def dlqMessageID (stream : String) (seq : UInt64) : String :=
  dlqStreamName stream ++ ":" ++ formatUint seq

def natsHeaderPrefix : String := "Nats-"

def forensicHeaders (adv : MaxDeliveriesAdvisory) (subject : String) : List (String × List String) :=
  [("Zynax-Dlq-Source-Stream", [adv.stream]), ("Zynax-Dlq-Source-Subject", [subject]),
    ("Zynax-Dlq-Source-Sequence", [formatUint adv.streamSeq]),
    ("Zynax-Dlq-Consumer", [adv.consumer]), ("Zynax-Dlq-Deliveries", [formatUint adv.deliveries])]

def dlqHeader (src : Header) (adv : MaxDeliveriesAdvisory) (subject : String) : Header :=
  (forensicHeaders adv subject).foldl (fun h e => h.insert e.1 e.2)
    (src.filterMapVal fun k v => if hasPrefix k natsHeaderPrefix then none else some v)

def dlqMsg (adv : MaxDeliveriesAdvisory) (raw : Msg) : Msg where
  subject := dlqDeliverSubject raw.subject
  data := raw.data
  header := (dlqHeader raw.header adv raw.subject).insert msgIdHdr
    [dlqMessageID adv.stream adv.streamSeq]

/-! ### Forwarders and other clients -/

def dlqPublishAttempts : Nat := 3

inductive ForwardError where
  | getSource (err : Option GetMsgError)
  | ensureDLQ (err : EnsureError)
  | publish
  | stopped (attempts : Nat)
  deriving DecidableEq

inductive Outcome where
  | skipped (reason : String)
  | failed (err : ForwardError)
  | deduplicated
  | forwarded
  deriving DecidableEq

inductive Op where
  | addStream (cfg : StreamConfig)
  | publish (m : Msg)
  | remove (name : String) (seq : Nat)

def Op.apply (s : Server) : Op → Server
  | .addStream cfg =>
    match Nats.addStream cfg s with
    | .ok s' => s'
    | .error _ => s
  | .publish m =>
    if hasPrefix m.subject reservedDLQPrefix then s
    else
      match Nats.publish m s with
      | some r => r.1
      | none => s
  | .remove name seq => Nats.remove name seq s

inductive Work where
  | advisory (adv : Option MaxDeliveriesAdvisory)
  | other (op : Op)

inductive Task where
  | handle (adv : Option MaxDeliveriesAdvisory)
  | ensuring (adv : MaxDeliveriesAdvisory) (raw : Msg)
  | publishing (adv : MaxDeliveriesAdvisory) (raw : Msg) (attempt : Nat)
  | finished (adv : Option MaxDeliveriesAdvisory) (outcome : Outcome)
  | other (op : Op)
  | gone

def Task.advisory : Task → Option MaxDeliveriesAdvisory
  | .handle adv => adv
  | .ensuring adv _ => some adv
  | .publishing adv _ _ => some adv
  | .finished adv _ => adv
  | .other _ => none
  | .gone => none

def Task.isOther : Task → Bool
  | .other _ => true
  | _ => false

structure Input where
  delivery : Delivery := .replied
  stopped : Bool := false

/-- `handle`: reads the source message. -/
def handleAdvisory (u : CaseTables) (d : Delivery) (s : Server) (adv : MaxDeliveriesAdvisory) : Task :=
  match advisoryNotActionable adv with
  | some reason => .finished adv (.skipped reason)
  | none =>
    match (request d (fun s => (getMsg adv.stream adv.streamSeq.toNat s).map fun m => (m, s)) s).1 with
    | .error (some .msgNotFound) => .finished adv (.skipped "source message gone")
    | .error err => .finished adv (.failed (.getSource err))
    | .ok raw =>
      match sourceForwardable u adv.stream raw.msg.subject with
      | some reason => .finished adv (.skipped reason)
      | none => .ensuring adv raw.msg

/-- One attempt to publish the copy. -/
def publishToDLQ (input : Input) (s : Server) (adv : MaxDeliveriesAdvisory) (raw : Msg)
    (attempt : Nat) : Server × Task :=
  if 0 < attempt ∧ input.stopped = true then (s, .finished adv (.failed (.stopped attempt)))
  else
    let r := request input.delivery (publishMsg (dlqMsg adv raw)) s
    (r.2,
      match r.1 with
      | .ok ack => .finished adv (if ack.duplicate then .deduplicated else .forwarded)
      | .error _ =>
        if attempt + 1 < dlqPublishAttempts then .publishing adv raw (attempt + 1)
        else .finished adv (.failed .publish))

def Task.step (u : CaseTables) (input : Input) (s : Server) : Task → Server × Task
  | .handle none => (s, .finished none (.skipped "undecodable max-deliveries advisory"))
  | .handle (some adv) => (s, handleAdvisory u input.delivery s adv)
  | .ensuring adv raw =>
    let r := ensureDLQStream adv.stream raw.subject input.delivery s
    (r.2,
      match r.1 with
      | .error err => .finished adv (.failed (.ensureDLQ err))
      | .ok () => .publishing adv raw 0)
  | .publishing adv raw attempt => publishToDLQ input s adv raw attempt
  | .finished adv outcome => (s, .finished adv outcome)
  | .other op => (op.apply s, .gone)
  | .gone => (s, .gone)

def forwarding (u : CaseTables) : Program Server Task Work Input where
  start
    | .advisory adv => .handle adv
    | .other op => .other op
  step input s task :=
    let r := task.step u input s
    (r.1, r.2, [])

/-! ### The id of a copy -/

variable {stream subject : String} {seq : UInt64} {adv : MaxDeliveriesAdvisory}

theorem colon_notMem_decimal (n : Nat) : ':' ∉ decimal n := by
  intro h
  exact absurd ((decimal_digits n).2 _ h) (by decide)

/-- **The id of a copy names its source.** -/
theorem dlqMessageID_inj {stream' : String} {seq' : UInt64}
    (h : dlqMessageID stream seq = dlqMessageID stream' seq') : stream = stream' ∧ seq = seq' := by
  have hlist := congrArg String.toList h
  simp only [dlqMessageID, formatUint, dlqStreamName, String.toList_append, String.toList_ofList,
    List.append_assoc] at hlist
  -- cut at the last colon, which is the first one from behind
  have hcut : ∀ (l : List Char) (n : Nat),
      (l ++ (":".toList ++ decimal n)).reverse.takeWhile (· ≠ ':') = (decimal n).reverse := by
    intro l n
    rw [List.reverse_append, List.reverse_append, List.append_assoc, List.takeWhile_append_of_pos]
    · simp
    · intro c hc
      rw [List.mem_reverse] at hc
      exact decide_eq_true fun heq => colon_notMem_decimal n (heq ▸ hc)
  have hdigits : decimal seq.toNat = decimal seq'.toNat := by
    have hrev := congrArg (fun l => l.reverse.takeWhile (· ≠ ':')) hlist
    rw [← List.append_assoc, ← List.append_assoc (dlqStreamPrefix.toList)] at hrev
    rw [hcut, hcut] at hrev
    exact List.reverse_injective hrev
  have hseq : seq = seq' := by
    have hnat := congrArg natOfDigits hdigits
    rw [natOfDigits_decimal, natOfDigits_decimal] at hnat
    exact UInt64.toNat_inj.mp hnat
  refine ⟨?_, hseq⟩
  rw [hdigits] at hlist
  exact String.toList_inj.mp (List.append_cancel_right (List.append_cancel_left hlist))

theorem advisoryNotActionable_eq_none :
    advisoryNotActionable adv = none ↔
      adv.stream ≠ "" ∧ adv.streamSeq ≠ 0 ∧ hasPrefix adv.stream dlqStreamPrefix = false := by
  unfold advisoryNotActionable
  split_ifs <;> simp_all

theorem sourceForwardable_eq_none {u : CaseTables} :
    sourceForwardable u stream subject = none ↔
      ¬Reserved subject ∧ streamName u subject = stream := by
  unfold sourceForwardable Reserved
  split_ifs <;> simp_all

/-! ### The headers of a copy -/

variable {k : String}

theorem lookup_foldl_insert_of_notMem {l : List (String × List String)} (hk : k ∉ l.map Prod.fst)
    (h : Header) :
    (l.foldl (fun h e => h.insert e.1 e.2) h).lookup k = h.lookup k := by
  induction l generalizing h with
  | nil => rfl
  | cons e l ih =>
    rw [List.map_cons, List.mem_cons, not_or] at hk
    rw [List.foldl_cons, ih hk.2, AList.lookup_insert_ne hk.1]

theorem lookup_dlqHeader {src : Header} (hk : k ∉ (forensicHeaders adv subject).map Prod.fst) :
    (dlqHeader src adv subject).lookup k =
      if hasPrefix k natsHeaderPrefix then none else src.lookup k := by
  rw [dlqHeader, lookup_foldl_insert_of_notMem hk, GoMap.lookup_filterMapVal]
  cases src.lookup k <;> by_cases hp : hasPrefix k natsHeaderPrefix = true <;> simp [hp]

theorem notMem_forensicHeaders (hk : hasPrefix k natsHeaderPrefix = true) :
    k ∉ (forensicHeaders adv subject).map Prod.fst := by
  have hall : ∀ name ∈ ["Zynax-Dlq-Source-Stream", "Zynax-Dlq-Source-Subject",
      "Zynax-Dlq-Source-Sequence", "Zynax-Dlq-Consumer", "Zynax-Dlq-Deliveries"],
      hasPrefix name natsHeaderPrefix = false := by decide +kernel
  intro hmem
  rw [hall k hmem] at hk
  exact absurd hk (by simp)

/-! ### Copies -/

variable {u : CaseTables} {s s' : Server} {raw : Msg}

structure IsCopy (u : CaseTables) (s : Server) (m : Msg) (stream : String) (seq : UInt64) (raw : Msg) :
    Prop where
  source : s.Stored stream ⟨seq.toNat, raw⟩
  data : m.data = raw.data
  subject : m.subject = dlqDeliverSubject raw.subject
  reserved : ∀ k, hasPrefix k natsHeaderPrefix = true →
    m.header.lookup k = if k = msgIdHdr then some [dlqMessageID stream seq] else none
  notDLQ : hasPrefix stream dlqStreamPrefix = false
  notReserved : ¬Reserved raw.subject
  derived : streamName u raw.subject = stream

theorem IsCopy.id {m : Msg} (h : IsCopy u s m stream seq raw) : m.id = dlqMessageID stream seq := by
  rw [Msg.id, h.reserved msgIdHdr (by decide), if_pos rfl]
  rfl

theorem IsCopy.grows {m : Msg} (h : IsCopy u s m stream seq raw) (hs : Grows s s') :
    IsCopy u s' m stream seq raw :=
  { h with source := hs.stored h.source }

theorem dlqMessageID_ne_empty (stream : String) (seq : UInt64) : dlqMessageID stream seq ≠ "" := by
  intro h
  have hlen := congrArg (fun s => s.toList.length) h
  simp [dlqMessageID] at hlen

theorem eq_of_isCopy {st : Stream} (hst : st.DistinctIDs) {m m' : StoredMsg}
    (hm : m ∈ st.stored) (hm' : m' ∈ st.stored) {raw' : Msg}
    (h : IsCopy u s m.msg stream seq raw) (h' : IsCopy u s m'.msg stream seq raw') : m = m' :=
  hst m hm m' hm' (h.id ▸ dlqMessageID_ne_empty stream seq) (h.id.trans h'.id.symm)

structure Fetched (u : CaseTables) (s : Server) (adv : MaxDeliveriesAdvisory) (raw : Msg) : Prop where
  source : s.Stored adv.stream ⟨adv.streamSeq.toNat, raw⟩
  actionable : advisoryNotActionable adv = none
  forwardable : sourceForwardable u adv.stream raw.subject = none

theorem Fetched.grows (h : Fetched u s adv raw) (hs : Grows s s') : Fetched u s' adv raw :=
  { h with source := hs.stored h.source }

theorem Fetched.isCopy (h : Fetched u s adv raw) :
    IsCopy u s (dlqMsg adv raw) adv.stream adv.streamSeq raw where
  source := h.source
  data := rfl
  subject := rfl
  reserved := by
    intro k hk
    by_cases hid : k = msgIdHdr
    · rw [if_pos hid, hid, dlqMsg, AList.lookup_insert]
    · rw [if_neg hid, dlqMsg, AList.lookup_insert_ne hid,
        lookup_dlqHeader (notMem_forensicHeaders hk), if_pos hk]
  notDLQ := (advisoryNotActionable_eq_none.mp h.actionable).2.2
  notReserved := (sourceForwardable_eq_none.mp h.forwardable).1
  derived := (sourceForwardable_eq_none.mp h.forwardable).2

/-! ### One request -/

variable {task : Task}

def Task.Sound (u : CaseTables) (s : Server) : Task → Prop
  | .ensuring adv raw => Fetched u s adv raw
  | .publishing adv raw _ => Fetched u s adv raw
  | .finished (some adv) .forwarded =>
    ∃ name m raw, s.Stored name m ∧ IsCopy u s m.msg adv.stream adv.streamSeq raw
  | _ => True

theorem Task.Sound.grows (h : task.Sound u s) (hs : Grows s s') :
    task.Sound u s' := by
  unfold Task.Sound at h ⊢
  split
  · exact Fetched.grows h hs
  · exact Fetched.grows h hs
  · obtain ⟨name, m, raw, hm, hcopy⟩ := h
    exact ⟨name, m, raw, hs.stored hm, hcopy.grows hs⟩
  · trivial

def Task.MayStore (u : CaseTables) (s : Server) (task : Task) (m : Msg) : Prop :=
  if task.isOther then ¬Reserved m.subject
  else ∃ adv raw, task.advisory = some adv ∧ IsCopy u s m adv.stream adv.streamSeq raw

theorem sound_handleAdvisory (d : Delivery) (s : Server) (adv : MaxDeliveriesAdvisory) :
    (handleAdvisory u d s adv).Sound u s := by
  unfold handleAdvisory
  split
  · trivial
  rename_i hact
  split
  · trivial
  · trivial
  · rename_i raw hget
    split
    · trivial
    · rename_i hfwd
      -- a reply means that the message was found
      have hok : getMsg adv.stream adv.streamSeq.toNat s = .ok raw := by
        obtain ⟨m, hm, heq⟩ := map_eq_ok.mp (request_eq_ok hget)
        rw [hm, (Prod.mk.inj heq).1]
      obtain ⟨hstored, hseq⟩ := getMsg_eq_ok hok
      exact ⟨hseq ▸ hstored, hact, hfwd⟩

structure Allowed (u : CaseTables) (s : Server) (task : Task) (r : Server × Task) : Prop where
  changes : Changes s r.1 (task.MayStore u s)
  keeps : task.isOther = false → Keeps s r.1
  sound : r.2.Sound u r.1

theorem Allowed.same {task' : Task} (h : task'.Sound u s) :
    Allowed u s task (s, task') :=
  ⟨.refl s _, fun _ => .refl s, h⟩

theorem allowed_ensureDLQStream (d : Delivery) (h : Fetched u s adv raw) : Allowed u s (.ensuring adv raw)
      ((ensureDLQStream adv.stream raw.subject d s).2,
        match (ensureDLQStream adv.stream raw.subject d s).1 with
        | .error err => .finished adv (.failed (.ensureDLQ err))
        | .ok () => .publishing adv raw 0) := by
  have hserver : Changes s (ensureDLQStream adv.stream raw.subject d s).2
      (Task.MayStore u s (.ensuring adv raw)) ∧
      Keeps s (ensureDLQStream adv.stream raw.subject d s).2 := by
    rcases ensure_snd (dlqStream adv.stream raw.subject) d s with hs | hs
    · rw [ensureDLQStream, hs]
      exact ⟨.refl s _, .refl s⟩
    · exact ⟨changes_addStream hs _, keeps_addStream hs⟩
  refine ⟨hserver.1, fun _ => hserver.2, ?_⟩
  dsimp only
  split
  · trivial
  · exact h.grows hserver.1.grows

theorem allowed_publishToDLQ (input : Input) (attempt : Nat) (h : Fetched u s adv raw) :
    Allowed u s (.publishing adv raw attempt) (publishToDLQ input s adv raw attempt) := by
  unfold publishToDLQ
  split
  · exact .same trivial
  have hserver : Changes s (request input.delivery (publishMsg (dlqMsg adv raw)) s).2
      (Task.MayStore u s (.publishing adv raw attempt)) ∧
      Keeps s (request input.delivery (publishMsg (dlqMsg adv raw)) s).2 := by
    refine request_rule (P := fun s' => Changes s s' _ ∧ Keeps s s') ⟨.refl s _, .refl s⟩ fun ack s' hop => ?_
    have hpub := publishMsg_eq_ok hop
    exact ⟨(changes_publish hpub).mono fun m hm => hm ▸ ⟨adv, raw, rfl, h.isCopy⟩, keeps_publish hpub⟩
  refine ⟨hserver.1, fun _ => hserver.2, ?_⟩
  dsimp only
  split
  · rename_i ack hack
    cases hdup : ack.duplicate with
    | true => trivial
    | false =>
      obtain ⟨name, seq, hstored⟩ := stored_of_publish (publishMsg_eq_ok (request_eq_ok hack)) hdup
      exact ⟨name, ⟨seq, dlqMsg adv raw⟩, raw, hstored, h.isCopy.grows hserver.1.grows⟩
  · split
    · exact h.grows hserver.1.grows
    · trivial

theorem allowed_other (op : Op) (s : Server) : Allowed u s (.other op) (op.apply s, .gone) := by
  refine ⟨?_, fun hno => absurd hno (by simp [Task.isOther]), trivial⟩
  unfold Op.apply
  cases op with
  | addStream cfg =>
    dsimp only
    split
    · rename_i s' hs
      exact changes_addStream hs _
    · exact .refl s _
  | publish m =>
    dsimp only
    split
    · exact .refl s _
    rename_i hres
    split
    · rename_i r hs
      exact (changes_publish hs).mono fun m' hm' => by
        rw [hm']
        exact hres
    · exact .refl s _
  | remove name seq => exact changes_remove name seq s _

theorem allowed_step (input : Input) (h : task.Sound u s) :
    Allowed u s task (task.step u input s) := by
  cases task with
  | handle adv =>
    cases adv with
    | none => exact .same trivial
    | some adv => exact .same (sound_handleAdvisory _ s adv)
  | ensuring adv raw => exact allowed_ensureDLQStream input.delivery h
  | publishing adv raw attempt => exact allowed_publishToDLQ input attempt h
  | finished adv outcome => exact .same h
  | other op => exact allowed_other op s
  | gone => exact .same trivial

/-! ### Every run -/

structure Consistent (u : CaseTables) (c : Config Server Task) : Prop where
  distinct : ∀ st ∈ c.shared, st.DistinctIDs
  copies : ∀ name m, c.shared.Stored name m → Reserved m.msg.subject →
    ∃ stream seq raw, IsCopy u c.shared m.msg stream seq raw
  tasks : ∀ task ∈ c.threads, task.Sound u c.shared

theorem Consistent.act_step {c : Config Server Task} (h : Consistent u c) {i : Nat} {input : Input}
    (ht : c.threads[i]? = some task) :
    Consistent u ⟨(task.step u input c.shared).1,
      update c.threads i (task.step u input c.shared).2 []⟩ := by
  have hok := allowed_step input (h.tasks task (List.mem_of_getElem? ht))
  refine ⟨hok.changes.distinct h.distinct, fun name m hm hres => ?_, ?_⟩
  · rcases hok.changes.stored name m hm with hold | hnew
    · obtain ⟨stream, seq, raw, hcopy⟩ := h.copies name m hold hres
      exact ⟨stream, seq, raw, hcopy.grows hok.changes.grows⟩
    · unfold Task.MayStore at hnew
      split at hnew
      · exact absurd hres hnew
      · obtain ⟨adv, raw, -, hcopy⟩ := hnew
        exact ⟨adv.stream, adv.streamSeq, raw, hcopy.grows hok.changes.grows⟩
  · refine forall_update (fun j task' _ htask' => ?_) hok.sound (by simp)
    exact (h.tasks task' (List.mem_of_getElem? htask')).grows hok.changes.grows

theorem consistent_run (acts : List (Act Work Input)) :
    Consistent u ((forwarding u).run ⟨[], []⟩ acts) := by
  have hinit : Consistent u ⟨[], []⟩ := by
    refine ⟨by simp, ?_, by simp⟩
    rintro name m ⟨st, hst, -⟩
    exact absurd hst (by simp)
  refine Program.run_invariant (C := fun _ _ => True) ?_ ?_ hinit ?_
  · intro c work h
    refine ⟨h.distinct, h.copies, fun task htask => ?_⟩
    rcases List.mem_append.mp htask with htask | htask
    · exact h.tasks task htask
    · rw [List.mem_singleton.mp htask]
      cases work <;> trivial
  · intro c i input task h ht _
    exact h.act_step ht
  · exact Program.along_of_forall (fun _ _ => trivial) acts _

/-- **Dead-letter forwarding is idempotent and loses nothing.**  Whatever forwarders and other clients
    do, in whatever order, and whatever becomes of their requests: a stream has at most one copy of a
    source message; what sits on a dead-letter subject is a true copy; ids tell sources apart; a
    forwarder takes nothing away and adds only copies of the message of its advisory; and what it
    reports as forwarded is there. -/
theorem forwarding_safe (u : CaseTables) (acts : List (Act Work Input)) :
    let c := (forwarding u).run ⟨[], []⟩ acts
    (∀ st ∈ c.shared, ∀ m ∈ st.stored, ∀ m' ∈ st.stored, ∀ stream seq raw raw',
        IsCopy u c.shared m.msg stream seq raw → IsCopy u c.shared m'.msg stream seq raw' → m = m') ∧
      (∀ name m, c.shared.Stored name m → Reserved m.msg.subject →
        ∃ stream seq raw, IsCopy u c.shared m.msg stream seq raw) ∧
      (∀ stream seq stream' seq', dlqMessageID stream seq = dlqMessageID stream' seq' →
        stream = stream' ∧ seq = seq') ∧
      (∀ i task input, c.threads[i]? = some task → task.isOther = false →
        Keeps c.shared ((forwarding u).act c (.step i input)).shared ∧
          ∀ name m, ((forwarding u).act c (.step i input)).shared.Stored name m →
            c.shared.Stored name m ∨ ∃ adv raw, task.advisory = some adv ∧
              IsCopy u c.shared m.msg adv.stream adv.streamSeq raw) ∧
      ∀ adv, .finished (some adv) .forwarded ∈ c.threads →
        ∃ name m raw, c.shared.Stored name m ∧
          IsCopy u c.shared m.msg adv.stream adv.streamSeq raw := by
  intro c
  have hc : Consistent u c := consistent_run acts
  refine ⟨fun st hst m hm m' hm' stream seq raw raw' h h' =>
      eq_of_isCopy (hc.distinct st hst) hm hm' h h', hc.copies,
    fun _ _ _ _ => dlqMessageID_inj, fun i task input ht hown => ?_, fun adv hadv => hc.tasks _ hadv⟩
  have hok := allowed_step input (hc.tasks task (List.mem_of_getElem? ht))
  rw [Program.act_step ht]
  refine ⟨hok.keeps hown, fun name m hm => (hok.changes.stored name m hm).imp_right fun hnew => ?_⟩
  unfold Task.MayStore at hnew
  grind

end Zynax.Events
