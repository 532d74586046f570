import Zynax.Golang.Map
import Zynax.Nats.Subjects

namespace Zynax.Nats

open Golang

/-!
# JetStream

A JetStream server as its clients see it: streams that capture subjects, refuse to overlap, number
the messages they store and collapse messages with equal ids.

* `Stream.Extends`, `Grows`, `Keeps` — what no request undoes: streams stay, with their name, their
  subjects and everything they ever stored.
-/

/-! ### Messages and streams -/

abbrev Header : Type := GoMap (List String)

structure Msg where
  subject : String
  header : Header := ∅
  data : List UInt8 := []
  deriving DecidableEq

def msgIdHdr : String := "Nats-Msg-Id"

def Msg.id (m : Msg) : String := ((m.header.lookup msgIdHdr).bind List.head?).getD ""

structure StoredMsg where
  seq : Nat
  msg : Msg
  deriving DecidableEq

structure StreamConfig where
  name : String
  subjects : List String
  deriving DecidableEq

structure Stream where
  config : StreamConfig
  stored : List StoredMsg := []
  removed : List Nat := []
  deriving DecidableEq

namespace Stream

def name (st : Stream) : String := st.config.name

def captures (st : Stream) (subject : String) : Bool := matchesAny st.config.subjects subject

def get (st : Stream) (seq : Nat) : Option StoredMsg :=
  if seq ∈ st.removed then none else st.stored.find? (fun m => m.seq == seq)

def withID (st : Stream) (id : String) : Option StoredMsg :=
  if id = "" then none else st.stored.find? (fun m => m.msg.id == id)

end Stream

abbrev Server : Type := List Stream

def Server.find (s : Server) (name : String) : Option Stream := List.find? (fun st => st.name == name) s

/-! ### Requests -/

inductive AddStreamError where
  | nameInUse | overlap
  deriving DecidableEq

def overlapping (filters filters' : List String) : Bool :=
  filters.any fun f => filters'.any fun f' => collide (tokens f) (tokens f')

def addStream (cfg : StreamConfig) (s : Server) : Except AddStreamError Server :=
  if (s.find cfg.name).isSome then .error .nameInUse
  else if s.any fun st => overlapping cfg.subjects st.config.subjects then .error .overlap
  else .ok (s ++ [{ config := cfg }])

inductive GetMsgError where
  | streamNotFound | msgNotFound
  deriving DecidableEq

def getMsg (name : String) (seq : Nat) (s : Server) : Except GetMsgError StoredMsg :=
  match s.find name with
  | none => .error .streamNotFound
  | some st =>
    match st.get seq with
    | none => .error .msgNotFound
    | some m => .ok m

structure PubAck where
  stream : String
  sequence : Nat
  duplicate : Bool
  deriving DecidableEq

def Stream.accept (st : Stream) (m : Msg) : Stream × PubAck :=
  match st.withID m.id with
  | some old => (st, ⟨st.name, old.seq, true⟩)
  | none =>
    let seq := st.stored.length + 1
    ({ st with stored := st.stored ++ [⟨seq, m⟩] }, ⟨st.name, seq, false⟩)

def publish (m : Msg) : Server → Option (Server × PubAck)
  | [] => none
  | st :: rest =>
    if st.captures m.subject then some ((st.accept m).1 :: rest, (st.accept m).2)
    else (publish m rest).map fun r => (st :: r.1, r.2)

def publishMsg (m : Msg) (s : Server) : Except Unit (PubAck × Server) :=
  match publish m s with
  | none => .error ()
  | some (s', ack) => .ok (ack, s')

def remove (name : String) (seq : Nat) (s : Server) : Server :=
  s.map fun st => if st.name = name then { st with removed := seq :: st.removed } else st

inductive Delivery where
  | replied | requestLost | replyLost
  deriving DecidableEq

def request {ε α : Type} (d : Delivery) (op : Server → Except ε (α × Server)) (s : Server) :
    Except (Option ε) α × Server :=
  match d with
  | .requestLost => (.error none, s)
  | .replied =>
    match op s with
    | .ok (a, s') => (.ok a, s')
    | .error err => (.error (some err), s)
  | .replyLost =>
    match op s with
    | .ok (_, s') => (.error none, s')
    | .error _ => (.error none, s)

/-! ### What no request undoes -/

structure Stream.Extends (st st' : Stream) : Prop where
  config : st'.config = st.config
  stored : st.stored <+: st'.stored

theorem Stream.Extends.refl (st : Stream) : st.Extends st := ⟨rfl, List.prefix_rfl⟩

variable {st st' : Stream}

theorem Stream.Extends.name (h : st.Extends st') : st'.name = st.name := by
  rw [Stream.name, h.config, Stream.name]

def Grows (s s' : Server) : Prop := ∀ st ∈ s, ∃ st' ∈ s', st.Extends st'

def Keeps (s s' : Server) : Prop := ∀ st ∈ s, ∃ st' ∈ s', st.Extends st' ∧ st'.removed = st.removed

variable {s s' : Server}

theorem Keeps.grows (h : Keeps s s') : Grows s s' := by
  intro st hst
  obtain ⟨st', hst', hext, -⟩ := h st hst
  exact ⟨st', hst', hext⟩

theorem Keeps.refl (s : Server) : Keeps s s := fun st hst => ⟨st, hst, .refl st, rfl⟩

def Server.Stored (s : Server) (name : String) (m : StoredMsg) : Prop :=
  ∃ st ∈ s, st.name = name ∧ m ∈ st.stored

variable {name : String}

theorem Grows.stored (h : Grows s s') {m : StoredMsg}
    (hm : s.Stored name m) : s'.Stored name m := by
  obtain ⟨st, hst, hname, hmem⟩ := hm
  obtain ⟨st', hst', hext⟩ := h st hst
  exact ⟨st', hst', hext.name.trans hname, hext.stored.mem hmem⟩

def Stream.DistinctIDs (st : Stream) : Prop :=
  ∀ m ∈ st.stored, ∀ m' ∈ st.stored, m.msg.id ≠ "" → m.msg.id = m'.msg.id → m = m'

theorem Server.mem_of_find (h : s.find name = some st) :
    st ∈ s ∧ st.name = name :=
  ⟨List.mem_of_find?_eq_some h, by simpa using List.find?_some h⟩

theorem Server.find_eq_none :
    s.find name = none ↔ ∀ st ∈ s, st.name ≠ name := by
  simp [Server.find]

/-! ### After a request -/

theorem overlapping_iff {filters filters' : List String} :
    overlapping filters filters' = true ↔ ∃ f ∈ filters, ∃ f' ∈ filters', ∃ ts,
      matchTokens (tokens f) ts = true ∧ matchTokens (tokens f') ts = true := by
  simp [overlapping, collide_iff]

theorem request_rule {ε α : Type} {d : Delivery} {op : Server → Except ε (α × Server)}
    {P : Server → Prop} (hs : P s) (hop : ∀ a s', op s = .ok (a, s') → P s') :
    P (request d op s).2 := by
  unfold request
  grind

theorem request_eq_ok {ε α : Type} {d : Delivery} {op : Server → Except ε (α × Server)} {a : α}
    (h : (request d op s).1 = .ok a) : op s = .ok (a, (request d op s).2) := by
  unfold request at h ⊢
  grind

variable {cfg : StreamConfig}

theorem mem_addStream (h : addStream cfg s = .ok s') :
    s' = s ++ [{ config := cfg }] ∧ (∀ st ∈ s, st.name ≠ cfg.name) := by
  unfold addStream at h
  split at h
  · exact absurd h (by simp)
  rename_i hname
  split at h
  · exact absurd h (by simp)
  refine ⟨(Except.ok.inj h).symm, ?_⟩
  rw [← Server.find_eq_none]
  simpa using hname

theorem keeps_addStream (h : addStream cfg s = .ok s') :
    Keeps s s' := by
  rw [(mem_addStream h).1]
  exact fun st hst => ⟨st, List.mem_append_left _ hst, .refl st, rfl⟩

theorem Stream.extends_accept (st : Stream) (m : Msg) :
    st.Extends (st.accept m).1 ∧ (st.accept m).1.removed = st.removed := by
  unfold Stream.accept
  split
  · exact ⟨.refl st, rfl⟩
  · exact ⟨⟨rfl, List.prefix_append _ _⟩, rfl⟩

theorem Stream.stored_accept (st : Stream) (m : Msg) :
    (st.accept m).1.stored = st.stored ∨
      (st.accept m).1.stored = st.stored ++ [⟨st.stored.length + 1, m⟩] ∧
        ∀ m' ∈ st.stored, m.id ≠ "" → m'.msg.id ≠ m.id := by
  unfold Stream.accept
  split
  · simp
  · rename_i hnone
    refine Or.inr ⟨rfl, fun m' hm' hid => ?_⟩
    rw [Stream.withID, if_neg hid, List.find?_eq_none] at hnone
    simpa using hnone m' hm'

theorem Stream.DistinctIDs.accept (h : st.DistinctIDs) (m : Msg) :
    (st.accept m).1.DistinctIDs := by
  rcases st.stored_accept m with hsame | ⟨hnew, hfresh⟩
  · unfold Stream.DistinctIDs
    rw [hsame]
    exact h
  · unfold Stream.DistinctIDs
    rw [hnew]
    intro m₁ h₁ m₂ h₂ hid heq
    rw [List.mem_append, List.mem_singleton] at h₁ h₂
    rcases h₁ with h₁ | rfl <;> rcases h₂ with h₂ | rfl
    · exact h m₁ h₁ m₂ h₂ hid heq
    · grind
    · grind
    · rfl

variable {m : Msg} {ack : PubAck}

theorem publish_eq_some (h : publish m s = some (s', ack)) :
    ∃ l st r, s = l ++ st :: r ∧ s' = l ++ (st.accept m).1 :: r ∧ ack = (st.accept m).2 := by
  induction s generalizing s' with
  | nil => exact absurd h (by simp [publish])
  | cons st rest ih =>
    rw [publish] at h
    split at h
    · obtain ⟨rfl, rfl⟩ := Prod.mk.inj (Option.some.inj h)
      exact ⟨[], st, rest, rfl, rfl, rfl⟩
    · obtain ⟨r, hr, heq⟩ := Option.map_eq_some_iff.mp h
      grind

theorem mem_publish (h : publish m s = some (s', ack))
    (hst' : st' ∈ s') : st' ∈ s ∨ ∃ st ∈ s, st' = (st.accept m).1 := by
  obtain ⟨l, st, r, rfl, rfl, -⟩ := publish_eq_some h
  grind

theorem publishMsg_eq_ok (h : publishMsg m s = .ok (ack, s')) : publish m s = some (s', ack) := by
  unfold publishMsg at h
  grind

theorem map_config_publish (h : publish m s = some (s', ack)) :
    s'.map Stream.config = s.map Stream.config := by
  obtain ⟨l, st, r, rfl, rfl, -⟩ := publish_eq_some h
  rw [List.map_append, List.map_append, List.map_cons, List.map_cons, (st.extends_accept m).1.config]

theorem keeps_publish (h : publish m s = some (s', ack)) :
    Keeps s s' := by
  obtain ⟨l, st, r, rfl, rfl, -⟩ := publish_eq_some h
  intro st₀ hst₀
  rcases List.mem_append.mp hst₀ with hl | hr
  · exact ⟨st₀, List.mem_append_left _ hl, .refl st₀, rfl⟩
  rcases List.mem_cons.mp hr with rfl | hr
  · exact ⟨_, by simp, st₀.extends_accept m⟩
  · exact ⟨st₀, by simp [hr], .refl st₀, rfl⟩

theorem mem_remove {seq : Nat} (h : st' ∈ remove name seq s) :
    ∃ st ∈ s, st.Extends st' ∧ st'.stored = st.stored := by
  obtain ⟨st, hst, rfl⟩ := List.mem_map.mp h
  refine ⟨st, hst, ?_⟩
  split
  · exact ⟨⟨rfl, List.prefix_rfl⟩, rfl⟩
  · exact ⟨.refl st, rfl⟩

theorem grows_remove (name : String) (seq : Nat) (s : Server) : Grows s (remove name seq s) := by
  intro st hst
  refine ⟨_, List.mem_map.mpr ⟨st, hst, rfl⟩, ?_⟩
  split
  · exact ⟨rfl, List.prefix_rfl⟩
  · exact .refl st

structure Changes (s s' : Server) (new : Msg → Prop) : Prop where
  grows : Grows s s'
  stored : ∀ name m, s'.Stored name m → s.Stored name m ∨ new m.msg
  distinct : (∀ st ∈ s, st.DistinctIDs) → ∀ st ∈ s', st.DistinctIDs

theorem Changes.refl (s : Server) (new : Msg → Prop) : Changes s s new :=
  ⟨(Keeps.refl s).grows, fun _ _ hm => Or.inl hm, id⟩

theorem Changes.mono {new new' : Msg → Prop} (h : Changes s s' new)
    (himp : ∀ m, new m → new' m) : Changes s s' new' :=
  ⟨h.grows, fun name m hm => (h.stored name m hm).imp_right (himp _), h.distinct⟩

theorem changes_addStream (h : addStream cfg s = .ok s')
    (new : Msg → Prop) : Changes s s' new := by
  have hmem : ∀ st ∈ s', st ∈ s ∨ st.stored = [] := by
    intro st hst
    rw [(mem_addStream h).1, List.mem_append, List.mem_singleton] at hst
    grind
  refine ⟨(keeps_addStream h).grows, ?_, fun hs st hst => ?_⟩
  · rintro name m ⟨st, hst, hname, hm⟩
    rcases hmem st hst with hst | hst
    · exact Or.inl ⟨st, hst, hname, hm⟩
    · grind
  · rcases hmem st hst with hst | hst
    · exact hs st hst
    · intro m hm
      grind

theorem changes_publish (h : publish m s = some (s', ack)) :
    Changes s s' (· = m) := by
  refine ⟨(keeps_publish h).grows, ?_, fun hs st' hst' => ?_⟩
  · rintro name m' ⟨st', hst', hname, hm'⟩
    rcases mem_publish h hst' with hst | ⟨st, hst, rfl⟩
    · exact Or.inl ⟨st', hst, hname, hm'⟩
    · rw [(st.extends_accept m).1.name] at hname
      rcases st.stored_accept m with hsame | ⟨hnew, -⟩
      · exact Or.inl ⟨st, hst, hname, hsame ▸ hm'⟩
      · rw [hnew, List.mem_append, List.mem_singleton] at hm'
        rcases hm' with hm' | rfl
        · exact Or.inl ⟨st, hst, hname, hm'⟩
        · simp
  · rcases mem_publish h hst' with hst | ⟨st, hst, rfl⟩
    · exact hs st' hst
    · exact (hs st hst).accept m

theorem changes_remove (name : String) (seq : Nat) (s : Server) (new : Msg → Prop) :
    Changes s (remove name seq s) new := by
  refine ⟨grows_remove name seq s, ?_, fun hs st' hst' => ?_⟩
  · rintro name' m ⟨st', hst', hname, hm⟩
    obtain ⟨st, hst, hext, hsame⟩ := mem_remove hst'
    exact Or.inl ⟨st, hst, hext.name.symm.trans hname, hsame ▸ hm⟩
  · obtain ⟨st, hst, -, hsame⟩ := mem_remove hst'
    unfold Stream.DistinctIDs
    rw [hsame]
    exact hs st hst

theorem stored_of_publish (h : publish m s = some (s', ack))
    (hack : ack.duplicate = false) : ∃ name seq, s'.Stored name ⟨seq, m⟩ := by
  obtain ⟨l, st, r, rfl, rfl, rfl⟩ := publish_eq_some h
  refine ⟨_, st.stored.length + 1, (st.accept m).1, by simp, rfl, ?_⟩
  unfold Stream.accept at hack ⊢
  grind

theorem getMsg_eq_ok {seq : Nat} {m : StoredMsg}
    (h : getMsg name seq s = .ok m) : s.Stored name m ∧ m.seq = seq := by
  unfold getMsg at h
  split at h
  · exact absurd h (by simp)
  rename_i st hst
  split at h
  · exact absurd h (by simp)
  rename_i m' hm'
  obtain rfl := Except.ok.inj h
  unfold Stream.get at hm'
  split at hm'
  · exact absurd hm' (by simp)
  obtain ⟨hmem, hname⟩ := Server.mem_of_find hst
  exact ⟨⟨st, hmem, hname, List.mem_of_find?_eq_some hm'⟩, by simpa using List.find?_some hm'⟩

end Zynax.Nats
