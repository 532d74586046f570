import Zynax.Transition.Runs

namespace Zynax.Concurrency.Rendezvous

open Transition (run)

/-!
# A producer and a consumer

Two goroutines share an unbuffered channel and a context.  The producer reads from some source and sends
what it finds; a send can be given up when the context is over, the report of an error cannot.  The
consumer receives until it is told the end, and does something with each message in between.

* `Ahead`, `ahead_start`, `ahead_move` — what was received and what is still to come are the stream, as long as the
  context lasts;
* `Shrinks`, `exists_yields` — a source that gets smaller with each reading comes to an end.
-/

variable {σ α ε γ κ : Type}

/-! ### The source -/

inductive Next (σ α ε : Type) where
  | skip (s : σ)
  | offer (a : α) (s : σ)
  | fail (e : ε)
  | stop

inductive Yields (next : σ → Next σ α ε) : σ → List α → Option ε → Prop
  | skip {s s' : σ} {items : List α} {e : Option ε} (h : next s = .skip s') (rest : Yields next s' items e) :
      Yields next s items e
  | offer {s s' : σ} {a : α} {items : List α} {e : Option ε} (h : next s = .offer a s')
      (rest : Yields next s' items e) : Yields next s (a :: items) e
  | fail {s : σ} {e : ε} (h : next s = .fail e) : Yields next s [] (some e)
  | stop {s : σ} (h : next s = .stop) : Yields next s [] none

/-! ### The two sides -/

inductive Producer (σ α ε : Type) where
  | reading (s : σ)
  | offering (a : α) (s : σ)
  | insisting (e : ε)
  | closed

inductive Message (α ε : Type) where
  | item (a : α)
  | error (e : ε)
  | closed

structure Consumer (κ α ε γ : Type) where
  receiving : κ → Bool
  receive : κ → Message α ε → κ
  act : Option γ → κ → κ

structure Config (σ α ε γ κ : Type) where
  producer : Producer σ α ε
  consumer : κ
  ctx : Option γ
  items : List α
  ended : Option (Option ε)

inductive Event (γ : Type) where
  /-- the producer reads on -/
  | read
  /-- the context is over, and the producer gives up a send -/
  | withdraw
  /-- a message is passed on -/
  | pass
  /-- the consumer goes on by itself -/
  | act
  /-- the context ends -/
  | cancel (g : γ)

def Next.producer : Next σ α ε → Producer σ α ε
  | .skip s => .reading s
  | .offer a s => .offering a s
  | .fail e => .insisting e
  | .stop => .closed

def Config.read (next : σ → Next σ α ε) (c : Config σ α ε γ κ) : Config σ α ε γ κ :=
  match c.producer with
  | .reading s => { c with producer := (next s).producer }
  | _ => c

def Config.withdraw (c : Config σ α ε γ κ) : Config σ α ε γ κ :=
  match c.producer with
  | .offering _ _ => if c.ctx.isSome then { c with producer := .closed } else c
  | _ => c

def Config.pass (C : Consumer κ α ε γ) (c : Config σ α ε γ κ) : Config σ α ε γ κ :=
  match c.producer with
  | .reading _ => c
  | .offering a s =>
    { c with
      producer := .reading s
      consumer := C.receive c.consumer (.item a)
      items := c.items ++ [a] }
  -- the channel is closed right after an error
  | .insisting e =>
    { c with
      producer := .closed
      consumer := C.receive c.consumer (.error e)
      ended := some (some e) }
  | .closed => { c with consumer := C.receive c.consumer .closed, ended := some none }

def step (next : σ → Next σ α ε) (C : Consumer κ α ε γ) (c : Config σ α ε γ κ) :
    Event γ → Config σ α ε γ κ
  | .read => c.read next
  | .withdraw => c.withdraw
  | .pass => if C.receiving c.consumer ∧ c.ended = none then c.pass C else c
  | .act => { c with consumer := C.act c.ctx c.consumer }
  | .cancel g => { c with ctx := c.ctx.or (some g) }

variable {next : σ → Next σ α ε} {C : Consumer κ α ε γ}

/-! ### What a step can do -/

variable {c : Config σ α ε γ κ} {s : σ}

inductive Move (next : σ → Next σ α ε) (C : Consumer κ α ε γ) (c : Config σ α ε γ κ) :
    Config σ α ε γ κ → Prop
  | read {s : σ} (hp : c.producer = .reading s) : Move next C c { c with producer := (next s).producer }
  | withdraw {a : α} {s : σ} (hp : c.producer = .offering a s) (hctx : c.ctx ≠ none) :
      Move next C c { c with producer := .closed }
  | item {a : α} {s : σ} (hp : c.producer = .offering a s) (hrecv : C.receiving c.consumer = true)
      (hopen : c.ended = none) :
      Move next C c
        { c with
          producer := .reading s
          consumer := C.receive c.consumer (.item a)
          items := c.items ++ [a] }
  | error {e : ε} (hp : c.producer = .insisting e) (hrecv : C.receiving c.consumer = true)
      (hopen : c.ended = none) :
      Move next C c
        { c with
          producer := .closed
          consumer := C.receive c.consumer (.error e)
          ended := some (some e) }
  | closed (hp : c.producer = .closed) (hrecv : C.receiving c.consumer = true) (hopen : c.ended = none) :
      Move next C c { c with consumer := C.receive c.consumer .closed, ended := some none }
  | act : Move next C c { c with consumer := C.act c.ctx c.consumer }
  | cancel (g : γ) : Move next C c { c with ctx := c.ctx.or (some g) }

/-- **A step is a move, or changes nothing.** -/
theorem step_cases (c : Config σ α ε γ κ) (ev : Event γ) :
    step next C c ev = c ∨ Move next C c (step next C c ev) := by
  cases ev with
  | read =>
    show c.read next = c ∨ Move next C c (c.read next)
    unfold Config.read
    split
    · next hp => exact Or.inr (.read hp)
    · simp
  | withdraw =>
    show c.withdraw = c ∨ Move next C c c.withdraw
    unfold Config.withdraw
    split
    · next hp =>
      split_ifs with hctx
      · exact Or.inr (.withdraw hp (Option.isSome_iff_ne_none.mp hctx))
      · simp
    · simp
  | pass =>
    show (if _ then c.pass C else c) = c ∨ Move next C c (if _ then c.pass C else c)
    split_ifs with hrecv
    · unfold Config.pass
      split
      · simp
      · next hp => exact Or.inr (.item hp hrecv.1 hrecv.2)
      · next hp => exact Or.inr (.error hp hrecv.1 hrecv.2)
      · next hp => exact Or.inr (.closed hp hrecv.1 hrecv.2)
    · simp
  | act => exact Or.inr .act
  | cancel g => exact Or.inr (.cancel g)

theorem step_of_move {I : Config σ α ε γ κ → Prop} (hmove : ∀ c c', I c → Move next C c c' → I c')
    (c : Config σ α ε γ κ) (ev : Event γ) (hc : I c) : I (step next C c ev) := by
  rcases step_cases c ev with heq | hm
  · rw [heq]
    exact hc
  · exact hmove c _ hc hm

theorem run_of_move {I : Config σ α ε γ κ → Prop} (hmove : ∀ c c', I c → Move next C c c' → I c')
    (hc : I c) (events : List (Event γ)) : I (run (step next C) c events) := by
  induction events generalizing c with
  | nil => exact hc
  | cons ev events ih => exact ih (step_of_move hmove c ev hc)

theorem step_read (hp : c.producer = .reading s) :
    step next C c .read = { c with producer := (next s).producer } := by
  show c.read next = _
  unfold Config.read
  rw [hp]

theorem step_pass {a : α} (hp : c.producer = .offering a s)
    (hrecv : C.receiving c.consumer = true) (hopen : c.ended = none) :
    step next C c .pass =
      { c with
        producer := .reading s
        consumer := C.receive c.consumer (.item a)
        items := c.items ++ [a] } := by
  have hpass : step next C c .pass = c.pass C := if_pos ⟨hrecv, hopen⟩
  rw [hpass]
  unfold Config.pass
  rw [hp]

theorem exists_insisting {e : ε} (h : Yields next s [] (some e)) (hp : c.producer = .reading s) :
    ∃ events, run (step next C) c events = { c with producer := .insisting e } := by
  generalize hitems : ([] : List α) = items at h
  generalize hlast : some e = last at h
  induction h generalizing c with
  | @skip _ s' _ _ hs _ ih =>
    have hread : step next C c .read = { c with producer := .reading s' } := by
      rw [step_read hp, hs]
      rfl
    obtain ⟨events, hrun⟩ := ih (c := { c with producer := .reading s' }) rfl hitems hlast
    exact ⟨.read :: events, by rw [Transition.run_cons, hread, hrun]⟩
  | offer _ _ _ => cases hitems
  | fail hs =>
    cases hlast
    refine ⟨[.read], ?_⟩
    show step next C c .read = _
    rw [step_read hp, hs]
    rfl
  | stop _ => cases hlast

/-! ### What is received -/

variable {all : List α} {last : Option ε}

def Ahead (next : σ → Next σ α ε) (all : List α) (last : Option ε) (c : Config σ α ε γ κ) : Prop :=
  match c.producer with
  | .reading s => c.ended = none ∧ ∃ rest, Yields next s rest last ∧ c.items ++ rest = all
  | .offering a s => c.ended = none ∧ ∃ rest, Yields next s rest last ∧ c.items ++ a :: rest = all
  | .insisting e => c.ended = none ∧ c.items = all ∧ last = some e
  | .closed => c.items <+: all ∧ (c.ctx = none → c.items = all ∧ c.ended.getD none = last)

theorem ahead_read (hp : c.producer = .reading s)
    (h : Ahead next all last c) : Ahead next all last { c with producer := (next s).producer } := by
  simp only [Ahead, hp] at h
  obtain ⟨hopen, rest, hyields, hall⟩ := h
  cases hyields with
  | skip hs hrest =>
    rw [hs]
    exact ⟨hopen, rest, hrest, hall⟩
  | offer hs hrest =>
    rw [hs]
    exact ⟨hopen, _, hrest, hall⟩
  | fail hs =>
    rw [hs]
    rw [List.append_nil] at hall
    exact ⟨hopen, hall, rfl⟩
  | stop hs =>
    rw [hs]
    rw [List.append_nil] at hall
    refine ⟨hall ▸ List.prefix_rfl, fun _ => ⟨hall, ?_⟩⟩
    grind

theorem ahead_move {c' : Config σ α ε γ κ} (h : Ahead next all last c) (hm : Move next C c c') :
    Ahead next all last c' := by
  cases hm with
  | read hp => exact ahead_read hp h
  | withdraw hp hctx =>
    simp only [Ahead, hp] at h
    obtain ⟨-, rest, -, hall⟩ := h
    exact ⟨⟨_, hall⟩, fun hnone => absurd hnone hctx⟩
  | item hp _ hopen =>
    simp only [Ahead, hp] at h
    obtain ⟨-, rest, hyields, hall⟩ := h
    exact ⟨hopen, rest, hyields, by rw [List.append_assoc]; exact hall⟩
  | error hp _ _ =>
    simp only [Ahead, hp] at h
    obtain ⟨-, hall, hlast⟩ := h
    exact ⟨hall ▸ List.prefix_rfl, fun _ => ⟨hall, hlast.symm⟩⟩
  | closed hp _ hopen =>
    simp only [Ahead, hp] at h
    obtain ⟨hpre, hlast⟩ := h
    show Ahead next all last { c with consumer := _, ended := some none }
    simp only [Ahead, hp]
    grind
  | act => exact h
  | cancel g =>
    -- the context only ever ends
    have hover : c.ctx.or (some g) ≠ none := by cases c.ctx <;> simp
    revert h
    show Ahead next all last c → Ahead next all last { c with ctx := c.ctx.or (some g) }
    unfold Ahead
    grind

def start (s : σ) (k : κ) (ctx : Option γ) : Config σ α ε γ κ := ⟨.reading s, k, ctx, [], none⟩

/-- **The whole stream is still to come.**  By `ahead_move`, what is received is the stream, or a beginning
    of it if the context has ended. -/
theorem ahead_start {k : κ} {ctx : Option γ} (h : Yields next s all last) :
    Ahead next all last (start s k ctx) :=
  ⟨rfl, all, h, rfl⟩

theorem Ahead.items_prefix (h : Ahead next all last c) : c.items <+: all := by
  unfold Ahead at h
  grind

theorem Ahead.of_ended (h : Ahead next all last c) {e : Option ε}
    (hended : c.ended = some e) (hctx : c.ctx = none) : c.items = all ∧ e = last := by
  unfold Ahead at h
  grind

/-! ### Every step uses something up -/

variable {size : σ → Nat} {w : κ → Nat}

def Producer.weight (size : σ → Nat) (waits : Bool) : Producer σ α ε → Nat
  | .reading s => 3 * size s + 3
  | .offering _ s => 3 * size s + 5
  | .insisting _ => 2
  | .closed => if waits then 1 else 0

def Config.core (c : Config σ α ε γ κ) : Producer σ α ε × κ × Bool :=
  (c.producer, c.consumer, c.ended.isNone)

def weight (size : σ → Nat) (w : κ → Nat) (core : Producer σ α ε × κ × Bool) : Nat :=
  2 * core.1.weight size core.2.2 + w core.2.1

def Shrinks (next : σ → Next σ α ε) (size : σ → Nat) : Prop :=
  ∀ s, (∀ s', next s = .skip s' → size s' < size s) ∧ ∀ a s', next s = .offer a s' → size s' < size s

theorem weight_producer_lt (hsize : Shrinks next size) (s : σ) (waits : Bool) :
    (next s).producer.weight size waits < 3 * size s + 3 := by
  obtain ⟨hskip, hoffer⟩ := hsize s
  cases hs : next s with
  | skip s' =>
    have := hskip s' hs
    show 3 * size s' + 3 < 3 * size s + 3
    omega
  | offer a s' =>
    have := hoffer a s' hs
    show 3 * size s' + 5 < 3 * size s + 3
    omega
  | fail e =>
    show 2 < 3 * size s + 3
    omega
  | stop =>
    show (if waits = true then 1 else 0) < 3 * size s + 3
    split_ifs <;> omega

theorem exists_yields (hsize : Shrinks next size) (s : σ) :
    ∃ items last, Yields next s items last := by
  induction hn : size s using Nat.strongRecOn generalizing s with
  | _ n ih =>
    obtain ⟨hskip, hoffer⟩ := hsize s
    cases hs : next s with
    | skip s' =>
      obtain ⟨items, last, h⟩ := ih _ (hn ▸ hskip s' hs) s' rfl
      exact ⟨items, last, .skip hs h⟩
    | offer a s' =>
      obtain ⟨items, last, h⟩ := ih _ (hn ▸ hoffer a s' hs) s' rfl
      exact ⟨a :: items, last, .offer hs h⟩
    | fail e => exact ⟨[], some e, .fail hs⟩
    | stop => exact ⟨[], none, .stop hs⟩

structure Works (C : Consumer κ α ε γ) (w : κ → Nat) : Prop where
  receive : ∀ k m, w (C.receive k m) ≤ w k + 1
  act : ∀ ctx k, w (C.act ctx k) < w k ∨ C.act ctx k = k

theorem weight_read (hsize : Shrinks next size) (hp : c.producer = .reading s) :
    weight size w ({ c with producer := (next s).producer } : Config σ α ε γ κ).core <
      weight size w c.core := by
  have hlt := weight_producer_lt hsize s c.ended.isNone
  show 2 * (next s).producer.weight size c.ended.isNone + w c.consumer <
    2 * c.producer.weight size c.ended.isNone + w c.consumer
  rw [hp]
  show _ < 2 * (3 * size s + 3) + w c.consumer
  omega

theorem weight_pass (hworks : Works C w) (hopen : c.ended = none)
    (hp : ∀ s, c.producer ≠ .reading s) : weight size w (c.pass C).core < weight size w c.core := by
  unfold Config.pass
  split
  · grind
  · next a s hs =>
    have hle := hworks.receive c.consumer (.item a)
    show 2 * (3 * size s + 3) + w (C.receive c.consumer (.item a)) <
      2 * c.producer.weight size c.ended.isNone + w c.consumer
    rw [hs]
    show _ < 2 * (3 * size s + 5) + w c.consumer
    omega
  · next e hs =>
    have hle := hworks.receive c.consumer (.error e)
    show 2 * 0 + w (C.receive c.consumer (.error e)) <
      2 * c.producer.weight size c.ended.isNone + w c.consumer
    rw [hs]
    show _ < 2 * 2 + w c.consumer
    omega
  · next hs =>
    have hle := hworks.receive c.consumer .closed
    show 2 * c.producer.weight size false + w (C.receive c.consumer .closed) <
      2 * c.producer.weight size c.ended.isNone + w c.consumer
    rw [hs, hopen]
    show 2 * 0 + _ < 2 * 1 + w c.consumer
    omega

/-- **Every step uses something up, or leaves the two sides where they are.** -/
theorem step_weight (hsize : Shrinks next size) (hworks : Works C w) (c : Config σ α ε γ κ)
    (ev : Event γ) :
    weight size w (step next C c ev).core < weight size w c.core ∨ (step next C c ev).core = c.core := by
  have hpass : ∀ c', c.pass C = c' → c.ended = none → (∀ s, c.producer ≠ .reading s) →
      weight size w c'.core < weight size w c.core := by
    rintro c' rfl hopen hp
    exact weight_pass hworks hopen hp
  rcases step_cases c ev with heq | hm
  · rw [heq]
    simp
  generalize step next C c ev = c' at hm ⊢
  cases hm with
  | read hp => exact Or.inl (weight_read hsize hp)
  | withdraw hp _ =>
    left
    show 2 * (if c.ended.isNone = true then 1 else 0) + w c.consumer <
      2 * c.producer.weight size c.ended.isNone + w c.consumer
    rw [hp]
    show _ < 2 * (3 * size _ + 5) + w c.consumer
    split_ifs <;> omega
  | item hp _ hopen => exact Or.inl (hpass _ (by simp only [Config.pass, hp]) hopen (by simp [hp]))
  | error hp _ hopen => exact Or.inl (hpass _ (by simp only [Config.pass, hp]) hopen (by simp [hp]))
  | closed hp _ hopen => exact Or.inl (hpass _ (by simp only [Config.pass, hp]) hopen (by simp [hp]))
  | act =>
    rcases hworks.act c.ctx c.consumer with hlt | heq
    · left
      show _ + w (C.act c.ctx c.consumer) < _ + w c.consumer
      exact Nat.add_lt_add_left hlt _
    · right
      show (c.producer, C.act c.ctx c.consumer, c.ended.isNone) = c.core
      rw [heq]
      rfl
  | cancel g => exact Or.inr rfl

/-- **As long as the consumer waits to be told the end, one of the two sides can go on.** -/
theorem exists_lt_weight (hsize : Shrinks next size) (hworks : Works C w)
    (core : Producer σ α ε × κ × Bool) (hrecv : C.receiving core.2.1 = true) (hwaits : core.2.2 = true) :
    ∃ ev, (ev = .read ∨ ev = .pass) ∧ ∀ c : Config σ α ε γ κ, c.core = core →
      weight size w (step next C c ev).core < weight size w c.core := by
  by_cases hreading : ∃ s, core.1 = .reading s
  · obtain ⟨s, hs⟩ := hreading
    refine ⟨.read, Or.inl rfl, ?_⟩
    rintro c rfl
    have hp : c.producer = .reading s := hs
    rw [step_read hp]
    exact weight_read hsize hp
  · refine ⟨.pass, Or.inr rfl, ?_⟩
    rintro c rfl
    have hopen : c.ended = none := Option.isNone_iff_eq_none.mp hwaits
    have hstep : step next C c .pass = c.pass C := if_pos ⟨hrecv, hopen⟩
    rw [hstep]
    exact weight_pass hworks hopen fun s hs => hreading ⟨s, hs⟩

end Zynax.Concurrency.Rendezvous
