import Zynax.Adapter.GitProcess

namespace Zynax.Adapter.Git

open Concurrency

/-!
# Installation tokens

An `AppSource` hands out the token that it holds and has a new one minted when the old one is about to
expire.  Any number of calls of `Token` share it under a mutex, while the clock goes on.

* `tokenStep` — a call up to its next reading of the clock, or to the answer of the minter; `tokenAlone_eq`,
  undisturbed it is `Source.token`.
-/

/-! ### Calls of `Token` -/

structure InstallationToken where
  token : String := ""
  expires : Int := 0
  deriving DecidableEq

/-- The source of tokens, with its lock and clock. -/
structure AppSource where
  locked : Bool := false
  cur : InstallationToken := {}
  clock : Int

structure Mint where
  clock : Int
  held : InstallationToken
  answer : Except (List UInt8) InstallationToken

inductive Stage where
  | lock
  | valid
  | mint
  | fallback (err : List UInt8)
  | returned (result : Except (List UInt8) String) (held : InstallationToken)

def Stage.inside : Stage → Bool
  | .valid | .mint | .fallback _ => true
  | .lock | .returned _ _ => false

structure TokenCall where
  stage : Stage := .lock
  read : Option Int := none
  mints : List Mint := []

structure TokenInput where
  elapsed : Nat
  minted : Except (List UInt8) InstallationToken

/-- `Token`, up to its next reading of the clock or of the minter. -/
def tokenStep (input : TokenInput) (s : AppSource) (t : TokenCall) : AppSource × TokenCall × List TokenCall :=
  let now := s.clock + input.elapsed
  let s := { s with clock := now }
  let free := { s with locked := false }
  match t.stage with
  | .lock => if s.locked then (s, t, []) else ({ s with locked := true }, { t with stage := .valid }, [])
  | .valid =>
    -- `valid` reads the clock only if there is a token
    if s.cur.token = "" then (s, { t with stage := .mint }, [])
    else if now + refreshSkew < s.cur.expires then
      (free, { t with stage := .returned (.ok s.cur.token) s.cur, read := some now }, [])
    else (s, { t with stage := .mint, read := some now }, [])
  | .mint =>
    let mints := t.mints ++ [⟨now, s.cur, input.minted⟩]
    match input.minted with
    | .ok tok => ({ free with cur := tok }, ⟨.returned (.ok tok.token) tok, t.read, mints⟩, [])
    | .error err => (s, ⟨.fallback err, t.read, mints⟩, [])
  | .fallback err =>
    let failure := Except.error (bytes "mint installation token: " ++ err)
    if s.cur.token = "" then (free, { t with stage := .returned failure s.cur }, [])
    else if now < s.cur.expires then
      (free, { t with stage := .returned (.ok s.cur.token) s.cur, read := some now }, [])
    else (free, { t with stage := .returned failure s.cur, read := some now }, [])
  | .returned _ _ => (s, t, [])

def tokenAlone (s : AppSource) (inputs : List TokenInput) : AppSource × TokenCall :=
  inputs.foldl (fun c input => ((tokenStep input c.1 c.2).1, (tokenStep input c.1 c.2).2.1)) (s, {})

theorem tokenAlone_eq {s : AppSource} (hfree : s.locked = false) (a b c d : TokenInput) :
    ∃ result held, (tokenAlone s [a, b, c, d]).2.stage = .returned result held ∧
      (tokenAlone s [a, b, c, d]).1.cur = held ∧
      (Source.app s.cur.token s.cur.expires).token
          ⟨s.clock + a.elapsed + b.elapsed, c.minted.map fun tok => (tok.token, tok.expires),
            s.clock + a.elapsed + b.elapsed + c.elapsed + d.elapsed⟩ =
        (result, .app held.token held.expires) := by
  by_cases he : s.cur.token = ""
  · cases hm : c.minted with
    | ok tok => simp [tokenAlone, tokenStep, Source.token, hfree, he, hm, Except.map]
    | error err => simp [tokenAlone, tokenStep, Source.token, hfree, he, hm, Except.map]
  · by_cases hv : s.clock + a.elapsed + b.elapsed + refreshSkew < s.cur.expires
    · simp [tokenAlone, tokenStep, Source.token, hfree, he, hv]
    · cases hm : c.minted with
      | ok tok => simp [tokenAlone, tokenStep, Source.token, hfree, he, hv, hm, Except.map]
      | error err =>
        by_cases hl : s.clock + a.elapsed + b.elapsed + c.elapsed + d.elapsed < s.cur.expires
        · simp [tokenAlone, tokenStep, Source.token, hfree, he, hv, hm, hl, Except.map]
        · simp [tokenAlone, tokenStep, Source.token, hfree, he, hv, hm, hl, Except.map]

def tokenCalls : Program AppSource TokenCall Unit TokenInput where
  start _ := {}
  step := tokenStep

def Minting (c : Config AppSource TokenCall) : Act Unit TokenInput → Prop
  | .call _ => True
  | .step _ input => ∀ tok, input.minted = .ok tok →
    tok.token ≠ "" ∧ c.shared.clock + input.elapsed < tok.expires

/-! ### What holds of a call -/

variable {s s' : AppSource} {t u : TokenCall} {input : TokenInput}

def Mint.Due (m : Mint) : Prop := m.held.token = "" ∨ m.held.expires ≤ m.clock + refreshSkew

structure Settled (t : TokenCall) (result : Except (List UInt8) String) (held : InstallationToken) :
    Prop where
  usable : ∀ tok, result = .ok tok → tok ≠ "" ∧ held.token = tok ∧
    (∀ now, t.read = some now → now < held.expires) ∧
    (t.read = none → ∃ m ∈ t.mints, m.answer = .ok held ∧ m.clock < held.expires)
  failed : ∀ err, result = .error err → (∃ m ∈ t.mints, ∃ e, m.answer = .error e) ∧
    (held.token = "" ∨ ∃ now, t.read = some now ∧ held.expires ≤ now)
  kept : ∀ m ∈ t.mints, ∀ e, m.answer = .error e → held = m.held

def Sound (s : AppSource) (t : TokenCall) : Prop :=
  match t.stage with
  | .lock | .valid => t.read = none ∧ t.mints = []
  | .mint => t.mints = [] ∧ ((s.cur.token = "" ∧ t.read = none) ∨
    ∃ now, t.read = some now ∧ now ≤ s.clock ∧ s.cur.expires ≤ now + refreshSkew)
  | .fallback err => ∃ m, t.mints = [m] ∧ m.held = s.cur ∧ m.answer = .error err ∧ m.Due
  | .returned result held => Settled t result held ∧ t.mints.length ≤ 1 ∧ ∀ m ∈ t.mints, m.Due

theorem Sound.mono (h : Sound s u) (hclock : s.clock ≤ s'.clock)
    (hcur : u.stage.inside = true → s'.cur = s.cur) : Sound s' u := by
  unfold Sound at h ⊢
  cases hu : u.stage with
  | lock => simpa only [hu] using h
  | valid => simpa only [hu] using h
  | returned result held => simpa only [hu] using h
  | mint =>
    simp only [hu] at h
    have hsame := hcur (by rw [hu]; rfl)
    grind
  | fallback err =>
    simp only [hu] at h
    have hsame := hcur (by rw [hu]; rfl)
    simpa only [hsame] using h

theorem tokenStep_cases (input : TokenInput) (s : AppSource) (t : TokenCall) :
    (tokenStep input s t).1.clock = s.clock + input.elapsed ∧ (tokenStep input s t).2.2 = [] ∧
      ((t.stage.inside = (tokenStep input s t).2.1.stage.inside ∧ (tokenStep input s t).1.cur = s.cur ∧
          (tokenStep input s t).1.locked = s.locked) ∨
        (t.stage.inside = false ∧ (tokenStep input s t).2.1.stage.inside = true ∧
          (tokenStep input s t).1.cur = s.cur ∧ s.locked = false ∧ (tokenStep input s t).1.locked = true) ∨
        (t.stage.inside = true ∧ (tokenStep input s t).2.1.stage.inside = false ∧
          (tokenStep input s t).1.locked = false)) := by
  obtain ⟨stage, read, mints⟩ := t
  cases stage with
  | lock =>
    by_cases hl : s.locked = true
    · simp [tokenStep, hl, Stage.inside]
    · simp [tokenStep, hl, Stage.inside]
  | valid =>
    by_cases he : s.cur.token = ""
    · simp [tokenStep, he, Stage.inside]
    · by_cases hv : s.clock + input.elapsed + refreshSkew < s.cur.expires
      · simp [tokenStep, he, hv, Stage.inside]
      · simp [tokenStep, he, hv, Stage.inside]
  | mint =>
    cases hm : input.minted with
    | ok tok => simp [tokenStep, hm, Stage.inside]
    | error err => simp [tokenStep, hm, Stage.inside]
  | fallback err =>
    by_cases he : s.cur.token = ""
    · simp [tokenStep, he, Stage.inside]
    · by_cases hv : s.clock + input.elapsed < s.cur.expires
      · simp [tokenStep, he, hv, Stage.inside]
      · simp [tokenStep, he, hv, Stage.inside]
  | returned result held => simp [tokenStep, Stage.inside]

theorem sound_valid (h : Sound s t) (ht : t.stage = .valid) :
    Sound (tokenStep input s t).1 (tokenStep input s t).2.1 := by
  obtain ⟨stage, read, mints⟩ := t
  obtain rfl : stage = .valid := ht
  obtain ⟨rfl, rfl⟩ : read = none ∧ mints = [] := h
  by_cases he : s.cur.token = ""
  · simp [tokenStep, he, Sound]
  · by_cases hv : s.clock + input.elapsed + refreshSkew < s.cur.expires
    · have hskew : (0 : Int) ≤ refreshSkew := by decide
      simp only [tokenStep, he, hv, if_true, if_false, Sound]
      refine ⟨⟨?_, fun err herr => (nomatch herr), fun m hm => (nomatch hm)⟩, by simp, fun m hm => (nomatch hm)⟩
      grind
    · simp only [tokenStep, he, hv, if_false, Sound]
      grind

theorem sound_mint (h : Sound s t) (ht : t.stage = .mint)
    (hminted : ∀ tok, input.minted = .ok tok → tok.token ≠ "" ∧ s.clock + input.elapsed < tok.expires) :
    Sound (tokenStep input s t).1 (tokenStep input s t).2.1 := by
  obtain ⟨stage, read, mints⟩ := t
  obtain rfl : stage = .mint := ht
  obtain ⟨rfl, hheld⟩ : mints = [] ∧ _ := h
  have hdue : Mint.Due ⟨s.clock + input.elapsed, s.cur, input.minted⟩ := by
    refine hheld.imp And.left ?_
    grind
  cases hm : input.minted with
  | error err =>
    rw [hm] at hdue
    simp only [tokenStep, hm, List.nil_append, Sound]
    grind
  | ok tok =>
    obtain ⟨hne, hexp⟩ := hminted tok hm
    rw [hm] at hdue
    simp only [tokenStep, hm, List.nil_append, Sound]
    refine ⟨⟨?_, fun err herr => (nomatch herr), ?_⟩, le_refl _, by simpa using hdue⟩
    · rintro _ ⟨rfl⟩
      refine ⟨hne, rfl, ?_, fun _ => ⟨_, List.mem_singleton_self _, rfl, hexp⟩⟩
      grind
    · simp

theorem sound_fallback (h : Sound s t) {err : List UInt8} (ht : t.stage = .fallback err) :
    Sound (tokenStep input s t).1 (tokenStep input s t).2.1 := by
  obtain ⟨stage, read, mints⟩ := t
  obtain rfl : stage = .fallback err := ht
  obtain ⟨m, rfl, hheld, hanswer, hdue⟩ : ∃ m, mints = [m] ∧ _ := h
  have hkept : ∀ m' ∈ [m], ∀ e, m'.answer = .error e → s.cur = m'.held := by
    grind
  have hmint : ∃ m' ∈ [m], ∃ e, m'.answer = .error e := ⟨m, List.mem_singleton_self m, err, hanswer⟩
  have hall : ([m] : List Mint).length ≤ 1 ∧ ∀ m' ∈ [m], m'.Due := ⟨le_refl _, by simpa using hdue⟩
  by_cases he : s.cur.token = ""
  · simp only [tokenStep, he, if_true, Sound]
    exact ⟨⟨fun tok htok => (nomatch htok), fun _ _ => ⟨hmint, Or.inl he⟩, hkept⟩, hall⟩
  · by_cases hv : s.clock + input.elapsed < s.cur.expires
    · simp only [tokenStep, he, hv, if_true, if_false, Sound]
      refine ⟨⟨?_, fun err herr => (nomatch herr), hkept⟩, hall⟩
      grind
    · simp only [tokenStep, he, hv, if_false, Sound]
      exact ⟨⟨fun tok htok => (nomatch htok),
        fun _ _ => ⟨hmint, Or.inr ⟨_, rfl, Int.not_lt.mp hv⟩⟩, hkept⟩, hall⟩

theorem sound_step (h : Sound s t)
    (hminted : ∀ tok, input.minted = .ok tok → tok.token ≠ "" ∧ s.clock + input.elapsed < tok.expires) :
    Sound (tokenStep input s t).1 (tokenStep input s t).2.1 := by
  cases ht : t.stage with
  | valid => exact sound_valid h ht
  | mint => exact sound_mint h ht hminted
  | fallback err => exact sound_fallback h ht
  | lock =>
    by_cases hl : s.locked = true
    · simpa [tokenStep, ht, hl, Sound] using h
    · simpa [tokenStep, ht, hl, Sound] using h
  | returned result held => simpa [tokenStep, ht, Sound] using h

/-! ### All calls -/

structure Exclusive (c : Config AppSource TokenCall) : Prop where
  count : c.threads.countP (fun t => t.stage.inside) = if c.shared.locked then 1 else 0
  sound : ∀ t ∈ c.threads, Sound c.shared t

theorem exclusive_step {c : Config AppSource TokenCall} {i : Nat} (h : Exclusive c)
    (ht : c.threads[i]? = some t) (hminted : Minting c (.step i input)) :
    Exclusive ⟨(tokenStep input c.shared t).1,
      update c.threads i (tokenStep input c.shared t).2.1 (tokenStep input c.shared t).2.2⟩ := by
  obtain ⟨hclock, hmore, hcases⟩ := tokenStep_cases input c.shared t
  have hcount := countP_update (fun t => t.stage.inside) ht (tokenStep input c.shared t).2.1
    (tokenStep input c.shared t).2.2
  have hself := sound_step (h.sound t (List.mem_of_getElem? ht)) hminted
  generalize tokenStep input c.shared t = r at hclock hmore hcases hcount hself ⊢
  obtain ⟨s', t', more⟩ := r
  obtain rfl : more = [] := hmore
  have hmono : c.shared.clock ≤ s'.clock := by
    grind
  rw [h.count, List.countP_nil, Nat.add_zero] at hcount
  have hcount' : (update c.threads i t' []).countP (fun t => t.stage.inside) =
      if s'.locked then 1 else 0 := by
    grind
  refine ⟨hcount', forall_update ?_ hself fun u hu => (nomatch hu)⟩
  intro j u hj hu
  refine (h.sound u (List.mem_of_getElem? hu)).mono hmono fun hinside => ?_
  rcases hcases with ⟨-, hcur, -⟩ | ⟨-, -, hcur, -⟩ | ⟨-, -, hlocked⟩
  · exact hcur
  · exact hcur
  · -- the mutex is free now, so nobody else was inside
    rw [if_neg (by simpa using hlocked), List.countP_eq_zero] at hcount'
    exact absurd hinside (hcount' u (mem_update_of_ne hj hu))

theorem exclusive_run {start : Int} {acts : List (Act Unit TokenInput)}
    (h : tokenCalls.Along Minting ⟨{ clock := start }, []⟩ acts) :
    Exclusive (tokenCalls.run ⟨{ clock := start }, []⟩ acts) := by
  refine Program.run_invariant ?_ (fun c i input t hc ht hm => exclusive_step hc ht hm)
    ⟨rfl, fun t ht => (nomatch ht)⟩ h
  intro c k hc
  refine ⟨?_, ?_⟩
  · rw [List.countP_append, hc.count]
    rfl
  · intro t ht
    rcases List.mem_append.mp ht with ht | ht
    · exact hc.sound t ht
    · rw [List.mem_singleton.mp ht]
      exact ⟨rfl, rfl⟩

/-- **Installation tokens are always usable.**  In every interleaving, with a clock that does not go
    back and a minter that fails or returns an unexpired token: a call mints once at most, and only if
    no token with more than five minutes left is held; a failed mint leaves the token; a returned
    token had not expired when the clock was last read for it; and an error means a failed mint with
    no unexpired token held. -/
theorem tokens_usable {start : Int} {acts : List (Act Unit TokenInput)}
    (h : tokenCalls.Along Minting ⟨{ clock := start }, []⟩ acts) :
    ∀ t ∈ (tokenCalls.run ⟨{ clock := start }, []⟩ acts).threads,
      t.mints.length ≤ 1 ∧ (∀ m ∈ t.mints, m.Due) ∧
      (∀ err, t.stage = .fallback err → ∀ m ∈ t.mints,
        (tokenCalls.run ⟨{ clock := start }, []⟩ acts).shared.cur = m.held) ∧
      ∀ result held, t.stage = .returned result held → Settled t result held := by
  intro t ht
  have hsound := (exclusive_run h).sound t ht
  generalize (tokenCalls.run ⟨{ clock := start }, []⟩ acts).shared = s at hsound ⊢
  unfold Sound at hsound
  grind

def firstToken : InstallationToken := ⟨"ghs_first", 600 * 1000000000⟩

def refused (seconds : Nat) : TokenInput := ⟨seconds * 1000000000, .error (bytes "status 502")⟩

def renewal : List (Act Unit TokenInput) :=
  [.call (), .step 0 (refused 0), .step 0 (refused 0), .step 0 ⟨0, .ok firstToken⟩,
    .call (), .step 1 (refused 420), .step 1 (refused 0), .step 1 (refused 1), .step 1 (refused 0)]

theorem tokens_usable_renewal :
    (tokenCalls.run ⟨{ clock := 0 }, []⟩ renewal).threads.map TokenCall.stage =
        [.returned (.ok "ghs_first") firstToken, .returned (.ok "ghs_first") firstToken] ∧
      ∀ t ∈ (tokenCalls.run ⟨{ clock := 0 }, []⟩ renewal).threads, t.mints.length ≤ 1 := by
  have hrefused : ∀ n tok, (refused n).minted = .ok tok →
      ∀ now : Int, tok.token ≠ "" ∧ now < tok.expires := fun n tok htok => nomatch htok
  have hfirst : ∀ tok, Except.ok firstToken = (Except.ok tok : Except (List UInt8) InstallationToken) →
      tok.token ≠ "" ∧ (0 : Int) < tok.expires := by
    rintro _ ⟨rfl⟩
    decide
  have halong : tokenCalls.Along Minting ⟨{ clock := 0 }, []⟩ renewal :=
    ⟨trivial, fun tok h => hrefused _ tok h _, fun tok h => hrefused _ tok h _, hfirst, trivial,
      fun tok h => hrefused _ tok h _, fun tok h => hrefused _ tok h _, fun tok h => hrefused _ tok h _,
      fun tok h => hrefused _ tok h _, trivial⟩
  exact ⟨rfl, fun t ht => (tokens_usable halong t ht).1⟩

end Zynax.Adapter.Git
