import Mathlib.Data.List.Induction

namespace Zynax.Concurrency

/-!
# Writes one after the other

A map that is written key by key, and what can be seen of it between two writes.
-/

variable {κ β : Type} [DecidableEq κ] {m t : κ → Option β} {w : κ × β}

def write (m : κ → Option β) (w : κ × β) : κ → Option β := Function.update m w.1 (some w.2)

def writeAll (m : κ → Option β) (ws : List (κ × β)) : κ → Option β := ws.foldl write m

def states (m : κ → Option β) : List (κ × β) → List (κ → Option β)
  | [] => [m]
  | w :: ws => m :: states (write m w) ws

theorem write_eq_self_iff : write m w = m ↔ m w.1 = some w.2 := by
  rw [write, Function.update_eq_self_iff, eq_comm]

theorem write_apply_self (m : κ → Option β) (w : κ × β) : write m w w.1 = some w.2 :=
  Function.update_self ..

theorem write_apply_of_ne (m : κ → Option β) {k : κ} (h : k ≠ w.1) :
    write m w k = m k :=
  Function.update_of_ne h ..

theorem writeAll_append (m : κ → Option β) (ws ws' : List (κ × β)) :
    writeAll m (ws ++ ws') = writeAll (writeAll m ws) ws' :=
  List.foldl_append

theorem mem_states_self (m : κ → Option β) (ws : List (κ × β)) : m ∈ states m ws := by
  cases ws <;> simp [states]

theorem getLastD_states (m d : κ → Option β) (ws : List (κ × β)) :
    (states m ws).getLastD d = writeAll m ws := by
  induction ws generalizing m d with
  | nil => rfl
  | cons w ws ih =>
    rw [states, List.getLastD_cons, ih]
    rfl

theorem writeAll_apply (m : κ → Option β) (ws : List (κ × β)) (k : κ) :
    writeAll m ws k = ((ws.reverse.find? (fun w => w.1 = k)).map Prod.snd).or (m k) := by
  induction ws using List.reverseRecOn with
  | nil => rfl
  | append_singleton ws w ih =>
    rw [writeAll_append, List.reverse_append, List.reverse_singleton, List.singleton_append,
      List.find?_cons]
    show write (writeAll m ws) w k = _
    by_cases hk : w.1 = k
    · subst hk
      rw [write_apply_self]
      simp
    · rw [write_apply_of_ne _ (Ne.symm hk), ih]
      simp [hk]

def Within (m t s : κ → Option β) : Prop := s = m ∨ (s = t ∧ ∃ w, t = write m w)

theorem Within.write_iff {s : κ → Option β} (hs : Within m t s) (w : κ × β) :
    (write s w = m ∨ write s w = t) ↔ (write m w = m ∨ write m w = t) := by
  rcases hs with rfl | ⟨rfl, w₀, rfl⟩
  · rfl
  -- the state is the target: `m` after `w₀`
  have hback : write (write m w₀) w = m → write m w = m := by
    intro h
    have hval := congrFun h w.1
    rw [write_apply_self] at hval
    exact write_eq_self_iff.mpr hval.symm
  have hstay : write (write m w₀) w = write m w₀ → write m w = m ∨ write m w = write m w₀ := by
    intro h
    have hval := write_eq_self_iff.mp h
    by_cases hk : w.1 = w₀.1
    · rw [hk, write_apply_self] at hval
      grind
    · rw [write_apply_of_ne _ hk] at hval
      exact Or.inl (write_eq_self_iff.mpr hval)
  constructor
  · grind
  · rintro (h | h)
    · have hval := write_eq_self_iff.mp h
      by_cases hk : w.1 = w₀.1
      · -- the value of before is written back
        left
        rw [write, write, hk, Function.update_idem]
        grind
      · right
        rw [write_eq_self_iff, write_apply_of_ne _ hk, hval]
    · right
      rw [write_eq_self_iff, ← h, write_apply_self]

theorem Within.write {s : κ → Option β} (hs : Within m t s)
    (h : Concurrency.write s w = m ∨ Concurrency.write s w = t) :
    Within m t (Concurrency.write s w) := by
  rcases h with h | h
  · exact Or.inl h
  · refine Or.inr ⟨h, ?_⟩
    rcases hs with rfl | ⟨-, hw₀⟩
    · exact ⟨w, h.symm⟩
    · exact hw₀

/-- **Nothing but the first state and the target is seen exactly when every write by itself does
    nothing or all of it.** -/
theorem states_eq_or_iff (ws : List (κ × β)) :
    (∀ s ∈ states m ws, s = m ∨ s = t) ↔
      ∀ w ∈ ws, write m w = m ∨ write m w = t := by
  -- along the writes the state is `m` or one write away from it
  suffices hfrom : ∀ s, Within m t s →
      ((∀ x ∈ states s ws, x = m ∨ x = t) ↔ ∀ w ∈ ws, write m w = m ∨ write m w = t) from
    hfrom m (Or.inl rfl)
  induction ws with
  | nil =>
    intro s hs
    have hself : s = m ∨ s = t := hs.imp_right And.left
    simpa [states] using hself
  | cons w ws ih =>
    intro s hs
    have hself : s = m ∨ s = t := hs.imp_right And.left
    rw [states, List.forall_mem_cons, List.forall_mem_cons, ← hs.write_iff w]
    constructor
    · rintro ⟨-, hrest⟩
      have hw := hrest _ (mem_states_self _ ws)
      exact ⟨hw, (ih _ (hs.write hw)).mp hrest⟩
    · rintro ⟨hw, hrest⟩
      exact ⟨hself, (ih _ (hs.write hw)).mpr hrest⟩

/-- **Writes are seen at once exactly when they make one change.**  Every write is there already, or it is what its
    key is left with and the writes of other keys are there. -/
theorem states_atomic_iff (ws : List (κ × β)) :
    (∀ s ∈ states m ws, s = m ∨ s = writeAll m ws) ↔
      ∀ w ∈ ws, m w.1 = some w.2 ∨
        (∀ x, ws.reverse.find? (fun y => y.1 = w.1) = some x → x.2 = w.2) ∧
          ∀ x ∈ ws, x.1 ≠ w.1 → m x.1 = some x.2 := by
  rw [states_eq_or_iff]
  constructor
  · intro h w hw
    have hchange : ∀ x ∈ ws, m x.1 ≠ some x.2 → write m x = writeAll m ws := fun x hx hne =>
      (h x hx).resolve_left (mt write_eq_self_iff.mp hne)
    refine or_iff_not_imp_left.mpr fun hne => ⟨fun x hx => ?_, fun x hx hkey => ?_⟩
    · have hval := congrFun (hchange w hw hne) w.1
      rw [write_apply_self, writeAll_apply, hx] at hval
      exact (Option.some.inj hval).symm
    · -- two changes under different keys would both be the whole
      by_contra hne'
      have hval := congrFun ((hchange w hw hne).trans (hchange x hx hne').symm) x.1
      rw [write_apply_of_ne _ hkey, write_apply_self] at hval
      exact hne' hval
  · intro h w hw
    rcases h w hw with hsame | ⟨hlast, hother⟩
    · exact Or.inl (write_eq_self_iff.mpr hsame)
    · refine Or.inr (funext fun k => ?_)
      rw [writeAll_apply]
      cases hfind : ws.reverse.find? (fun y => y.1 = k) with
      | none =>
        have hk : k ≠ w.1 := by
          rintro rfl
          simpa using List.find?_eq_none.mp hfind w (List.mem_reverse.mpr hw)
        rw [write_apply_of_ne _ hk]
        rfl
      | some x =>
        have hxk : x.1 = k := by simpa using List.find?_some hfind
        by_cases hk : k = w.1
        · subst hk
          rw [write_apply_self, ← hlast x hfind]
          rfl
        · rw [write_apply_of_ne _ hk, ← hxk, hother x (List.mem_reverse.mp (List.mem_of_find?_eq_some hfind))
            (hxk ▸ hk)]
          rfl

end Zynax.Concurrency
