import Dendy.Netplay.Reconcile

/-!
# The input buffers stay in step

`HandleLocalInput` pushes one bitmap onto both the local and the speculated buffer, `HandleRemoteInput` pushes onto
the remote buffer only, `Init` empties all three, and a reconciliation of `n` frames drops `n` entries from each after
rewriting the speculated tail in place. So in every state a game reaches from `NewGame` the speculated buffer is as
long as the local one (`Reachable.speculated_len`).

From that, no ring-buffer access of `applyRemoteInput` is out of range. With `n = min(|localInput|, |remoteInput|)`
positive, the replay of confirmed inputs reads both buffers below `n`, the rebuild reads the remote buffer at
`n - 1` and writes the speculated one from `n` to `|localInput| - 1`, the replay of local-only frames reads the
speculated and local buffers there, and every `TruncFront(n)` is of a buffer at least `n` long. Since an access out of
range is a panic, this is stated as: the replay returns whenever the checkpoint loads and the confirmed frames do not
wrap the frame counter, and the three truncations return whenever the frame check passes (`buffers_in_step`).

The capacity of the buffers is not modelled (`PushBack` always succeeds), so none of this depends on it.
-/

namespace Dendy

namespace Game

variable {S : Type} (M : Console S)

/-- The states a game reaches from `NewGame` by any run of `Init`, `HandleLocalInput`, `HandleRemoteInput` and
`RunFrame`. -/
inductive Reachable : Game S → Prop
  | newGame (bus : S) (p : Port) : Reachable (newGame bus p)
  | init {g g' : Game S} (cp : Option Checkpoint) : Reachable g → init M g cp = some g' → Reachable g'
  | apply {g g' : Game S} (o : Op) : Reachable g → apply M g o = some g' → Reachable g'

/-! ### One call at a time -/

theorem init_buffers {g g' : Game S} {cp : Option Checkpoint} (h : init M g cp = some g') :
    g'.localInput = .new ∧ g'.remoteInput = .new ∧ g'.speculatedInput = .new := by
  cases cp with
  | some cp =>
    obtain ⟨_, -, rfl⟩ := (rollback_eq_some M).mp h
    exact ⟨rfl, rfl, rfl⟩
  | none =>
    cases h
    exact ⟨rfl, rfl, rfl⟩

theorem runFrame_speculated_len {g g' : Game S} (h : runFrame M g = some g')
    (hs : g.speculatedInput.len = g.localInput.len) : g'.speculatedInput.len = g'.localInput.len := by
  obtain ⟨g₁, h₁, h₂⟩ := Option.bind_eq_some.mp h
  obtain ⟨-, rfl⟩ := (playFrame_eq_some M).mp h₂
  show g₁.speculatedInput.len = g₁.localInput.len
  rcases applyRemoteInput_eq_some M h₁ with ⟨-, rfl⟩ | hr
  · exact hs
  · simp only [RingBuf.len] at hs ⊢
    rw [hr.localInput, hr.speculatedInput, List.length_append, List.length_replicate, List.length_drop,
      List.length_drop, RingBuf.len, hs, Nat.sub_self, Nat.add_zero]

theorem apply_speculated_len {g g' : Game S} {o : Op} (h : apply M g o = some g')
    (hs : g.speculatedInput.len = g.localInput.len) : g'.speculatedInput.len = g'.localInput.len := by
  cases o with
  | handleLocalInput b =>
    cases h
    simp only [handleLocalInput_speculatedInput, handleLocalInput_localInput, RingBuf.len, RingBuf.pushBack,
      List.length_append, List.length_singleton] at hs ⊢
    omega
  | handleRemoteInput b => cases h; exact hs
  | runFrame => exact runFrame_speculated_len M h hs

/-- In every reachable state the speculated buffer is as long as the local one. -/
theorem Reachable.speculated_len {g : Game S} (hg : Reachable M g) : g.speculatedInput.len = g.localInput.len := by
  induction hg with
  | newGame => rfl
  | init cp _ h _ => obtain ⟨hl, -, hs⟩ := init_buffers M h; rw [hl, hs]
  | apply o _ h ih => exact apply_speculated_len M h ih

/-! ### Every access of the loops in range -/

theorem replayConfirmedStep_of_lt {g : Game S} {i : Nat} (hl : i < g.localInput.len) (hr : i < g.remoteInput.len) :
    replayConfirmedStep M g i =
      playFrame M (g.setJoys (g.localInput.items.getD i 0) (g.remoteInput.items.getD i 0)) := by
  simp only [replayConfirmedStep, RingBuf.at, List.getElem?_eq_getElem hl, setButtons_remoteInput,
    List.getElem?_eq_getElem hr, Option.bind_eq_bind, Option.some_bind, setButtons_remoteJoy, setJoys,
    List.getD_eq_getElem _ _ hl, List.getD_eq_getElem _ _ hr]

/-- The replay of confirmed inputs returns when every index is in range of both buffers and the frames it plays do
not wrap the counter. -/
theorem foldlM_replayConfirmedStep_isSome (is : List Nat) (g : Game S)
    (hin : ∀ i ∈ is, i < g.localInput.len ∧ i < g.remoteInput.len) (hov : g.frame.toNat + is.length < 2 ^ 32) :
    (is.foldlM (replayConfirmedStep M) g).isSome := by
  induction is generalizing g with
  | nil => rfl
  | cons i is ih =>
    obtain ⟨hl, hr⟩ := hin i (List.mem_cons_self _ _)
    simp only [List.length_cons] at hov
    have hne : g.frame + 1 ≠ 0 := UInt32.add_one_ne_zero (by omega)
    rw [List.foldlM_cons, replayConfirmedStep_of_lt M hl hr, playFrame_setJoys_of_ne M hne, Option.bind_eq_bind,
      Option.some_bind]
    refine ih _ (fun j hj => hin j (List.mem_cons_of_mem _ hj)) ?_
    rw [UInt32.toNat_add_one_of_ne hne]
    omega

theorem rebuildSpeculatedStep_of_lt {n i : Nat} {g : Game S} (hr : n - 1 < g.remoteInput.len)
    (hi : i < g.speculatedInput.len) :
    rebuildSpeculatedStep n g i = some { g with speculatedInput :=
      ⟨g.speculatedInput.items.set i (g.remoteInput.items.getD (n - 1) 0)⟩ } := by
  simp only [rebuildSpeculatedStep, RingBuf.at, RingBuf.set, List.getElem?_eq_getElem hr, if_pos hi,
    Option.bind_eq_bind, Option.some_bind, List.getD_eq_getElem _ _ hr]

theorem foldlM_rebuildSpeculatedStep_isSome {n : Nat} (is : List Nat) (g : Game S) (hr : n - 1 < g.remoteInput.len)
    (hin : ∀ i ∈ is, i < g.speculatedInput.len) : (is.foldlM (rebuildSpeculatedStep n) g).isSome := by
  induction is generalizing g with
  | nil => rfl
  | cons i is ih =>
    rw [List.foldlM_cons, rebuildSpeculatedStep_of_lt hr (hin i (List.mem_cons_self _ _)), Option.bind_eq_bind,
      Option.some_bind]
    exact ih _ hr fun j hj => by simpa [RingBuf.len] using hin j (List.mem_cons_of_mem _ hj)

theorem replaySpeculatedStep_of_lt {e : UInt32} {g : Game S} {i : Nat} (hs : i < g.speculatedInput.len)
    (hl : i < g.localInput.len) :
    replaySpeculatedStep M e g i =
      if g.frame < e then playFrame M (g.setJoys (g.localInput.items.getD i 0) (g.speculatedInput.items.getD i 0))
      else some (g.setJoys (g.localInput.items.getD i 0) (g.speculatedInput.items.getD i 0)) := by
  simp only [replaySpeculatedStep, RingBuf.at, List.getElem?_eq_getElem hs, setButtons_localInput,
    List.getElem?_eq_getElem hl, Option.bind_eq_bind, Option.some_bind, setButtons_localJoy, setButtons_frame,
    setButtons_remote_local, setJoys_frame, List.getD_eq_getElem _ _ hs, List.getD_eq_getElem _ _ hl]

theorem foldlM_replaySpeculatedStep_isSome (e : UInt32) (is : List Nat) (g : Game S)
    (hin : ∀ i ∈ is, i < g.speculatedInput.len ∧ i < g.localInput.len) :
    (is.foldlM (replaySpeculatedStep M e) g).isSome := by
  induction is generalizing g with
  | nil => rfl
  | cons i is ih =>
    obtain ⟨hs, hl⟩ := hin i (List.mem_cons_self _ _)
    have hin' := fun j hj => hin j (List.mem_cons_of_mem _ hj)
    rw [List.foldlM_cons, replaySpeculatedStep_of_lt M hs hl]
    split
    · rw [playFrame_setJoys_of_ne M (UInt32.add_one_ne_zero_of_lt ‹_›), Option.bind_eq_bind, Option.some_bind]
      exact ih _ hin'
    · rw [setJoys_eq, Option.bind_eq_bind, Option.some_bind]
      exact ih _ hin'

/-! ### `applyRemoteInput` -/

private theorem length_foldl_set (r : UInt8) (is : List Nat) (xs : List UInt8) :
    (is.foldl (fun xs i => xs.set i r) xs).length = xs.length := by
  induction is generalizing xs with
  | nil => rfl
  | cons i is ih => rw [List.foldl_cons, ih, List.length_set]

/-- The replay leaves the local and remote buffers as they were and the speculated one as long as it was. -/
theorem replay_buffers {g g' : Game S} {n : Nat} {e : UInt32} (h : replay M g n e = some g') :
    g'.localInput = g.localInput ∧ g'.remoteInput = g.remoteInput ∧
      g'.speculatedInput.len = g.speculatedInput.len := by
  simp only [replay, Option.bind_eq_bind, Option.bind_eq_some] at h
  obtain ⟨g₁, h₁, g₂, h₂, g₃, h₃, h₄⟩ := h
  obtain ⟨sc, -, rfl⟩ := (rollback_eq_some M).mp h₁
  obtain ⟨-, f₂, j1, j2, rfl, -⟩ := foldlM_replayConfirmedStep M h₂
  obtain ⟨-, rfl⟩ := foldlM_rebuildSpeculatedStep h₃
  obtain ⟨-, f₄, k1, k2, rfl, -⟩ := foldlM_replaySpeculatedStep M h₄
  exact ⟨rfl, rfl, length_foldl_set _ _ _⟩

/-- With `0 < n` within both buffers, the replay returns when the checkpoint loads and the confirmed frames do not
wrap the counter. -/
theorem replay_isSome {g : Game S} {n : Nat} (e : UInt32) (hn : 0 < n) (hl : n ≤ g.localInput.len)
    (hr : n ≤ g.remoteInput.len) (hs : g.localInput.len ≤ g.speculatedInput.len)
    (hcp : M.loadState g.bus g.cp.state ≠ none) (hov : g.cp.frame.toNat + n < 2 ^ 32) :
    (replay M g n e).isSome := by
  obtain ⟨sc, hsc⟩ := Option.ne_none_iff_exists'.mp hcp
  have h₁ : rollback M g = some { g with bus := sc, frame := g.cp.frame } :=
    (rollback_eq_some M).mpr ⟨sc, hsc, rfl⟩
  obtain ⟨g₂, h₂⟩ := Option.isSome_iff_exists.mp (foldlM_replayConfirmedStep_isSome M (List.range n)
    { g with bus := sc, frame := g.cp.frame }
    (fun i hi => have hi := List.mem_range.mp hi; ⟨Nat.lt_of_lt_of_le hi hl, Nat.lt_of_lt_of_le hi hr⟩)
    (by rw [List.length_range]; exact hov))
  obtain ⟨-, f₂, j1, j2, hg₂, -⟩ := foldlM_replayConfirmedStep M h₂
  have hb₂ : g₂.localInput = g.localInput ∧ g₂.remoteInput = g.remoteInput ∧
      g₂.speculatedInput = g.speculatedInput := by
    rw [hg₂]; exact ⟨rfl, rfl, rfl⟩
  obtain ⟨g₃, h₃⟩ := Option.isSome_iff_exists.mp (foldlM_rebuildSpeculatedStep_isSome
    (List.range' n ((save M g₂).localInput.len - n)) (save M g₂)
    (show n - 1 < g₂.remoteInput.len by rw [hb₂.2.1]; omega)
    (fun i hi => by
      rw [List.mem_range'_1, show (save M g₂).localInput = g.localInput from hb₂.1] at hi
      show i < g₂.speculatedInput.len
      rw [hb₂.2.2]
      omega))
  obtain ⟨-, hg₃⟩ := foldlM_rebuildSpeculatedStep h₃
  have hb₃ : g₃.localInput = g.localInput ∧ g₃.speculatedInput.len = g.speculatedInput.len := by
    rw [hg₃]
    exact ⟨hb₂.1, (length_foldl_set _ _ _).trans (congrArg RingBuf.len hb₂.2.2)⟩
  obtain ⟨g₄, h₄⟩ := Option.isSome_iff_exists.mp (foldlM_replaySpeculatedStep_isSome M e
    (List.range' n (g₃.localInput.len - n)) g₃ (fun i hi => by
      rw [List.mem_range'_1, hb₃.1] at hi
      rw [hb₃.1, hb₃.2]
      omega))
  simp only [replay, Option.bind_eq_bind, h₁, Option.some_bind, h₂, h₃, h₄]
  rfl

/-- After a replay that ends on the frame it started from, the three truncations return. -/
theorem applyRemoteInput_of_replay {g g₄ : Game S} (hn : 0 < min g.localInput.len g.remoteInput.len)
    (hs : g.localInput.len ≤ g.speculatedInput.len)
    (h : replay M g (min g.localInput.len g.remoteInput.len) g.frame = some g₄) (hf : g₄.frame = g.frame) :
    ∃ g', applyRemoteInput M g = some g' := by
  obtain ⟨hl₄, hr₄, hs₄⟩ := replay_buffers M h
  have htl : g₄.localInput.truncFront (min g.localInput.len g.remoteInput.len) =
      some ⟨g₄.localInput.items.drop _⟩ :=
    truncFront_eq_some.mpr ⟨by rw [hl₄]; omega, rfl⟩
  have htr : g₄.remoteInput.truncFront (min g.localInput.len g.remoteInput.len) =
      some ⟨g₄.remoteInput.items.drop _⟩ :=
    truncFront_eq_some.mpr ⟨by rw [hr₄]; omega, rfl⟩
  have hts : g₄.speculatedInput.truncFront (min g.localInput.len g.remoteInput.len) =
      some ⟨g₄.speculatedInput.items.drop _⟩ :=
    truncFront_eq_some.mpr ⟨by rw [hs₄]; omega, rfl⟩
  simp only [applyRemoteInput, if_neg (Nat.pos_iff_ne_zero.mp hn), Option.bind_eq_bind, h, Option.some_bind, hf,
    ne_eq, not_true_eq_false, if_false, htl, htr, hts]
  exact ⟨_, rfl⟩

/-- The input buffers stay in step: the speculated buffer is as long as the local one, and no ring-buffer access of
`applyRemoteInput` is out of range while the checkpoint loads and the counter does not wrap. -/
theorem buffers_in_step {g : Game S} (hg : Reachable M g) :
    g.speculatedInput.len = g.localInput.len ∧
      (0 < min g.localInput.len g.remoteInput.len → M.loadState g.bus g.cp.state ≠ none →
        g.cp.frame.toNat + min g.localInput.len g.remoteInput.len < 2 ^ 32 →
        ∃ g₄, replay M g (min g.localInput.len g.remoteInput.len) g.frame = some g₄ ∧
          (g₄.frame = g.frame → ∃ g', applyRemoteInput M g = some g')) := by
  have hs := Reachable.speculated_len M hg
  refine ⟨hs, fun hn hcp hov => ?_⟩
  obtain ⟨g₄, h₄⟩ := Option.isSome_iff_exists.mp
    (replay_isSome M g.frame hn (Nat.min_le_left _ _) (Nat.min_le_right _ _) (Nat.le_of_eq hs.symm) hcp hov)
  exact ⟨g₄, h₄, applyRemoteInput_of_replay M hn (Nat.le_of_eq hs.symm) h₄⟩

theorem buffers_in_step_tape :
    ∃ g : Game (List UInt8), Reachable Console.tape g ∧ 0 < min g.localInput.len g.remoteInput.len ∧
      g.speculatedInput.len = g.localInput.len ∧
      ∃ g₄, replay Console.tape g (min g.localInput.len g.remoteInput.len) g.frame = some g₄ ∧
        g₄.frame = g.frame ∧ ∃ g', applyRemoteInput Console.tape g = some g' := by
  have hg : Reachable Console.tape _ := Reachable.apply (.handleLocalInput 2) (Reachable.apply (.handleRemoteInput 9)
    (Reachable.apply .runFrame (Reachable.apply (.handleLocalInput 1)
      (Reachable.init none (Reachable.newGame [] .joy1) rfl) rfl) rfl) rfl) rfl
  obtain ⟨hs, hc⟩ := buffers_in_step Console.tape hg
  obtain ⟨g₄, h₄, hap⟩ := hc (by decide) (Option.some_ne_none _) (by decide)
  obtain rfl : g₄ = _ := Option.some.inj (h₄.symm.trans rfl)
  exact ⟨_, hg, by decide, hs, _, h₄, rfl, hap rfl⟩

end Game

end Dendy
