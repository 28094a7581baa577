import Dendy.Netplay.Replay

/-!
# Reconciliation

What one call of `applyRemoteInput` does, stated once (`applyRemoteInput_eq_some`) and cited by every invariant
after it. With `n = min(|localInput|, |remoteInput|)` positive, the call

* moves the checkpoint `n` frames on, to the lockstep play of the first `n` confirmed pairs from the old checkpoint;
* drops the first `n` entries of all three buffers, after rebuilding the speculated tail from the last confirmed
  remote bitmap;
* leaves the bus at the frame it started from, replayed through the local-only frames with that bitmap.

A call that returns has also passed every check on the way; the frame check is what bounds the frame from both
sides (`Reconciled.frame_le`, `Reconciled.le_frame`).
-/

namespace Dendy

namespace Game

variable {S : Type} (M : Console S)

theorem rollback_eq_some {g g' : Game S} :
    rollback M g = some g' ↔
      ∃ sc, M.loadState g.bus g.cp.state = some sc ∧ g' = { g with bus := sc, frame := g.cp.frame } := by
  cases hl : M.loadState g.bus g.cp.state <;> simp [rollback, hl, eq_comm]

theorem truncFront_eq_some {b b' : RingBuf} {n : Nat} :
    b.truncFront n = some b' ↔ n ≤ b.len ∧ b' = ⟨b.items.drop n⟩ := by
  unfold RingBuf.truncFront
  split <;> simp_all [eq_comm]

/-- After the replay of local-only frames over `is ++ [i]`, the joysticks hold the pair of index `i`, whether or not
that last pass played a frame. -/
theorem foldlM_replaySpeculatedStep_joys {e : UInt32} {is : List Nat} {i : Nat} {g g' : Game S}
    (h : (is ++ [i]).foldlM (replaySpeculatedStep M e) g = some g') :
    (g'.joy1, g'.joy2) =
      joysFor g.localJoy (g.localInput.items.getD i 0) (g.speculatedInput.items.getD i 0) := by
  rw [List.foldlM_append] at h
  obtain ⟨g₁, h₁, h₂⟩ := Option.bind_eq_some.mp h
  obtain ⟨-, f, j1, j2, rfl, -⟩ := foldlM_replaySpeculatedStep M h₁
  obtain ⟨g₂, hlast, hg⟩ := Option.bind_eq_some.mp h₂
  obtain rfl : g₂ = g' := Option.some.inj hg
  obtain ⟨-, -, hstep⟩ := replaySpeculatedStep_eq_some M hlast
  split at hstep
  · obtain ⟨_, rfl, -⟩ := playFrame_setJoys M hstep
    rfl
  · rw [← Option.some.inj hstep, setJoys_eq]

/-- Everything a reconciliation of `n` confirmed frames from `g` to `g'` leaves behind: the checks it passed on the
way, the new checkpoint, the bus replayed from it with the last confirmed remote bitmap, and the three buffers. -/
structure Reconciled (g g' : Game S) (n : Nat) : Prop where
  pos : 0 < n
  le_local : n ≤ g.localInput.len
  le_remote : n ≤ g.remoteInput.len
  local_le_speculated : g.localInput.len ≤ g.speculatedInput.len
  frame_le : g.cp.frame.toNat + n ≤ g.frame.toNat
  le_frame : g.frame.toNat ≤ g.cp.frame.toNat + g.localInput.len
  checkpoint : ∃ sc, M.loadState g.bus g.cp.state = some sc ∧
    g'.cp.state = M.saveState (M.lockstep g.localJoy sc (g.confirmedFrames (List.range n))) ∧
    g'.bus = M.lockstep g.localJoy (M.lockstep g.localJoy sc (g.confirmedFrames (List.range n)))
      (((List.range' n (g.localInput.len - n)).map fun i =>
        (g.localInput.items.getD i 0, g.remoteInput.items.getD (n - 1) 0)).take
          (g.frame.toNat - (g.cp.frame.toNat + n)))
  cp_frame : g'.cp.frame.toNat = g.cp.frame.toNat + n
  frame : g'.frame = g.frame
  localInput : g'.localInput.items = g.localInput.items.drop n
  remoteInput : g'.remoteInput.items = g.remoteInput.items.drop n
  speculatedInput : g'.speculatedInput.items =
    List.replicate (g.localInput.len - n) (g.remoteInput.items.getD (n - 1) 0) ++
      g.speculatedInput.items.drop g.localInput.len
  joys : n < g.localInput.len → (g'.joy1, g'.joy2) =
    joysFor g.localJoy (g.localInput.items.getD (g.localInput.len - 1) 0) (g.remoteInput.items.getD (n - 1) 0)
  localJoy : g'.localJoy = g.localJoy
  lastRemoteInput : g'.lastRemoteInput = g.lastRemoteInput

private theorem getD_rebuilt {xs : List UInt8} {n L i : Nat} {r : UInt8} (hL : L ≤ xs.length) (hn : n ≤ i)
    (hi : i < L) : (xs.take n ++ List.replicate (L - n) r ++ xs.drop L).getD i 0 = r := by
  have htake : (xs.take n).length = n := List.length_take_of_le (by omega)
  rw [List.getD_eq_getElem?_getD, List.append_assoc, List.getElem?_append_right (by omega), htake,
    List.getElem?_append_left (by simp; omega), List.getElem?_replicate, if_pos (by omega)]
  rfl

theorem applyRemoteInput_eq_some {g g' : Game S} (h : applyRemoteInput M g = some g') :
    (min g.localInput.len g.remoteInput.len = 0 ∧ g' = g) ∨
      Reconciled M g g' (min g.localInput.len g.remoteInput.len) := by
  unfold applyRemoteInput at h
  dsimp only at h
  split at h
  · exact .inl ⟨‹_›, (Option.some.inj h).symm⟩
  right
  rename_i hn
  generalize hN : min g.localInput.len g.remoteInput.len = n at h hn
  have hnl : n ≤ g.localInput.items.length := hN ▸ Nat.min_le_left _ _
  have hnr : n ≤ g.remoteInput.items.length := hN ▸ Nat.min_le_right _ _
  simp only [Option.bind_eq_bind, Option.bind_eq_some] at h
  obtain ⟨g₄, h₄, h⟩ := h
  simp only [replay, Option.bind_eq_bind, Option.bind_eq_some] at h₄
  obtain ⟨g₁, h₁, g₂, h₂, g₃, h₃, h₄⟩ := h₄
  obtain ⟨sc, hsc, rfl⟩ := (rollback_eq_some M).mp h₁
  obtain ⟨-, f₂, j1, j2, rfl, hf₂⟩ := foldlM_replayConfirmedStep M h₂
  obtain ⟨hin₃, rfl⟩ := foldlM_rebuildSpeculatedStep h₃
  have h₄' := h₄
  obtain ⟨-, f₄, k1, k2, rfl, hf₄⟩ := foldlM_replaySpeculatedStep M h₄
  clear h₁ h₂ h₃ h₄
  dsimp only [save, confirmedFrames, speculatedFrames, RingBuf.len] at h hf₂ hf₄ hin₃ h₄' ⊢
  by_cases hfr : f₄ = g.frame
  swap
  · simp [hfr] at h
  rw [if_neg (not_not.mpr hfr)] at h
  simp only [Option.bind_eq_some, truncFront_eq_some, RingBuf.len, Option.some.injEq] at h
  obtain ⟨_, ⟨-, rfl⟩, _, ⟨-, rfl⟩, _, ⟨hsp, rfl⟩, rfl⟩ := h
  have hL : g.localInput.items.length ≤ g.speculatedInput.items.length := by
    rcases Nat.lt_or_ge n g.localInput.items.length with hlt | hge
    · have := hin₃ (g.localInput.items.length - 1) (List.mem_range'_1.mpr ⟨by omega, by omega⟩)
      omega
    · rw [Nat.sub_eq_zero_of_le hge, List.range'_zero, List.foldl_nil] at hsp
      exact Nat.le_trans hge hsp
  rw [foldl_set_range' _ _ (by omega), Nat.add_sub_cancel' hnl] at h₄' ⊢
  rw [List.length_range] at hf₂
  rw [List.length_range', hfr] at hf₄
  refine { pos := Nat.pos_of_ne_zero hn, le_local := hnl, le_remote := hnr, local_le_speculated := hL,
           frame_le := by omega, le_frame := by dsimp only [RingBuf.len]; omega,
           checkpoint := ⟨sc, hsc, rfl, ?bus⟩, cp_frame := hf₂, frame := hfr, localInput := rfl,
           remoteInput := rfl, speculatedInput := ?spec, joys := ?joys, localJoy := rfl,
           lastRemoteInput := rfl }
  case bus =>
    dsimp only [RingBuf.len]
    rw [hf₂]
    congr 2
    refine List.map_congr_left fun i hi => ?_
    obtain ⟨h1, h2⟩ := List.mem_range'_1.mp hi
    rw [getD_rebuilt hL h1 (by omega)]
  case spec =>
    rw [List.append_assoc, List.drop_left' (List.length_take_of_le (by omega))]
    rfl
  case joys =>
    dsimp only [RingBuf.len]
    intro hlt
    have hsplit : List.range' n (g.localInput.items.length - n - 1) ++ [g.localInput.items.length - 1] =
        List.range' n (g.localInput.items.length - n) := by
      rw [show g.localInput.items.length - 1 = n + 1 * (g.localInput.items.length - n - 1) by omega,
        ← List.range'_concat, Nat.sub_add_cancel (by omega)]
    rw [← hsplit] at h₄'
    have hj := foldlM_replaySpeculatedStep_joys M h₄'
    dsimp only at hj
    rwa [getD_rebuilt hL (by omega) (by omega)] at hj

/-- `RunFrame` advances the frame counter by exactly one: the reconciliation leaves it where it was or panics. -/
theorem runFrame_frame {g g' : Game S} (h : runFrame M g = some g') : g'.frame.toNat = g.frame.toNat + 1 := by
  obtain ⟨g₁, h₁, h₂⟩ := Option.bind_eq_some.mp h
  obtain ⟨hne, rfl⟩ := (playFrame_eq_some M).mp h₂
  have hf : g₁.frame = g.frame := by
    rcases applyRemoteInput_eq_some M h₁ with ⟨-, rfl⟩ | hr
    exacts [rfl, hr.frame]
  rw [← hf]
  exact UInt32.toNat_add_one_of_ne hne

/-- A reconciliation whose confirmed frames alone would carry the game past the frame it started from panics. -/
theorem applyRemoteInput_eq_none {g : Game S} (hn : 0 < min g.localInput.len g.remoteInput.len)
    (hlt : g.frame.toNat < g.cp.frame.toNat + min g.localInput.len g.remoteInput.len) :
    applyRemoteInput M g = none := by
  cases h : applyRemoteInput M g with
  | none => rfl
  | some g' =>
    rcases applyRemoteInput_eq_some M h with ⟨h0, -⟩ | hr
    · omega
    · exact absurd hr.frame_le (by omega)

/-- The panic of `applyRemoteInput` at its frame check, when the replay ends on another frame than the one it
started from. -/
theorem applyRemoteInput_eq_none_of_replay {g g' : Game S} (hn : min g.localInput.len g.remoteInput.len ≠ 0)
    (h : replay M g (min g.localInput.len g.remoteInput.len) g.frame = some g') (hne : g'.frame ≠ g.frame) :
    applyRemoteInput M g = none := by
  simp [applyRemoteInput, hn, h, hne]

end Game

end Dendy
