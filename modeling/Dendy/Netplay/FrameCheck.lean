import Dendy.Netplay.Live
import Dendy.Netplay.Buffers

/-!
# The frame check of the reconciliation

`applyRemoteInput` ends with a check that the replay came back to the frame it started from. The replay rolls back to
the checkpoint, plays the `n = min(|localInput|, |remoteInput|)` confirmed frames, then plays local-only frames while
it is behind the frame it started from, at most one per local bitmap left. So, with the buffers in step and a
checkpoint that loads, the reconciliation returns exactly when the game's frame lies between `cp.frame + n` and
`cp.frame + |localInput|` (`applyRemoteInput_isSome_iff`): below that window the confirmed frames overtake the game,
above it the local bitmaps run out before the replay catches up. The rollback itself never moves a reachable game
forward: in every state reachable from `NewGame` the checkpoint's frame is at most the game's frame
(`Reachable.checkpoint_le_frame`).

Where a game sits in the window depends on how it started. A game started with `Init(nil)` and driven by the
session's rounds is `|localInput| - 1` frames past its checkpoint at each `RunFrame`, and a round returns exactly
while the remote player has not caught up (`Live.round_isSome_iff`). The session's guest takes the host's `Reset` in
with `RunFrame`, which plays a frame right after `Init(cp)` and before the first local bitmap. From then on the guest
is `|localInput|` frames past its checkpoint at each `RunFrame`, the top of the window, and no arrival of remote
bitmaps makes a round panic (`Ahead.round`; for the session, `Netplay.guest_session_returns`). That frame is a real
frame on the guest's bus: where the host's bus is its checkpoint's state played through the pending frames (`Live`),
the guest's is that play with one frame more among them, of stale bitmaps (`AheadBus`, kept by every round:
`AheadBus.round`; for the session, `Netplay.guest_bus_one_frame_ahead`).
-/

namespace Dendy

namespace Game

variable {S : Type} (M : Console S)

/-! ### The window -/

theorem replay_frame {g g₄ : Game S} {n : Nat} {e : UInt32} (h : replay M g n e = some g₄) :
    g₄.frame.toNat = g.cp.frame.toNat + n + min (g.localInput.len - n) (e.toNat - (g.cp.frame.toNat + n)) := by
  simp only [replay, Option.bind_eq_bind, Option.bind_eq_some] at h
  obtain ⟨g₁, h₁, g₂, h₂, g₃, h₃, h₄⟩ := h
  obtain ⟨sc, -, rfl⟩ := (rollback_eq_some M).mp h₁
  obtain ⟨-, f₂, j1, j2, rfl, hf₂⟩ := foldlM_replayConfirmedStep M h₂
  obtain ⟨-, rfl⟩ := foldlM_rebuildSpeculatedStep h₃
  obtain ⟨-, f₄, k1, k2, rfl, hf₄⟩ := foldlM_replaySpeculatedStep M h₄
  dsimp only [save] at hf₂ hf₄ ⊢
  rw [List.length_range] at hf₂
  rw [hf₄, List.length_range', hf₂]

theorem applyRemoteInput_frames {g g' : Game S} (h : applyRemoteInput M g = some g') :
    g'.frame = g.frame ∧ g'.cp.frame.toNat + g'.localInput.len = g.cp.frame.toNat + g.localInput.len := by
  rcases applyRemoteInput_eq_some M h with ⟨-, rfl⟩ | hr
  · exact ⟨rfl, rfl⟩
  · have hn : _ ≤ g.localInput.items.length := hr.le_local
    refine ⟨hr.frame, ?_⟩
    show _ + g'.localInput.items.length = _ + g.localInput.items.length
    rw [hr.cp_frame, hr.localInput, List.length_drop]
    omega

/-- The reconciliation returns exactly when the game's frame lies between `cp.frame + n` and
`cp.frame + |localInput|`, or there is nothing to reconcile. -/
theorem applyRemoteInput_isSome_iff {g : Game S} (hs : g.localInput.len ≤ g.speculatedInput.len)
    (hcp : M.loadState g.bus g.cp.state ≠ none) :
    (applyRemoteInput M g).isSome ↔ min g.localInput.len g.remoteInput.len = 0 ∨
      g.cp.frame.toNat + min g.localInput.len g.remoteInput.len ≤ g.frame.toNat ∧
        g.frame.toNat ≤ g.cp.frame.toNat + g.localInput.len := by
  constructor
  · intro h
    obtain ⟨g', h'⟩ := Option.isSome_iff_exists.mp h
    rcases applyRemoteInput_eq_some M h' with ⟨h0, -⟩ | hr
    exacts [.inl h0, .inr ⟨hr.frame_le, hr.le_frame⟩]
  · rintro (h0 | ⟨hlo, hhi⟩)
    · simp [applyRemoteInput, h0]
    by_cases h0 : min g.localInput.len g.remoteInput.len = 0
    · simp [applyRemoteInput, h0]
    have hn := Nat.pos_of_ne_zero h0
    have hlt := g.frame.toNat_lt_size
    obtain ⟨g₄, h₄⟩ := Option.isSome_iff_exists.mp (replay_isSome M g.frame hn (Nat.min_le_left _ _)
      (Nat.min_le_right _ _) hs hcp (by simp only [UInt32.size] at hlt; omega))
    have hf := replay_frame M h₄
    have hl := Nat.min_le_left g.localInput.len g.remoteInput.len
    obtain ⟨g', hg'⟩ := applyRemoteInput_of_replay M hn hs h₄ (UInt32.eq_iff_toNat_eq.mpr (by omega))
    rw [hg']
    rfl

theorem applyRemoteInput_isSome_iff_tape :
    (∃ g : Game (List UInt8), g.localInput.len ≤ g.speculatedInput.len ∧
      Console.tape.loadState g.bus g.cp.state ≠ none ∧
      ((applyRemoteInput Console.tape g).isSome ↔ min g.localInput.len g.remoteInput.len = 0 ∨
        g.cp.frame.toNat + min g.localInput.len g.remoteInput.len ≤ g.frame.toNat ∧
          g.frame.toNat ≤ g.cp.frame.toNat + g.localInput.len) ∧
      (applyRemoteInput Console.tape g).isSome = false) ∧
    ∃ g : Game (List UInt8), g.localInput.len ≤ g.speculatedInput.len ∧
      Console.tape.loadState g.bus g.cp.state ≠ none ∧
      ((applyRemoteInput Console.tape g).isSome ↔ min g.localInput.len g.remoteInput.len = 0 ∨
        g.cp.frame.toNat + min g.localInput.len g.remoteInput.len ≤ g.frame.toNat ∧
          g.frame.toNat ≤ g.cp.frame.toNat + g.localInput.len) ∧
      (applyRemoteInput Console.tape g).isSome = true :=
  ⟨⟨(((newGame [] .joy1).save Console.tape).handleLocalInput 1).handleRemoteInput 2, le_rfl, Option.some_ne_none _,
    applyRemoteInput_isSome_iff Console.tape le_rfl (Option.some_ne_none _), rfl⟩,
   ⟨((((runFrame Console.tape (((newGame [] .joy1).save Console.tape).handleLocalInput 1)).get rfl).handleRemoteInput
      9).handleLocalInput 2), by decide, Option.some_ne_none _,
    applyRemoteInput_isSome_iff Console.tape (by decide) (Option.some_ne_none _), rfl⟩⟩

/-- `RunFrame` returns when the game's frame lies in the window and the frame counter does not wrap. -/
theorem runFrame_of_window {g : Game S} {s : S} (hs : g.localInput.len ≤ g.speculatedInput.len)
    (hcp : g.cp.state = M.saveState s)
    (hlo : g.cp.frame.toNat + min g.localInput.len g.remoteInput.len ≤ g.frame.toNat)
    (hhi : g.frame.toNat ≤ g.cp.frame.toNat + g.localInput.len) (hov : g.frame.toNat + 1 < 2 ^ 32) :
    ∃ g₂, applyRemoteInput M g = some g₂ ∧
      runFrame M g = some { g₂ with bus := M.step g₂.bus g₂.joy1 g₂.joy2, frame := g₂.frame + 1 } ∧
      (g₂.frame + 1).toNat = g.frame.toNat + 1 := by
  obtain ⟨g₂, h₂⟩ := Option.isSome_iff_exists.mp ((applyRemoteInput_isSome_iff M hs
    (by rw [hcp, M.loadState_saveState]; exact Option.some_ne_none _)).mpr (.inr ⟨hlo, hhi⟩))
  have hf₂ := (applyRemoteInput_frames M h₂).1
  have hne : g₂.frame + 1 ≠ 0 := UInt32.add_one_ne_zero (by rw [hf₂]; exact hov)
  refine ⟨g₂, h₂, ?_, by rw [UInt32.toNat_add_one_of_ne hne, hf₂]⟩
  rw [runFrame, h₂, Option.some_bind]
  exact (playFrame_eq_some M).mpr ⟨hne, rfl⟩

/-! ### Reachable states -/

theorem runFrame_checkpoint_le {g g' : Game S} (h : runFrame M g = some g')
    (hle : g.cp.frame.toNat ≤ g.frame.toNat) : g'.cp.frame.toNat ≤ g'.frame.toNat := by
  rw [runFrame_frame M h]
  obtain ⟨g₁, h₁, h₂⟩ := Option.bind_eq_some.mp h
  obtain ⟨-, rfl⟩ := (playFrame_eq_some M).mp h₂
  show g₁.cp.frame.toNat ≤ g.frame.toNat + 1
  rcases applyRemoteInput_eq_some M h₁ with ⟨-, rfl⟩ | hr
  · omega
  · have := hr.frame_le
    rw [hr.cp_frame]
    omega

/-- In every state reachable from `NewGame` the checkpoint's frame is at most the game's frame, so the replay-lag
log's `endFrame - startFrame` never wraps. -/
theorem Reachable.checkpoint_le_frame {g : Game S} (hg : Reachable M g) : g.cp.frame.toNat ≤ g.frame.toNat := by
  induction hg with
  | newGame => exact Nat.le_refl 0
  | init cp _ h _ =>
    cases cp with
    | some cp =>
      obtain ⟨_, -, rfl⟩ := (rollback_eq_some M).mp h
      exact Nat.le_refl _
    | none =>
      cases h
      exact Nat.le_refl _
  | apply o _ h ih =>
    cases o with
    | handleLocalInput b => cases h; rwa [handleLocalInput_cp, handleLocalInput_frame]
    | handleRemoteInput b => cases h; exact ih
    | runFrame => exact runFrame_checkpoint_le M h ih

theorem Reachable.checkpoint_le_frame_tape :
    ∃ g : Game (List UInt8), Reachable Console.tape g ∧ g.cp.frame.toNat = 1 ∧ g.frame.toNat = 2 ∧
      g.cp.frame.toNat ≤ g.frame.toNat :=
  have hg : Reachable Console.tape _ := Reachable.apply .runFrame (Reachable.apply (.handleLocalInput 7)
    (Reachable.apply (.handleRemoteInput 6) (Reachable.apply .runFrame (Reachable.apply (.handleLocalInput 5)
      (Reachable.init none (Reachable.newGame [] .joy1) rfl) rfl) rfl) rfl) rfl) rfl
  ⟨_, hg, rfl, rfl, Reachable.checkpoint_le_frame Console.tape hg⟩

/-! ### The host -/

/-- A round of the host's live game returns exactly when the remote bitmaps it brings do not reach the frame it
plays. -/
theorem Live.round_isSome_iff {g : Game S} (hl : Live M g) (r : Round) (hov : g.frame.toNat + 1 < 2 ^ 32) :
    (exec M g r.ops).isSome ↔ (r.before ++ r.after).length ≤ g.localInput.len := by
  constructor
  · intro h
    by_contra hR
    simp [runFrame_eq_none_of_caught_up M hl r (by omega)] at h
  · intro hR
    obtain ⟨hframe, hrem, hspec, s, hcp, -⟩ := hl
    obtain ⟨g₁, hin, hL, hR₁, hs₁, hf₁, hcp₁⟩ : ∃ g₁, exec M g r.inputs = some g₁ ∧
        g₁.localInput.len = g.localInput.len + 1 ∧ g₁.remoteInput.len = (r.before ++ r.after).length ∧
        g₁.speculatedInput.len = g₁.localInput.len ∧ g₁.frame = g.frame ∧ g₁.cp = g.cp :=
      ⟨_, exec_inputs M g r, by simp [RingBuf.len, RingBuf.pushBack], by simp [RingBuf.len, hrem],
        by simp [RingBuf.len, RingBuf.pushBack, hspec], rfl, rfl⟩
    obtain ⟨_, -, hrun, -⟩ := runFrame_of_window M (Nat.le_of_eq hs₁.symm) (by rw [hcp₁]; exact hcp)
      (by rw [hf₁, hcp₁, hframe, hL, hR₁]; omega) (by rw [hf₁, hcp₁, hframe, hL]; omega) (by rw [hf₁]; exact hov)
    rw [Round.ops, exec_append, hin, Option.some_bind, exec_cons, apply, hrun]
    rfl

theorem Live.round_isSome_iff_tape :
    (∃ g : Game (List UInt8), Live Console.tape g ∧ g.frame.toNat + 1 < 2 ^ 32 ∧
      ((exec Console.tape g (Round.ops ⟨[7], 1, []⟩)).isSome ↔ ([7] ++ []).length ≤ g.localInput.len) ∧
      (exec Console.tape g (Round.ops ⟨[7], 1, []⟩)).isSome = false) ∧
    ∃ g : Game (List UInt8), Live Console.tape g ∧ g.frame.toNat + 1 < 2 ^ 32 ∧
      ((exec Console.tape g (Round.ops ⟨[7], 2, []⟩)).isSome ↔ ([7] ++ []).length ≤ g.localInput.len) ∧
      (exec Console.tape g (Round.ops ⟨[7], 2, []⟩)).isSome = true :=
  have hl : Live Console.tape _ := Started.live Console.tape (@Started.host _ _ (newGame [] .joy1) _ rfl)
  have hl₁ : Live Console.tape _ := Live.round Console.tape hl ⟨[], 1, []⟩ rfl
  ⟨⟨_, hl, by decide, Live.round_isSome_iff Console.tape hl ⟨[7], 1, []⟩ (by decide), rfl⟩,
    ⟨_, hl₁, by decide, Live.round_isSome_iff Console.tape hl₁ ⟨[7], 2, []⟩ (by decide), rfl⟩⟩

/-! ### The guest -/

/-- The guest's game after each `RunFrame`: one frame further past its checkpoint than it has local bitmaps, with the
buffers in step and a checkpoint that is a save. -/
structure Ahead (g : Game S) : Prop where
  frame : g.frame.toNat = g.cp.frame.toNat + g.localInput.len + 1
  speculated_len : g.speculatedInput.len = g.localInput.len
  checkpoint : ∃ s, g.cp.state = M.saveState s

/-- The frames the pending bitmaps stand for: each local bitmap with the remote bitmap speculated for it. -/
def pendingFrames (g : Game S) : List (UInt8 × UInt8) := g.localInput.items.zip g.speculatedInput.items

/-- The guest's bus after each `RunFrame`: the checkpoint's state played through the pending frames and through one
frame more, of some bitmaps `e`, at a position `k` among them. -/
def AheadBus (g : Game S) : Prop :=
  ∃ s k e, g.cp.state = M.saveState s ∧ k ≤ g.localInput.len ∧
    g.bus = M.lockstep g.localJoy s ((pendingFrames g).take k ++ e :: (pendingFrames g).drop k)

theorem step_eq_lockstep (p : Port) (s : S) (j₁ j₂ : UInt8) : M.step s j₁ j₂ = M.lockstep p s [joysFor p j₁ j₂] := by
  cases p <;> rfl

section Guest

variable {M}

theorem Ahead.start (g : Game S) {cp : Checkpoint} {s : S} (hcp : cp.state = M.saveState s)
    (hov : cp.frame.toNat + 1 < 2 ^ 32) :
    ∃ g₁, ((init M g (some cp)).bind fun g₀ => runFrame M g₀) = some g₁ ∧ Ahead M g₁ ∧ AheadBus M g₁ ∧
      g₁.frame.toNat = cp.frame.toNat + 1 := by
  have h₀ : init M g (some cp) =
      some { g with frame := cp.frame, gen := g.gen + 1, localInput := .new, remoteInput := .new,
                    speculatedInput := .new, cp, bus := s } :=
    (rollback_eq_some M).mpr ⟨s, by rw [hcp, M.loadState_saveState], rfl⟩
  have hne := UInt32.add_one_ne_zero hov
  refine ⟨{ g with frame := cp.frame + 1, bus := M.step s g.joy1 g.joy2, cp, gen := g.gen + 1,
                   localInput := .new, remoteInput := .new, speculatedInput := .new },
    by simp [h₀, runFrame, applyRemoteInput, RingBuf.len, RingBuf.new, playFrame, hne],
    ⟨(UInt32.toNat_add_one_of_ne hne).trans rfl, rfl, s, hcp⟩,
    ⟨s, 0, joysFor g.localJoy g.joy1 g.joy2, hcp, Nat.zero_le _, step_eq_lockstep M _ _ _ _⟩,
    UInt32.toNat_add_one_of_ne hne⟩

/-- One round of the guest returns whenever its frame counter does not wrap, whatever remote bitmaps it brings. -/
theorem Ahead.round {g : Game S} (ha : Ahead M g) (r : Round) (hov : g.frame.toNat + 1 < 2 ^ 32) :
    ∃ g', exec M g r.ops = some g' ∧ Ahead M g' ∧ g'.frame.toNat = g.frame.toNat + 1 := by
  obtain ⟨hframe, hspec, s, hcp⟩ := ha
  obtain ⟨g₁, hin, hL, hs₁, hf₁, hcp₁⟩ : ∃ g₁, exec M g r.inputs = some g₁ ∧
      g₁.localInput.len = g.localInput.len + 1 ∧ g₁.speculatedInput.len = g₁.localInput.len ∧
      g₁.frame = g.frame ∧ g₁.cp = g.cp := by
    refine ⟨_, exec_inputs M g r, by simp [RingBuf.len, RingBuf.pushBack], ?_, rfl, rfl⟩
    simp only [RingBuf.len] at hspec
    simp [RingBuf.len, RingBuf.pushBack, hspec]
  obtain ⟨g₂, h₂, hrun, hnext⟩ := runFrame_of_window M (Nat.le_of_eq hs₁.symm) (by rw [hcp₁]; exact hcp)
    (by rw [hf₁, hcp₁, hframe]; omega) (by rw [hf₁, hcp₁, hframe, hL]; omega) (by rw [hf₁]; exact hov)
  rw [hf₁] at hnext
  rw [Round.ops, exec_append, hin, Option.some_bind, exec_cons, apply]
  refine ⟨_, by rw [hrun]; rfl, ⟨?_, runFrame_speculated_len M hrun hs₁, ?_⟩, hnext⟩
  · show (g₂.frame + 1).toNat = g₂.cp.frame.toNat + g₂.localInput.len + 1
    rw [hnext, (applyRemoteInput_frames M h₂).2, hcp₁, hL, hframe]
    rfl
  · rcases applyRemoteInput_eq_some M h₂ with ⟨-, rfl⟩ | hr
    · exact ⟨s, by rw [hcp₁, hcp]⟩
    · obtain ⟨sc, -, hstate, -⟩ := hr.checkpoint
      exact ⟨_, hstate⟩

private theorem aheadBus_of_playFrame {g g' : Game S} {s : S} (hcp : g.cp.state = M.saveState s)
    (hbus : g.bus = M.lockstep g.localJoy s (pendingFrames g)) (h : playFrame M g = some g') : AheadBus M g' := by
  obtain ⟨-, rfl⟩ := (playFrame_eq_some M).mp h
  have hP : (pendingFrames g).length ≤ g.localInput.len := by
    simp only [pendingFrames, RingBuf.len, List.length_zip]
    exact Nat.min_le_left _ _
  refine ⟨s, g.localInput.len, joysFor g.localJoy g.joy1 g.joy2, hcp, le_rfl, ?_⟩
  show M.step g.bus g.joy1 g.joy2 =
    M.lockstep g.localJoy s ((pendingFrames g).take _ ++ _ :: (pendingFrames g).drop g.localInput.len)
  rw [List.take_of_length_le hP, List.drop_eq_nil_of_le hP, hbus, step_eq_lockstep M g.localJoy, M.lockstep_append]

private theorem aheadBus_of_reconciled {g₁ g₂ g' : Game S} {n : Nat} (hr : Reconciled M g₁ g₂ n)
    (htop : g₁.frame.toNat = g₁.cp.frame.toNat + g₁.localInput.len)
    (hs : g₁.speculatedInput.len = g₁.localInput.len) (h₃ : playFrame M g₂ = some g') : AheadBus M g' := by
  obtain ⟨sc, -, hstate, hbus₂⟩ := hr.checkpoint
  refine aheadBus_of_playFrame hstate ?_ h₃
  have hn := hr.le_local
  simp only [RingBuf.len] at htop hs hn
  have hrep : List.replicate (g₁.localInput.len - n) (g₁.remoteInput.items.getD (n - 1) 0) =
      (g₁.localInput.items.drop n).map fun _ => g₁.remoteInput.items.getD (n - 1) 0 := by
    rw [List.map_const', List.length_drop]
    rfl
  rw [hbus₂, hr.localJoy, htop, Nat.add_sub_add_left, pendingFrames, hr.localInput, hr.speculatedInput,
    List.drop_eq_nil_of_le (Nat.le_of_eq hs : g₁.speculatedInput.items.length ≤ g₁.localInput.len), List.append_nil,
    hrep, ← List.map_prod_left_eq_zip, List.take_of_length_le (by simp [RingBuf.len]),
    map_range'_getD _ (fun x => (x, _)) (by simp only [RingBuf.len]; omega),
    List.take_of_length_le (by simp [RingBuf.len])]

/-- The guest's rounds keep its bus in that shape; a reconciliation moves the extra frame to the end. -/
theorem AheadBus.round {g g' : Game S} (ha : Ahead M g) (hb : AheadBus M g) (r : Round)
    (h : exec M g r.ops = some g') : AheadBus M g' := by
  obtain ⟨pre, c, post⟩ := r
  have hs := ha.speculated_len
  simp only [Round.ops, exec_append, exec_inputs, Option.some_bind, exec_cons, exec_nil, Option.bind_some, apply,
    runFrame] at h
  obtain ⟨g₂, h₂, h₃⟩ := Option.bind_eq_some.mp h
  rcases applyRemoteInput_eq_some M h₂ with ⟨-, rfl⟩ | hr
  · -- no reconciliation: the new frame is played after the pending ones
    obtain ⟨s, k, e, hcp, hk, hbus⟩ := hb
    obtain ⟨-, rfl⟩ := (playFrame_eq_some M).mp h₃
    have hP : k ≤ (pendingFrames g).length := by simp only [pendingFrames, RingBuf.len] at hs hk ⊢; simp [hs, hk]
    refine ⟨s, k, e, hcp, by simp only [RingBuf.len, RingBuf.pushBack, List.length_append] at hk ⊢; omega, ?_⟩
    dsimp only [pendingFrames, RingBuf.pushBack]
    rw [List.zip_append hs.symm, ← pendingFrames, List.take_append_of_le_length hP,
      List.drop_append_of_le_length hP, ← List.cons_append, ← List.append_assoc, M.lockstep_append, step_joysFor, hbus]
    rfl
  · -- a reconciliation from the top of the window
    have hf := ha.frame
    refine aheadBus_of_reconciled hr ?_ ?_ h₃ <;>
      simp only [RingBuf.len, RingBuf.pushBack, List.length_append, List.length_singleton] at hf hs ⊢ <;> omega

end Guest

end Game

end Dendy
