import Dendy.Netplay.Reconcile
import Mathlib.Data.List.Zip

/-!
# Rollback refines lockstep

The confirmed part of a rollback game is lockstep play. From `Init`, whatever the interleaving of local inputs,
remote inputs and frames, the game holds (`Synced`):

* in its local and remote buffers, every bitmap handed to it since `Init` that its checkpoint has not yet confirmed,
  in order;
* at its checkpoint, the save of the state reached from the state at `Init` by lockstep play of the confirmed pairs.

The checkpoint is so a function of the two input streams and of the number of confirmed frames alone: when a remote
input arrived does not matter. Two peers, each holding the other's local stream as its remote stream with the
joysticks swapped, agree on the checkpoint at every frame both have confirmed (`rollback_refines_lockstep`).
-/

namespace Dendy

namespace Game

variable {S : Type} (M : Console S)

/-- The game is in step with lockstep play from `s₀` at frame `f₀` of the bitmaps `ls` and `rs` it was handed: the
confirmed pairs are in the checkpoint, the rest wait in the buffers. -/
structure Synced (g : Game S) (s₀ : S) (f₀ : UInt32) (ls rs : List UInt8) : Prop where
  frame_le : f₀.toNat ≤ g.cp.frame.toNat
  confirmed_le_locals : g.cp.frame.toNat - f₀.toNat ≤ ls.length
  confirmed_le_remotes : g.cp.frame.toNat - f₀.toNat ≤ rs.length
  localInput : g.localInput.items = ls.drop (g.cp.frame.toNat - f₀.toNat)
  remoteInput : g.remoteInput.items = rs.drop (g.cp.frame.toNat - f₀.toNat)
  checkpoint : g.cp.state =
    M.saveState (M.lockstep g.localJoy s₀ ((ls.zip rs).take (g.cp.frame.toNat - f₀.toNat)))

/-- How a run starts: `Init(nil)` on a bus in state `g.bus`, or `Init(cp)` with a checkpoint received from the peer
that saves the state `s₀` at frame `cp.frame`. -/
inductive Started : Game S → S → UInt32 → Prop
  | host {g g₀ : Game S} : init M g none = some g₀ → Started g₀ g.bus 0
  | guest {g g₀ : Game S} {cp : Checkpoint} {s₀ : S} :
      cp.state = M.saveState s₀ → init M g (some cp) = some g₀ → Started g₀ s₀ cp.frame

section Steps

variable {M}
variable {g g' : Game S} {s₀ : S} {f₀ : UInt32} {ls rs : List UInt8}

/-! ### One operation -/

private theorem take_zip_congr {ls ls' rs rs' : List UInt8} {c : Nat} (hl : ls.take c = ls'.take c)
    (hr : rs.take c = rs'.take c) : (ls.zip rs).take c = (ls'.zip rs').take c := by
  simp only [List.zip_eq_zipWith, List.take_zipWith, hl, hr]

theorem Started.synced (h : Started M g s₀ f₀) : Synced M g s₀ f₀ [] [] := by
  cases h with
  | host h =>
    cases h
    constructor <;> simp [save, RingBuf.new]
  | guest hcp h =>
    obtain ⟨sc, hsc, rfl⟩ := (rollback_eq_some M).mp h
    constructor <;> simp [RingBuf.new, hcp]

theorem Synced.handleLocalInput (hs : Synced M g s₀ f₀ ls rs) (b : UInt8) :
    Synced M (g.handleLocalInput b) s₀ f₀ (ls ++ [b]) rs := by
  obtain ⟨h₀, hl, hr, hli, hri, hcp⟩ := hs
  refine ⟨?_, ?_, ?_, ?_, ?_, ?_⟩ <;>
    simp only [handleLocalInput_cp, handleLocalInput_localInput, handleLocalInput_remoteInput,
      handleLocalInput_localJoy]
  exacts [h₀, by simp; omega, hr, by simp [RingBuf.pushBack, hli, List.drop_append_of_le_length hl], hri,
    by rw [hcp, take_zip_congr (List.take_append_of_le_length hl) rfl]]

theorem Synced.handleRemoteInput (hs : Synced M g s₀ f₀ ls rs) (b : UInt8) :
    Synced M (g.handleRemoteInput b) s₀ f₀ ls (rs ++ [b]) := by
  obtain ⟨h₀, hl, hr, hli, hri, hcp⟩ := hs
  refine ⟨h₀, hl, by simp [Game.handleRemoteInput]; omega, hli, ?_, ?_⟩
  · simp [Game.handleRemoteInput, RingBuf.pushBack, hri, List.drop_append_of_le_length hr]
  · rw [Game.handleRemoteInput, hcp, take_zip_congr rfl (List.take_append_of_le_length hr)]

theorem Synced.playFrame (hs : Synced M g s₀ f₀ ls rs) (h : playFrame M g = some g') :
    Synced M g' s₀ f₀ ls rs := by
  obtain ⟨-, rfl⟩ := (playFrame_eq_some M).mp h
  exact ⟨hs.1, hs.2, hs.3, hs.4, hs.5, hs.6⟩

/-- The pairs a reconciliation of `n` frames replays are the next `n` pairs of the two streams. -/
private theorem lockstep_confirmed (hs : Synced M g s₀ f₀ ls rs) {n : Nat} (hl : n ≤ g.localInput.len)
    (hr : n ≤ g.remoteInput.len) {sc : S} (hsc : M.loadState g.bus g.cp.state = some sc) :
    M.lockstep g.localJoy sc (g.confirmedFrames (List.range n)) =
      M.lockstep g.localJoy s₀ ((ls.zip rs).take (g.cp.frame.toNat - f₀.toNat + n)) := by
  rw [hs.checkpoint, M.loadState_saveState, Option.some.injEq] at hsc
  have hzip : g.localInput.items.zip g.remoteInput.items = (ls.zip rs).drop (g.cp.frame.toNat - f₀.toNat) := by
    simp only [hs.localInput, hs.remoteInput, List.zip_eq_zipWith, List.drop_zipWith]
  rw [← hsc, ← M.lockstep_append, confirmedFrames_range hl hr, hzip, ← List.take_add]

theorem Synced.applyRemoteInput (hs : Synced M g s₀ f₀ ls rs) (h : applyRemoteInput M g = some g') :
    Synced M g' s₀ f₀ ls rs := by
  rcases applyRemoteInput_eq_some M h with ⟨-, rfl⟩ | hr
  · exact hs
  generalize min g.localInput.len g.remoteInput.len = n at hr
  obtain ⟨sc, hsc, hstate, -⟩ := hr.checkpoint
  have h₀ := hs.frame_le
  have hc : g'.cp.frame.toNat - f₀.toNat = g.cp.frame.toNat - f₀.toNat + n := by
    rw [hr.cp_frame]; omega
  have hlen := congrArg List.length hs.localInput
  have hlen' := congrArg List.length hs.remoteInput
  have hnl := hr.le_local
  have hnr := hr.le_remote
  simp only [List.length_drop, RingBuf.len] at hlen hlen' hnl hnr
  refine ⟨by rw [hr.cp_frame]; omega, ?_, ?_, ?_, ?_, ?_⟩ <;> rw [hc]
  · have := hs.confirmed_le_locals; omega
  · have := hs.confirmed_le_remotes; omega
  · rw [hr.localInput, hs.localInput, List.drop_drop]
  · rw [hr.remoteInput, hs.remoteInput, List.drop_drop]
  · rw [hstate, hr.localJoy, lockstep_confirmed hs hr.le_local hr.le_remote hsc]

theorem Synced.runFrame (hs : Synced M g s₀ f₀ ls rs) (h : runFrame M g = some g') :
    Synced M g' s₀ f₀ ls rs := by
  obtain ⟨g₁, h₁, h₂⟩ := Option.bind_eq_some.mp h
  exact (hs.applyRemoteInput h₁).playFrame h₂

/-! ### Runs -/

theorem Synced.exec (hs : Synced M g s₀ f₀ ls rs) {ops : List Op} (h : exec M g ops = some g') :
    Synced M g' s₀ f₀ (ls ++ localsOf ops) (rs ++ remotesOf ops) := by
  induction ops generalizing g ls rs with
  | nil => cases h; simpa [localsOf, remotesOf] using hs
  | cons o ops ih =>
    obtain ⟨g₁, h₁, h₂⟩ := Option.bind_eq_some.mp ((exec_cons M g o ops).symm.trans h)
    cases o with
    | handleLocalInput b =>
      cases h₁
      simpa [localsOf, remotesOf] using ih (hs.handleLocalInput b) h₂
    | handleRemoteInput b =>
      cases h₁
      simpa [localsOf, remotesOf] using ih (hs.handleRemoteInput b) h₂
    | runFrame => simpa [localsOf, remotesOf] using ih (hs.runFrame h₁) h₂

theorem localJoy_runFrame (h : runFrame M g = some g') : g'.localJoy = g.localJoy := by
  obtain ⟨g₁, h₁, h₂⟩ := Option.bind_eq_some.mp h
  obtain ⟨-, rfl⟩ := (playFrame_eq_some M).mp h₂
  rcases applyRemoteInput_eq_some M h₁ with ⟨-, rfl⟩ | hr
  exacts [rfl, hr.localJoy]

theorem localJoy_exec {ops : List Op} (h : exec M g ops = some g') : g'.localJoy = g.localJoy := by
  induction ops generalizing g with
  | nil => cases h; rfl
  | cons o ops ih =>
    obtain ⟨g₁, h₁, h₂⟩ := Option.bind_eq_some.mp ((exec_cons M g o ops).symm.trans h)
    rw [ih h₂]
    cases o with
    | handleLocalInput b => cases h₁; exact handleLocalInput_localJoy g b
    | handleRemoteInput b => cases h₁; rfl
    | runFrame => exact localJoy_runFrame h₁

/-! ### Two peers -/

private theorem take_eq_of_extends {l₁ l₂ : List UInt8} {c : Nat} (h : l₁ <+: l₂) (hc : c ≤ l₁.length) :
    l₁.take c = l₂.take c := by
  rw [List.prefix_iff_eq_take.mp h, List.take_take, Nat.min_eq_left hc]

/-- Two games in step with lockstep play from the same start, the second with the joysticks swapped and each holding a
prefix of the other's local bitmaps as its remote bitmaps, hold the same checkpoint at the same frame. -/
theorem Synced.checkpoint_eq {a b : Game S} {lsA rsA lsB rsB : List UInt8} (ha : Synced M a s₀ f₀ lsA rsA)
    (hb : Synced M b s₀ f₀ lsB rsB) (hjoy : b.localJoy = a.localJoy.other) (hA : rsA <+: lsB) (hB : rsB <+: lsA)
    (hf : a.cp.frame = b.cp.frame) : a.cp.state = b.cp.state := by
  have hswap : (lsB.zip rsB).take (b.cp.frame.toNat - f₀.toNat) =
      ((lsA.zip rsA).take (a.cp.frame.toNat - f₀.toNat)).map Prod.swap := by
    rw [List.map_take, List.zip_swap, hf, take_zip_congr (take_eq_of_extends hA (hf ▸ ha.confirmed_le_remotes)).symm
      (take_eq_of_extends hB hb.confirmed_le_remotes)]
  rw [ha.checkpoint, hb.checkpoint, hjoy, hswap, M.lockstep_other]

end Steps

/-! ### Refinement -/

/-- Rollback refines lockstep: every run from `Init` keeps the game `Synced`, and two peers handed each other's
bitmaps in order hold the same checkpoint at every frame both have confirmed. -/
theorem rollback_refines_lockstep :
    (∀ (g₀ g : Game S) (s₀ : S) (f₀ : UInt32) (ops : List Op), Started M g₀ s₀ f₀ → exec M g₀ ops = some g →
      Synced M g s₀ f₀ (localsOf ops) (remotesOf ops)) ∧
    (∀ (a₀ b₀ a b : Game S) (s₀ : S) (f₀ : UInt32) (opsA opsB : List Op),
      Started M a₀ s₀ f₀ → Started M b₀ s₀ f₀ → b₀.localJoy = a₀.localJoy.other →
      exec M a₀ opsA = some a → exec M b₀ opsB = some b →
      remotesOf opsA <+: localsOf opsB → remotesOf opsB <+: localsOf opsA →
      a.cp.frame = b.cp.frame → a.cp.state = b.cp.state) := by
  have run : ∀ (g₀ g : Game S) (s₀ : S) (f₀ : UInt32) (ops : List Op), Started M g₀ s₀ f₀ →
      exec M g₀ ops = some g → Synced M g s₀ f₀ (localsOf ops) (remotesOf ops) :=
    fun _ _ _ _ _ h₀ h => by simpa using h₀.synced.exec h
  refine ⟨run, fun _ _ _ _ _ _ _ _ ha₀ hb₀ hjoy ha hb hA hB hf =>
    (run _ _ _ _ _ ha₀ ha).checkpoint_eq (run _ _ _ _ _ hb₀ hb) ?_ hA hB hf⟩
  rw [localJoy_exec ha, localJoy_exec hb, hjoy]

theorem rollback_refines_lockstep_tape :
    ∃ a₀ b₀ a b, init Console.tape (newGame [] .joy1) none = some a₀ ∧
      init Console.tape (newGame [] .joy2) (some ⟨0, []⟩) = some b₀ ∧
      exec Console.tape a₀ [.handleLocalInput 1, .runFrame, .handleRemoteInput 2, .handleLocalInput 3, .runFrame] =
        some a ∧
      exec Console.tape b₀ [.handleLocalInput 2, .runFrame, .handleRemoteInput 1, .handleLocalInput 4, .runFrame] =
        some b ∧
      Synced Console.tape a [] 0 [1, 3] [2] ∧ a.cp.frame = 1 ∧ a.cp.state = b.cp.state :=
  ⟨_, _, _, _, rfl, rfl, rfl, rfl,
    (rollback_refines_lockstep Console.tape).1 _ _ _ _
      [.handleLocalInput 1, .runFrame, .handleRemoteInput 2, .handleLocalInput 3, .runFrame]
      (@Started.host _ _ (newGame [] .joy1) _ rfl) rfl, rfl,
    (rollback_refines_lockstep Console.tape).2 _ _ _ _ _ _
      [.handleLocalInput 1, .runFrame, .handleRemoteInput 2, .handleLocalInput 3, .runFrame]
      [.handleLocalInput 2, .runFrame, .handleRemoteInput 1, .handleLocalInput 4, .runFrame]
      (@Started.host _ _ (newGame [] .joy1) _ rfl) (@Started.guest _ _ (newGame [] .joy2) _ ⟨0, []⟩ [] rfl rfl)
      rfl rfl rfl ⟨[4], rfl⟩ ⟨[3], rfl⟩ rfl⟩

end Game

end Dendy
