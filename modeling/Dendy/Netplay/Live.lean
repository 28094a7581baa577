import Dendy.Netplay.Lockstep

/-!
# The live game

The session hands the game one local bitmap per frame: in each round of its loop, remote bitmaps, the local bitmap of
the frame, more remote bitmaps, then `RunFrame` (`Round`). Over such runs the live game keeps a simple shape after
every `RunFrame` (`Live`):

* it is `|localInput|` frames past its checkpoint, and holds no unconfirmed remote bitmap;
* its bus is the checkpoint's state played through those frames with the local bitmaps and, on the remote joystick,
  the last remote bitmap received, which is also what the speculated input holds.

A round in which the remote player has already sent the bitmap of the frame about to be played makes `RunFrame`
panic: the replay of the confirmed frames overtakes the frame the reconciliation started from
(`runFrame_eq_none_of_caught_up`).
-/

namespace Dendy

namespace Game

variable {S : Type} (M : Console S)

/-- One frame of the session loop as the game sees it: the remote bitmaps handled before the local one, the local
bitmap of the frame, the remote bitmaps handled after it, then `RunFrame`. -/
structure Round where
  before : List UInt8
  buttons : UInt8
  after : List UInt8

def Round.inputs (r : Round) : List Op :=
  r.before.map .handleRemoteInput ++ .handleLocalInput r.buttons :: r.after.map .handleRemoteInput

def Round.ops (r : Round) : List Op := r.inputs ++ [.runFrame]

def roundsOps (rs : List Round) : List Op := rs.flatMap Round.ops

/-- The game after a `RunFrame` of a run of rounds. -/
structure Live (g : Game S) : Prop where
  frame : g.frame.toNat = g.cp.frame.toNat + g.localInput.len
  remoteInput : g.remoteInput.items = []
  speculatedInput : g.speculatedInput.items = List.replicate g.localInput.len g.lastRemoteInput
  bus : ∃ s, g.cp.state = M.saveState s ∧
    g.bus = M.lockstep g.localJoy s (g.localInput.items.map fun l => (l, g.lastRemoteInput))

/-! ### The inputs of a round -/

theorem exec_handleRemoteInputs (g : Game S) (xs : List UInt8) :
    exec M g (xs.map .handleRemoteInput) =
      some { g with remoteInput := ⟨g.remoteInput.items ++ xs⟩, lastRemoteInput := xs.getLastD g.lastRemoteInput } := by
  induction xs generalizing g with
  | nil => simp
  | cons x xs ih => simp [exec_cons, apply, handleRemoteInput, ih, RingBuf.pushBack, List.getLast?_cons]

theorem exec_inputs (g : Game S) (r : Round) :
    exec M g r.inputs = some
      { g with
        joy1 := (joysFor g.localJoy r.buttons (r.before.getLastD g.lastRemoteInput)).1,
        joy2 := (joysFor g.localJoy r.buttons (r.before.getLastD g.lastRemoteInput)).2,
        localInput := g.localInput.pushBack r.buttons,
        speculatedInput := g.speculatedInput.pushBack (r.before.getLastD g.lastRemoteInput),
        remoteInput := ⟨g.remoteInput.items ++ r.before ++ r.after⟩,
        lastRemoteInput := (r.before ++ r.after).getLastD g.lastRemoteInput } := by
  rw [Round.inputs, exec_append, exec_handleRemoteInputs, Option.some_bind, exec_cons, apply, Option.some_bind,
    exec_handleRemoteInputs, handleLocalInput_eq]
  simp only [List.append_assoc, List.getLastD_eq_getLast?, List.getLast?_append]
  cases r.after.getLast? <;> rfl

/-! ### Replayed frames -/

theorem map_range'_getD {β : Type} (l : List UInt8) (f : UInt8 → β) {a k : Nat} (h : a + k ≤ l.length) :
    (List.range' a k).map (fun i => f (l.getD i 0)) = ((l.drop a).take k).map f := by
  apply List.ext_getElem
  · simp; omega
  · intro i h₁ _
    simp only [List.length_map, List.length_range'] at h₁
    simp [List.getElem?_eq_getElem (by omega : a + i < l.length)]

private theorem take_map_range'_succ {β : Type} (f : Nat → β) (a k : Nat) :
    ((List.range' a (k + 1)).map f).take k = (List.range' a k).map f := by
  rw [List.range'_concat, List.map_append, List.take_left' (by simp)]

/-- The replay of the unconfirmed frames, then the frame `RunFrame` owes: each local frame with the last remote
bitmap. -/
private theorem lockstep_replayed (p : Port) (s : S) (l : List UInt8) (r : UInt8) {n : Nat} (hn : n < l.length) :
    M.play p (M.lockstep p s (((List.range' n (l.length - n)).map fun i => (l.getD i 0, r)).take (l.length - 1 - n)))
      (l.getD (l.length - 1) 0) r = M.lockstep p s ((l.drop n).map fun x => (x, r)) := by
  have hk : l.length - n = l.length - 1 - n + 1 := by omega
  have hall := map_range'_getD l (fun x => (x, r)) (show n + (l.length - n) ≤ l.length by omega)
  rw [List.take_of_length_le (by simp), hk, List.range'_concat, List.map_append] at hall
  rw [hk, take_map_range'_succ, ← hall, M.lockstep_append, Nat.one_mul,
    show n + (l.length - 1 - n) = l.length - 1 by omega]
  rfl

private theorem getLastD_eq_getD {l : List UInt8} (h : 0 < l.length) (d : UInt8) :
    l.getLastD d = l.getD (l.length - 1) 0 := by
  simp [List.getLast?_eq_getElem?, List.getElem?_eq_getElem (Nat.sub_lt h Nat.one_pos)]

/-! ### One round -/

/-- A reconciliation in the `RunFrame` of a round, of the local bitmap `b` and every remote bitmap received. -/
private theorem live_of_reconciled {g g₁ g₂ g' : Game S} {b : UInt8} (hl : Live M g)
    (hr : Reconciled M g₁ g₂ (min g₁.localInput.len g₁.remoteInput.len)) (h₃ : playFrame M g₂ = some g')
    (hf : g₁.frame = g.frame) (hcp : g₁.cp = g.cp) (hloc : g₁.localInput.items = g.localInput.items ++ [b])
    (hspec : g₁.speculatedInput.len = g.localInput.len + 1)
    (hlast : g₁.lastRemoteInput = g₁.remoteInput.items.getD (g₁.remoteInput.len - 1) 0) :
    Live M g' := by
  obtain ⟨hframe, -, -, -, -, -⟩ := hl
  have hL₁ : g₁.localInput.len = g.localInput.len + 1 := by simp [RingBuf.len, hloc]
  have hRL : g₁.remoteInput.len ≤ g.localInput.len := by
    have := hr.frame_le
    rw [hcp, hf, hframe] at this
    omega
  rw [Nat.min_eq_right (by omega)] at hr
  have hpos := hr.pos
  obtain ⟨sc, hsc, hstate, hbus₂⟩ := hr.checkpoint
  have hj := hr.joys (by omega)
  rw [← hr.localJoy] at hj
  obtain ⟨hg', hf'⟩ := playFrame_of_joys M hj h₃
  rw [hg']
  refine ⟨?_, ?_, ?_, _, hstate, ?_⟩
  · show g'.frame.toNat = g₂.cp.frame.toNat + g₂.localInput.len
    simp only [RingBuf.len, hf', hr.frame, hr.cp_frame, hr.localInput, List.length_drop, hf, hcp]
    simp only [RingBuf.len] at hL₁ hframe hRL
    omega
  · exact hr.remoteInput.trans (List.drop_eq_nil_of_le le_rfl)
  · show g₂.speculatedInput.items = List.replicate g₂.localInput.len g₂.lastRemoteInput
    rw [hr.speculatedInput, List.drop_eq_nil_of_le (by simp only [RingBuf.len] at hspec hL₁ ⊢; omega),
      List.append_nil, hr.lastRemoteInput, hlast]
    simp only [RingBuf.len, hr.localInput, List.length_drop]
  · show M.play g₂.localJoy g₂.bus _ _ =
      M.lockstep g₂.localJoy _ (g₂.localInput.items.map fun l => (l, g₂.lastRemoteInput))
    have hfr : g₁.frame.toNat - (g₁.cp.frame.toNat + g₁.remoteInput.len) =
        g₁.localInput.items.length - 1 - g₁.remoteInput.len := by
      rw [hf, hcp, hframe]
      simp only [RingBuf.len] at hL₁ ⊢
      omega
    rw [hbus₂, hr.localJoy, hr.localInput, hr.lastRemoteInput, hlast, hfr]
    exact lockstep_replayed M _ _ _ _ (by simp only [RingBuf.len] at hL₁ hRL ⊢; omega)

theorem Live.round {g g' : Game S} (hl : Live M g) (r : Round) (h : exec M g r.ops = some g') : Live M g' := by
  obtain ⟨pre, b, post⟩ := r
  obtain ⟨hframe, hrem, hspec, s, hcp, hbus⟩ := hl
  simp only [Round.ops, exec_append, exec_inputs, Option.some_bind, exec_cons, exec_nil, Option.bind_some, apply,
    runFrame] at h
  obtain ⟨g₂, h₂, h₃⟩ := Option.bind_eq_some.mp h
  rcases applyRemoteInput_eq_some M h₂ with ⟨hn, rfl⟩ | hr
  · -- no remote bitmap this round: the frame is played live
    obtain ⟨rfl, rfl⟩ : pre = [] ∧ post = [] := by simpa [RingBuf.len, RingBuf.pushBack, hrem] using hn
    obtain ⟨hne, rfl⟩ := (playFrame_eq_some M).mp h₃
    refine ⟨?_, by simp [hrem], by simp [RingBuf.pushBack, RingBuf.len, hspec, List.replicate_succ'], s, hcp, ?_⟩
    · rw [UInt32.toNat_add_one_of_ne hne]
      simp only [RingBuf.len, RingBuf.pushBack, List.length_append, List.length_singleton] at hframe ⊢
      omega
    · simp only [step_joysFor, hbus, RingBuf.pushBack, List.map_append, M.lockstep_append]
      rfl
  · -- a reconciliation of every remote bitmap received
    have hpos : 0 < (pre ++ post).length := by
      have := hr.pos
      simp only [RingBuf.len, RingBuf.pushBack, hrem, List.length_append, List.length_singleton,
        List.length_nil] at this ⊢
      omega
    refine live_of_reconciled M ⟨hframe, hrem, hspec, s, hcp, hbus⟩ hr h₃ rfl rfl rfl
      (by simp [RingBuf.len, RingBuf.pushBack, hspec]) ?_
    simp only [hrem, List.nil_append, RingBuf.len]
    exact getLastD_eq_getD hpos _

/-! ### Runs of rounds -/

theorem Started.live {g₀ : Game S} {s₀ : S} {f₀ : UInt32} (h : Started M g₀ s₀ f₀) : Live M g₀ := by
  cases h with
  | host h =>
    cases h
    exact ⟨by simp [save, RingBuf.len, RingBuf.new], rfl, rfl, _, rfl, rfl⟩
  | guest hcp h =>
    obtain ⟨sc, hsc, rfl⟩ := (rollback_eq_some M).mp h
    rw [hcp, M.loadState_saveState, Option.some.injEq] at hsc
    subst hsc
    exact ⟨by simp [RingBuf.len, RingBuf.new], rfl, rfl, _, hcp, rfl⟩

theorem Live.rounds {g g' : Game S} (hl : Live M g) {rs : List Round} (h : exec M g (roundsOps rs) = some g') :
    Live M g' := by
  induction rs generalizing g with
  | nil => cases h; exact hl
  | cons r rs ih =>
    rw [roundsOps, List.flatMap_cons, exec_append] at h
    obtain ⟨g₁, h₁, h₂⟩ := Option.bind_eq_some.mp h
    exact ih (Live.round M hl r h₁) h₂

/-! ### A remote player that has caught up -/

/-- In a round in which the remote player has already sent the bitmap of the frame about to be played, the confirmed
frames alone would carry the replay past that frame: `RunFrame` panics. -/
theorem runFrame_eq_none_of_caught_up {g : Game S} (hl : Live M g) (r : Round)
    (hR : g.localInput.len < (r.before ++ r.after).length) : exec M g r.ops = none := by
  have hn : min (g.localInput.pushBack r.buttons).len (⟨g.remoteInput.items ++ r.before ++ r.after⟩ : RingBuf).len =
      g.localInput.len + 1 := by
    simp only [RingBuf.len, RingBuf.pushBack, hl.remoteInput, List.nil_append, List.length_append,
      List.length_singleton] at hR ⊢
    omega
  rw [Round.ops, exec_append, exec_inputs, Option.some_bind, exec_cons, apply, runFrame,
    applyRemoteInput_eq_none M (by rw [hn]; omega) (by dsimp only; rw [hn, hl.frame]; omega)]
  rfl

/-- After `Init(nil)`, a round that brings the remote bitmap of frame 0 panics: the replay reaches frame 1, past the
game's frame 0 ("frame advanced from 0 to 1"). -/
theorem runFrame_frame_advanced (g : Game S) (r : Round) (hR : 0 < (r.before ++ r.after).length) :
    ∃ g₁, ((init M g none).bind fun g₀ => exec M g₀ r.inputs) = some g₁ ∧ g₁.frame = 0 ∧
      (replay M g₁ (min g₁.localInput.len g₁.remoteInput.len) g₁.frame).map (·.frame) = some 1 ∧
      runFrame M g₁ = none := by
  obtain ⟨x, xs, hx⟩ := List.exists_cons_of_length_pos hR
  refine ⟨_, by rw [show init M g none = some _ from rfl, Option.some_bind, exec_inputs], rfl,
    (fun hrep => ⟨hrep, ?_⟩) (by simp [replay, rollback, save, replayConfirmedStep, playFrame, RingBuf.at,
      RingBuf.len, RingBuf.pushBack, RingBuf.new, hx, M.loadState_saveState, show List.range 1 = [0] from rfl])⟩
  obtain ⟨g₂, h₂, hf₂⟩ := Option.map_eq_some'.mp hrep
  rw [runFrame, applyRemoteInput_eq_none_of_replay M (by simp [RingBuf.len, RingBuf.pushBack, RingBuf.new, hx]) h₂
    (by rw [hf₂]; show (1 : UInt32) ≠ 0; decide)]
  rfl

theorem runFrame_frame_advanced_tape :
    0 < ([5] ++ []).length ∧
      ∃ g₁, ((init Console.tape (newGame [] .joy1) none).bind fun g₀ =>
          exec Console.tape g₀ (Round.inputs ⟨[5], 1, []⟩)) = some g₁ ∧ g₁.frame = 0 ∧
        (replay Console.tape g₁ (min g₁.localInput.len g₁.remoteInput.len) g₁.frame).map (·.frame) = some 1 ∧
        runFrame Console.tape g₁ = none :=
  ⟨by decide, runFrame_frame_advanced Console.tape (newGame [] .joy1) ⟨[5], 1, []⟩ (by decide)⟩

/-! ### A reconciliation that confirms the speculation -/

private theorem bus_of_reconciled {g g₁ g₂ : Game S} {b x : UInt8} (hl : Live M g)
    (hr : Reconciled M g₁ g₂ (min g₁.localInput.len g₁.remoteInput.len))
    (hf : g₁.frame = g.frame) (hcp : g₁.cp = g.cp) (hbus : g₁.bus = g.bus) (hjoy : g₁.localJoy = g.localJoy)
    (hloc : g₁.localInput.items = g.localInput.items ++ [b])
    (hspec : g₁.speculatedInput.items = g.speculatedInput.items ++ [x])
    (hsame : ∀ i < min g₁.localInput.len g₁.remoteInput.len,
      g₁.remoteInput.items.getD i 0 = g₁.speculatedInput.items.getD i 0) :
    g₂.bus = g₁.bus := by
  obtain ⟨hframe, -, hspec₀, s, hcps, hlbus⟩ := hl
  have hL₁ : g₁.localInput.len = g.localInput.len + 1 := by simp [RingBuf.len, hloc]
  have hRL : g₁.remoteInput.len ≤ g.localInput.len := by
    have := hr.frame_le
    rw [hcp, hf, hframe] at this
    omega
  rw [Nat.min_eq_right (by omega)] at hr hsame
  have hpos := hr.pos
  have hlr : ∀ i < g₁.remoteInput.len, g₁.remoteInput.items.getD i 0 = g.lastRemoteInput := fun i hi => by
    rw [hsame i hi, hspec, hspec₀, List.getD_append _ _ _ _ (by simp; omega), List.getD_eq_getElem?_getD,
      List.getElem?_replicate_of_lt (by omega)]
    rfl
  obtain ⟨sc, hsc, -, hbus₂⟩ := hr.checkpoint
  rw [hcp, hcps, M.loadState_saveState, Option.some.injEq] at hsc
  subst hsc
  have hconf : g₁.confirmedFrames (List.range g₁.remoteInput.len) =
      (List.range' 0 g₁.remoteInput.len).map fun i => (g₁.localInput.items.getD i 0, g.lastRemoteInput) := by
    rw [← List.range_eq_range']
    exact List.map_congr_left fun i hi => by rw [hlr i (List.mem_range.mp hi)]
  have hk : g₁.localInput.len - g₁.remoteInput.len = g.localInput.len - g₁.remoteInput.len + 1 := by omega
  have hfr : g₁.frame.toNat - (g₁.cp.frame.toNat + g₁.remoteInput.len) =
      g.localInput.len - g₁.remoteInput.len := by
    rw [hf, hcp, hframe]; omega
  have hall := map_range'_getD g₁.localInput.items (fun x => (x, g.lastRemoteInput))
    (show 0 + g.localInput.len ≤ g₁.localInput.items.length by simp [hloc, RingBuf.len])
  rw [List.drop_zero, hloc, List.take_left' (show g.localInput.items.length = g.localInput.len from rfl), ← hloc]
    at hall
  dsimp only at hall
  have hsplit : List.range' 0 g₁.remoteInput.len ++ List.range' g₁.remoteInput.len
      (g.localInput.len - g₁.remoteInput.len) = List.range' 0 g.localInput.len := by
    simpa [Nat.sub_add_cancel hRL] using
      List.range'_append_1 0 g₁.remoteInput.len (g.localInput.len - g₁.remoteInput.len)
  rw [hbus₂, hfr, hk, hlr _ (by omega), take_map_range'_succ, hconf, ← M.lockstep_append, ← List.map_append,
    hsplit, hall, hbus, hlbus, hjoy]

/-- A reconciliation in which every confirmed remote bitmap is the one the live game played its frame with leaves
the bus where the live game had it. -/
theorem Live.applyRemoteInput_bus {g g₁ g₂ : Game S} (hl : Live M g) (r : Round)
    (h₁ : exec M g r.inputs = some g₁)
    (hsame : ∀ i < min g₁.localInput.len g₁.remoteInput.len,
      g₁.remoteInput.items.getD i 0 = g₁.speculatedInput.items.getD i 0)
    (h₂ : applyRemoteInput M g₁ = some g₂) : g₂.bus = g₁.bus := by
  rw [exec_inputs] at h₁
  cases h₁
  rcases applyRemoteInput_eq_some M h₂ with ⟨-, rfl⟩ | hr
  · rfl
  · exact bus_of_reconciled M hl hr rfl rfl rfl rfl rfl rfl hsame

/-! ### The live game and the replay -/

/-- Live state agrees with the replay: every run of rounds from `Init` keeps the game `Live`, and a reconciliation
that confirms the speculation leaves the bus where it was. -/
theorem live_agrees_with_replay :
    (∀ (g₀ g : Game S) (s₀ : S) (f₀ : UInt32) (rs : List Round), Started M g₀ s₀ f₀ →
      exec M g₀ (roundsOps rs) = some g → Live M g) ∧
    (∀ (g₀ g₁ g₂ : Game S) (s₀ : S) (f₀ : UInt32) (rs : List Round) (r : Round), Started M g₀ s₀ f₀ →
      exec M g₀ (roundsOps rs ++ r.inputs) = some g₁ →
      (∀ i < min g₁.localInput.len g₁.remoteInput.len,
        g₁.remoteInput.items.getD i 0 = g₁.speculatedInput.items.getD i 0) →
      applyRemoteInput M g₁ = some g₂ → g₂.bus = g₁.bus) := by
  refine ⟨fun _ _ _ _ _ h₀ h => Live.rounds M (Started.live M h₀) h, fun _ _ _ _ _ _ r h₀ h hsame h₂ => ?_⟩
  rw [exec_append] at h
  obtain ⟨g, hg, h₁⟩ := Option.bind_eq_some.mp h
  exact Live.applyRemoteInput_bus M (Live.rounds M (Started.live M h₀) hg) r h₁ hsame h₂

theorem live_agrees_with_replay_tape :
    ∃ g₀ g g₁ g₂, init Console.tape (newGame [] .joy1) none = some g₀ ∧
      exec Console.tape g₀ (roundsOps [⟨[], 1, []⟩, ⟨[], 2, [7]⟩]) = some g ∧ Live Console.tape g ∧
      exec Console.tape g₀ (roundsOps [⟨[], 1, []⟩] ++ Round.inputs ⟨[], 2, [0]⟩) = some g₁ ∧
      applyRemoteInput Console.tape g₁ = some g₂ ∧ g₂.bus = g₁.bus :=
  ⟨_, _, _, _, rfl, rfl,
    (live_agrees_with_replay Console.tape).1 _ _ _ _ [⟨[], 1, []⟩, ⟨[], 2, [7]⟩]
      (@Started.host _ _ (newGame [] .joy1) _ rfl) rfl, rfl, rfl,
    (live_agrees_with_replay Console.tape).2 _ _ _ _ _ [⟨[], 1, []⟩] ⟨[], 2, [0]⟩
      (@Started.host _ _ (newGame [] .joy1) _ rfl) rfl (by decide) rfl⟩

end Game

end Dendy
