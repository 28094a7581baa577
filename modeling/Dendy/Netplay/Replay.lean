import Dendy.Netplay.Game
import Mathlib.Data.List.GetD

/-!
# Replays

Lockstep play, the reference the rollback game is measured against: frame after frame, the local player's buttons
on `LocalJoy` and the remote player's on `RemoteJoy`. Then what each loop of `applyRemoteInput` does, as one lemma
per loop: the replay of confirmed inputs is lockstep play of the buffered pairs, the rebuild overwrites the tail of
the speculated input with the last confirmed remote input, and the replay of local-only frames plays until the game
is back at the frame it started from. Each lemma also says which fields of the game the loop leaves alone.
-/

namespace Dendy

namespace Console

variable {S : Type} (M : Console S)

/-- One frame with the local player's buttons on port `p` and the remote player's on the other port. -/
def play (p : Port) (s : S) (l r : UInt8) : S :=
  match p with
  | .joy1 => M.step s l r
  | .joy2 => M.step s r l

/-- Lockstep play of a list of (local, remote) button pairs. -/
def lockstep (p : Port) (s : S) (frames : List (UInt8 × UInt8)) : S :=
  frames.foldl (fun s f => M.play p s f.1 f.2) s

@[simp] theorem lockstep_nil (p : Port) (s : S) : M.lockstep p s [] = s := rfl

@[simp] theorem lockstep_cons (p : Port) (s : S) (f : UInt8 × UInt8) (fs : List (UInt8 × UInt8)) :
    M.lockstep p s (f :: fs) = M.lockstep p (M.play p s f.1 f.2) fs := rfl

theorem lockstep_append (p : Port) (s : S) (fs gs : List (UInt8 × UInt8)) :
    M.lockstep p s (fs ++ gs) = M.lockstep p (M.lockstep p s fs) gs :=
  List.foldl_append _ _ _ _

/-- Swapping the joystick roles and the two players' buttons plays the same frame. -/
theorem play_other (p : Port) (s : S) (l r : UInt8) : M.play p.other s r l = M.play p s l r := by
  cases p <;> rfl

theorem lockstep_other (p : Port) (s : S) (fs : List (UInt8 × UInt8)) :
    M.lockstep p.other s (fs.map Prod.swap) = M.lockstep p s fs := by
  induction fs generalizing s with
  | nil => rfl
  | cons f fs ih => exact (congrArg (M.lockstep p.other · _) (M.play_other p s f.1 f.2)).trans (ih _)

end Console

namespace Game

variable {S : Type} (M : Console S)

/-- Both joysticks set: the local player's buttons on `LocalJoy`, the remote player's on `RemoteJoy`. -/
def setJoys (g : Game S) (l r : UInt8) : Game S := (g.setButtons g.localJoy l).setButtons g.remoteJoy r

/-- The buttons on joystick 1 and joystick 2 when the local player's are on port `p`. -/
def joysFor (p : Port) (l r : UInt8) : UInt8 × UInt8 :=
  match p with
  | .joy1 => (l, r)
  | .joy2 => (r, l)

theorem step_joysFor (p : Port) (s : S) (l r : UInt8) :
    M.step s (joysFor p l r).1 (joysFor p l r).2 = M.play p s l r := by
  cases p <;> rfl

theorem setJoys_eq (g : Game S) (l r : UInt8) :
    g.setJoys l r = { g with joy1 := (joysFor g.localJoy l r).1, joy2 := (joysFor g.localJoy l r).2 } := by
  cases g with | mk _ _ _ _ _ _ _ _ _ _ p => cases p <;> rfl

@[simp] theorem setJoys_frame (g : Game S) (l r : UInt8) : (g.setJoys l r).frame = g.frame := by
  rw [setJoys_eq]

@[simp] theorem setButtons_localJoy (g : Game S) (p : Port) (b : UInt8) :
    (g.setButtons p b).localJoy = g.localJoy := by cases p <;> rfl
@[simp] theorem setButtons_remoteJoy (g : Game S) (p : Port) (b : UInt8) :
    (g.setButtons p b).remoteJoy = g.remoteJoy := by cases p <;> rfl
@[simp] theorem setButtons_localInput (g : Game S) (p : Port) (b : UInt8) :
    (g.setButtons p b).localInput = g.localInput := by cases p <;> rfl
@[simp] theorem setButtons_remoteInput (g : Game S) (p : Port) (b : UInt8) :
    (g.setButtons p b).remoteInput = g.remoteInput := by cases p <;> rfl
@[simp] theorem setButtons_speculatedInput (g : Game S) (p : Port) (b : UInt8) :
    (g.setButtons p b).speculatedInput = g.speculatedInput := by cases p <;> rfl
@[simp] theorem setButtons_frame (g : Game S) (p : Port) (b : UInt8) :
    (g.setButtons p b).frame = g.frame := by cases p <;> rfl
@[simp] theorem setButtons_cp (g : Game S) (p : Port) (b : UInt8) :
    (g.setButtons p b).cp = g.cp := by cases p <;> rfl
@[simp] theorem setButtons_bus (g : Game S) (p : Port) (b : UInt8) :
    (g.setButtons p b).bus = g.bus := by cases p <;> rfl
@[simp] theorem setButtons_lastRemoteInput (g : Game S) (p : Port) (b : UInt8) :
    (g.setButtons p b).lastRemoteInput = g.lastRemoteInput := by cases p <;> rfl

theorem handleLocalInput_eq (g : Game S) (b : UInt8) :
    g.handleLocalInput b =
      { g with joy1 := (joysFor g.localJoy b g.lastRemoteInput).1, joy2 := (joysFor g.localJoy b g.lastRemoteInput).2,
               localInput := g.localInput.pushBack b,
               speculatedInput := g.speculatedInput.pushBack g.lastRemoteInput } := by
  cases g with | mk _ _ _ _ _ _ _ _ _ _ p => cases p <;> rfl

@[simp] theorem handleLocalInput_cp (g : Game S) (b : UInt8) : (g.handleLocalInput b).cp = g.cp := by
  simp [handleLocalInput]
@[simp] theorem handleLocalInput_frame (g : Game S) (b : UInt8) : (g.handleLocalInput b).frame = g.frame := by
  simp [handleLocalInput]
@[simp] theorem handleLocalInput_bus (g : Game S) (b : UInt8) : (g.handleLocalInput b).bus = g.bus := by
  simp [handleLocalInput]
@[simp] theorem handleLocalInput_localJoy (g : Game S) (b : UInt8) :
    (g.handleLocalInput b).localJoy = g.localJoy := by simp [handleLocalInput]
@[simp] theorem handleLocalInput_localInput (g : Game S) (b : UInt8) :
    (g.handleLocalInput b).localInput = g.localInput.pushBack b := by simp [handleLocalInput]
@[simp] theorem handleLocalInput_remoteInput (g : Game S) (b : UInt8) :
    (g.handleLocalInput b).remoteInput = g.remoteInput := by simp [handleLocalInput]
@[simp] theorem handleLocalInput_speculatedInput (g : Game S) (b : UInt8) :
    (g.handleLocalInput b).speculatedInput = g.speculatedInput.pushBack g.lastRemoteInput := by
  simp [handleLocalInput]
@[simp] theorem handleLocalInput_lastRemoteInput (g : Game S) (b : UInt8) :
    (g.handleLocalInput b).lastRemoteInput = g.lastRemoteInput := by simp [handleLocalInput]

/-- Setting the remote joystick first gives the same joysticks. -/
theorem setButtons_remote_local (g : Game S) (l r : UInt8) :
    (g.setButtons g.remoteJoy r).setButtons g.localJoy l = g.setJoys l r := by
  cases g with | mk _ _ _ _ _ _ _ _ _ _ p => cases p <;> rfl

theorem playFrame_eq_some {g g' : Game S} :
    playFrame M g = some g' ↔
      g.frame + 1 ≠ 0 ∧ g' = { g with bus := M.step g.bus g.joy1 g.joy2, frame := g.frame + 1 } := by
  simp only [playFrame]
  split <;> simp_all [eq_comm]

/-- A frame played with the joysticks holding `(l, r)` is one frame of lockstep play. -/
theorem playFrame_of_joys {g g' : Game S} {l r : UInt8} (hj : (g.joy1, g.joy2) = joysFor g.localJoy l r)
    (h : playFrame M g = some g') :
    g' = { g with bus := M.play g.localJoy g.bus l r, frame := g'.frame } ∧ g'.frame.toNat = g.frame.toNat + 1 := by
  rw [playFrame_eq_some] at h
  obtain ⟨hne, rfl⟩ := h
  refine ⟨?_, UInt32.toNat_add_one_of_ne hne⟩
  rw [← step_joysFor, ← hj]

/-- A frame played after setting both joysticks is one frame of lockstep play. -/
theorem playFrame_setJoys {g g' : Game S} {l r : UInt8} (h : playFrame M (g.setJoys l r) = some g') :
    ∃ f, g' = { g with bus := M.play g.localJoy g.bus l r, frame := f, joy1 := (joysFor g.localJoy l r).1,
                       joy2 := (joysFor g.localJoy l r).2 } ∧ f.toNat = g.frame.toNat + 1 := by
  rw [setJoys_eq] at h
  obtain ⟨hg, hf⟩ := playFrame_of_joys M rfl h
  exact ⟨_, hg, hf⟩

/-- A frame after setting both joysticks is played whenever the counter does not wrap. -/
theorem playFrame_setJoys_of_ne {g : Game S} {l r : UInt8} (h : g.frame + 1 ≠ 0) :
    playFrame M (g.setJoys l r) =
      some { g with bus := M.play g.localJoy g.bus l r, frame := g.frame + 1, joy1 := (joysFor g.localJoy l r).1,
                    joy2 := (joysFor g.localJoy l r).2 } := by
  rw [setJoys_eq]
  exact (playFrame_eq_some M).mpr ⟨h, by rw [step_joysFor]⟩

/-! ### The replay of confirmed inputs -/

/-- The button pairs a replay over the indices `is` reads from the local and remote buffers. -/
def confirmedFrames (g : Game S) (is : List Nat) : List (UInt8 × UInt8) :=
  is.map fun i => (g.localInput.items.getD i 0, g.remoteInput.items.getD i 0)

/-- Over the first `n` indices, both in range, the pairs are the zip of the two buffers. -/
theorem confirmedFrames_range {g : Game S} {n : Nat} (hl : n ≤ g.localInput.len) (hr : n ≤ g.remoteInput.len) :
    g.confirmedFrames (List.range n) = (g.localInput.items.zip g.remoteInput.items).take n := by
  unfold RingBuf.len at hl hr
  apply List.ext_getElem
  · simp [confirmedFrames]; omega
  · intro i _ h
    simp only [List.length_take, List.length_zip] at h
    simp [confirmedFrames, List.getElem_zip, List.getElem?_eq_getElem (by omega : i < g.localInput.items.length),
      List.getElem?_eq_getElem (by omega : i < g.remoteInput.items.length)]

private theorem getD_of_getElem? {xs : List UInt8} {i : Nat} {x : UInt8} (h : xs[i]? = some x) :
    i < xs.length ∧ xs.getD i 0 = x := by
  obtain ⟨hi, rfl⟩ := List.getElem?_eq_some_iff.mp h
  exact ⟨hi, List.getD_eq_getElem _ _ hi⟩

theorem replayConfirmedStep_eq_some {g g' : Game S} {i : Nat} (h : replayConfirmedStep M g i = some g') :
    i < g.localInput.len ∧ i < g.remoteInput.len ∧
      playFrame M (g.setJoys (g.localInput.items.getD i 0) (g.remoteInput.items.getD i 0)) = some g' := by
  simp only [replayConfirmedStep, Option.bind_eq_bind, Option.bind_eq_some, setButtons_remoteInput,
    setButtons_remoteJoy] at h
  obtain ⟨l, hl, r, hr, h⟩ := h
  obtain ⟨hli, rfl⟩ := getD_of_getElem? hl
  obtain ⟨hri, rfl⟩ := getD_of_getElem? hr
  exact ⟨hli, hri, h⟩

/-- The replay of confirmed inputs plays the buffered pairs in lockstep and touches nothing but the bus, the frame
and the joysticks. -/
theorem foldlM_replayConfirmedStep {is : List Nat} {g g' : Game S}
    (h : is.foldlM (replayConfirmedStep M) g = some g') :
    (∀ i ∈ is, i < g.localInput.len ∧ i < g.remoteInput.len) ∧
      ∃ f j1 j2, g' = { g with bus := M.lockstep g.localJoy g.bus (g.confirmedFrames is), frame := f,
                               joy1 := j1, joy2 := j2 } ∧ f.toNat = g.frame.toNat + is.length := by
  induction is generalizing g with
  | nil => cases h; exact ⟨by simp, _, _, _, rfl, rfl⟩
  | cons i is ih =>
    obtain ⟨g₁, h₁, h₂⟩ := Option.bind_eq_some.mp h
    obtain ⟨hli, hri, hplay⟩ := replayConfirmedStep_eq_some M h₁
    obtain ⟨f₁, rfl, hf₁⟩ := playFrame_setJoys M hplay
    obtain ⟨hin, f, j1, j2, rfl, hf⟩ := ih h₂
    refine ⟨by simpa [hli, hri] using hin, f, j1, j2, rfl, ?_⟩
    simp only [List.length_cons] at hf ⊢
    omega

/-! ### The rebuild of the speculated input -/

theorem rebuildSpeculatedStep_eq_some {n i : Nat} {g g' : Game S} (h : rebuildSpeculatedStep n g i = some g') :
    n - 1 < g.remoteInput.len ∧ i < g.speculatedInput.len ∧
      g' = { g with speculatedInput :=
        ⟨g.speculatedInput.items.set i (g.remoteInput.items.getD (n - 1) 0)⟩ } := by
  simp only [rebuildSpeculatedStep, Option.bind_eq_bind, Option.bind_eq_some, RingBuf.set] at h
  obtain ⟨r, hr, spec, hs, hg⟩ := h
  obtain ⟨hri, rfl⟩ := getD_of_getElem? hr
  split at hs
  · cases hs; cases hg; exact ⟨hri, ‹_›, rfl⟩
  · cases hs

/-- The rebuild writes the last confirmed remote input at every index it visits, and nothing else. -/
theorem foldlM_rebuildSpeculatedStep {n : Nat} {is : List Nat} {g g' : Game S}
    (h : is.foldlM (rebuildSpeculatedStep n) g = some g') :
    (∀ i ∈ is, i < g.speculatedInput.len) ∧
      g' = { g with speculatedInput :=
        ⟨is.foldl (fun xs i => xs.set i (g.remoteInput.items.getD (n - 1) 0)) g.speculatedInput.items⟩ } := by
  induction is generalizing g with
  | nil => cases h; exact ⟨by simp, rfl⟩
  | cons i is ih =>
    obtain ⟨g₁, h₁, h₂⟩ := Option.bind_eq_some.mp h
    obtain ⟨-, hi, rfl⟩ := rebuildSpeculatedStep_eq_some h₁
    obtain ⟨hin, rfl⟩ := ih h₂
    refine ⟨List.forall_mem_cons.mpr ⟨hi, ?_⟩, rfl⟩
    simpa [RingBuf.len] using hin

private theorem foldl_set_range'_append (r : UInt8) (zs ys ws : List UInt8) :
    (List.range' ys.length zs.length).foldl (fun xs i => xs.set i r) (ys ++ zs ++ ws) =
      ys ++ List.replicate zs.length r ++ ws := by
  induction zs generalizing ys with
  | nil => simp
  | cons z zs ih =>
    rw [List.length_cons, List.range'_succ, List.foldl_cons, List.append_assoc,
      List.set_append_right _ _ (Nat.le_refl _), Nat.sub_self, List.cons_append, List.set_cons_zero,
      List.replicate_succ]
    have := ih (ys ++ [r])
    simp only [List.length_append, List.length_singleton, List.append_assoc, List.singleton_append,
      List.cons_append, List.nil_append] at this ⊢
    exact this

/-- Overwriting the indices `a, …, a + k - 1`. -/
theorem foldl_set_range' (r : UInt8) (xs : List UInt8) {a k : Nat} (h : a + k ≤ xs.length) :
    (List.range' a k).foldl (fun xs i => xs.set i r) xs = xs.take a ++ List.replicate k r ++ xs.drop (a + k) := by
  have e := foldl_set_range'_append r ((xs.drop a).take k) (xs.take a) ((xs.drop a).drop k)
  rwa [List.append_assoc, List.take_append_drop, List.take_append_drop, List.length_take_of_le (by omega),
    List.length_take_of_le (by simp; omega), List.drop_drop] at e

/-! ### The replay of local-only frames -/

/-- The button pairs the replay of local-only frames reads: local input and speculated remote input. -/
def speculatedFrames (g : Game S) (is : List Nat) : List (UInt8 × UInt8) :=
  is.map fun i => (g.localInput.items.getD i 0, g.speculatedInput.items.getD i 0)

theorem replaySpeculatedStep_eq_some {e : UInt32} {g g' : Game S} {i : Nat}
    (h : replaySpeculatedStep M e g i = some g') :
    i < g.speculatedInput.len ∧ i < g.localInput.len ∧
      (if g.frame < e then playFrame M (g.setJoys (g.localInput.items.getD i 0) (g.speculatedInput.items.getD i 0))
        else some (g.setJoys (g.localInput.items.getD i 0) (g.speculatedInput.items.getD i 0))) = some g' := by
  simp only [replaySpeculatedStep, Option.bind_eq_bind, Option.bind_eq_some, setButtons_localInput,
    setButtons_localJoy, setButtons_frame] at h
  obtain ⟨r, hr, l, hl, h⟩ := h
  obtain ⟨hri, rfl⟩ := getD_of_getElem? hr
  obtain ⟨hli, rfl⟩ := getD_of_getElem? hl
  rw [setButtons_remote_local] at h
  exact ⟨hri, hli, h⟩

/-- The replay of local-only frames plays the buffered pairs while the game is behind `e`, and touches nothing but
the bus, the frame and the joysticks. -/
theorem foldlM_replaySpeculatedStep {e : UInt32} {is : List Nat} {g g' : Game S}
    (h : is.foldlM (replaySpeculatedStep M e) g = some g') :
    (∀ i ∈ is, i < g.speculatedInput.len ∧ i < g.localInput.len) ∧
      ∃ f j1 j2, g' = { g with bus := M.lockstep g.localJoy g.bus
                                  ((g.speculatedFrames is).take (e.toNat - g.frame.toNat)),
                               frame := f, joy1 := j1, joy2 := j2 } ∧
        f.toNat = g.frame.toNat + min is.length (e.toNat - g.frame.toNat) := by
  induction is generalizing g with
  | nil => cases h; exact ⟨by simp, g'.frame, g'.joy1, g'.joy2, by simp [speculatedFrames], by simp⟩
  | cons i is ih =>
    obtain ⟨g₁, h₁, h₂⟩ := Option.bind_eq_some.mp h
    obtain ⟨hsi, hli, hstep⟩ := replaySpeculatedStep_eq_some M h₁
    have hin : ∀ {g₁ : Game S}, g₁.localInput = g.localInput → g₁.speculatedInput = g.speculatedInput →
        (∀ i ∈ is, i < g₁.speculatedInput.len ∧ i < g₁.localInput.len) →
        ∀ j ∈ i :: is, j < g.speculatedInput.len ∧ j < g.localInput.len := by
      intro g₁ e₁ e₂ hin
      simpa [hsi, hli, e₁, e₂] using hin
    split at hstep
    · rename_i hlt
      rw [UInt32.lt_iff_toNat_lt] at hlt
      obtain ⟨f₁, rfl, hf₁⟩ := playFrame_setJoys M hstep
      obtain ⟨hin', f, j1, j2, rfl, hf⟩ := ih h₂
      refine ⟨hin rfl rfl hin', f, j1, j2, ?_, ?_⟩
      · have hk : e.toNat - g.frame.toNat = (e.toNat - f₁.toNat) + 1 := by omega
        rw [hk]
        rfl
      · simp only [List.length_cons] at hf ⊢
        omega
    · rename_i hge
      rw [UInt32.lt_iff_toNat_lt] at hge
      cases hstep
      rw [setJoys_eq] at h₂
      obtain ⟨hin', f, j1, j2, rfl, hf⟩ := ih h₂
      have hk : e.toNat - g.frame.toNat = 0 := by omega
      refine ⟨hin rfl rfl hin', f, j1, j2, ?_, ?_⟩
      · simp only [hk, List.take_zero, Console.lockstep_nil]
      · simp only [hk] at hf ⊢
        simpa using hf

end Game

end Dendy
